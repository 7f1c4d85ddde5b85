/-
This file walks a finite graph depth first.
-/

namespace ShaderAnalysis

theorem dropWhileHead {remaining waiting rest : List Nat} {node : Nat}
    (found : waiting.dropWhile (!remaining.contains ·) = node :: rest) : node ∈ remaining := by
  induction waiting with
  | nil => simp at found
  | cons first others inductionHypothesis =>
      rw [List.dropWhile_cons] at found
      split at found
      · exact inductionHypothesis found
      · rename_i kept
        cases found
        simpa using kept

/-- The walk visits the first waiting node that remains and puts the nodes next to it in front of
those that wait. Each visit takes a node away from those that remain. -/
def walk (next : Nat → List Nat) (remaining waiting : List Nat) : List Nat :=
  match _found : waiting.dropWhile (!remaining.contains ·) with
  | [] => []
  | node :: rest => node :: walk next (remaining.erase node) (next node ++ rest)
termination_by remaining.length
decreasing_by
  have member := dropWhileHead _found
  have erased := List.length_erase_of_mem member
  have positive := List.length_pos_of_mem member
  omega

/-- The sources of the edges into a target, in ascending order. -/
def sourcesOf (successors : List (List Nat)) (target : Nat) : List Nat :=
  (successors.zipIdx.filter (·.1.contains target)).map (·.2)

theorem sourcesOfMember (successors : List (List Nat)) (target source : Nat) :
    source ∈ sourcesOf successors target ↔
      ∃ targets, successors[source]? = some targets ∧ target ∈ targets := by
  simp only [sourcesOf, List.mem_map, List.mem_filter, List.mem_zipIdx_iff_getElem?,
    List.contains_iff_mem, Prod.exists]
  constructor
  · rintro ⟨targets, _, ⟨found, member⟩, rfl⟩
    exact ⟨targets, found, member⟩
  · intro ⟨targets, found, member⟩
    exact ⟨targets, source, ⟨found, member⟩, rfl⟩

theorem sourcesOfNodup (successors : List (List Nat)) (target : Nat) :
    (sourcesOf successors target).Nodup := by
  have ascending : (successors.zipIdx.map (·.2)).Nodup := by
    rw [List.zipIdx_map_snd]
    exact List.nodup_range'
  exact (List.filter_sublist.map _).nodup ascending

end ShaderAnalysis
