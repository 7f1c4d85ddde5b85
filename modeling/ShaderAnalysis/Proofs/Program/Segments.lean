/-
This file shows that control runs straight through each segment of a stream.
-/

import ShaderAnalysis.Program.Build

namespace ShaderAnalysis

namespace Program

/-- Control enters a straight segment at its first instruction and leaves it at its last one. -/
structure Segment.Straight (segment : Segment) : Prop where
  nonempty : segment.instructions ≠ []
  unlabelled : ∀ instruction ∈ segment.instructions.tail, instruction.label = none
  straight : ∀ instruction ∈ segment.instructions.dropLast, instruction.transfers = false

/-- The rest of a running segment ends where control is transferred or a label stands. -/
structure Running (transferred : Bool) (rest : List Instruction) : Prop where
  stopped : transferred = true → rest = []
  unlabelled : ∀ instruction ∈ rest, instruction.label = none
  straight : ∀ instruction ∈ rest.dropLast, instruction.transfers = false

theorem Running.straightCons {instruction : Instruction} {rest : List Instruction}
    (running : Running instruction.transfers rest) :
    ∀ other ∈ (instruction :: rest).dropLast, other.transfers = false := by
  intro other member
  cases rest with
  | nil => cases member
  | cons second others =>
      have goesOn : instruction.transfers = false := by
        apply Bool.eq_false_iff.mpr
        intro transfers
        cases running.stopped transfers
      rcases List.mem_cons.mp member with rfl | later
      · exact goesOn
      · exact running.straight other later

theorem cutRunning (order : Nat) (transferred : Bool) (stream : List Instruction) :
    Running transferred (cut order transferred stream).1 := by
  induction stream generalizing order transferred with
  | nil => exact ⟨fun _ => rfl, by simp [cut], by simp [cut]⟩
  | cons instruction stream inductionHypothesis =>
      rw [cut]
      split
      · exact ⟨fun _ => rfl, by simp, by simp⟩
      · rename_i goesOn
        obtain ⟨notTransferred, noLabel⟩ : transferred = false ∧ instruction.label = none := by
          simpa using goesOn
        have rest := inductionHypothesis order instruction.transfers
        refine ⟨fun transfers => ?_, fun other member => ?_, rest.straightCons⟩
        · rw [notTransferred] at transfers
          cases transfers
        · rcases List.mem_cons.mp member with rfl | later
          · exact noLabel
          · exact rest.unlabelled other later

theorem cutStraight (order : Nat) (transferred : Bool) (stream : List Instruction) :
    ∀ segment ∈ (cut order transferred stream).2, segment.Straight := by
  induction stream generalizing order transferred with
  | nil => simp [cut]
  | cons instruction stream inductionHypothesis =>
      rw [cut]
      split
      · intro segment member
        rcases List.mem_cons.mp member with rfl | later
        · have rest := cutRunning (order + 1) instruction.transfers stream
          exact ⟨List.cons_ne_nil _ _, rest.unlabelled, rest.straightCons⟩
        · exact inductionHypothesis _ _ segment later
      · exact inductionHypothesis _ _

/-- The running segment under its label, and the segments after it. -/
def pieces (order : Nat) (transferred : Bool) (label : String) (stream : List Instruction) :
    List Segment :=
  ⟨label, (cut order transferred stream).1⟩ :: (cut order transferred stream).2

/-- The instruction goes in front of the running segment. -/
def prepend (first : Instruction) : List Segment → List Segment
  | [] => []
  | running :: rest => ⟨running.label, first :: running.instructions⟩ :: rest

theorem segmentsPieces (stream : List Instruction) :
    segments stream = pieces 1 true Block.entryLabel stream ++ [⟨Block.exitLabel, []⟩] := by
  rw [segments, pieces, (cutRunning 1 true stream).stopped rfl]

/-- A leader closes the running segment and opens the next one. -/
theorem piecesLeader {order : Nat} {transferred : Bool} {first : Instruction}
    (leads : (transferred || first.label.isSome) = true) (label : String)
    (stream : List Instruction) :
    pieces order transferred label (first :: stream) =
      ⟨label, []⟩ ::
        prepend first (pieces (order + 1) first.transfers (leaderLabel order first) stream) := by
  rw [pieces, cut, if_pos leads, pieces, prepend]

theorem piecesOther {order : Nat} {transferred : Bool} {first : Instruction}
    (follows : ¬ (transferred || first.label.isSome) = true) (label : String)
    (stream : List Instruction) :
    pieces order transferred label (first :: stream) =
      prepend first (pieces order first.transfers label stream) := by
  rw [pieces, cut, if_neg follows, pieces, prepend]

/-- The position of the segment that stands for the exit. -/
def lastSegment (stream : List Instruction) : Nat := (cut 1 true stream).2.length + 1

theorem segmentsLength (stream : List Instruction) :
    (segments stream).length = lastSegment stream + 1 := by
  simp [segments, lastSegment]

theorem segmentsEntry (stream : List Instruction) :
    (segments stream)[0]? = some ⟨Block.entryLabel, []⟩ := rfl

theorem segmentsExit (stream : List Instruction) :
    (segments stream)[lastSegment stream]? = some ⟨Block.exitLabel, []⟩ := by
  simp [segments, lastSegment]

/-- All segments but those for the entry and the exit are straight. -/
theorem segmentsStraight {stream : List Instruction} {order : Nat} {segment : Segment}
    (found : (segments stream)[order]? = some segment) (notEntry : order ≠ 0)
    (notExit : order ≠ lastSegment stream) : segment.Straight := by
  obtain ⟨before, rfl⟩ := Nat.exists_eq_succ_of_ne_zero notEntry
  have inside := (List.getElem?_eq_some_iff.mp found).1
  rw [segmentsLength] at inside
  have within : before < (cut 1 true stream).2.length := by
    unfold lastSegment at inside notExit
    omega
  rw [segments, List.cons_append, List.getElem?_cons_succ,
    List.getElem?_append_left within] at found
  exact cutStraight 1 true stream segment (List.mem_of_getElem? found)

end Program

end ShaderAnalysis
