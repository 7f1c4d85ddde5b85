/-
This file joins finite ordered sets and notes whether they grow.
-/

import Std.Data.ExtTreeSet

namespace ShaderAnalysis

open Std

variable {α : Type} [Ord α] [TransOrd α]

/-- A join adds the members of the other set and notes whether the set grew. -/
def join (set other : ExtTreeSet α) : ExtTreeSet α × Bool :=
  let joined := set ∪ other
  (joined, joined.size != set.size)

/-- Joining several sets notes whether any of the joins grew the set. -/
def joinMany (set : ExtTreeSet α) : List (ExtTreeSet α) → ExtTreeSet α × Bool
  | [] => (set, false)
  | other :: others =>
      let first := join set other
      let rest := joinMany first.1 others
      (rest.1, first.2 || rest.2)

theorem joinMember (set other : ExtTreeSet α) (member : α) :
    member ∈ (join set other).1 ↔ member ∈ set ∨ member ∈ other := by
  simp [join]

theorem joinManyMember (set : ExtTreeSet α) (others : List (ExtTreeSet α)) (member : α) :
    member ∈ (joinMany set others).1 ↔ member ∈ set ∨ ∃ other ∈ others, member ∈ other := by
  induction others generalizing set with
  | nil => simp [joinMany]
  | cons other others inductionHypothesis =>
      simp [joinMany, inductionHypothesis, joinMember, or_assoc]

/-- The size never shrinks, and it grows exactly when the join says so. -/
theorem joinSize (set other : ExtTreeSet α) :
    set.size ≤ (join set other).1.size ∧
      ((join set other).2 = true ↔ set.size < (join set other).1.size) := by
  have grown : set.size ≤ (set ∪ other).size := ExtTreeSet.size_left_le_size_union
  simp only [join, bne_iff_ne, ne_eq]
  omega

theorem joinManySize (set : ExtTreeSet α) (others : List (ExtTreeSet α)) :
    set.size ≤ (joinMany set others).1.size ∧
      ((joinMany set others).2 = true ↔ set.size < (joinMany set others).1.size) := by
  induction others generalizing set with
  | nil => simp [joinMany]
  | cons other others inductionHypothesis =>
      have first := joinSize set other
      have rest := inductionHypothesis (join set other).1
      simp only [joinMany, Bool.or_eq_true, first.2, rest.2]
      omega

variable [LawfulEqOrd α]

theorem joinSame {set other : ExtTreeSet α} (contained : ∀ member ∈ other, member ∈ set) :
    (join set other).1 = set := by
  apply ExtTreeSet.ext_mem
  intro candidate
  rw [joinMember]
  exact ⟨fun either => either.elim id (contained candidate), .inl⟩

theorem joinManySame {set : ExtTreeSet α} {others : List (ExtTreeSet α)}
    (contained : ∀ other ∈ others, ∀ member ∈ other, member ∈ set) :
    (joinMany set others).1 = set := by
  apply ExtTreeSet.ext_mem
  intro candidate
  rw [joinManyMember]
  exact ⟨fun either => either.elim id fun ⟨other, among, inside⟩ =>
    contained other among candidate inside, .inl⟩

/-- A join leaves the set as it was exactly if the other set adds nothing. -/
theorem joinStill (set other : ExtTreeSet α) :
    (join set other).2 = false ↔ ∀ member ∈ other, member ∈ set := by
  constructor
  · intro still member added
    refine Classical.byContradiction fun fresh => ?_
    have grown := (joinSize (set.insert member) other).1
    have same : (join (set.insert member) other).1 = (join set other).1 := by
      apply ExtTreeSet.ext_mem
      intro candidate
      simp only [joinMember, ExtTreeSet.mem_insert, LawfulEqOrd.compare_eq_iff_eq]
      constructor
      · rintro ((rfl | old) | new)
        · exact .inr added
        · exact .inl old
        · exact .inr new
      · rintro (old | new)
        · exact .inl (.inr old)
        · exact .inr new
    have unchanged := (joinSize set other).2
    rw [same, ExtTreeSet.size_insert, if_neg (by simpa using fresh)] at grown
    rw [still] at unchanged
    have : ¬ set.size < (join set other).1.size := fun larger => nomatch unchanged.mpr larger
    omega
  · intro contained
    have unchanged := (joinSize set other).2
    rw [joinSame contained] at unchanged
    exact Bool.eq_false_iff.mpr fun grown => absurd (unchanged.mp grown) (Nat.lt_irrefl _)

theorem joinManyStill (set : ExtTreeSet α) (others : List (ExtTreeSet α)) :
    (joinMany set others).2 = false ↔ ∀ other ∈ others, ∀ member ∈ other, member ∈ set := by
  induction others generalizing set with
  | nil => simp [joinMany]
  | cons other others inductionHypothesis =>
      simp only [joinMany, Bool.or_eq_false_iff, joinStill, inductionHypothesis, joinMember,
        List.mem_cons, forall_eq_or_imp]
      constructor
      · intro ⟨first, rest⟩
        exact ⟨first, fun later among member inside =>
          (rest later among member inside).elim id (first member)⟩
      · intro ⟨first, rest⟩
        exact ⟨first, fun later among member inside => .inl (rest later among member inside)⟩

end ShaderAnalysis
