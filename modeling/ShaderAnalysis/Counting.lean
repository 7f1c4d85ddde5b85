/-
This file says how counts are added up and bounds the largest of them.
-/

namespace ShaderAnalysis

-- A sum of counts starts from the literal zero, also where more is known about numbers.
attribute [scoped instance (high)] Zero.ofOfNat0

theorem foldMaxLe (counts : List Nat) (start bound : Nat) :
    counts.foldl max start ≤ bound ↔ start ≤ bound ∧ ∀ count ∈ counts, count ≤ bound := by
  induction counts generalizing start with
  | nil => simp
  | cons count counts inductionHypothesis =>
      rw [List.foldl_cons, inductionHypothesis, Nat.max_le, List.forall_mem_cons, and_assoc]

end ShaderAnalysis
