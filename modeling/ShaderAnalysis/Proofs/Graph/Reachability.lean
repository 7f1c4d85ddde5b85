/-
This file shows that a walk over a finite graph visits what can be reached, each node once.
-/

import Mathlib.Logic.Relation
import ShaderAnalysis.Graph.Walk

namespace ShaderAnalysis

open Relation

/-- A node reaches every node that a path along the edges leads to. -/
def Reaches (next : Nat → List Nat) : Nat → Nat → Prop :=
  ReflTransGen fun node other => other ∈ next node

/-- A step follows an edge to a node that remains. -/
def RemainingStep (next : Nat → List Nat) (remaining : List Nat) (node other : Nat) : Prop :=
  other ∈ next node ∧ other ∈ remaining

section

variable {next : Nat → List Nat} {remaining waiting : List Nat} {node : Nat}

/-- A node that is gone is skipped when its turn comes. -/
theorem walkSkip (gone : node ∉ remaining) :
    walk next remaining (node :: waiting) = walk next remaining waiting := by
  have same : (node :: waiting).dropWhile (!remaining.contains ·) =
      waiting.dropWhile (!remaining.contains ·) := by
    simp [gone]
  rw [walk, walk, same]

theorem walkVisit (remains : node ∈ remaining) :
    walk next remaining (node :: waiting) =
      node :: walk next (remaining.erase node) (next node ++ waiting) := by
  have first : (node :: waiting).dropWhile (!remaining.contains ·) = node :: waiting := by
    simp [remains]
  rw [walk, first]

theorem walkDone : walk next remaining [] = [] := by
  rw [walk]
  rfl

end

theorem dropWhileMember {remaining waiting : List Nat} {start : Nat} (waits : start ∈ waiting)
    (remains : start ∈ remaining) : start ∈ waiting.dropWhile (!remaining.contains ·) := by
  induction waiting with
  | nil => cases waits
  | cons first others inductionHypothesis =>
      rw [List.dropWhile_cons]
      split
      · rename_i skipped
        rcases List.mem_cons.mp waits with rfl | later
        · simp [remains] at skipped
        · exact inductionHypothesis later
      · exact waits

/-- What is reached after a visit was reached before it, from the visited node or without it. -/
theorem reachedBeforeVisit {next : Nat → List Nat} {remaining waiting rest : List Nat}
    {visited start node : Nat} (remains : visited ∈ remaining) (waits : visited ∈ waiting)
    (kept : ∀ other ∈ rest, other ∈ waiting) (starts : start ∈ next visited ++ rest)
    (startRemains : start ∈ remaining.erase visited)
    (path : ReflTransGen (RemainingStep next (remaining.erase visited)) start node) :
    ∃ origin ∈ waiting, origin ∈ remaining ∧
      ReflTransGen (RemainingStep next remaining) origin node := by
  have longer : ReflTransGen (RemainingStep next remaining) start node :=
    ReflTransGen.mono (fun _ _ step => ⟨step.1, List.mem_of_mem_erase step.2⟩) _ _ path
  have startBefore : start ∈ remaining := List.mem_of_mem_erase startRemains
  rcases List.mem_append.mp starts with beside | older
  · exact ⟨visited, waits, remains, longer.head ⟨beside, startBefore⟩⟩
  · exact ⟨start, kept start older, startBefore, longer⟩

/-- A path to another node either avoids the visited node or goes on from it without coming back. -/
theorem reachedAfterVisit {next : Nat → List Nat} {remaining rest : List Nat}
    {visited origin node : Nat} (originWaits : origin = visited ∨ origin ∈ rest)
    (originRemains : origin ∈ remaining) (different : node ≠ visited)
    (path : ReflTransGen (RemainingStep next remaining) origin node) :
    ∃ start ∈ next visited ++ rest, start ∈ remaining.erase visited ∧
      ReflTransGen (RemainingStep next (remaining.erase visited)) start node := by
  -- The induction is on the path from its end, so that the last visit to `visited` is met first.
  induction path with
  | refl =>
      have older := originWaits.resolve_left different
      exact ⟨origin, List.mem_append_right _ older,
        (List.mem_erase_of_ne different).mpr originRemains, .refl⟩
  | @tail middle node _ step inductionHypothesis =>
      have remains : node ∈ remaining.erase visited := (List.mem_erase_of_ne different).mpr step.2
      by_cases same : middle = visited
      · subst same
        exact ⟨node, List.mem_append_left _ step.1, remains, .refl⟩
      · obtain ⟨start, starts, startRemains, shorter⟩ := inductionHypothesis same
        exact ⟨start, starts, startRemains, shorter.tail ⟨step.1, remains⟩⟩

theorem walkMember (next : Nat → List Nat) (remaining waiting : List Nat) (node : Nat) :
    node ∈ walk next remaining waiting ↔ ∃ start ∈ waiting, start ∈ remaining ∧
      ReflTransGen (RemainingStep next remaining) start node := by
  fun_induction walk next remaining waiting with
  | case1 remaining waiting found =>
      constructor
      · intro member
        cases member
      · intro ⟨start, waits, remains, _⟩
        have member := dropWhileMember waits remains
        rw [found] at member
        cases member
  | case2 remaining waiting visited rest found inductionHypothesis =>
      have remains := dropWhileHead found
      have waits : visited ∈ waiting :=
        (List.dropWhile_suffix _).subset (found ▸ List.mem_cons_self)
      have kept : ∀ other ∈ rest, other ∈ waiting := fun other member =>
        (List.dropWhile_suffix _).subset (found ▸ List.mem_cons_of_mem _ member)
      rw [List.mem_cons, inductionHypothesis]
      constructor
      · rintro (rfl | ⟨start, starts, startRemains, path⟩)
        · exact ⟨node, waits, remains, .refl⟩
        · exact reachedBeforeVisit remains waits kept starts startRemains path
      · intro ⟨origin, originWaits, originRemains, path⟩
        by_cases same : node = visited
        · exact .inl same
        · have member := dropWhileMember originWaits originRemains
          rw [found] at member
          exact .inr (reachedAfterVisit (List.mem_cons.mp member) originRemains same path)

/-- A walk visits only nodes that remain. -/
theorem walkRemains {next : Nat → List Nat} {remaining waiting : List Nat} {node : Nat}
    (visited : node ∈ walk next remaining waiting) : node ∈ remaining := by
  obtain ⟨start, _, remains, path⟩ := (walkMember next remaining waiting node).mp visited
  rcases path.cases_tail with rfl | ⟨_, _, step⟩
  · exact remains
  · exact step.2

theorem walkNodup (next : Nat → List Nat) (remaining waiting : List Nat)
    (distinct : remaining.Nodup) : (walk next remaining waiting).Nodup := by
  fun_induction walk next remaining waiting with
  | case1 => exact .nil
  | case2 remaining waiting visited rest found inductionHypothesis =>
      refine List.nodup_cons.mpr ⟨fun again => ?_, inductionHypothesis (distinct.erase _)⟩
      exact (List.Nodup.mem_erase_iff distinct).mp (walkRemains again) |>.1 rfl

/-- A walk begins at its start. -/
theorem walkHead (next : Nat → List Nat) {remaining : List Nat} {start : Nat}
    (remains : start ∈ remaining) :
    ∃ rest, walk next remaining [start] = start :: rest :=
  ⟨_, walkVisit remains⟩

/-- Where the edges never leave the nodes that remain, the walk visits exactly what its start
reaches. -/
theorem walkReaches {next : Nat → List Nat} {remaining : List Nat}
    (closed : ∀ node ∈ remaining, ∀ other ∈ next node, other ∈ remaining) {start : Nat}
    (remains : start ∈ remaining) (node : Nat) :
    node ∈ walk next remaining [start] ↔ Reaches next start node := by
  rw [walkMember]
  constructor
  · intro ⟨origin, waits, _, path⟩
    obtain rfl := List.mem_singleton.mp waits
    exact ReflTransGen.mono (fun _ _ step => step.1) _ _ path
  · intro path
    refine ⟨start, List.mem_singleton_self start, remains, ?_⟩
    have both : node ∈ remaining ∧ ReflTransGen (RemainingStep next remaining) start node := by
      induction path with
      | refl => exact ⟨remains, .refl⟩
      | tail _ edge inductionHypothesis =>
          have inside := closed _ inductionHypothesis.1 _ edge
          exact ⟨inside, inductionHypothesis.2.tail ⟨edge, inside⟩⟩
    exact both.2

end ShaderAnalysis
