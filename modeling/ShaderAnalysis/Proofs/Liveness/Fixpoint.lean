/-
This file shows that solving ends where no visit adds anything to the live sets.
-/

import Mathlib.Tactic.ByContra
import ShaderAnalysis.Liveness.Solve

namespace ShaderAnalysis

namespace LiveMap

variable {graph : Graph} {live : LiveMap} {node : Nat}

/-- At a settled node nothing is missing: what is live before its successors is live after it, and
what it reads or leaves alone is live before it. -/
structure SettledAt (graph : Graph) (live : LiveMap) (node : Nat) : Prop where
  after : ∀ successor ∈ graph.successors node, ∀ register ∈ (live.setsAt successor).before,
    register ∈ (live.setsAt node).after
  reads : ∀ register ∈ (graph.registers node).read, register ∈ (live.setsAt node).before
  passes : ∀ register ∈ (live.setsAt node).after, register ∉ (graph.registers node).written →
    register ∈ (live.setsAt node).before

theorem setsAtInside (inside : node < live.size) : live[node]? = some (live.setsAt node) := by
  rw [setsAt, Array.getElem?_eq_getElem inside]
  rfl

theorem setsAtSet (inside : node < live.size) (sets : LiveSets) :
    setsAt (live.setIfInBounds node sets) node = sets := by
  rw [setsAt, Array.getElem?_setIfInBounds_self_of_lt inside]
  rfl

theorem visitOther {other : Nat} (different : other ≠ node) :
    (live.visit graph node).1.setsAt other = live.setsAt other := by
  unfold visit
  split
  · rfl
  · rw [setsAt, Array.getElem?_setIfInBounds_ne (Ne.symm different)]
    rfl

theorem visitAfterMember (inside : node < live.size) (register : Nat) :
    register ∈ ((live.visit graph node).1.setsAt node).after ↔
      register ∈ (live.setsAt node).after ∨
        ∃ successor ∈ graph.successors node, register ∈ (live.setsAt successor).before := by
  rw [visit, setsAtInside inside]
  dsimp only
  rw [setsAtSet inside, joinManyMember]
  simp only [List.mem_map, exists_exists_and_eq_and]

theorem visitBeforeMember (inside : node < live.size) (register : Nat) :
    register ∈ ((live.visit graph node).1.setsAt node).before ↔
      register ∈ (live.setsAt node).before ∨ register ∈ (graph.registers node).read ∨
        register ∈ ((live.visit graph node).1.setsAt node).after ∧
          register ∉ (graph.registers node).written := by
  rw [visit, setsAtInside inside]
  dsimp only
  rw [setsAtSet inside, joinMember, Std.ExtTreeSet.mem_union_iff, Std.ExtTreeSet.mem_diff_iff]

/-- A visit adds nothing exactly to a settled node. -/
theorem visitStill (inside : node < live.size) :
    (live.visit graph node).2 = false ↔ live.SettledAt graph node := by
  rw [visit, setsAtInside inside]
  dsimp only
  rw [Bool.or_eq_false_iff, joinManyStill, joinStill]
  constructor
  · intro ⟨after, before⟩
    rw [joinManySame after] at before
    refine ⟨fun successor edge => after _ (List.mem_map_of_mem edge),
      fun register reads => before register ?_, fun register passes alone => before register ?_⟩
    · exact Std.ExtTreeSet.mem_union_iff.mpr (.inl reads)
    · exact Std.ExtTreeSet.mem_union_iff.mpr
        (.inr (Std.ExtTreeSet.mem_diff_iff.mpr ⟨passes, alone⟩))
  · intro settled
    have after : ∀ other ∈ (graph.successors node).map fun successor =>
        (live.setsAt successor).before,
          ∀ register ∈ other, register ∈ (live.setsAt node).after := by
      intro other among
      obtain ⟨successor, edge, rfl⟩ := List.mem_map.mp among
      exact settled.after successor edge
    rw [joinManySame after]
    refine ⟨after, fun register added => ?_⟩
    rcases Std.ExtTreeSet.mem_union_iff.mp added with reads | passes
    · exact settled.reads register reads
    · obtain ⟨liveAfter, alone⟩ := Std.ExtTreeSet.mem_diff_iff.mp passes
      exact settled.passes register liveAfter alone

theorem setsExt {first second : LiveSets}
    (before : ∀ register, register ∈ first.before ↔ register ∈ second.before)
    (after : ∀ register, register ∈ first.after ↔ register ∈ second.after) : first = second := by
  obtain ⟨firstBefore, firstAfter⟩ := first
  obtain ⟨secondBefore, secondAfter⟩ := second
  rw [LiveSets.mk.injEq]
  exact ⟨Std.ExtTreeSet.ext_mem before, Std.ExtTreeSet.ext_mem after⟩

theorem mapExt {first second : LiveMap} (size : first.size = second.size)
    (same : ∀ node, first.setsAt node = second.setsAt node) : first = second := by
  apply Array.ext size
  intro node firstInside secondInside
  have sets := same node
  rw [← Option.some.injEq, ← setsAtInside firstInside, ← setsAtInside secondInside,
    Array.getElem?_eq_getElem firstInside, Array.getElem?_eq_getElem secondInside] at sets
  exact Option.some.inj sets

theorem visitUnchanged (still : (live.visit graph node).2 = false) :
    (live.visit graph node).1 = live := by
  apply mapExt (visitSize graph live node)
  intro other
  by_cases same : other = node
  · subst same
    by_cases inside : other < live.size
    · have settled := (visitStill inside).mp still
      have after : ∀ register, register ∈ ((live.visit graph other).1.setsAt other).after ↔
          register ∈ (live.setsAt other).after := by
        intro register
        rw [visitAfterMember inside, or_iff_left_iff_imp]
        intro ⟨successor, edge, added⟩
        exact settled.after successor edge register added
      apply setsExt _ after
      intro register
      rw [visitBeforeMember inside, after, or_iff_left_iff_imp]
      rintro (reads | ⟨passes, alone⟩)
      · exact settled.reads register reads
      · exact settled.passes register passes alone
    · unfold visit
      rw [Array.getElem?_eq_none (Nat.le_of_not_lt inside)]
  · exact visitOther same

theorem sweepUnchanged {order : List Nat} (still : (live.sweep graph order).2 = false) :
    (live.sweep graph order).1 = live := by
  induction order generalizing live with
  | nil => rfl
  | cons first rest inductionHypothesis =>
      obtain ⟨visited, swept⟩ := Bool.or_eq_false_iff.mp still
      rw [sweep, inductionHypothesis swept, visitUnchanged visited]

/-- A sweep without a change finds all its nodes settled. -/
theorem sweepSettled {order : List Nat} (inside : ∀ node ∈ order, node < live.size)
    (still : (live.sweep graph order).2 = false) : ∀ node ∈ order, live.SettledAt graph node := by
  induction order with
  | nil => simp
  | cons first rest inductionHypothesis =>
      obtain ⟨visited, swept⟩ := Bool.or_eq_false_iff.mp still
      -- A visit that adds nothing leaves the live sets as they are for the rest of the sweep.
      rw [visitUnchanged visited] at swept
      intro node member
      rcases List.mem_cons.mp member with rfl | later
      · exact (visitStill (inside node member)).mp visited
      · exact inductionHypothesis (fun other among => inside other (List.mem_cons_of_mem _ among))
          swept node later

/-- What every visit to a node of the order preserves, a sweep preserves. -/
theorem sweepPreserves {Invariant : LiveMap → Prop} {order : List Nat}
    (step : ∀ live, Invariant live → ∀ node ∈ order, Invariant (live.visit graph node).1)
    (holds : Invariant live) : Invariant (live.sweep graph order).1 := by
  induction order generalizing live with
  | nil => exact holds
  | cons first rest inductionHypothesis =>
      exact inductionHypothesis
        (fun live holds node later => step live holds node (List.mem_cons_of_mem _ later))
        (step live holds first List.mem_cons_self)

section

variable {order : List Nat} {registers : RegisterSet}

theorem settlePreserves {Invariant : LiveMap → Prop}
    (step : ∀ live, Invariant live → ∀ node ∈ order, Invariant (live.visit graph node).1)
    (covers : Covers registers graph) (within : live.Within registers) (sweeps : Nat)
    (holds : Invariant live) :
    Invariant (live.settle graph order registers covers within sweeps).1 := by
  fun_induction settle graph order registers covers live within sweeps with
  | case1 live within sweeps next swept inductionHypothesis =>
      apply inductionHypothesis
      have kept := sweepPreserves step holds
      rwa [swept] at kept
  | case2 live within sweeps next swept =>
      have kept := sweepPreserves step holds
      rwa [swept] at kept

/-- Sweeping the final live sets once more changes nothing. -/
theorem settleStill (covers : Covers registers graph) (within : live.Within registers)
    (sweeps : Nat) :
    ((live.settle graph order registers covers within sweeps).1.sweep graph order).2 = false := by
  fun_induction settle graph order registers covers live within sweeps with
  | case1 live within sweeps next swept inductionHypothesis => exact inductionHypothesis
  | case2 live within sweeps next swept =>
      have still : (live.sweep graph order).2 = false := by rw [swept]
      have same : next = live := by
        have unchanged := sweepUnchanged still
        rwa [swept] at unchanged
      rw [same]
      exact still

end

end LiveMap

end ShaderAnalysis
