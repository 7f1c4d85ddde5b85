/-
This file shows that the live sets do not depend on the order in which the nodes are swept.
-/

import Mathlib.Data.Finset.Basic
import ShaderAnalysis.Proofs.Liveness.Paths

namespace ShaderAnalysis

/-- The uses of a register depend on which nodes are allowed and not on their order. -/
theorem Graph.usePathSame {graph : Graph} {first second : List Nat}
    (same : ∀ node, node ∈ first ↔ node ∈ second) {register : Nat} {path : List Nat} :
    graph.UsePath first register path ↔ graph.UsePath second register path := by
  constructor
  · intro path
    exact ⟨path.edges, fun node member => (same node).mp (path.inside node member), path.reads,
      path.unwritten⟩
  · intro path
    exact ⟨path.edges, fun node member => (same node).mpr (path.inside node member), path.reads,
      path.unwritten⟩

namespace LiveMap

variable {graph : Graph} {live : LiveMap} {nodes order : List Nat}

/-- The nodes alone determine the sound map where they are all settled. -/
theorem soundUnique {first second : LiveMap} {others : List Nat}
    (firstSound : first.Sound graph nodes) (secondSound : second.Sound graph others)
    (firstSettled : ∀ node ∈ nodes, first.SettledAt graph node)
    (secondSettled : ∀ node ∈ others, second.SettledAt graph node)
    (same : ∀ node, node ∈ nodes ↔ node ∈ others) : first = second := by
  apply mapExt (firstSound.size.trans secondSound.size.symm)
  intro node
  apply setsExt
  · intro register
    rw [soundBefore firstSound firstSettled, soundBefore secondSound secondSettled]
    simp only [Graph.usePathSame same]
  · intro register
    rw [soundAfter firstSound firstSettled, soundAfter secondSound secondSettled]
    simp only [Graph.usePathSame same, same]

/-- The live sets after one sweep over each of the orders. -/
def sweepEach (graph : Graph) (live : LiveMap) (orders : List (List Nat)) : LiveMap :=
  orders.foldl (fun live order => (live.sweep graph order).1) live

/-- Repeated sweeps over an order end with the first one that grows nothing. -/
inductive Settles (graph : Graph) (order : List Nat) : LiveMap → LiveMap → Prop
  | still {live next : LiveMap} (swept : live.sweep graph order = (next, false)) :
      Settles graph order live next
  | grown {live next final : LiveMap} (swept : live.sweep graph order = (next, true))
      (rest : Settles graph order next final) : Settles graph order live final

/-- Repeated sweeps end, and they end with the settled live sets. -/
theorem settlesIff {registers : RegisterSet} (covers : Covers registers graph)
    (within : live.Within registers) (sweeps : Nat) (final : LiveMap) :
    Settles graph order live final ↔
      final = (live.settle graph order registers covers within sweeps).1 := by
  fun_induction settle graph order registers covers live within sweeps with
  | case1 live within sweeps next swept inductionHypothesis =>
      rw [← inductionHypothesis]
      constructor
      · intro settles
        cases settles with
        | still again => simp [swept] at again
        | grown again rest =>
            obtain rfl : next = _ := by simpa [swept] using again
            exact rest
      · exact .grown swept
  | case2 live within sweeps next swept =>
      constructor
      · intro settles
        cases settles with
        | still again => simpa [swept] using again.symm
        | grown again rest => simp [swept] at again
      · intro same
        subst same
        exact .still swept

theorem settlesFinal {final : LiveMap} :
    Settles graph order live final ↔ final = live.final graph order :=
  settlesIff _ _ _ _

/-- Sweeps over the given nodes keep the live sets sound. -/
theorem sweepEachSound (inside : ∀ node ∈ nodes, node < graph.size) {orders : List (List Nat)}
    (drawn : ∀ order ∈ orders, ∀ node ∈ order, node ∈ nodes) (sound : live.Sound graph nodes) :
    (live.sweepEach graph orders).Sound graph nodes := by
  induction orders generalizing live with
  | nil => exact sound
  | cons order orders inductionHypothesis =>
      apply inductionHypothesis fun later member => drawn later (List.mem_cons_of_mem _ member)
      apply sweepPreserves _ sound
      intro live sound node member
      have among := drawn order List.mem_cons_self node member
      exact visitSound sound among (inside node among)

/-- From sound live sets, repeated sweeps over the same nodes end with the same live sets. -/
theorem finalUnique {first second : LiveMap} {others : List Nat}
    (inside : ∀ node ∈ nodes, node < graph.size) (same : ∀ node, node ∈ nodes ↔ node ∈ others)
    (firstSound : first.Sound graph nodes) (secondSound : second.Sound graph others) :
    first.final graph nodes = second.final graph others := by
  have otherInside : ∀ node ∈ others, node < graph.size :=
    fun node member => inside node ((same node).mpr member)
  exact soundUnique (finalSound inside firstSound) (finalSound otherInside secondSound)
    (finalSettled inside firstSound) (finalSettled otherInside secondSound) same

end LiveMap

/-- Whichever nodes of a set are swept first and in whatever order, repeated sweeps over all the
nodes of the set end, and always with the same live sets. So a graph that was swept over some of the
nodes that are processed is solved as if it were fresh. -/
theorem sweepOrderImmaterial (graph : Graph) (nodes : Finset Nat)
    (inside : ∀ node ∈ nodes, node < graph.size) :
    (∃ final : LiveMap, ∀ orders : List (List Nat),
        (∀ order ∈ orders, ∀ node ∈ order, node ∈ nodes) →
        ∀ all : List Nat, (∀ node, node ∈ all ↔ node ∈ nodes) →
          ∀ result, LiveMap.Settles graph all ((LiveMap.fresh graph).sweepEach graph orders) result ↔
            result = final) ∧
      ∀ orders : List (List Nat),
        (∀ order ∈ orders, ∀ node ∈ order, node ∈ graph.processingOrder) →
        (solve graph ((LiveMap.fresh graph).sweepEach graph orders)).live =
          (solve graph (.fresh graph)).live := by
  constructor
  · -- Any list of the nodes will do to name the final live sets.
    refine ⟨(LiveMap.fresh graph).final graph nodes.toList, fun orders drawn all exact result => ?_⟩
    have allInside : ∀ node ∈ all, node < graph.size :=
      fun node member => inside node ((exact node).mp member)
    have listed : ∀ node, node ∈ all ↔ node ∈ nodes.toList := by
      intro node
      rw [exact, Finset.mem_toList]
    have swept := LiveMap.sweepEachSound allInside
      (fun order among node member => (exact node).mpr (drawn order among node member))
      (LiveMap.freshSound graph all)
    rw [LiveMap.settlesFinal,
      LiveMap.finalUnique allInside listed swept (LiveMap.freshSound graph _)]
  · intro orders drawn
    have processedInside : ∀ node ∈ graph.processingOrder, node < graph.size :=
      fun node => Graph.processingOrderInside
    exact LiveMap.finalUnique processedInside (fun _ => Iff.rfl)
      (LiveMap.sweepEachSound processedInside drawn (LiveMap.freshSound graph _))
      (LiveMap.freshSound graph _)

/-- The loop is settled along the flow of control, after some stray sweeps, as against it. -/
theorem loopSettledEitherWay : ∃ program, Program.build Program.loopStream = .ok program ∧
    ∃ final : LiveMap,
      LiveMap.Settles (Graph.expand program) [3, 2, 1] (.fresh (Graph.expand program)) final ∧
      LiveMap.Settles (Graph.expand program) [1, 2, 3]
        ((LiveMap.fresh (Graph.expand program)).sweepEach (Graph.expand program) [[2, 2], [3, 1]])
        final ∧
      ((final.setsAt 3).before.toList, (final.setsAt 3).after.toList) = ([1, 2], [1, 2]) := by
  refine ⟨_, rfl, ?_⟩
  refine (sweepOrderImmaterial _ {1, 2, 3} ?inside).1.elim fun final same =>
    have backward := (same [] (by simp) [3, 2, 1] (by simp; omega) final).mpr rfl
    ⟨final, backward, (same [[2, 2], [3, 1]] (by simp) [1, 2, 3] (by simp) final).mpr rfl, ?value⟩
  case inside => decide +kernel
  case value =>
    rw [LiveMap.settlesFinal.mp backward]
    decide +kernel

end ShaderAnalysis
