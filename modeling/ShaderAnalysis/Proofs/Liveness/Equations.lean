/-
This file shows at which nodes the solved live sets satisfy the equations of liveness.
-/

import ShaderAnalysis.Proofs.Liveness.Paths
import ShaderAnalysis.Proofs.Program.WellFormed

namespace ShaderAnalysis

/-- The equations of liveness ask that after a node those registers are live that are live before
some successor, and before it those that it reads and those that it passes on. -/
structure LiveMap.EquationsAt (graph : Graph) (live : LiveMap) (node : Nat) : Prop where
  after : ∀ register, register ∈ (live.setsAt node).after ↔
    ∃ successor ∈ graph.successors node, register ∈ (live.setsAt successor).before
  before : (live.setsAt node).before =
    (graph.registers node).read ∪ ((live.setsAt node).after \ (graph.registers node).written)

namespace Graph

variable {graph : Graph}

theorem solvedBeforeProcessed (graph : Graph) {node register : Nat}
    (early : register ∈ (graph.solved.setsAt node).before) : node ∈ graph.processingOrder := by
  obtain ⟨rest, path⟩ := (graph.solvedBefore node register).mp early
  exact path.inside node List.mem_cons_self

/-- The first equation holds everywhere, since no node that is left out leads to one that is
processed. -/
theorem Coherent.solvedAfterEquation (coherent : graph.Coherent) (node register : Nat) :
    register ∈ (graph.solved.setsAt node).after ↔
      ∃ successor ∈ graph.successors node, register ∈ (graph.solved.setsAt successor).before := by
  by_cases member : node ∈ graph.processingOrder
  · rw [graph.solvedAfter member]
    constructor
    · intro ⟨successor, edge, _, early⟩
      exact ⟨successor, edge, early⟩
    · intro ⟨successor, edge, early⟩
      exact ⟨successor, edge, graph.solvedBeforeProcessed early, early⟩
  · rw [graph.solvedOutside member]
    refine iff_of_false Std.ExtTreeSet.not_mem_empty ?_
    intro ⟨successor, edge, early⟩
    exact member (coherent.processingOrderClosed edge (graph.solvedBeforeProcessed early))

theorem solvedBeforeEquation (graph : Graph) {node : Nat} (member : node ∈ graph.processingOrder) :
    (graph.solved.setsAt node).before = (graph.registers node).read ∪
      ((graph.solved.setsAt node).after \ (graph.registers node).written) := by
  have settled := graph.solvedSettled node member
  apply Std.ExtTreeSet.ext_mem
  intro register
  rw [Std.ExtTreeSet.mem_union_iff, Std.ExtTreeSet.mem_diff_iff]
  constructor
  · intro early
    obtain ⟨rest, path⟩ := (graph.solvedBefore node register).mp early
    cases rest with
    | nil =>
        obtain ⟨last, ends, reads⟩ := path.reads
        obtain rfl : node = last := Option.some.inj ends
        exact .inl reads
    | cons next rest =>
        obtain ⟨edge, alone, later⟩ := usePathTail path
        have early := (graph.solvedBefore next register).mpr ⟨rest, later⟩
        exact .inr ⟨settled.after next edge register early, alone⟩
  · rintro (reads | ⟨passes, alone⟩)
    · exact settled.reads register reads
    · exact settled.passes register passes alone

/-- The second equation fails at a node that is left out but reads a register. -/
theorem solvedBeforeOutside (graph : Graph) {node : Nat}
    (outside : node ∉ graph.processingOrder) :
    (graph.solved.setsAt node).before = (graph.registers node).read ∪
        ((graph.solved.setsAt node).after \ (graph.registers node).written) ↔
      (graph.registers node).read = ∅ := by
  rw [graph.solvedOutside outside]
  have nothing : (∅ : RegisterSet) \ (graph.registers node).written = ∅ := by
    apply Std.ExtTreeSet.ext_mem
    intro register
    simp
  have same : (graph.registers node).read ∪ (∅ : RegisterSet) = (graph.registers node).read := by
    apply Std.ExtTreeSet.ext_mem
    intro register
    simp
  dsimp only
  rw [nothing, same, eq_comm]

end Graph

/-- The solved live sets satisfy the first equation at every node, and the second one exactly at the
nodes that lead to the exit, if there is one, or read no register. -/
theorem equationsWhereExitIsReached {stream : List Instruction} {program : Program}
    (built : Program.build stream = .ok program) :
    let graph := Graph.expand program
    let live := (solve graph (.fresh graph)).live
    ∀ node < graph.size,
      (∀ register, register ∈ (live.setsAt node).after ↔
        ∃ successor ∈ graph.successors node, register ∈ (live.setsAt successor).before) ∧
      (live.EquationsAt graph node ↔
        (∀ exit, graph.exit? = some exit → Reaches graph.successors node exit) ∨
          (graph.registers node).read = ∅) := by
  intro graph live node inside
  have coherent : graph.Coherent := Graph.expandBuilt built
  have after := coherent.solvedAfterEquation node
  refine ⟨after, ?_⟩
  have processed := coherent.processingOrderMember node
  rw [and_iff_right inside] at processed
  rw [← processed]
  by_cases member : node ∈ graph.processingOrder
  · exact iff_of_true ⟨after, graph.solvedBeforeEquation member⟩ (.inl member)
  · rw [or_iff_right member, ← graph.solvedBeforeOutside member]
    exact ⟨fun equations => equations.before, fun before => ⟨after, before⟩⟩

/-- The equations fail inside the loop, so that it never leads to the exit. -/
theorem endlessLoopNeverExits : ∃ program, Program.build endlessStream = .ok program ∧
    3 < (Graph.expand program).size ∧ (Graph.expand program).exit? = some 2 ∧
    ¬ Reaches (Graph.expand program).successors 3 2 := by
  have built : Program.build endlessStream = .ok _ := rfl
  refine ⟨_, built, by decide +kernel, by decide +kernel, fun path => ?_⟩
  have equations := (equationsWhereExitIsReached built 3 (by decide +kernel)).2.mpr
    (.inl fun exit found => by
      rw [show (Graph.expand _).exit? = some 2 by decide +kernel] at found
      rwa [← Option.some.inj found])
  exact absurd equations.before (by decide +kernel)

/-- The loop reads a register that is live nowhere, since the loop is not processed. -/
theorem endlessLoopUnsolved : ∃ program, Program.build endlessStream = .ok program ∧
    ¬ ∀ node < (Graph.expand program).size,
      (solve (Graph.expand program) (.fresh (Graph.expand program))).live.EquationsAt
        (Graph.expand program) node := by
  refine ⟨_, rfl, fun equations => ?_⟩
  have before := (equations 3 (by decide +kernel)).before
  exact absurd before (by decide +kernel)

end ShaderAnalysis
