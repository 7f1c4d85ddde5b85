/-
This file bounds the registers that are live and the pressure on them.
-/

import ShaderAnalysis.Liveness.Pressure
import ShaderAnalysis.Proofs.Liveness.Paths
import ShaderAnalysis.Proofs.Register.Operands

namespace ShaderAnalysis

namespace Graph

variable (graph : Graph)

theorem registersBelow {node register : Nat}
    (used : register ∈ (graph.registers node).read ∨ register ∈ (graph.registers node).written) :
    register < RegisterRange.limit := by
  rw [registersInstruction] at used
  cases known : graph.instruction? node with
  | none => simp [known] at used
  | some instruction =>
      rw [known] at used
      exact Instruction.registersBelow used

theorem readInstruction {node register : Nat} (reads : register ∈ (graph.registers node).read) :
    ∃ instruction, graph.instruction? node = some instruction ∧
      register ∈ instruction.registers.read := by
  rw [registersInstruction] at reads
  cases known : graph.instruction? node with
  | none => simp [known] at reads
  | some instruction =>
      rw [known] at reads
      exact ⟨instruction, rfl, reads⟩

/-- Every register that is live is read somewhere among the nodes that are processed. -/
theorem solvedRead {node register : Nat} (live : register ∈ (graph.solved.setsAt node).before ∨
    register ∈ (graph.solved.setsAt node).after) :
    ∃ reader ∈ graph.processingOrder, register ∈ (graph.registers reader).read := by
  have used : ∃ path, graph.UsePath graph.processingOrder register path := by
    rcases live with early | late
    · obtain ⟨rest, path⟩ := graph.solvedInvariant.justified.before node register early
      exact ⟨_, path⟩
    · obtain ⟨_, successor, _, rest, path⟩ :=
        graph.solvedInvariant.justified.after node register late
      exact ⟨_, path⟩
  obtain ⟨path, use⟩ := used
  obtain ⟨reader, ends, reads⟩ := use.reads
  exact ⟨reader, use.inside reader (List.mem_of_getLast? ends), reads⟩

theorem solvedBelow {node register : Nat} (live : register ∈ (graph.solved.setsAt node).before ∨
    register ∈ (graph.solved.setsAt node).after) : register < RegisterRange.limit := by
  obtain ⟨reader, _, reads⟩ := graph.solvedRead live
  exact graph.registersBelow (.inl reads)

end Graph

/-- A set of registers below a bound has no more members than the bound. -/
theorem sizeBelow {registers : RegisterSet} {bound : Nat}
    (below : ∀ register ∈ registers, register < bound) : registers.size ≤ bound := by
  calc registers.size ≤ (Std.ExtTreeSet.ofList (List.range bound)).size := by
        apply LiveMap.sizeLe
        intro register member
        simpa [Std.ExtTreeSet.mem_ofList] using below register member
    _ ≤ (List.range bound).length := Std.ExtTreeSet.size_ofList_le
    _ = bound := List.length_range

namespace Pressure

variable {graph : Graph} {live : LiveMap} {nodes : List Nat}

theorem registersAtMember (graph : Graph) (live : LiveMap) (node register : Nat) :
    register ∈ registersAt graph live node ↔
      register ∈ (live.setsAt node).before ∨ register ∈ (live.setsAt node).after ∨
        register ∈ (graph.registers node).read ∨ register ∈ (graph.registers node).written := by
  simp [registersAt, LiveSets.live, RegisterUse.used, or_assoc]

theorem maxMember (registers : RegisterSet) (top : Nat) :
    registers.max? = some top ↔ top ∈ registers ∧ ∀ register ∈ registers, register ≤ top := by
  simp only [Std.ExtTreeSet.max?_eq_some_iff_mem_and_forall, Nat.isLE_compare]

/-- The highest register is one of those at the nodes, and none of them is above it. -/
theorem highestSome (highest : Nat) :
    (ofNodes graph live nodes).highest = some highest ↔
      (∃ node ∈ nodes, highest ∈ registersAt graph live node) ∧
        ∀ node ∈ nodes, ∀ register ∈ registersAt graph live node, register ≤ highest := by
  simp only [ofNodes, List.max?_eq_some_iff, List.mem_filterMap, maxMember]
  constructor
  · intro ⟨⟨node, among, member, _⟩, upper⟩
    refine ⟨⟨node, among, member⟩, fun other otherAmong register inside => ?_⟩
    cases found : (registersAt graph live other).max? with
    | none =>
        rw [Std.ExtTreeSet.max?_eq_none_iff.mp found] at inside
        exact absurd inside Std.ExtTreeSet.not_mem_empty
    | some top =>
        have known := (maxMember _ _).mp found
        exact Nat.le_trans (known.2 register inside) (upper top ⟨other, otherAmong, known⟩)
  · intro ⟨⟨node, among, member⟩, upper⟩
    exact ⟨⟨node, among, member, upper node among⟩,
      fun top ⟨other, otherAmong, inside, _⟩ => upper other otherAmong top inside⟩

theorem highestNone : (ofNodes graph live nodes).highest = none ↔
    ∀ node ∈ nodes, ∀ register, register ∉ registersAt graph live node := by
  simp only [ofNodes, List.max?_eq_none_iff, List.filterMap_eq_nil_iff,
    Std.ExtTreeSet.max?_eq_none_iff, Std.ExtTreeSet.eq_empty_iff_forall_not_mem]

theorem maxLiveLe (bound : Nat) : (ofNodes graph live nodes).maxLive ≤ bound ↔
    ∀ node ∈ nodes, (live.setsAt node).live.size ≤ bound := by
  simp [ofNodes, foldMaxLe]

/-- All that is live or used at one of the nodes is so at one of the others. -/
def Covered (graph : Graph) (live : LiveMap) (nodes : List Nat) (other : Graph)
    (otherLive : LiveMap) (others : List Nat) : Prop :=
  ∀ node ∈ nodes, ∃ cover ∈ others,
    (∀ register ∈ (live.setsAt node).live, register ∈ (otherLive.setsAt cover).live) ∧
      ∀ register ∈ registersAt graph live node, register ∈ registersAt other otherLive cover

section

variable {other : Graph} {otherLive : LiveMap} {others : List Nat}
  (covered : Covered graph live nodes other otherLive others)
  (covers : Covered other otherLive others graph live nodes)

include covered

theorem maxLiveCovered :
    (ofNodes graph live nodes).maxLive ≤ (ofNodes other otherLive others).maxLive := by
  rw [maxLiveLe]
  intro node among
  obtain ⟨cover, coverAmong, inside, _⟩ := covered node among
  exact Nat.le_trans (LiveMap.sizeLe inside)
    ((maxLiveLe _).mp (Nat.le_refl _) cover coverAmong)

include covers

theorem highestCovered {highest : Nat}
    (known : (ofNodes graph live nodes).highest = some highest) :
    (ofNodes other otherLive others).highest = some highest := by
  rw [highestSome] at known ⊢
  obtain ⟨⟨node, among, member⟩, upper⟩ := known
  obtain ⟨cover, coverAmong, _, inside⟩ := covered node among
  refine ⟨⟨cover, coverAmong, inside highest member⟩, fun cover coverAmong register used => ?_⟩
  obtain ⟨node, among, _, back⟩ := covers cover coverAmong
  exact upper node among register (back register used)

/-- Where the nodes cover each other the pressure is the same. -/
theorem ofNodesCovered : ofNodes graph live nodes = ofNodes other otherLive others := by
  apply (Pressure.mk.injEq _ _ _ _).mpr
  constructor
  · exact Nat.le_antisymm (maxLiveCovered covered) (maxLiveCovered covers)
  · apply Option.ext
    intro highest
    exact ⟨highestCovered covered covers, highestCovered covers covered⟩

end

/-- The registers at the nodes are those below the allocated number, and the last one of these is
among them. -/
theorem allocatedBelow (below : ∀ node ∈ nodes, ∀ register ∈ registersAt graph live node,
    register < RegisterRange.limit) :
    (ofNodes graph live nodes).allocated ≤ RegisterRange.limit ∧
      (∀ highest, (ofNodes graph live nodes).highest = some highest →
        (ofNodes graph live nodes).allocated = highest + 1) ∧
      (∀ node ∈ nodes, ∀ register ∈ registersAt graph live node,
        register < (ofNodes graph live nodes).allocated) ∧
      (0 < (ofNodes graph live nodes).allocated →
        ∃ node ∈ nodes, (ofNodes graph live nodes).allocated - 1 ∈ registersAt graph live node) := by
  unfold allocated
  cases found : (ofNodes graph live nodes).highest with
  | none =>
      have nothing := highestNone.mp found
      refine ⟨Nat.zero_le _, by simp, fun node among register inside => ?_, by simp⟩
      exact absurd inside (nothing node among register)
  | some highest =>
      obtain ⟨⟨node, among, member⟩, upper⟩ := (highestSome highest).mp found
      have small : highest < 256 := below node among highest member
      have exact : min (highest + 1) (UInt32.size - 1) = highest + 1 := by
        simp only [UInt32.size]
        omega
      simp only [exact]
      refine ⟨small, by simp, fun other otherAmong register inside => ?_, fun _ => ?_⟩
      · exact Nat.lt_succ_of_le (upper other otherAmong register inside)
      · exact ⟨node, among, member⟩

end Pressure

/-- Every register that is live in a solved graph is read by an instruction that was processed. The
pressure on any nodes stays within the registers of a wave: the allocated registers hold all those
at the nodes, the last of them is at one of the nodes, and there is room for all that are live. -/
theorem pressureWithinWave (graph : Graph) :
    let solution := solve graph (.fresh graph)
    (∀ node register, register ∈ (solution.live.setsAt node).before ∨
        register ∈ (solution.live.setsAt node).after →
      register < 256 ∧ ∃ reader ∈ solution.order, ∃ instruction,
        graph.instruction? reader = some instruction ∧ register ∈ instruction.registers.read) ∧
    ∀ nodes : List Nat,
      let pressure := Pressure.ofNodes graph solution.live nodes
      pressure.maxLive ≤ pressure.allocated ∧ pressure.allocated ≤ 256 ∧
        (∀ highest, pressure.highest = some highest → pressure.allocated = highest + 1) ∧
        (∀ node ∈ nodes, ∀ register,
          register ∈ (solution.live.setsAt node).before ∨
            register ∈ (solution.live.setsAt node).after ∨
            register ∈ (graph.registers node).read ∨ register ∈ (graph.registers node).written →
          register < pressure.allocated) ∧
        (0 < pressure.allocated → ∃ node ∈ nodes,
          pressure.allocated - 1 ∈ (solution.live.setsAt node).before ∨
            pressure.allocated - 1 ∈ (solution.live.setsAt node).after ∨
            pressure.allocated - 1 ∈ (graph.registers node).read ∨
            pressure.allocated - 1 ∈ (graph.registers node).written) := by
  intro solution
  refine ⟨fun node register live => ?_, fun nodes => ?_⟩
  · obtain ⟨reader, processed, reads⟩ := graph.solvedRead live
    exact ⟨graph.solvedBelow live, reader, processed, graph.readInstruction reads⟩
  · intro pressure
    have below : ∀ node ∈ nodes, ∀ register ∈ Pressure.registersAt graph solution.live node,
        register < RegisterRange.limit := by
      intro node _ register inside
      rcases (Pressure.registersAtMember _ _ _ _).mp inside with early | late | used
      · exact graph.solvedBelow (.inl early)
      · exact graph.solvedBelow (.inr late)
      · exact graph.registersBelow used
    obtain ⟨within, exact, upper, reached⟩ := Pressure.allocatedBelow below
    simp only [Pressure.registersAtMember] at upper reached
    refine ⟨(Pressure.maxLiveLe _).mpr fun node among => sizeBelow fun register live => ?_, within,
      exact, upper, reached⟩
    rcases Std.ExtTreeSet.mem_union_iff.mp live with early | late
    · exact upper node among register (.inl early)
    · exact upper node among register (.inr (.inl late))

/-- An instruction that reads the last register of a wave beside a register that does not exist. -/
def limitStream : List Instruction :=
  [{ opcode := { name := "v_add_f32", written := [0], read := [1, 2] }
     operands := ["v[7:3]", "-abs(v255)", "v256"] }]

theorem lastRegisterAllocated : ∃ program, Program.build limitStream = .ok program ∧
    255 ∈ ((solve (Graph.expand program) (.fresh (Graph.expand program))).live.setsAt 0).before ∧
    (Pressure.ofNodes (Graph.expand program)
      (solve (Graph.expand program) (.fresh (Graph.expand program))).live [2, 0, 2]).allocated =
        256 ∧
    ∃ reader ∈ (solve (Graph.expand program) (.fresh (Graph.expand program))).order,
      ∃ instruction, (Graph.expand program).instruction? reader = some instruction ∧
        255 ∈ instruction.registers.read := by
  refine ⟨_, rfl, by decide +kernel, Nat.le_antisymm ?_ ?_, ?_⟩
  · exact ((pressureWithinWave _).2 [2, 0, 2]).2.1
  · exact ((pressureWithinWave _).2 [2, 0, 2]).2.2.2.1 0 (by simp) 255 (.inl (by decide +kernel))
  · exact ((pressureWithinWave _).1 0 255 (.inl (by decide +kernel))).2

end ShaderAnalysis
