/-
This file shows which nodes of a coherent graph are gathered and processed.
-/

import ShaderAnalysis.Proofs.Graph.Expansion
import ShaderAnalysis.Proofs.Program.Stream

namespace ShaderAnalysis

open Relation

theorem reachesReverse (next : Nat → List Nat) :
    Reaches (fun node => (next node).reverse) = Reaches next := by
  unfold Reaches
  congr 1
  funext node other
  exact propext List.mem_reverse

namespace Graph

/-- Whatever is gathered or processed is a node of the graph. -/
theorem gatherInside {graph : Graph} {direction : Direction} {start node : Nat}
    (member : node ∈ graph.gather direction start) : node < graph.size :=
  List.mem_range.mp (walkRemains member)

/-- The gathered nodes begin with the start, and none of them comes twice. -/
theorem gatherHead {graph : Graph} (direction : Direction) {start : Nat}
    (inside : start < graph.size) : ∃ rest, graph.gather direction start = start :: rest :=
  walkHead _ (List.mem_range.mpr inside)

theorem gatherNodup (graph : Graph) (direction : Direction) (start : Nat) :
    (graph.gather direction start).Nodup :=
  walkNodup _ _ _ List.nodup_range

theorem processingOrderInside {graph : Graph} {node : Nat}
    (member : node ∈ graph.processingOrder) : node < graph.size := by
  unfold processingOrder at member
  split at member
  · exact gatherInside member
  · exact gatherInside member

namespace Coherent

variable {graph : Graph}

/-- The edges of a coherent graph lead to its nodes, whichever way they are followed. -/
theorem neighboursInside (coherent : graph.Coherent) (direction : Direction) :
    ∀ node < graph.size, ∀ other ∈ (graph.neighbours direction node).reverse,
      other < graph.size := by
  intro node _ other edge
  rw [List.mem_reverse] at edge
  cases direction with
  | forward => exact coherent.inside node other edge
  | backward => exact sourceInside ((coherent.converse other node).mp edge)

theorem gatherReaches (coherent : graph.Coherent) (direction : Direction) {start : Nat}
    (inside : start < graph.size) (node : Nat) :
    node ∈ graph.gather direction start ↔ Reaches (graph.neighbours direction) start node := by
  rw [gather, walkReaches, reachesReverse]
  · intro node member other edge
    rw [List.mem_range] at member ⊢
    exact coherent.neighboursInside direction node member other edge
  · exact List.mem_range.mpr inside

theorem gatherForward (coherent : graph.Coherent) {start : Nat} (inside : start < graph.size)
    (node : Nat) : node ∈ graph.gather .forward start ↔ Reaches graph.successors start node :=
  coherent.gatherReaches .forward inside node

theorem reachesBackward (coherent : graph.Coherent) (start node : Nat) :
    Reaches graph.predecessors start node ↔ Reaches graph.successors node start := by
  unfold Reaches
  rw [← reflTransGen_swap]
  have same : (fun node other => other ∈ graph.predecessors node) =
      Function.swap fun node other => other ∈ graph.successors node := by
    funext node other
    exact propext (coherent.converse other node)
  rw [same]

theorem gatherBackward (coherent : graph.Coherent) {start : Nat} (inside : start < graph.size)
    (node : Nat) : node ∈ graph.gather .backward start ↔ Reaches graph.successors node start :=
  (coherent.gatherReaches .backward inside node).trans (coherent.reachesBackward start node)

/-- With an exit the nodes that lead to it are processed, and without one all nodes are. -/
theorem processingOrderMember (coherent : graph.Coherent) (node : Nat) :
    node ∈ graph.processingOrder ↔
      node < graph.size ∧ ∀ exit, graph.exit? = some exit → Reaches graph.successors node exit := by
  unfold processingOrder
  cases found : graph.exit? with
  | none =>
      dsimp only
      constructor
      · intro member
        exact ⟨gatherInside member, fun _ none => nomatch none⟩
      · intro ⟨inside, _⟩
        exact (coherent.gatherForward coherent.entryInside node).mpr (coherent.reached node inside)
  | some exit =>
      have inside : exit < graph.size := gatherInside (List.mem_of_find?_eq_some found)
      dsimp only
      constructor
      · intro member
        have path := (coherent.gatherBackward inside node).mp member
        refine ⟨gatherInside member, fun other same => ?_⟩
        rwa [← Option.some.inj same]
      · intro ⟨_, path⟩
        exact (coherent.gatherBackward inside node).mpr (path exit rfl)

/-- Nothing that is left out leads to a node that is processed. -/
theorem processingOrderClosed (coherent : graph.Coherent) {node target : Nat}
    (edge : target ∈ graph.successors node) (member : target ∈ graph.processingOrder) :
    node ∈ graph.processingOrder := by
  rw [coherent.processingOrderMember] at member ⊢
  exact ⟨sourceInside edge, fun exit found => (member.2 exit found).head edge⟩

end Coherent

/-- In a graph with a single exit no two nodes are without successors. -/
def SingleExit (graph : Graph) : Prop :=
  ∀ first < graph.size, ∀ second < graph.size,
    graph.successors first = [] → graph.successors second = [] → first = second

theorem Coherent.exitIff {graph : Graph} (coherent : graph.Coherent) (single : graph.SingleExit)
    (node : Nat) : graph.exit? = some node ↔ node < graph.size ∧ graph.successors node = [] := by
  constructor
  · intro found
    have gathered := List.mem_of_find?_eq_some found
    have last := List.find?_some found
    exact ⟨gatherInside gathered, by simpa using last⟩
  · intro ⟨inside, last⟩
    have gathered : node ∈ graph.gather .forward graph.entry :=
      (coherent.gatherForward coherent.entryInside node).mpr (coherent.reached node inside)
    cases found : graph.exit? with
    | none =>
        have goesOn := List.find?_eq_none.mp found node gathered
        simp [last] at goesOn
    | some exit =>
        have exitGathered := List.mem_of_find?_eq_some found
        have exitLast := List.find?_some found
        rw [single exit (gatherInside exitGathered) node inside (by simpa using exitLast) last]

/-- With a single exit the processed nodes are those that lead to it. -/
theorem Coherent.processedIff {graph : Graph} (coherent : graph.Coherent)
    (single : graph.SingleExit) (node : Nat) :
    node ∈ graph.processingOrder ↔ node < graph.size ∧ ∀ exit < graph.size,
      graph.successors exit = [] → Reaches graph.successors node exit := by
  simp only [coherent.processingOrderMember, coherent.exitIff single, and_imp]

/-- Only from the exit of a program control does not go on. -/
theorem expandExit {stream : List Instruction} {program : Program}
    (built : Program.build stream = .ok program) {start : Nat}
    (inside : start < program.blocks.length) {node : Nat}
    (bound : node < (expandFrom program start).size) :
    (expandFrom program start).successors node = [] ↔
      (expandFrom program start).place node = (program.exit, 0) := by
  have next := (successorPlaces (Program.buildClosed built) inside bound).2
  obtain ⟨blockInside, within⟩ := placeInside bound
  obtain ⟨block, found, empty⟩ := Program.exitEmpty built
  have narrow : width program program.exit = 1 := by simp [widthAt program found, empty]
  rw [← List.map_eq_nil_iff, next]
  generalize (expandFrom program start).place node = place at blockInside within
  obtain ⟨index, position⟩ := place
  simp only [nextPlaces, Prod.mk.injEq]
  constructor
  · intro none
    split at none
    · cases none
    · obtain rfl : index = program.exit :=
        (Program.successorsEmpty built blockInside).mp (List.map_eq_nil_iff.mp none)
      change position < width program program.exit at within
      exact ⟨rfl, by omega⟩
  · rintro ⟨rfl, rfl⟩
    rw [if_neg (by omega), Program.successorsOfExit built, List.map_nil]

theorem expandSingleExit {stream : List Instruction} {program : Program}
    (built : Program.build stream = .ok program) {start : Nat}
    (inside : start < program.blocks.length) : (expandFrom program start).SingleExit := by
  intro first firstBound second secondBound firstLast secondLast
  apply placeInjective firstBound secondBound
  rw [(expandExit built inside firstBound).mp firstLast,
    (expandExit built inside secondBound).mp secondLast]

/-- The exit of an expansion is the node of the exit block. -/
theorem expandExitIff {stream : List Instruction} {program : Program}
    (built : Program.build stream = .ok program) {start : Nat}
    (inside : start < program.blocks.length) (node : Nat) :
    (expandFrom program start).exit? = some node ↔
      node < (expandFrom program start).size ∧
        (expandFrom program start).place node = (program.exit, 0) := by
  have coherent := expandCoherent (Program.buildClosed built) inside
  rw [coherent.exitIff (expandSingleExit built inside)]
  exact and_congr_right fun bound => expandExit built inside bound

theorem expandExitReached {stream : List Instruction} {program : Program}
    (built : Program.build stream = .ok program) {start : Nat}
    (inside : start < program.blocks.length) :
    (∃ node, (expandFrom program start).exit? = some node) ↔
      Reaches program.successors start program.exit := by
  simp only [expandExitIff built inside]
  rw [placeTaken (Program.buildClosed built) inside]
  exact and_iff_left (widthPositive program program.exit)

theorem exitInstruction {stream : List Instruction} {program : Program}
    (built : Program.build stream = .ok program) {start node : Nat}
    (bound : node < (expandFrom program start).size)
    (place : (expandFrom program start).place node = (program.exit, 0)) :
    (expandFrom program start).instruction? node = none := by
  obtain ⟨block, found, empty⟩ := Program.exitEmpty built
  rw [instructionPlace node bound, place, found]
  simp [empty]

theorem processingOrderNodup (graph : Graph) : graph.processingOrder.Nodup := by
  unfold processingOrder
  split
  · exact gatherNodup graph .backward _
  · exact gatherNodup graph .forward _

/-- There is an exit exactly if the exit block can be reached. It is then the node of that block,
which holds no instruction, and no other node is without successors. No node is processed twice, and
those that are processed lead to the exit; without an exit all nodes are processed. -/
theorem exitEndsProgram {stream : List Instruction} {program : Program}
    (built : Program.build stream = .ok program) {start : Nat}
    (inside : start < program.blocks.length) :
    let graph := expandFrom program start
    ((∃ node, graph.exit? = some node) ↔ Reaches program.successors start program.exit) ∧
    (∀ node, graph.exit? = some node →
      node < graph.size ∧ graph.place node = (program.exit, 0) ∧
        graph.instruction? node = none ∧
        (∀ other < graph.size, graph.successors other = [] ↔ other = node) ∧
        ∀ other, other ∈ graph.processingOrder ↔
          other < graph.size ∧ Reaches graph.successors other node) ∧
    (graph.exit? = none → ∀ other, other ∈ graph.processingOrder ↔ other < graph.size) ∧
    graph.processingOrder.Nodup := by
  intro graph
  have coherent : graph.Coherent := expandCoherent (Program.buildClosed built) inside
  have single : graph.SingleExit := expandSingleExit built inside
  refine ⟨expandExitReached built inside, fun node found => ?_, fun missing other => ?_,
    processingOrderNodup graph⟩
  · obtain ⟨bound, place⟩ := (expandExitIff built inside node).mp found
    have last : graph.successors node = [] := (expandExit built inside bound).mpr place
    refine ⟨bound, place, exitInstruction built bound place, fun other otherBound => ?_,
      fun other => ?_⟩
    · constructor
      · intro otherLast
        exact single other otherBound node bound otherLast last
      · intro same
        rw [same, last]
    · rw [coherent.processingOrderMember]
      simp [found]
  · rw [coherent.processingOrderMember]
    simp [missing]

end Graph

/-- An endless loop beside a way to the exit. -/
def endlessStream : List Instruction :=
  [{ opcode := { name := "s_cbranch_scc0", flow := .branch }, operands := ["exit"] },
   { opcode := { name := "v_mov_b32", written := [0], read := [1] }
     operands := ["v1", "v0"]
     label := some "endless" },
   { opcode := { name := "s_branch", flow := .jump }, operands := ["endless"] }]

/-- From its entry the program reaches the exit, and from the loop it does not. -/
theorem endlessLoopLacksExit : ∃ program, Program.build endlessStream = .ok program ∧
    (Graph.expandFrom program 0).exit? = some 2 ∧ Reaches program.successors 0 3 ∧
    (Graph.expandFrom program 2).exit? = none ∧ ¬ Reaches program.successors 2 3 ∧
    ∀ other, other ∈ (Graph.expandFrom program 2).processingOrder ↔
      other < (Graph.expandFrom program 2).size := by
  have built : Program.build endlessStream = .ok _ := rfl
  have whole := Graph.exitEndsProgram built (show 0 < 4 by decide)
  have loop := Graph.exitEndsProgram built (show 2 < 4 by decide)
  refine ⟨_, built, by decide +kernel, whole.1.mp ⟨2, by decide +kernel⟩, by decide +kernel,
    fun path => ?_, loop.2.2.1 (by decide +kernel)⟩
  obtain ⟨node, found⟩ := loop.1.mpr path
  rw [show (Graph.expandFrom _ 2).exit? = none by decide +kernel] at found
  cases found

end ShaderAnalysis
