/-
This file shows that a program is expanded and solved in the same way whatever the encodings of its
opcodes are.
-/

import ShaderAnalysis.Liveness.Pressure
import ShaderAnalysis.Liveness.Solve
import ShaderAnalysis.Proofs.Program.Recoding

namespace ShaderAnalysis

variable (choose : Opcode → Encoding)

def Node.recode (node : Node) : Node :=
  { node with instruction := node.instruction.map (·.recode choose) }

theorem Node.recodeRegisters (node : Node) : (node.recode choose).registers = node.registers := by
  unfold registers recode
  cases node.instruction with
  | none => rfl
  | some instruction => rfl

namespace Program

variable (program : Program)

theorem recodeAt (index : Nat) :
    (program.recode choose).blocks[index]? = program.blocks[index]?.map (·.recode choose) :=
  List.getElem?_map

theorem recodeLength : (program.recode choose).blocks.length = program.blocks.length :=
  List.length_map _

theorem recodeSuccessors : (program.recode choose).successors = program.successors := by
  funext index
  rw [successors, recodeAt, Option.map_map]
  rfl

end Program

namespace Graph

def recode (graph : Graph) : Graph := ⟨graph.nodes.map (·.recode choose)⟩

section

variable (program : Program)

theorem widthRecode : width (program.recode choose) = width program := by
  funext index
  rw [width, Program.recodeAt, width]
  cases program.blocks[index]? with
  | none => rfl
  | some block => simp [Block.recode]

theorem reachedRecode (start : Nat) :
    reached (program.recode choose) start = reached program start := by
  rw [reached, Program.recodeSuccessors, Program.recodeLength, reached]

theorem firstNodeRecode (order : List Nat) :
    firstNode (program.recode choose) order = firstNode program order := by
  funext block
  rw [firstNode, widthRecode, firstNode]

theorem nodeSuccessorsRecode (order : List Nat) (block position : Nat) :
    nodeSuccessors (program.recode choose) order block position =
      nodeSuccessors program order block position := by
  rw [nodeSuccessors, widthRecode, firstNodeRecode, Program.recodeSuccessors, nodeSuccessors]

theorem instructionRecode (block position : Nat) :
    ((program.recode choose).blocks[block]?.bind (·.instructions[position]?)) =
      (program.blocks[block]?.bind (·.instructions[position]?)).map (·.recode choose) := by
  rw [Program.recodeAt]
  cases program.blocks[block]? with
  | none => rfl
  | some block => exact List.getElem?_map

/-- The nodes of a recoded program are the recoded nodes of the program. -/
theorem expandRecode (start : Nat) :
    expandFrom (program.recode choose) start = (expandFrom program start).recode choose := by
  have placesSame : places (program.recode choose) (reached program start) =
      places program (reached program start) := by
    rw [places, widthRecode, places]
  simp only [expandFrom, recode, reachedRecode, placesSame, nodeSuccessorsRecode, instructionRecode,
    List.map_toArray, List.map_map]
  rfl

end

variable (graph : Graph)

theorem recodeAt (node : Nat) :
    (graph.recode choose).nodes[node]? = graph.nodes[node]?.map (·.recode choose) :=
  Array.getElem?_map

theorem recodeSize : (graph.recode choose).size = graph.size := Array.size_map

theorem recodeSuccessors : (graph.recode choose).successors = graph.successors := by
  funext node
  rw [successors, recodeAt, Option.map_map]
  rfl

theorem recodePredecessors : (graph.recode choose).predecessors = graph.predecessors := by
  funext node
  rw [predecessors, recodeAt, Option.map_map]
  rfl

theorem recodeInstruction (node : Nat) : (graph.recode choose).instruction? node =
    (graph.instruction? node).map (·.recode choose) := by
  rw [instruction?, recodeAt, instruction?]
  cases graph.nodes[node]? with
  | none => rfl
  | some entry => rfl

theorem recodeRegisters : (graph.recode choose).registers = graph.registers := by
  funext node
  rw [registers, recodeAt, registers]
  cases graph.nodes[node]? with
  | none => rfl
  | some entry => exact Node.recodeRegisters choose entry

theorem recodePlace : (graph.recode choose).place = graph.place := by
  funext node
  rw [place, recodeAt, Option.map_map]
  rfl

theorem gatherRecode (direction : Direction) (start : Nat) :
    (graph.recode choose).gather direction start = graph.gather direction start := by
  cases direction with
  | forward => rw [gather, neighbours, recodeSuccessors, recodeSize]; rfl
  | backward => rw [gather, neighbours, recodePredecessors, recodeSize]; rfl

theorem processingOrderRecode :
    (graph.recode choose).processingOrder = graph.processingOrder := by
  have exitSame : (graph.recode choose).exit? = graph.exit? := by
    rw [exit?, gatherRecode, recodeSuccessors]
    rfl
  rw [processingOrder, exitSame]
  simp only [gatherRecode]
  rfl

end Graph

namespace LiveMap

variable (graph : Graph)

theorem visitRecode (live : LiveMap) (node : Nat) :
    live.visit (graph.recode choose) node = live.visit graph node := by
  rw [visit, Graph.recodeSuccessors, Graph.recodeRegisters, visit]

theorem sweepRecode (live : LiveMap) (order : List Nat) :
    live.sweep (graph.recode choose) order = live.sweep graph order := by
  induction order generalizing live with
  | nil => rfl
  | cons node rest inductionHypothesis => rw [sweep, visitRecode, inductionHypothesis, sweep]

/-- Settling depends on a graph only through what a sweep does. -/
theorem settleSame {first second : Graph} {order : List Nat} {registers others : RegisterSet}
    (same : ∀ live : LiveMap, live.sweep first order = live.sweep second order)
    (covers : Covers registers first) (otherCovers : Covers others second) {live : LiveMap}
    (within : live.Within registers) (otherWithin : live.Within others) (sweeps : Nat) :
    live.settle first order registers covers within sweeps =
      live.settle second order others otherCovers otherWithin sweeps := by
  fun_induction settle first order registers covers live within sweeps with
  | case1 live within sweeps next swept inductionHypothesis =>
      rw [same] at swept
      conv =>
        rhs
        rw [settle]
      split
      · rename_i other found
        obtain ⟨rfl, _⟩ := Prod.mk.inj (swept.symm.trans found)
        exact inductionHypothesis _
      · rename_i other found
        cases swept.symm.trans found
  | case2 live within sweeps next swept =>
      rw [same] at swept
      rw [settle]
      split
      · rename_i other found
        cases swept.symm.trans found
      · rename_i other found
        obtain ⟨rfl, _⟩ := Prod.mk.inj (swept.symm.trans found)
        rfl

theorem freshRecode : fresh (graph.recode choose) = fresh graph := by
  rw [fresh, Graph.recodeSize, fresh]

end LiveMap

theorem solveRecode (graph : Graph) (live : LiveMap) :
    solve (graph.recode choose) live = solve graph live := by
  have settled := LiveMap.settleSame
    (fun live => LiveMap.sweepRecode choose graph live graph.processingOrder)
    (LiveMap.coversKnown (graph.recode choose) live) (LiveMap.coversKnown graph live)
    (LiveMap.withinKnown (graph.recode choose) live) (LiveMap.withinKnown graph live) 1
  unfold solve
  simp only [Graph.processingOrderRecode, settled]

theorem programOrderRecode (graph : Graph) (nodes : List Nat) :
    (graph.recode choose).programOrder nodes = graph.programOrder nodes := by
  rw [Graph.programOrder, Graph.recodePlace, Graph.programOrder]

theorem pressureRecode (graph : Graph) (live : LiveMap) (nodes : List Nat) :
    Pressure.ofNodes (graph.recode choose) live nodes = Pressure.ofNodes graph live nodes := by
  simp only [Pressure.ofNodes, Pressure.registersAt, Graph.recodeRegisters]

end ShaderAnalysis
