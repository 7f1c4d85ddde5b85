/-
This file shows that only one report tells the encodings of the opcodes.
-/

import ShaderAnalysis.Proofs.Graph.Recoding
import ShaderAnalysis.Report.Basic

namespace ShaderAnalysis

variable (choose : Opcode → Encoding)

namespace Dot

theorem blockLineRecode (compact : Bool) (block : Block) :
    blockLine compact (block.recode choose) = blockLine compact block := by
  have content : blockContent compact (block.recode choose) = blockContent compact block := by
    simp only [blockContent, Block.recode, List.length_map, List.map_map]
    rfl
  rw [blockLine, content]
  rfl

theorem blockEdgesRecode (program : Program) (block : Block) :
    blockEdges (program.recode choose) (block.recode choose) = blockEdges program block := by
  simp only [blockEdges, Program.recodeAt, Option.map_map]
  rfl

theorem blocksRecode (program : Program) (compact : Bool) :
    blocks (program.recode choose) compact = blocks program compact := by
  have lines : (program.recode choose).blocks.map (blockLine compact) =
      program.blocks.map (blockLine compact) := by
    rw [Program.recode, List.map_map]
    exact List.map_congr_left fun block _ => blockLineRecode choose compact block
  have edges : (program.recode choose).blocks.flatMap (blockEdges (program.recode choose)) =
      program.blocks.flatMap (blockEdges program) := by
    show (program.blocks.map (·.recode choose)).flatMap _ = _
    rw [List.flatMap_map]
    congr 1
    funext block
    exact blockEdgesRecode choose program block
  rw [blocks, lines, edges, blocks]

theorem nodeContentRecode (program : Program) (node : Node) :
    nodeContent (program.recode choose) (node.recode choose) = nodeContent program node := by
  unfold nodeContent Node.recode
  dsimp only
  rw [Program.recodeAt]
  cases node.instruction with
  | some instruction => rfl
  | none =>
      cases program.blocks[node.block]? with
      | none => rfl
      | some block => rfl

theorem instructionLineRecode (program : Program) (graph : Graph) :
    instructionLine (program.recode choose) (graph.recode choose) =
      instructionLine program graph := by
  funext index
  simp only [instructionLine, Graph.recodeAt, Option.map_map, Function.comp_def, nodeContentRecode]

theorem instructionsRecode (program : Program) (graph : Graph) :
    instructions (program.recode choose) (graph.recode choose) = instructions program graph := by
  have edges : instructionEdges (graph.recode choose) = instructionEdges graph := by
    funext index
    rw [instructionEdges, Graph.recodeSuccessors, instructionEdges]
  rw [instructions, Graph.gatherRecode, instructionLineRecode, edges]
  rfl

end Dot

namespace RegisterReport

theorem blocksRecode (program : Program) :
    blocks (program.recode choose) = blocks program := by
  have lines : (program.recode choose).blocks.map blockLine = program.blocks.map blockLine := by
    rw [Program.recode, List.map_map]
    apply List.map_congr_left
    intro block _
    show blockLine (block.recode choose) = blockLine block
    rw [blockLine, Block.recodeRegisters]
    rfl
  rw [blocks, lines, blocks]

theorem rowRecode (graph : Graph) (live : LiveMap) (allocated line node : Nat) :
    row (graph.recode choose) live allocated line node = row graph live allocated line node := by
  rw [row, Graph.recodeInstruction, Option.map_map]
  rfl

theorem livenessRecode (graph : Graph) (live : LiveMap) (nodes : List Nat) (summaryOnly : Bool) :
    liveness (graph.recode choose) live nodes summaryOnly =
      liveness graph live nodes summaryOnly := by
  simp only [liveness, programOrderRecode, pressureRecode, rows, rowRecode]

end RegisterReport

theorem Program.recodeInstructions (program : Program) :
    (program.recode choose).instructions = program.instructions.map (·.recode choose) := by
  show (program.blocks.map (·.recode choose)).flatMap _ = (program.blocks.flatMap _).map _
  rw [List.flatMap_map, List.map_flatMap]
  rfl

theorem histogramRecode (program : Program) {grouping : Grouping}
    (other : grouping ≠ .instructionClass) :
    Histogram.ofProgram (program.recode choose) grouping =
      Histogram.ofProgram program grouping := by
  have keys : grouping.key ∘ (·.recode choose) = grouping.key := by
    funext instruction
    cases grouping with
    | mnemonic => rfl
    | operandSize => rfl
    | instructionClass => exact absurd rfl other
  rw [Histogram.ofProgram, Program.recodeInstructions, List.map_map, keys, Histogram.ofProgram]

/-- Every report but the histogram of the encodings is the same for a recoded program. -/
theorem renderRecode (program : Program) {report : Report}
    (other : report ≠ .histogram .instructionClass) :
    report.render (program.recode choose) = report.render program := by
  have expanded : Graph.expand (program.recode choose) = (Graph.expand program).recode choose :=
    Graph.expandRecode choose program program.entry
  cases report with
  | blockGraph compact => exact Dot.blocksRecode choose program compact
  | instructionGraph =>
      rw [Report.render, expanded, Dot.instructionsRecode, Report.render]
  | blockRegisters => exact RegisterReport.blocksRecode choose program
  | liveness summaryOnly =>
      simp only [Report.render, expanded, LiveMap.freshRecode, solveRecode,
        RegisterReport.livenessRecode]
  | histogram grouping =>
      have differs : grouping ≠ .instructionClass := fun same => other (same ▸ rfl)
      rw [Report.render, histogramRecode choose program differs, Report.render]

end ShaderAnalysis
