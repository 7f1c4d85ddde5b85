/-
This file shows that the comments, the blank lines and the encoded words of a listing only tell the
two dual encodings apart.
-/

import ShaderAnalysis.Proofs.Listing.Printing
import ShaderAnalysis.Proofs.Listing.Tokens
import ShaderAnalysis.Proofs.Report.Recoding

namespace ShaderAnalysis

variable (table : OpcodeTable)

/-- Twins are the same instruction, but where the table gives a dual encoding they may have either
of the two. -/
structure Instruction.Twins (first second : Instruction) : Prop where
  same : first.recode (fun _ => second.opcode.encoding) = second
  encoding : first.opcode.encoding = second.opcode.encoding ∨
    (table.lookup first.mnemonic).encoding.isDual = true ∧
      first.opcode.encoding.isDual = true ∧ second.opcode.encoding.isDual = true

structure Block.Twins (first second : Block) : Prop where
  label : first.label = second.label
  order : first.order = second.order
  successors : first.successors = second.successors
  predecessors : first.predecessors = second.predecessors
  instructions : List.Forall₂ (Instruction.Twins table) first.instructions second.instructions

structure Node.Twins (first second : Node) : Prop where
  block : first.block = second.block
  position : first.position = second.position
  successors : first.successors = second.successors
  predecessors : first.predecessors = second.predecessors
  instruction : Option.Rel (Instruction.Twins table) first.instruction second.instruction

/-- Programs are analyzed alike if their blocks and nodes are twins, the same registers live, and
only the histogram of the encodings may tell the programs apart. -/
structure Program.AnalyzedAlike (first second : Program) : Prop where
  blocks : List.Forall₂ (Block.Twins table) first.blocks second.blocks
  nodes : ∀ start, List.Forall₂ (Node.Twins table) (Graph.expandFrom first start).nodes.toList
    (Graph.expandFrom second start).nodes.toList
  solutions : ∀ start, solve (Graph.expandFrom first start) (.fresh (.expandFrom first start)) =
    solve (Graph.expandFrom second start) (.fresh (.expandFrom second start))
  reports : ∀ report, report ≠ .histogram .instructionClass →
    Report.render first report = Report.render second report

variable {table}

/-- Encodings that are forgotten alike are equal or the two dual ones. -/
theorem OpcodeTable.dualOfForget {first second : Opcode} (names : first.name = second.name)
    (same : table.forget first = table.forget second) : first.encoding = second.encoding ∨
      (table.lookup first.name).encoding.isDual = true ∧
        first.encoding.isDual = true ∧ second.encoding.isDual = true := by
  by_cases dual : (table.lookup first.name).encoding.isDual = true
  · simp only [forget, ← names, dual, Bool.and_true] at same
    split at same
    · rename_i firstDual
      split at same
      · rename_i secondDual
        exact .inr ⟨dual, firstDual, secondDual⟩
      · exact .inr ⟨dual, firstDual, by rw [← same]; rfl⟩
    · split at same
      · rename_i secondDual
        exact .inr ⟨dual, by rw [same]; rfl, secondDual⟩
      · exact .inl same
  · simp only [forget, ← names, dual, Bool.and_false, Bool.false_eq_true, if_false] at same
    exact .inl same

theorem Instruction.twinsOfRecode {first second : Instruction}
    (same : first.recode table.forget = second.recode table.forget) : first.Twins table second := by
  obtain ⟨opcodes, operands, label⟩ := Instruction.mk.inj same
  obtain ⟨names, written, read, forgotten, flow, cycles⟩ := Opcode.mk.inj opcodes
  refine ⟨?_, table.dualOfForget names forgotten⟩
  simp only [recode, operands, label, names, written, read, flow, cycles]

theorem Block.twinsOfRecode {first second : Block}
    (same : first.recode table.forget = second.recode table.forget) : first.Twins table second := by
  obtain ⟨label, instructions, order, successors, predecessors⟩ := Block.mk.inj same
  exact ⟨label, order, successors, predecessors,
    (pairsOfMap instructions).imp fun _ _ => Instruction.twinsOfRecode⟩

theorem Node.twinsOfRecode {first second : Node}
    (same : first.recode table.forget = second.recode table.forget) : first.Twins table second := by
  obtain ⟨block, position, instruction, successors, predecessors⟩ := Node.mk.inj same
  refine ⟨block, position, successors, predecessors, ?_⟩
  cases firstFound : first.instruction with
  | none =>
      cases secondFound : second.instruction with
      | none => exact .none
      | some other => simp [firstFound, secondFound] at instruction
  | some value =>
      cases secondFound : second.instruction with
      | none => simp [firstFound, secondFound] at instruction
      | some other =>
          rw [firstFound, secondFound] at instruction
          exact .some (Instruction.twinsOfRecode (Option.some.inj instruction))

/-- Programs that are equal where the encodings are forgotten are analyzed alike. -/
theorem Program.alikeOfRecode {first second : Program}
    (same : first.recode table.forget = second.recode table.forget) :
    first.AnalyzedAlike table second := by
  have expanded : ∀ start, (Graph.expandFrom first start).recode table.forget =
      (Graph.expandFrom second start).recode table.forget := by
    intro start
    rw [← Graph.expandRecode, same, Graph.expandRecode]
  refine ⟨?_, fun start => ?_, fun start => ?_, fun report other => ?_⟩
  · exact (pairsOfMap (Program.mk.inj same)).imp fun _ _ => Block.twinsOfRecode
  · have nodes := congrArg Array.toList (Graph.mk.inj (expanded start))
    rw [Array.toList_map, Array.toList_map] at nodes
    exact (pairsOfMap nodes).imp fun _ _ => Node.twinsOfRecode
  · rw [← solveRecode table.forget, ← LiveMap.freshRecode table.forget, expanded, solveRecode,
      LiveMap.freshRecode]
  · rw [← renderRecode table.forget first other, same, renderRecode table.forget second other]

/-- Listings with the same tokens fail alike or give programs that are analyzed alike. -/
theorem tokensDecideAnalysis (table : OpcodeTable) {format : ListingFormat}
    (explicit : format ≠ .auto) {text other : String}
    (same : (TokenLine.ofListing text.toList).map (·.tokens) =
      (TokenLine.ofListing other.toList).map (·.tokens)) :
    Matches ProgramError.SameKind (Program.AnalyzedAlike table) (Program.read table format text)
      (Program.read table format other) := by
  exact (Program.readTokens table explicit same).imp fun _ _ => Program.alikeOfRecode

/-- The sum stands in a loop and shows no encoding. -/
def bareListing : String :=
  "shader main\nagain:\nv_add_f32 v1, v0, v1\ns_cbranch_scc1 again\nend"

/-- The same tokens stand between comments and blank lines, and a word encodes the sum. -/
def annotatedListing : String :=
  "; a loop\n\nshader main // starts\nagain:\n" ++
    "v_add_f32 v1, v0, v1 // 0: D1190201\n\ns_cbranch_scc1 again // 8: BF85FFFE\nend"

/-- The table has the branch besides the sum. -/
def loopTable : OpcodeTable :=
  ⟨{ name := "s_cbranch_scc1", encoding := .sopp, flow := .branch } :: dualTable.entries⟩

theorem loopAnnotated :
    (Program.read loopTable .shaderAnalyzer bareListing).map
        (·.instructions.map (·.opcode.encoding)) = .ok [.vop2, .sopp] ∧
      (Program.read loopTable .shaderAnalyzer annotatedListing).map
        (·.instructions.map (·.opcode.encoding)) = .ok [.vop3, .sopp] ∧
      Matches ProgramError.SameKind (Program.AnalyzedAlike loopTable)
        (Program.read loopTable .shaderAnalyzer bareListing)
        (Program.read loopTable .shaderAnalyzer annotatedListing) := by
  have tokens : (TokenLine.ofListing bareListing.toList).map (·.tokens) =
      (TokenLine.ofListing annotatedListing.toList).map (·.tokens) := by
    decide +kernel
  exact ⟨by decide +kernel, by decide +kernel,
    tokensDecideAnalysis loopTable (by decide) tokens⟩

end ShaderAnalysis
