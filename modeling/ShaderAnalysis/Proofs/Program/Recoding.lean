/-
This file shows that a program is built in the same way whatever the encodings of its opcodes are.
-/

import ShaderAnalysis.Program.Build

namespace ShaderAnalysis

/-- Recoding gives an instruction the encoding that is chosen for its opcode. -/
def Instruction.recode (choose : Opcode → Encoding) (instruction : Instruction) : Instruction :=
  { instruction with opcode := { instruction.opcode with encoding := choose instruction.opcode } }

def Block.recode (choose : Opcode → Encoding) (block : Block) : Block :=
  { block with instructions := block.instructions.map (·.recode choose) }

variable (choose : Opcode → Encoding)

namespace Instruction

variable (instruction : Instruction)

theorem recodeLabel : (instruction.recode choose).label = instruction.label := rfl

theorem recodeTransfers : (instruction.recode choose).transfers = instruction.transfers := rfl

end Instruction

theorem Block.recodeRegisters (block : Block) :
    (block.recode choose).registers = block.registers := by
  rw [registers, recode, List.map_map]
  rfl

namespace Program

def recode (program : Program) : Program := ⟨program.blocks.map (·.recode choose)⟩

def Segment.recode (segment : Segment) : Segment :=
  { segment with instructions := segment.instructions.map (·.recode choose) }

/-- A stream is cut at its labels and transfers only. -/
theorem cutRecode (order : Nat) (transferred : Bool) (stream : List Instruction) :
    cut order transferred (stream.map (·.recode choose)) =
      ((cut order transferred stream).1.map (·.recode choose),
        (cut order transferred stream).2.map (·.recode choose)) := by
  fun_induction cut order transferred stream with
  | case1 => rfl
  | case2 order transferred instruction stream leads rest inductionHypothesis =>
      rw [List.map_cons, cut, Instruction.recodeLabel, if_pos leads, Instruction.recodeTransfers,
        inductionHypothesis]
      rfl
  | case3 order transferred instruction stream follows rest inductionHypothesis =>
      rw [List.map_cons, cut, Instruction.recodeLabel, if_neg follows, Instruction.recodeTransfers,
        inductionHypothesis]
      rfl

theorem segmentsRecode (stream : List Instruction) :
    segments (stream.map (·.recode choose)) = (segments stream).map (·.recode choose) := by
  rw [segments, cutRecode, segments, List.map_append, List.map_cons]
  rfl

/-- The last instruction of a segment goes where it went. -/
theorem exitsRecode (labels : List String) (order : Nat) (segment : Segment) :
    exits labels order (segment.recode choose) = exits labels order segment := by
  unfold exits
  rw [show (segment.recode choose).instructions.getLast? =
    segment.instructions.getLast?.map (·.recode choose) from List.getLast?_map]
  cases segment.instructions.getLast? with
  | none => rfl
  | some last => rfl

theorem labelFirstRecode (label : String) (instructions : List Instruction) :
    labelFirst label (instructions.map (·.recode choose)) =
      (labelFirst label instructions).map (·.recode choose) := by
  cases instructions with
  | nil => rfl
  | cons first rest => rfl

theorem linkRecode (segments : List Segment) (successors : List (List Nat)) :
    link (segments.map (·.recode choose)) successors =
      (link segments successors).map (·.recode choose) := by
  simp only [link, List.zip_map_left, List.zipIdx_map, List.map_map]
  apply List.map_congr_left
  intro ((segment, targets), order) _
  show Block.mk _ (labelFirst _ (segment.instructions.map (·.recode choose))) _ _ _ = _
  rw [labelFirstRecode]
  rfl

theorem buildRecode (stream : List Instruction) :
    build (stream.map (·.recode choose)) = (build stream).map (·.recode choose) := by
  have labels : (segments (stream.map (·.recode choose))).map (·.label) =
      (segments stream).map (·.label) := by
    rw [segmentsRecode, List.map_map]
    rfl
  unfold build
  dsimp only
  rw [labels, segmentsRecode]
  split
  · rfl
  · have exitsSame : (fun entry : Segment × Nat => exits ((segments stream).map (·.label)) entry.2
        entry.1) ∘ Prod.map (Segment.recode choose) id =
          fun entry => exits ((segments stream).map (·.label)) entry.2 entry.1 := by
      funext entry
      exact exitsRecode choose _ entry.2 entry.1
    rw [← List.map_dropLast, List.zipIdx_map, List.mapM_map, exitsSame]
    cases (segments stream).dropLast.zipIdx.mapM fun entry =>
        exits ((segments stream).map (·.label)) entry.2 entry.1 with
    | error error => rfl
    | ok successors =>
        show Except.ok (Program.mk _) = _
        rw [linkRecode]
        rfl

end Program

end ShaderAnalysis
