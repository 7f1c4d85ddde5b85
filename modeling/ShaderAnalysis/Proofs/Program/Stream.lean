/-
This file shows where the instructions of the blocks stand in the stream of a program.
-/

import ShaderAnalysis.Counting
import ShaderAnalysis.Proofs.Program.WellFormed

namespace ShaderAnalysis

namespace Program

/-- The instructions of a block stand behind those of all the blocks before it. -/
def offset (program : Program) (block : Nat) : Nat :=
  ((program.blocks.take block).map (·.instructions.length)).sum

section

variable {program : Program} {index other position otherPosition : Nat} {block otherBlock : Block}

theorem offsetNext (found : program.blocks[index]? = some block) :
    program.offset (index + 1) = program.offset index + block.instructions.length := by
  rw [offset, offset, List.take_add_one, found, List.map_append, List.sum_append]
  rfl

theorem offsetOutside (outside : program.blocks[index]? = none) :
    program.offset (index + 1) = program.offset index := by
  have short := List.getElem?_eq_none_iff.mp outside
  rw [offset, offset, List.take_of_length_le short,
    List.take_of_length_le (Nat.le_succ_of_le short)]

theorem offsetMono (program : Program) {index other : Nat} (ordered : index ≤ other) :
    program.offset index ≤ program.offset other := by
  induction ordered with
  | refl => exact Nat.le_refl _
  | @step other _ inductionHypothesis =>
      cases found : program.blocks[other]? with
      | none => rwa [Nat.succ_eq_add_one, offsetOutside found]
      | some block =>
          rw [Nat.succ_eq_add_one, offsetNext found]
          omega

theorem streamLength : program.instructions.length = program.offset program.blocks.length := by
  rw [instructions, List.length_flatMap, offset, List.take_length]

theorem streamAt (found : program.blocks[index]? = some block)
    (inside : position < block.instructions.length) :
    program.instructions[program.offset index + position]? = block.instructions[position]? := by
  unfold instructions offset
  generalize program.blocks = blocks at found
  induction blocks generalizing index with
  | nil => cases found
  | cons first rest inductionHypothesis =>
      rw [List.flatMap_cons]
      cases index with
      | zero =>
          obtain rfl : first = block := Option.some.inj found
          rw [List.take_zero, List.map_nil, List.sum_nil, Nat.zero_add,
            List.getElem?_append_left inside]
      | succ index =>
          rw [List.take_succ_cons, List.map_cons, List.sum_cons, Nat.add_assoc,
            List.getElem?_append_right (Nat.le_add_right _ _), Nat.add_sub_cancel_left]
          exact inductionHypothesis found

/-- Every position of the stream lies in a block. -/
theorem streamBlock {instruction : Instruction}
    (found : program.instructions[position]? = some instruction) :
    ∃ index block inner, program.blocks[index]? = some block ∧
      inner < block.instructions.length ∧ position = program.offset index + inner := by
  unfold instructions at found
  unfold offset
  generalize program.blocks = blocks at found
  induction blocks generalizing position with
  | nil => cases found
  | cons first rest inductionHypothesis =>
      rw [List.flatMap_cons] at found
      by_cases here : position < first.instructions.length
      · exact ⟨0, first, position, rfl, here, by simp⟩
      · rw [List.getElem?_append_right (Nat.le_of_not_lt here)] at found
        obtain ⟨index, block, inner, place, inside, same⟩ := inductionHypothesis found
        refine ⟨index + 1, block, inner, place, inside, ?_⟩
        rw [List.take_succ_cons, List.map_cons, List.sum_cons]
        omega

/-- No two places in the blocks share a position of the stream. -/
theorem streamInjective (found : program.blocks[index]? = some block)
    (otherFound : program.blocks[other]? = some otherBlock)
    (inside : position < block.instructions.length)
    (otherInside : otherPosition < otherBlock.instructions.length)
    (same : program.offset index + position = program.offset other + otherPosition) :
    index = other ∧ position = otherPosition := by
  rcases Nat.lt_trichotomy index other with before | rfl | behind
  · have next := offsetMono program (Nat.succ_le_of_lt before)
    rw [Nat.succ_eq_add_one, offsetNext found] at next
    omega
  · exact ⟨rfl, by omega⟩
  · have next := offsetMono program (Nat.succ_le_of_lt behind)
    rw [Nat.succ_eq_add_one, offsetNext otherFound] at next
    omega

end

theorem labelFirstAt (label : String) (instructions : List Instruction) (position : Nat) :
    (labelFirst label instructions)[position]? =
      if position = 0 then instructions[position]?.map (·.withLabel label)
      else instructions[position]? := by
  cases instructions with
  | nil => simp [labelFirst]
  | cons first rest =>
      cases position with
      | zero => rfl
      | succ position => rfl

theorem labelFirstLength (label : String) (instructions : List Instruction) :
    (labelFirst label instructions).length = instructions.length := by
  cases instructions <;> rfl

/-- A label changes neither where an instruction goes nor what it does. -/
theorem labelFirstLast (label : String) (instructions : List Instruction) :
    (labelFirst label instructions).getLast?.map (fun last => (last.opcode, last.operands)) =
      instructions.getLast?.map fun last => (last.opcode, last.operands) := by
  cases instructions with
  | nil => rfl
  | cons first rest =>
      cases rest with
      | nil => rfl
      | cons second others =>
          rw [labelFirst, List.getLast?_cons_cons, List.getLast?_cons_cons]

section

variable {stream : List Instruction} {program : Program} {index : Nat} {block : Block}

theorem offsetSegments (built : build stream = .ok program) (index : Nat) :
    program.offset index =
      (((segments stream).take index).map (·.instructions.length)).sum := by
  have lengths : program.blocks.map (·.instructions.length) =
      (segments stream).map (·.instructions.length) := by
    apply List.ext_getElem?
    intro order
    rw [List.getElem?_map, List.getElem?_map, blocksAt built, Option.map_map]
    simp only [Function.comp_def, labelFirstLength]
  rw [offset, List.map_take, List.map_take, lengths]

/-- Control goes from a block to the next one unless it ends in a jump, and to the block named by
the branch or jump at its end. -/
theorem successorsMember (built : build stream = .ok program)
    (found : program.blocks[index]? = some block) (notExit : index ≠ program.exit) (target : Nat) :
    target ∈ program.successors index ↔
      (∀ last, block.last? = some last → last.isJump = false) ∧ target = index + 1 ∨
        ∃ last label, block.last? = some last ∧ last.transfers = true ∧
          last.target? = some label ∧ program.labels[target]? = some label := by
  obtain ⟨segment, place, rfl⟩ := blockSegment built found
  rw [exitAt built] at notExit
  rw [exitsMember (successorsExits built place notExit)]
  have kept := labelFirstLast segment.label segment.instructions
  simp only [Block.last?, idxOfDistinct (labelsNodup built)]
  cases labelled : (labelFirst segment.label segment.instructions).getLast? with
  | none =>
      rw [labelled] at kept
      rw [Option.map_eq_none_iff.mp kept.symm]
  | some last =>
      rw [labelled] at kept
      obtain ⟨plain, ends, same⟩ := Option.map_eq_some_iff.mp kept.symm
      obtain ⟨sameOpcode, sameOperands⟩ := Prod.mk.inj same
      simp [ends, Instruction.isJump, Instruction.transfers, Instruction.target?, sameOpcode,
        sameOperands]

theorem nonemptyBetween (built : build stream = .ok program)
    (found : program.blocks[index]? = some block) :
    block.instructions ≠ [] ↔ index ≠ program.entry ∧ index ≠ program.exit := by
  rw [ne_eq, emptyIffEnd built found, not_or]

/-- Only between entry and exit a block has a position. -/
theorem positionBetween (built : build stream = .ok program)
    (found : program.blocks[index]? = some block) {position : Nat}
    (inside : position < block.instructions.length) :
    index ≠ program.entry ∧ index ≠ program.exit :=
  (nonemptyBetween built found).mp (List.ne_nil_of_length_pos (Nat.zero_lt_of_lt inside))

/-- A block with instructions is a straight segment that carries its label. -/
theorem straightSegment (built : build stream = .ok program)
    (found : program.blocks[index]? = some block) (nonempty : block.instructions ≠ []) :
    ∃ segment : Segment, segment.Straight ∧ block.label = segment.label ∧
      block.instructions = labelFirst segment.label segment.instructions := by
  obtain ⟨notEntry, notExit⟩ := (nonemptyBetween built found).mp nonempty
  obtain ⟨segment, place, rfl⟩ := blockSegment built found
  rw [exitAt built] at notExit
  exact ⟨segment, segmentsStraight place notEntry notExit, rfl, rfl⟩

/-- Only the last instruction of a block is a branch or jump. -/
theorem blockStraight (built : build stream = .ok program)
    (found : program.blocks[index]? = some block) {position : Nat} {instruction : Instruction}
    (place : block.instructions[position]? = some instruction)
    (more : position + 1 < block.instructions.length) : instruction.transfers = false := by
  have nonempty : block.instructions ≠ [] := List.ne_nil_of_length_pos (by omega)
  obtain ⟨segment, straight, _, same⟩ := straightSegment built found nonempty
  rw [same, labelFirstLength] at more
  rw [same, labelFirstAt] at place
  have inside : position < segment.instructions.dropLast.length := by
    rw [List.length_dropLast]
    omega
  have before := straight.straight _ (List.getElem_mem inside)
  rw [List.getElem_dropLast] at before
  rw [List.getElem?_eq_getElem (by omega)] at place
  split at place
  · rw [← Option.some.inj place]
    exact before
  · rw [← Option.some.inj place]
    exact before

/-- The first instruction of a block carries the label of the block, and no other one has a
label. -/
theorem blockLabelled (built : build stream = .ok program)
    (found : program.blocks[index]? = some block) {position : Nat} {instruction : Instruction}
    (place : block.instructions[position]? = some instruction) (label : String) :
    instruction.label = some label ↔ position = 0 ∧ block.label = label := by
  have nonempty : block.instructions ≠ [] :=
    List.ne_nil_of_length_pos (Nat.zero_lt_of_lt (List.getElem?_eq_some_iff.mp place).1)
  obtain ⟨segment, straight, labelled, same⟩ := straightSegment built found nonempty
  rw [labelled]
  rw [same, labelFirstAt] at place
  split at place
  · rename_i first
    obtain ⟨plain, _, rfl⟩ := Option.map_eq_some_iff.mp place
    simp [first, Instruction.withLabel]
  · rename_i later
    obtain ⟨before, rfl⟩ := Nat.exists_eq_succ_of_ne_zero later
    have unlabelled := straight.unlabelled instruction (by
      rw [List.mem_iff_getElem?]
      exact ⟨before, by rw [List.getElem?_tail]; exact place⟩)
    simp [unlabelled]

theorem entryEmpty (built : build stream = .ok program) :
    ∃ block, program.blocks[program.entry]? = some block ∧ block.instructions = [] := by
  have found := List.getElem?_eq_getElem (entryInside built)
  exact ⟨_, found, (emptyIffEnd built found).mpr (.inl rfl)⟩

theorem exitEmpty (built : build stream = .ok program) :
    ∃ block, program.blocks[program.exit]? = some block ∧ block.instructions = [] := by
  have found := List.getElem?_eq_getElem (exitInside built)
  exact ⟨_, found, (emptyIffEnd built found).mpr (.inr rfl)⟩

/-- Control goes on from every block but the exit. -/
theorem successorsEmpty (built : build stream = .ok program) {index : Nat}
    (inside : index < program.blocks.length) :
    program.successors index = [] ↔ index = program.exit := by
  constructor
  · intro none
    by_contra notExit
    obtain ⟨_, _, known⟩ := successorsKnown built inside notExit
    have count := (exitsCount known).2.1
    simp [none] at count
  · rintro rfl
    exact successorsOfExit built

theorem offsetEntry (built : build stream = .ok program) :
    program.offset (program.entry + 1) = 0 := by
  obtain ⟨block, found, empty⟩ := entryEmpty built
  rw [offsetNext found, empty]
  rfl

theorem offsetExit (built : build stream = .ok program) :
    program.offset program.exit = program.instructions.length := by
  obtain ⟨block, found, empty⟩ := exitEmpty built
  have last : program.blocks.length = program.exit + 1 := by
    rw [exitAt built, blocksLength built]
  rw [streamLength, last, offsetNext found, empty]
  rfl

/-- A block between entry and exit begins at a position of the stream. -/
theorem offsetInside (built : build stream = .ok program) (notEntry : index ≠ program.entry)
    (beforeExit : index < program.exit) : program.offset index < program.instructions.length := by
  have inside : index < program.blocks.length := Nat.lt_trans beforeExit (exitInside built)
  have found := List.getElem?_eq_getElem inside
  have nonempty := (nonemptyBetween built found).mpr ⟨notEntry, Nat.ne_of_lt beforeExit⟩
  have positive := List.length_pos_of_ne_nil nonempty
  have next := offsetMono program (Nat.succ_le_of_lt beforeExit)
  rw [Nat.succ_eq_add_one, offsetNext found, offsetExit built] at next
  omega

/-- A label stands in the stream exactly where its block begins. -/
theorem labelledPosition (built : build stream = .ok program) (position : Nat) (label : String) :
    (∃ instruction, program.instructions[position]? = some instruction ∧
        instruction.label = some label) ↔
      ∃ index, index ≠ program.entry ∧ index ≠ program.exit ∧
        program.labels[index]? = some label ∧ position = program.offset index := by
  constructor
  · intro ⟨instruction, place, labelled⟩
    obtain ⟨index, block, inner, found, inside, rfl⟩ := streamBlock place
    rw [streamAt found inside] at place
    obtain ⟨rfl, named⟩ := (blockLabelled built found place label).mp labelled
    obtain ⟨notEntry, notExit⟩ := positionBetween built found inside
    exact ⟨index, notEntry, notExit, (labelsAt program index label).mpr ⟨block, found, named⟩, rfl⟩
  · intro ⟨index, notEntry, notExit, labelled, same⟩
    obtain ⟨block, found, named⟩ := (labelsAt program index label).mp labelled
    have nonempty := (nonemptyBetween built found).mpr ⟨notEntry, notExit⟩
    have inside := List.length_pos_of_ne_nil nonempty
    have first := List.getElem?_eq_getElem inside
    have place := streamAt found inside
    rw [first] at place
    rw [same]
    exact ⟨_, place, (blockLabelled built found first label).mpr ⟨rfl, named⟩⟩

end

end Program

end ShaderAnalysis
