/-
This file shows that every program that is built is a well-formed graph of blocks.
-/

import Mathlib.Data.List.Nodup
import ShaderAnalysis.Proofs.Program.Linking

namespace ShaderAnalysis

namespace Program

theorem idxOfDistinct {labels : List String} (distinct : labels.Nodup) (label : String)
    (index : Nat) : labels.idxOf? label = some index ↔ labels[index]? = some label := by
  rw [List.idxOf?_eq_some_iff, List.getElem?_eq_some_iff]
  constructor
  · intro ⟨inside, same, _⟩
    exact ⟨inside, same⟩
  · intro ⟨inside, same⟩
    refine ⟨inside, same, fun earlier before again => ?_⟩
    have equal := (List.Nodup.getElem_inj_iff distinct).mp (again.trans same.symm)
    omega

theorem indexOfLabels (program : Program) (label : String) :
    program.indexOf? label = program.labels.idxOf? label := by
  rw [indexOf?, labels, List.idxOf?, List.findIdx?_map]
  rfl

theorem labelsAt (program : Program) (index : Nat) (label : String) :
    program.labels[index]? = some label ↔
      ∃ block, program.blocks[index]? = some block ∧ block.label = label := by
  rw [labels, List.getElem?_map, Option.map_eq_some_iff]

theorem labelOf {program : Program} {index : Nat} {block : Block} {label : String}
    (found : program.blocks[index]? = some block)
    (labelled : program.labels[index]? = some label) : block.label = label := by
  obtain ⟨other, same, rfl⟩ := (labelsAt program index label).mp labelled
  rw [Option.some.inj (found.symm.trans same)]

section

variable {stream : List Instruction} {program : Program}

/-- Every block stands for the segment at its position. -/
theorem blockSegment (built : build stream = .ok program) {index : Nat} {block : Block}
    (found : program.blocks[index]? = some block) :
    ∃ segment, (segments stream)[index]? = some segment ∧
      block = { label := segment.label
                instructions := labelFirst segment.label segment.instructions
                order := index
                successors := program.successors index
                predecessors := sourcesOf (program.blocks.map (·.successors)) index } := by
  rw [blocksAt built, Option.map_eq_some_iff] at found
  obtain ⟨segment, place, same⟩ := found
  exact ⟨segment, place, same.symm⟩

theorem entryBeforeExit (built : build stream = .ok program) :
    program.entry < program.exit := by
  rw [exitAt built]
  exact Nat.succ_pos _

theorem exitInside (built : build stream = .ok program) :
    program.exit < program.blocks.length := by
  rw [exitAt built, blocksLength built]
  exact Nat.lt_succ_self _

theorem entryInside (built : build stream = .ok program) :
    program.entry < program.blocks.length :=
  Nat.lt_trans (entryBeforeExit built) (exitInside built)

theorem entryLabelled (built : build stream = .ok program) :
    program.labels[program.entry]? = some Block.entryLabel := by
  rw [labelsSegments built, List.getElem?_map, entry, segmentsEntry]
  rfl

theorem exitLabelled (built : build stream = .ok program) :
    program.labels[program.exit]? = some Block.exitLabel := by
  rw [labelsSegments built, List.getElem?_map, exitAt built, segmentsExit]
  rfl

/-- No two blocks share their label. -/
theorem labelInjective (built : build stream = .ok program) {first second : Nat} {label : String}
    (firstLabel : program.labels[first]? = some label)
    (secondLabel : program.labels[second]? = some label) : first = second := by
  have distinct := labelsNodup built
  rw [← idxOfDistinct distinct] at firstLabel secondLabel
  exact Option.some.inj (firstLabel.symm.trans secondLabel)

theorem labelFirstEmpty (label : String) (instructions : List Instruction) :
    labelFirst label instructions = [] ↔ instructions = [] := by
  cases instructions <;> simp [labelFirst]

theorem emptyIffEnd (built : build stream = .ok program) {index : Nat} {block : Block}
    (found : program.blocks[index]? = some block) :
    block.instructions = [] ↔ index = program.entry ∨ index = program.exit := by
  obtain ⟨segment, place, rfl⟩ := blockSegment built found
  rw [exitAt built]
  dsimp only
  rw [labelFirstEmpty]
  constructor
  · intro empty
    by_contra inner
    obtain ⟨notEntry, notExit⟩ := not_or.mp inner
    exact (segmentsStraight place notEntry notExit).nonempty empty
  · rintro (rfl | rfl)
    · rw [entry, segmentsEntry] at place
      rw [← Option.some.inj place]
    · rw [segmentsExit] at place
      rw [← Option.some.inj place]

theorem successorsOfExit (built : build stream = .ok program) :
    program.successors program.exit = [] := by
  rw [exitAt built]
  exact (buildLinked built).last

/-- Every block but the last one has the exits of its segment. -/
theorem successorsKnown (built : build stream = .ok program) {index : Nat}
    (inside : index < program.blocks.length) (notExit : index ≠ program.exit) :
    ∃ segment, (segments stream)[index]? = some segment ∧
      exits program.labels index segment = .ok (program.successors index) := by
  have found := List.getElem?_eq_getElem inside
  obtain ⟨segment, place, _⟩ := blockSegment built found
  rw [exitAt built] at notExit
  exact ⟨segment, place, successorsExits built place notExit⟩

theorem successorsInside (built : build stream = .ok program) {index target : Nat}
    (member : target ∈ program.successors index) : target < program.blocks.length := by
  have inside : index < program.blocks.length := by
    by_contra outside
    rw [successors, List.getElem?_eq_none (Nat.le_of_not_lt outside)] at member
    cases member
  by_cases last : index = program.exit
  · rw [last, successorsOfExit built] at member
    cases member
  · obtain ⟨segment, _, known⟩ := successorsKnown built inside last
    rcases (exitsMember known target).mp member with ⟨_, rfl⟩ | ⟨_, label, _, _, _, index⟩
    · rw [exit] at last
      omega
    · rw [idxOfDistinct (labelsNodup built)] at index
      have bound := (List.getElem?_eq_some_iff.mp index).1
      rwa [labels, List.length_map] at bound

theorem successorsOnce (built : build stream = .ok program) (index : Nat) :
    (program.successors index).Nodup := by
  by_cases inside : index < program.blocks.length
  · by_cases last : index = program.exit
    · rw [last, successorsOfExit built]
      exact .nil
    · obtain ⟨_, _, known⟩ := successorsKnown built inside last
      exact (exitsCount known).1
  · rw [successors, List.getElem?_eq_none (Nat.le_of_not_lt inside)]
    exact .nil

theorem successorsAt (program : Program) {index : Nat} {block : Block}
    (found : program.blocks[index]? = some block) :
    program.successors index = block.successors := by
  rw [successors, found]
  rfl

/-- The predecessors of a block are the blocks that have it among their successors. -/
theorem predecessorsMember (built : build stream = .ok program) {index : Nat} {block : Block}
    (found : program.blocks[index]? = some block) (source : Nat) :
    source ∈ block.predecessors ↔ index ∈ program.successors source := by
  obtain ⟨_, _, rfl⟩ := blockSegment built found
  rw [sourcesOfMember, List.getElem?_map, successors]
  cases program.blocks[source]? with
  | none => simp
  | some other => simp

end

/-- In a well-formed program the blocks know their position and have distinct labels. An empty
entry comes first and an empty exit last, and only these are empty. Every edge is noted once at
both of its ends, and control leaves every block but the exit by one or two edges. -/
structure WellFormed (program : Program) : Prop where
  order : ∀ (index : Nat) (block : Block), program.blocks[index]? = some block →
    block.order = index
  distinct : program.labels.Nodup
  indexed : ∀ (label : String) (index : Nat), program.indexOf? label = some index ↔
    ∃ block, program.blocks[index]? = some block ∧ block.label = label
  apart : program.entry < program.exit
  exitLast : program.exit + 1 = program.blocks.length
  entryOnly : ∀ (index : Nat) (block : Block), program.blocks[index]? = some block →
    (block.label = Block.entryLabel ↔ index = program.entry)
  exitOnly : ∀ (index : Nat) (block : Block), program.blocks[index]? = some block →
    (block.label = Block.exitLabel ↔ index = program.exit)
  emptyOnly : ∀ (index : Nat) (block : Block), program.blocks[index]? = some block →
    (block.instructions = [] ↔ index = program.entry ∨ index = program.exit)
  inside : ∀ (index : Nat) (block : Block), program.blocks[index]? = some block →
    ∀ target ∈ block.successors, target < program.blocks.length
  successorsOnce : ∀ (index : Nat) (block : Block), program.blocks[index]? = some block →
    block.successors.Nodup
  predecessorsOnce : ∀ (index : Nat) (block : Block), program.blocks[index]? = some block →
    block.predecessors.Nodup
  converse : ∀ (target : Nat) (block : Block), program.blocks[target]? = some block →
    ∀ source : Nat, source ∈ block.predecessors ↔
      ∃ other : Block, program.blocks[source]? = some other ∧ target ∈ other.successors
  leaves : ∀ (index : Nat) (block : Block), program.blocks[index]? = some block →
    index ≠ program.exit → block.successors.length = 1 ∨ block.successors.length = 2
  ends : ∀ block : Block, program.blocks[program.exit]? = some block → block.successors = []

theorem buildWellFormed {stream : List Instruction} {program : Program}
    (built : build stream = .ok program) : program.WellFormed where
  order index block found := by
    obtain ⟨_, _, rfl⟩ := blockSegment built found
    rfl
  distinct := labelsNodup built
  indexed label index := by
    rw [indexOfLabels, idxOfDistinct (labelsNodup built), labelsAt]
  apart := entryBeforeExit built
  exitLast := by rw [exitAt built, blocksLength built]
  entryOnly index block found := by
    constructor
    · intro same
      exact labelInjective built ((labelsAt _ _ _).mpr ⟨block, found, same⟩) (entryLabelled built)
    · rintro rfl
      exact labelOf found (entryLabelled built)
  exitOnly index block found := by
    constructor
    · intro same
      exact labelInjective built ((labelsAt _ _ _).mpr ⟨block, found, same⟩) (exitLabelled built)
    · rintro rfl
      exact labelOf found (exitLabelled built)
  emptyOnly index block found := emptyIffEnd built found
  inside index block found target member :=
    successorsInside built (successorsAt program found ▸ member)
  successorsOnce index block found := by
    rw [← successorsAt program found]
    exact Program.successorsOnce built index
  predecessorsOnce index block found := by
    obtain ⟨_, _, rfl⟩ := blockSegment built found
    exact sourcesOfNodup _ _
  converse target block found source := by
    rw [predecessorsMember built found, successors]
    cases program.blocks[source]? with
    | none => simp
    | some other => simp
  leaves index block found notExit := by
    have inside := (List.getElem?_eq_some_iff.mp found).1
    obtain ⟨_, _, known⟩ := successorsKnown built inside notExit
    have count := (exitsCount known).2
    rw [successorsAt program found] at count
    omega
  ends block found := by
    rw [← successorsAt program found]
    exact successorsOfExit built

/-- A loop between a leader without a label and the end of the stream. -/
def loopStream : List Instruction :=
  [{ opcode := { name := "v_mov_b32", written := [0], read := [1] }, operands := ["v2", "v0"] },
   { opcode := { name := "v_add_f32", written := [0], read := [1, 2] }
     operands := ["v2", "v2", "v1"]
     label := some "loop" },
   { opcode := { name := "s_cbranch_vccnz", flow := .branch }, operands := ["loop"] },
   { opcode := { name := "s_endpgm" } }]

theorem loopWellFormed : ∃ program, build loopStream = .ok program ∧
    program.labels = ["entry", "basic_block_1", "loop", "basic_block_3", "exit"] ∧
    program.WellFormed := by
  have built : build loopStream = .ok _ := rfl
  exact ⟨_, built, rfl, buildWellFormed built⟩

end Program

end ShaderAnalysis
