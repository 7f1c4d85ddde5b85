/-
This file shows that the blocks of a program partition its stream, and that their instructions build
the same program again.
-/

import ShaderAnalysis.Proofs.Program.Leaders
import ShaderAnalysis.Proofs.Program.Stream

namespace ShaderAnalysis

/-- Instructions that are the same but for their labels. -/
structure Instruction.SameButLabel (first second : Instruction) : Prop where
  opcode : first.opcode = second.opcode
  operands : first.operands = second.operands
  registers : first.registers = second.registers

namespace Program

theorem labelFirstSame (label : String) (instructions : List Instruction) :
    List.Forall₂ Instruction.SameButLabel instructions (labelFirst label instructions) := by
  have same : ∀ rest : List Instruction, List.Forall₂ Instruction.SameButLabel rest rest :=
    fun rest => List.forall₂_same.mpr fun _ _ => ⟨rfl, rfl, rfl⟩
  cases instructions with
  | nil => exact .nil
  | cons first rest => exact .cons ⟨rfl, rfl, rfl⟩ (same rest)

theorem labelFirstTwice (label : String) (instructions : List Instruction) :
    labelFirst label (labelFirst label instructions) = labelFirst label instructions := by
  cases instructions <;> rfl

/-- The segment as it stands in its block, with its label at the first instruction. -/
def Segment.marked (segment : Segment) : Segment :=
  ⟨segment.label, labelFirst segment.label segment.instructions⟩

section

variable {stream : List Instruction} {program : Program}

/-- The blocks hold the instructions of the segments. -/
theorem instructionsMarked (built : build stream = .ok program) :
    program.instructions = (segments stream).flatMap (·.marked.instructions) := by
  have parts : program.blocks.map (·.instructions) =
      (segments stream).map (·.marked.instructions) := by
    apply List.ext_getElem?
    intro order
    rw [List.getElem?_map, List.getElem?_map, blocksAt built, Option.map_map]
    rfl
  rw [instructions, List.flatMap_def, parts, List.flatMap_def]

theorem instructionsKept (built : build stream = .ok program) :
    List.Forall₂ Instruction.SameButLabel stream program.instructions := by
  have parts : List.Forall₂ (List.Forall₂ Instruction.SameButLabel)
      ((segments stream).map (·.instructions))
      ((segments stream).map (·.marked.instructions)) := by
    rw [List.forall₂_map_left_iff, List.forall₂_map_right_iff, List.forall₂_same]
    exact fun segment _ => labelFirstSame segment.label segment.instructions
  have whole := List.rel_flatten parts
  rwa [← List.flatMap_def, ← List.flatMap_def, segmentsConcat, ← instructionsMarked built] at whole

/-- Every leader stands where its block begins and gives the block its label. -/
theorem leaderBlock (built : build stream = .ok program) {index position : Nat}
    (found : (leaders true stream)[index]? = some position) :
    program.offset (index + 1) = position ∧
      ∃ block, program.blocks[index + 1]? = some block ∧ block.instructions ≠ [] ∧
        block.label =
          (stream[position]?.bind (·.label)).getD ("basic_block_" ++ toString (index + 1)) := by
  have inside := (List.getElem?_eq_some_iff.mp found).1
  have counts := leadersLength stream
  have notExit : index + 1 ≠ program.exit := by
    rw [exitAt built]
    omega
  have labelled := leaderLabelsAt 1 true stream index
  rw [found, Option.map_some, Nat.add_comm 1 index] at labelled
  have within := (List.getElem?_eq_some_iff.mp labelled).1
  rw [← List.getElem?_append_left within, ← List.getElem?_cons_succ, ← List.cons_append,
    ← blockLabels, ← segmentsLabels, ← labelsSegments built, labelsAt] at labelled
  obtain ⟨block, place, named⟩ := labelled
  refine ⟨?_, block, place, (nonemptyBetween built place).mpr ⟨Nat.succ_ne_zero index, notExit⟩,
    named⟩
  rw [offsetSegments built, segmentsLeader found]

/-- Every block between entry and exit begins at a leader. -/
theorem blockLeader (built : build stream = .ok program) {index : Nat} {block : Block}
    (found : program.blocks[index]? = some block) (nonempty : block.instructions ≠ []) :
    leads true stream (program.offset index) = true ∧
      block.label = (stream[program.offset index]?.bind (·.label)).getD
        ("basic_block_" ++ toString index) := by
  obtain ⟨notEntry, notExit⟩ := (nonemptyBetween built found).mp nonempty
  obtain ⟨before, rfl⟩ := Nat.exists_eq_succ_of_ne_zero notEntry
  have bound := (List.getElem?_eq_some_iff.mp found).1
  have counts := leadersLength stream
  rw [exitAt built] at notExit
  rw [blocksLength built] at bound
  have inside : before < (leaders true stream).length := by omega
  have leader := List.getElem?_eq_getElem inside
  obtain ⟨begins, other, place, _, named⟩ := leaderBlock built leader
  obtain rfl := Option.some.inj (found.symm.trans place)
  rw [begins]
  exact ⟨((leadersMember true stream _).mp (List.mem_of_getElem? leader)).2, named⟩

end

/-- Behind its first instruction a segment runs on, up to a branch or jump. -/
theorem runningBehind {first : Instruction} {rest : List Instruction}
    (unlabelled : ∀ instruction ∈ rest, instruction.label = none)
    (straight : ∀ instruction ∈ (first :: rest).dropLast, instruction.transfers = false) :
    Running first.transfers rest where
  stopped transfers := by
    cases rest with
    | nil => rfl
    | cons second others =>
        have goesOn := straight first List.mem_cons_self
        rw [transfers] at goesOn
        cases goesOn
  unlabelled := unlabelled
  straight instruction member := by
    cases rest with
    | nil => cases member
    | cons second others => exact straight instruction (List.mem_cons_of_mem _ member)

/-- The rest of a running segment is cut off in front of a label. -/
theorem cutAtLabel {transferred : Bool} {rest more : List Instruction}
    (running : Running transferred rest)
    (labelled : ∀ head, more.head? = some head → head.label.isSome = true) (order : Nat) :
    cut order transferred (rest ++ more) = (rest, (cut order true more).2) := by
  induction rest generalizing transferred with
  | nil =>
      cases more with
      | nil => rfl
      | cons head more =>
          have leads := labelled head rfl
          rw [List.nil_append, cut, cut, leads, Bool.or_true, Bool.or_true]
          rfl
  | cons first rest inductionHypothesis =>
      have goesOn : transferred = false := by
        apply Bool.eq_false_iff.mpr
        intro transfers
        cases running.stopped transfers
      have unlabelled := running.unlabelled first List.mem_cons_self
      have later := runningBehind
        (fun other member => running.unlabelled other (List.mem_cons_of_mem _ member))
        running.straight
      rw [List.cons_append, cut, goesOn, unlabelled, inductionHypothesis later]
      rfl

/-- Marked segments that stand one behind the other are cut apart again. -/
theorem cutMarked {list : List Segment} (straight : ∀ segment ∈ list, segment.Straight)
    (order : Nat) :
    cut order true (list.flatMap (·.marked.instructions)) = ([], list.map (·.marked)) := by
  induction list generalizing order with
  | nil => rfl
  | cons segment list inductionHypothesis =>
      obtain ⟨here, later⟩ := List.forall_mem_cons.mp straight
      -- What comes behind the segment begins with a label, so the cut stops in front of it.
      have labelled : ∀ head, (list.flatMap (·.marked.instructions)).head? = some head →
          head.label.isSome = true := by
        intro head begins
        cases list with
        | nil => cases begins
        | cons next list =>
            obtain ⟨label, instructions⟩ := next
            cases instructions with
            | nil => exact absurd rfl (later _ List.mem_cons_self).nonempty
            | cons first rest =>
                obtain rfl := Option.some.inj begins
                rfl
      obtain ⟨label, instructions⟩ := segment
      cases instructions with
      | nil => exact absurd rfl here.nonempty
      | cons first rest =>
          have running : Running first.transfers rest :=
            runningBehind here.unlabelled here.straight
          have cutOff := cutAtLabel running labelled (order + 1)
          rw [inductionHypothesis later] at cutOff
          rw [List.flatMap_cons]
          change cut order true
            (first.withLabel label :: (rest ++ list.flatMap (·.marked.instructions))) = _
          rw [cut, Bool.true_or, if_pos rfl,
            show (first.withLabel label).transfers = first.transfers from rfl, cutOff]
          rfl

theorem exitsMarked (labels : List String) (order : Nat) (segment : Segment) :
    exits labels order segment.marked = exits labels order segment := by
  have kept := labelFirstLast segment.label segment.instructions
  cases ends : segment.instructions.getLast? with
  | none =>
      rw [ends, Option.map_none, Option.map_eq_none_iff] at kept
      unfold exits Segment.marked
      simp only [ends, kept]
  | some last =>
      rw [ends, Option.map_some] at kept
      obtain ⟨marked, markedEnds, same⟩ := Option.map_eq_some_iff.mp kept
      obtain ⟨sameOpcode, sameOperands⟩ := Prod.mk.inj same
      have branches : marked.isBranch = last.isBranch := congrArg Opcode.isBranch sameOpcode
      have jumps : marked.isJump = last.isJump := congrArg Opcode.isJump sameOpcode
      have resolved : resolve labels segment.label marked = resolve labels segment.label last := by
        rw [resolve, resolve, Instruction.target?, Instruction.target?, sameOperands]
      unfold exits Segment.marked
      simp only [ends, markedEnds, branches, jumps, resolved]

theorem linkMarked {segments : List Segment} {successors : List (List Nat)}
    (same : segments.length = successors.length) :
    link (segments.map (·.marked)) successors = link segments successors := by
  apply List.ext_getElem?
  intro order
  rw [linkAt (by simpa using same), linkAt same, List.getElem?_map, Option.map_map]
  simp only [Function.comp_def, Segment.marked, labelFirstTwice]

section

variable {stream : List Instruction} {program : Program}

/-- The stream of a program is cut where its blocks begin. -/
theorem segmentsAgain (built : build stream = .ok program) :
    segments program.instructions = (segments stream).map (·.marked) := by
  have again := cutMarked (cutStraight 1 true stream) 1
  have whole : program.instructions = (cut 1 true stream).2.flatMap (·.marked.instructions) := by
    rw [instructionsMarked built, segments, List.flatMap_append, List.flatMap_cons]
    simp [Segment.marked, labelFirst]
  rw [segments, whole, again, segments, List.map_append, List.map_cons]
  rfl

/-- The stream of a program builds the program again. -/
theorem buildAgain (built : build stream = .ok program) :
    build program.instructions = .ok program := by
  have linked := buildLinked built
  have changed := segmentsAgain built
  have labels :
      (segments program.instructions).map (·.label) = (segments stream).map (·.label) := by
    rw [changed, List.map_map]
    rfl
  have last : lastSegment program.instructions = lastSegment stream := by
    have counts := congrArg List.length labels
    simp only [List.length_map, segmentsLength] at counts
    omega
  apply linkedBuild
  refine ⟨labels ▸ linked.distinct, ?_, ?_, ?_, last ▸ linked.last⟩
  · rw [changed, List.length_map, linked.length]
  · rw [changed, linkMarked linked.length, ← linked.blocks]
  · intro order segment found notExit
    rw [changed, List.getElem?_map] at found
    obtain ⟨plain, place, rfl⟩ := Option.map_eq_some_iff.mp found
    rw [labels, exitsMarked]
    exact linked.exits order plain place (last ▸ notExit)

end

/-- A program partitions a stream if its blocks hold the instructions of the stream, in order and
the same but for their labels. The first instruction of a block carries the label of the block and
the others have none; a label of the stream stays with its instruction, which begins a block. Only
the last instruction of a block is a branch or jump. Where a block begins without a label of the
stream, the stream begins or a branch or jump comes before, and the label is generated from the
position of the block. The blocks give the same program again. -/
structure Partitions (stream : List Instruction) (program : Program) : Prop where
  kept : List.Forall₂ Instruction.SameButLabel stream program.instructions
  labelled : ∀ (index : Nat) (block : Block), program.blocks[index]? = some block →
    ∀ (position : Nat) (instruction : Instruction),
      block.instructions[position]? = some instruction →
        instruction.label = if position = 0 then some block.label else none
  begins : ∀ (position : Nat) (instruction : Instruction) (label : String),
    stream[position]? = some instruction → instruction.label = some label →
      ∃ index block, program.blocks[index]? = some block ∧ block.instructions ≠ [] ∧
        block.label = label ∧ program.offset index = position
  straight : ∀ (index : Nat) (block : Block), program.blocks[index]? = some block →
    ∀ (position : Nat) (instruction : Instruction),
      block.instructions[position]? = some instruction → instruction.transfers = true →
        position + 1 = block.instructions.length
  generated : ∀ (index : Nat) (block : Block), program.blocks[index]? = some block →
    block.instructions ≠ [] → ∀ leader : Instruction,
      stream[program.offset index]? = some leader → leader.label = none →
        block.label = "basic_block_" ++ toString index ∧
          (program.offset index = 0 ∨ ∃ before : Instruction,
            stream[program.offset index - 1]? = some before ∧ before.transfers = true)
  again : build program.instructions = .ok program

theorem buildPartitions {stream : List Instruction} {program : Program}
    (built : build stream = .ok program) : Partitions stream program where
  kept := instructionsKept built
  labelled index block found position instruction place := by
    have named := blockLabelled built found place
    split
    · rename_i first
      exact (named block.label).mpr ⟨first, rfl⟩
    · rename_i later
      rw [Option.eq_none_iff_forall_ne_some]
      exact fun label labelled => later ((named label).mp labelled).1
  begins position instruction label found labelled := by
    have leads : leads true stream position = true := by
      simp [leads, found, labelled]
    have inside := (List.getElem?_eq_some_iff.mp found).1
    obtain ⟨index, leader⟩ := List.mem_iff_getElem?.mp
      ((leadersMember true stream position).mpr ⟨inside, leads⟩)
    obtain ⟨begins, block, place, nonempty, named⟩ := leaderBlock built leader
    rw [found, Option.bind_some, labelled, Option.getD_some] at named
    exact ⟨index + 1, block, place, nonempty, named, begins⟩
  straight index block found position instruction place transfers := by
    have inside := (List.getElem?_eq_some_iff.mp place).1
    by_contra more
    have goesOn := blockStraight built found place (by omega)
    rw [transfers] at goesOn
    cases goesOn
  generated index block found nonempty leader begins unlabelled := by
    obtain ⟨leads, named⟩ := blockLeader built found nonempty
    rw [begins, Option.bind_some, unlabelled, Option.getD_none] at named
    refine ⟨named, ?_⟩
    cases position : program.offset index with
    | zero => exact .inl rfl
    | succ before =>
        rw [position] at begins leads
        simp only [Program.leads, begins, Option.any_some, unlabelled, Option.isSome_none,
          Bool.or_false, Option.any_eq_true] at leads
        exact .inr leads
  again := buildAgain built

theorem loopPartitioned : ∃ program, build loopStream = .ok program ∧
    program.instructions.map (·.label) =
      [some "basic_block_1", some "loop", none, some "basic_block_3"] ∧
    Partitions loopStream program := by
  have built : build loopStream = .ok _ := rfl
  exact ⟨_, built, rfl, buildPartitions built⟩

end Program

end ShaderAnalysis
