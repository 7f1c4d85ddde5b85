/-
This file shows what a plain instruction that is inserted into a stream does to its program.
-/

import ShaderAnalysis.Proofs.Program.Stream

namespace ShaderAnalysis

/-- A plain instruction has no label, and control goes on behind it. -/
structure Instruction.Plain (instruction : Instruction) : Prop where
  unlabelled : instruction.label = none
  goesOn : instruction.transfers = false

/-- A further instruction stands behind a position of the block. -/
def Block.insertBehind (position : Nat) (inserted : Instruction) (block : Block) : Block :=
  { block with instructions := block.instructions.insertIdx (position + 1) inserted }

theorem Block.insertBehindLength {position : Nat} {block : Block}
    (within : position < block.instructions.length) (inserted : Instruction) :
    (block.insertBehind position inserted).instructions.length =
      block.instructions.length + 1 := by
  rw [insertBehind, List.length_insertIdx, if_pos (Nat.succ_le_of_lt within)]

/-- A further instruction stands behind a position of one of the blocks. -/
def Program.insertBehind (program : Program) (index position : Nat) (inserted : Instruction) :
    Program :=
  ⟨program.blocks.modify index (·.insertBehind position inserted)⟩

namespace Program

section

variable (program : Program) (index position : Nat) (inserted : Instruction)

theorem insertBehindAt (other : Nat) :
    (program.insertBehind index position inserted).blocks[other]? =
      if index = other then program.blocks[other]?.map (·.insertBehind position inserted)
      else program.blocks[other]? := by
  rw [insertBehind, List.getElem?_modify]
  split <;> simp

theorem insertBehindFound {block : Block} (found : program.blocks[index]? = some block) :
    (program.insertBehind index position inserted).blocks[index]? =
      some (block.insertBehind position inserted) := by
  rw [insertBehindAt, if_pos rfl, found, Option.map_some]

theorem insertBehindLength :
    (program.insertBehind index position inserted).blocks.length = program.blocks.length := by
  simp [insertBehind]

theorem insertBehindExit :
    (program.insertBehind index position inserted).exit = program.exit := by
  rw [exit, insertBehindLength, exit]

/-- Whatever does not depend on the instructions of a block stays. -/
theorem insertBehindMap {α : Type} (field : Block → α)
    (kept : ∀ block : Block, field (block.insertBehind position inserted) = field block) :
    (program.insertBehind index position inserted).blocks.map field =
      program.blocks.map field := by
  apply List.ext_getElem?
  intro other
  simp only [List.getElem?_map, insertBehindAt]
  split
  · simp [Function.comp_def, kept]
  · rfl

theorem insertBehindSuccessors (other : Nat) :
    (program.insertBehind index position inserted).successors other =
      program.successors other := by
  rw [successorsGet, successorsGet, insertBehindMap _ _ _ _ _ fun _ => rfl]

end

/-- Behind an instruction that goes on, a plain one joins the running segment. -/
theorem piecesPlain {inserted : Instruction} (plain : inserted.Plain) (order : Nat)
    (label : String) (stream : List Instruction) :
    pieces order false label (inserted :: stream) =
      prepend inserted (pieces order false label stream) := by
  rw [piecesOther (by simp [plain.unlabelled]), plain.goesOn]

/-- A further instruction stands behind a position of the segment. -/
def Segment.insertBehind (position : Nat) (inserted : Instruction) (segment : Segment) : Segment :=
  { segment with instructions := segment.instructions.insertIdx (position + 1) inserted }

/-- The second list of segments has one instruction more, right behind an instruction of the first
list that comes after some others. -/
inductive Inserts (instruction inserted : Instruction) :
    List Instruction → List Segment → List Segment → Prop
  | here {label : String} {before after : List Instruction} {rest : List Segment} :
      Inserts instruction inserted before (⟨label, before ++ instruction :: after⟩ :: rest)
        (⟨label, before ++ instruction :: inserted :: after⟩ :: rest)
  | later {segment : Segment} {before : List Instruction} {old new : List Segment}
      (inserts : Inserts instruction inserted before old new) :
      Inserts instruction inserted (segment.instructions ++ before) (segment :: old)
        (segment :: new)

section

variable {instruction inserted : Instruction} {before : List Instruction} {old new : List Segment}

theorem insertsPrepend (inserts : Inserts instruction inserted before old new)
    (first : Instruction) :
    Inserts instruction inserted (first :: before) (prepend first old) (prepend first new) := by
  cases inserts with
  | here => exact .here
  | @later segment _ _ _ inserts =>
      exact @Inserts.later _ _ ⟨segment.label, first :: segment.instructions⟩ _ _ _ inserts

theorem insertsAppend (inserts : Inserts instruction inserted before old new)
    (more : List Segment) :
    Inserts instruction inserted before (old ++ more) (new ++ more) := by
  induction inserts with
  | here => exact .here
  | later _ inductionHypothesis => exact .later inductionHypothesis

theorem piecesInsert (plain : inserted.Plain) (goesOn : instruction.transfers = false)
    (before after : List Instruction) (order : Nat) (transferred : Bool) (label : String) :
    Inserts instruction inserted before
      (pieces order transferred label (before ++ instruction :: after))
      (pieces order transferred label (before ++ instruction :: inserted :: after)) := by
  induction before generalizing order transferred label with
  | nil =>
      rw [List.nil_append, List.nil_append]
      by_cases leads : (transferred || instruction.label.isSome) = true
      · rw [piecesLeader leads, piecesLeader leads, goesOn, piecesPlain plain]
        exact @Inserts.later _ _ ⟨label, []⟩ _ _ _ (@Inserts.here _ _ _ [] _ _)
      · rw [piecesOther leads, piecesOther leads, goesOn, piecesPlain plain]
        exact @Inserts.here _ _ _ [] _ _
  | cons first before inductionHypothesis =>
      rw [List.cons_append, List.cons_append]
      by_cases leads : (transferred || first.label.isSome) = true
      · rw [piecesLeader leads, piecesLeader leads]
        exact @Inserts.later _ _ ⟨label, []⟩ _ _ _
          (insertsPrepend (inductionHypothesis _ _ _) first)
      · rw [piecesOther leads, piecesOther leads]
        exact insertsPrepend (inductionHypothesis _ _ _) first

/-- A plain instruction behind one that goes on changes the segment of that one only. -/
theorem segmentsInsert (plain : inserted.Plain) (goesOn : instruction.transfers = false)
    (before after : List Instruction) :
    Inserts instruction inserted before (segments (before ++ instruction :: after))
      (segments (before ++ instruction :: inserted :: after)) := by
  rw [segmentsPieces, segmentsPieces]
  exact insertsAppend (piecesInsert plain goesOn before after 1 true Block.entryLabel) _

theorem insertIdxBehind (instruction inserted : Instruction) (before after : List Instruction) :
    (before ++ instruction :: after).insertIdx (before.length + 1) inserted =
      before ++ instruction :: inserted :: after := by
  induction before with
  | nil => simp
  | cons first before inductionHypothesis => simp [inductionHypothesis]

/-- The segment that changes, by its index. -/
theorem insertsAt (inserts : Inserts instruction inserted before old new) :
    ∃ index position segment, old[index]? = some segment ∧
      segment.instructions[position]? = some instruction ∧
      ((old.take index).map (·.instructions.length)).sum + position = before.length ∧
      new = old.modify index (·.insertBehind position inserted) := by
  induction inserts with
  | @here label before after rest =>
      refine ⟨0, before.length, _, rfl, by simp, by simp, ?_⟩
      rw [List.modify_zero_cons, Segment.insertBehind, insertIdxBehind]
  | @later segment before old new _ inductionHypothesis =>
      obtain ⟨index, position, changed, found, place, count, rfl⟩ := inductionHypothesis
      refine ⟨index + 1, position, changed, found, place, ?_, ?_⟩
      · simp [← count, Nat.add_assoc]
      · rw [List.modify_succ_cons]

theorem lastInserted {instructions : List Instruction} {position : Nat}
    (inside : position < instructions.length) (inserted : Instruction) :
    (instructions.insertIdx (position + 1) inserted).getLast? =
      if position + 1 = instructions.length then some inserted else instructions.getLast? := by
  rw [List.getLast?_eq_getElem?, List.length_insertIdx, if_pos (by omega), List.getElem?_insertIdx,
    if_neg (by omega), List.getLast?_eq_getElem?, Nat.add_sub_cancel]
  by_cases last : position + 1 = instructions.length
  · simp [last]
  · simp [last, Ne.symm last]

/-- Control leaves the segment as before, since it goes on behind both instructions. -/
theorem exitsInsert {segment : Segment} {position : Nat}
    (place : segment.instructions[position]? = some instruction)
    (goesOn : instruction.transfers = false) (alsoGoesOn : inserted.transfers = false)
    (labels : List String) (order : Nat) :
    exits labels order (segment.insertBehind position inserted) = exits labels order segment := by
  have inside := (List.getElem?_eq_some_iff.mp place).1
  have last := lastInserted inside inserted
  by_cases ends : position + 1 = segment.instructions.length
  · rw [if_pos ends] at last
    have oldLast : segment.instructions.getLast? = some instruction := by
      rw [List.getLast?_eq_getElem?, ← ends, Nat.add_sub_cancel, place]
    rw [exitsLast oldLast, exitsLast last, goesOn, alsoGoesOn]
    rfl
  · rw [if_neg ends] at last
    unfold exits
    rw [show (segment.insertBehind position inserted).instructions.getLast? = _ from last]
    rfl

end

theorem labelFirstInsert (label : String) (instructions : List Instruction) (position : Nat)
    (inserted : Instruction) :
    labelFirst label (instructions.insertIdx (position + 1) inserted) =
      (labelFirst label instructions).insertIdx (position + 1) inserted := by
  cases instructions with
  | nil => rfl
  | cons first rest => rfl

theorem linkInsert {segments : List Segment} {successors : List (List Nat)}
    (same : segments.length = successors.length) (index position : Nat)
    (inserted : Instruction) :
    link (segments.modify index (·.insertBehind position inserted)) successors =
      (link segments successors).modify index (·.insertBehind position inserted) := by
  apply List.ext_getElem?
  intro order
  rw [linkAt (by simpa using same), List.getElem?_modify, List.getElem?_modify, linkAt same]
  cases segments[order]? with
  | none => rfl
  | some segment =>
      simp only [Option.map_eq_map, Option.map_some]
      split
      · simp [Segment.insertBehind, Block.insertBehind, labelFirstInsert]
      · rfl

/-- Only the labels of the segments, their number and their exits matter to the links. -/
theorem linkedInsert {stream longer : List Instruction} {program : Program}
    (linked : Linked stream program) {index position : Nat} {instruction inserted : Instruction}
    {segment : Segment} (found : (segments stream)[index]? = some segment)
    (place : segment.instructions[position]? = some instruction)
    (goesOn : instruction.transfers = false) (alsoGoesOn : inserted.transfers = false)
    (changed : segments longer = (segments stream).modify index (·.insertBehind position inserted)) :
    Linked longer (program.insertBehind index position inserted) := by
  have labels : (segments longer).map (·.label) = (segments stream).map (·.label) := by
    rw [changed]
    apply List.ext_getElem?
    intro order
    simp only [List.getElem?_map, List.getElem?_modify, Option.map_eq_map, Option.map_map]
    congr 1
    funext other
    simp only [Function.comp_apply]
    split <;> rfl
  have last : lastSegment longer = lastSegment stream := by
    have count := congrArg List.length labels
    simp only [List.length_map, segmentsLength] at count
    omega
  have successors := insertBehindMap program index position inserted (·.successors) fun _ => rfl
  refine ⟨?_, ?_, ?_, ?_, ?_⟩
  · rw [labels]
    exact linked.distinct
  · rw [successors, ← linked.length, changed, List.length_modify]
  · rw [successors, changed, linkInsert linked.length, ← linked.blocks, insertBehind]
  · intro order other here notExit
    rw [insertBehindSuccessors, labels]
    rw [last] at notExit
    rw [changed, List.getElem?_modify] at here
    obtain ⟨old, oldFound, rfl⟩ := Option.map_eq_some_iff.mp here
    have known := linked.exits order old oldFound notExit
    split
    · rename_i same
      subst same
      obtain rfl := Option.some.inj (found.symm.trans oldFound)
      rw [exitsInsert place goesOn alsoGoesOn]
      exact known
    · exact known
  · rw [insertBehindSuccessors, last]
    exact linked.last

/-- A plain instruction behind one that goes on is inserted behind that one in its block, and
nothing else changes. -/
theorem buildInsert {before after : List Instruction} {instruction inserted : Instruction}
    {program : Program} (built : build (before ++ instruction :: after) = .ok program)
    (goesOn : instruction.transfers = false) (plain : inserted.Plain) :
    ∃ index position block, program.blocks[index]? = some block ∧
      position < block.instructions.length ∧ program.offset index + position = before.length ∧
      build (before ++ instruction :: inserted :: after) =
        .ok (program.insertBehind index position inserted) := by
  obtain ⟨index, position, segment, found, place, count, changed⟩ :=
    insertsAt (segmentsInsert plain goesOn before after)
  have inside := (List.getElem?_eq_some_iff.mp place).1
  refine ⟨index, position, _, (blocksAt built index).trans (by rw [found]; rfl), ?_, ?_, ?_⟩
  · simpa [labelFirstLength] using inside
  · rw [offsetSegments built, count]
  · exact linkedBuild (linkedInsert (buildLinked built) found place goesOn plain.goesOn changed)

end Program

end ShaderAnalysis
