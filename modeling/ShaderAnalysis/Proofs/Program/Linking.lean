/-
This file shows how the blocks of a program follow from the segments of its stream.
-/

import Mathlib.Data.List.Forall2
import ShaderAnalysis.Proofs.Program.Segments

namespace ShaderAnalysis

namespace Program

theorem firstRepeatNone (seen labels : List String) :
    firstRepeat seen labels = none ↔ labels.Nodup ∧ ∀ label ∈ labels, label ∉ seen := by
  induction labels generalizing seen with
  | nil => simp [firstRepeat]
  | cons label rest inductionHypothesis =>
      rw [firstRepeat]
      split
      · rename_i repeated
        simp only [List.contains_iff_mem] at repeated
        simp [repeated]
      · rename_i fresh
        simp only [List.contains_iff_mem] at fresh
        rw [inductionHypothesis]
        simp only [List.nodup_cons, List.mem_cons, forall_eq_or_imp, not_or]
        constructor
        · intro ⟨distinct, apart⟩
          exact ⟨⟨fun again => (apart label again).1 rfl, distinct⟩, fresh,
            fun other member => (apart other member).2⟩
        · intro ⟨⟨once, distinct⟩, _, apart⟩
          exact ⟨distinct, fun other member =>
            ⟨fun same => once (same ▸ member), apart other member⟩⟩

theorem bindOk {ε α β : Type} {first : Except ε α} {next : α → Except ε β} {result : β} :
    first >>= next = .ok result ↔ ∃ value, first = .ok value ∧ next value = .ok result := by
  constructor
  · intro same
    cases first with
    | error error => cases same
    | ok value => exact ⟨value, rfl, same⟩
  · rintro ⟨value, rfl, same⟩
    exact same

theorem mapOk {ε α β : Type} {first : Except ε α} {next : α → β} {result : β} :
    first.map next = .ok result ↔ ∃ value, first = .ok value ∧ next value = result := by
  cases first <;> simp [Except.map]

theorem mapMOk {ε α β : Type} (step : α → Except ε β) (values : List α) (results : List β) :
    values.mapM step = .ok results ↔
      List.Forall₂ (fun value result => step value = .ok result) values results := by
  induction values generalizing results with
  | nil =>
      rw [List.mapM_nil, List.forall₂_nil_left_iff]
      exact ⟨fun same => by cases same; rfl, fun same => by rw [same]; rfl⟩
  | cons value values inductionHypothesis =>
      rw [List.mapM_cons, bindOk, List.forall₂_cons_left_iff]
      constructor
      · intro ⟨result, first, rest⟩
        obtain ⟨others, later, same⟩ := bindOk.mp rest
        cases same
        exact ⟨result, others, first, (inductionHypothesis others).mp later, rfl⟩
      · rintro ⟨result, others, first, later, rfl⟩
        exact ⟨result, first, bindOk.mpr ⟨others, (inductionHypothesis others).mpr later, rfl⟩⟩

/-- A program comes from distinct labels and from exits that are all known. -/
theorem buildOk {stream : List Instruction} {program : Program} :
    build stream = .ok program ↔ ((segments stream).map (·.label)).Nodup ∧
      ∃ successors, List.Forall₂ (fun (place : Segment × Nat) targets =>
          exits ((segments stream).map (·.label)) place.2 place.1 = .ok targets)
        (segments stream).dropLast.zipIdx successors ∧
      program = ⟨link (segments stream) (successors ++ [[]])⟩ := by
  have distinct := firstRepeatNone [] ((segments stream).map (·.label))
  simp only [List.not_mem_nil, not_false_eq_true, implies_true, and_true] at distinct
  rw [← distinct, build]
  cases firstRepeat [] ((segments stream).map (·.label)) with
  | some label =>
      constructor
      · intro same
        cases same
      · intro ⟨same, _⟩
        cases same
  | none =>
      dsimp only
      rw [bindOk]
      simp only [true_and]
      refine exists_congr fun successors => and_congr (mapMOk _ _ _) ?_
      exact ⟨fun same => by cases same; rfl, fun same => by rw [same]; rfl⟩

theorem linkAt {segments : List Segment} {successors : List (List Nat)}
    (same : segments.length = successors.length) (order : Nat) :
    (link segments successors)[order]? = segments[order]?.map fun segment =>
      { label := segment.label
        instructions := labelFirst segment.label segment.instructions
        order := order
        successors := successors[order]?.getD []
        predecessors := sourcesOf successors order } := by
  rw [link, List.getElem?_map, List.getElem?_zipIdx, List.zip, List.getElem?_zipWith]
  cases found : segments[order]? with
  | none => rfl
  | some segment =>
      have inside : order < successors.length := same ▸ (List.getElem?_eq_some_iff.mp found).1
      rw [List.getElem?_eq_getElem inside]
      simp only [Option.map_some, Option.getD_some, Nat.zero_add]

theorem linkSuccessors {segments : List Segment} {successors : List (List Nat)}
    (same : segments.length = successors.length) :
    (link segments successors).map (·.successors) = successors := by
  apply List.ext_getElem?
  intro order
  rw [List.getElem?_map, linkAt same, Option.map_map]
  cases found : segments[order]? with
  | none =>
      have outside : successors.length ≤ order := same ▸ List.getElem?_eq_none_iff.mp found
      rw [List.getElem?_eq_none outside]
      rfl
  | some segment =>
      have inside : order < successors.length := same ▸ (List.getElem?_eq_some_iff.mp found).1
      rw [List.getElem?_eq_getElem inside]
      rfl

theorem successorsGet (program : Program) (order : Nat) :
    program.successors order = (program.blocks.map (·.successors))[order]?.getD [] := by
  rw [successors, List.getElem?_map]

/-- The blocks of a program are the segments of its stream, linked by known exits. -/
structure Linked (stream : List Instruction) (program : Program) : Prop where
  distinct : ((segments stream).map (·.label)).Nodup
  length : (segments stream).length = (program.blocks.map (·.successors)).length
  blocks : program.blocks = link (segments stream) (program.blocks.map (·.successors))
  exits : ∀ order segment, (segments stream)[order]? = some segment →
    order ≠ lastSegment stream →
      exits ((segments stream).map (·.label)) order segment = .ok (program.successors order)
  last : program.successors (lastSegment stream) = []

section

variable {stream : List Instruction} {program : Program}

theorem buildLinked (built : build stream = .ok program) : Linked stream program := by
  obtain ⟨distinct, successors, known, rfl⟩ := buildOk.mp built
  obtain ⟨counted, each⟩ := List.forall₂_iff_get.mp known
  rw [List.length_zipIdx, List.length_dropLast, segmentsLength, Nat.add_sub_cancel] at counted
  have same : (segments stream).length = (successors ++ [[]]).length := by
    rw [List.length_append, ← counted, segmentsLength]
    rfl
  have linked := linkSuccessors same
  refine ⟨distinct, by rw [linked, same], by rw [linked], ?_, ?_⟩
  · intro order segment found notExit
    have inside := (List.getElem?_eq_some_iff.mp found).1
    rw [segmentsLength] at inside
    have before : order < successors.length := by omega
    rw [successorsGet, linked, List.getElem?_append_left before, List.getElem?_eq_getElem before,
      Option.getD_some]
    have counts : order < (segments stream).dropLast.zipIdx.length := by
      rw [List.length_zipIdx, List.length_dropLast, segmentsLength]
      omega
    have exit := each order counts before
    simp only [List.get_eq_getElem, List.getElem_zipIdx, List.getElem_dropLast,
      Nat.zero_add] at exit
    rw [(List.getElem?_eq_some_iff.mp found).2] at exit
    exact exit
  · rw [successorsGet, linked, counted]
    simp

/-- Segments whose exits are all known make up a program. -/
theorem linkedBuild (linked : Linked stream program) : build stream = .ok program := by
  have counted : (program.blocks.map (·.successors)).length = lastSegment stream + 1 := by
    rw [← linked.length, segmentsLength]
  have last : (program.blocks.map (·.successors)).getLast? = some [] := by
    have inside : lastSegment stream < (program.blocks.map (·.successors)).length := by omega
    have none := linked.last
    rw [successorsGet, List.getElem?_eq_getElem inside, Option.getD_some] at none
    rw [List.getLast?_eq_getElem?, counted, Nat.add_sub_cancel, List.getElem?_eq_getElem inside, none]
  refine buildOk.mpr
    ⟨linked.distinct, (program.blocks.map (·.successors)).dropLast, ?_, ?_⟩
  · rw [List.forall₂_iff_get]
    refine ⟨by simp [linked.length], fun order firstInside secondInside => ?_⟩
    simp only [List.length_dropLast, counted, Nat.add_sub_cancel] at secondInside
    have inside : order < (segments stream).length := by
      rw [segmentsLength]
      omega
    have known := linked.exits order _ (List.getElem?_eq_getElem inside) (by omega)
    have within : order < (program.blocks.map (·.successors)).length := by omega
    rw [successorsGet, List.getElem?_eq_getElem within, Option.getD_some] at known
    simpa using known
  · rw [List.dropLast_append_getLast? [] last, ← linked.blocks]

/-- The blocks stand at the positions of their segments. -/
theorem blocksAt (built : build stream = .ok program) (order : Nat) :
    program.blocks[order]? = (segments stream)[order]?.map fun segment =>
      { label := segment.label
        instructions := labelFirst segment.label segment.instructions
        order := order
        successors := program.successors order
        predecessors := sourcesOf (program.blocks.map (·.successors)) order } := by
  have linked := buildLinked built
  rw [successorsGet, ← linkAt linked.length, ← linked.blocks]

theorem blocksLength (built : build stream = .ok program) :
    program.blocks.length = lastSegment stream + 1 := by
  rw [← segmentsLength, (buildLinked built).length, List.length_map]

theorem exitAt (built : build stream = .ok program) : program.exit = lastSegment stream := by
  rw [exit, blocksLength built, Nat.add_sub_cancel]

theorem labelsSegments (built : build stream = .ok program) :
    program.labels = (segments stream).map (·.label) := by
  apply List.ext_getElem?
  intro order
  rw [labels, List.getElem?_map, List.getElem?_map, blocksAt built, Option.map_map]
  rfl

theorem labelsNodup (built : build stream = .ok program) : program.labels.Nodup := by
  rw [labelsSegments built]
  exact (buildLinked built).distinct

theorem successorsExits (built : build stream = .ok program) {order : Nat} {segment : Segment}
    (found : (segments stream)[order]? = some segment) (notExit : order ≠ lastSegment stream) :
    exits program.labels order segment = .ok (program.successors order) := by
  rw [labelsSegments built]
  exact (buildLinked built).exits order segment found notExit

end

theorem resolveOk {labels : List String} {block : String} {instruction : Instruction}
    {position : Nat} : resolve labels block instruction = .ok position ↔
      ∃ label, instruction.target? = some label ∧ labels.idxOf? label = some position := by
  unfold resolve
  cases instruction.target? with
  | none => simp
  | some label =>
      cases found : labels.idxOf? label with
      | none => simp [found]
      | some index => simp [found]

/-- The exits of a segment that is not empty depend on its last instruction. -/
theorem exitsLast {labels : List String} {order : Nat} {segment : Segment} {last : Instruction}
    (ends : segment.instructions.getLast? = some last) :
    exits labels order segment =
      if last.transfers = true then
        (resolve labels segment.label last).map fun target =>
          if last.isJump = true ∨ target = order + 1 then [target] else [target, order + 1]
      else .ok [order + 1] := by
  unfold exits Instruction.transfers Instruction.isBranch Instruction.isJump Opcode.transfers
    Opcode.isBranch Opcode.isJump
  rw [ends]
  cases flow : last.opcode.flow <;> simp [flow]

/-- Control goes on behind a segment, or it is transferred to a known position. -/
theorem exitsCases {labels : List String} {order : Nat} {segment : Segment} {targets : List Nat}
    (known : exits labels order segment = .ok targets) :
    (∀ last, segment.instructions.getLast? = some last → last.transfers = false) ∧
        targets = [order + 1] ∨
      ∃ last label position, segment.instructions.getLast? = some last ∧
        last.transfers = true ∧ last.target? = some label ∧ labels.idxOf? label = some position ∧
        targets =
          if last.isJump = true ∨ position = order + 1 then [position]
          else [position, order + 1] := by
  cases ends : segment.instructions.getLast? with
  | none =>
      rw [exits, ends] at known
      cases known
      exact .inl ⟨by simp, rfl⟩
  | some last =>
      rw [exitsLast ends] at known
      split at known
      · rename_i transfers
        right
        cases resolved : resolve labels segment.label last with
        | error error =>
            rw [resolved] at known
            cases known
        | ok position =>
            obtain ⟨label, aims, index⟩ := resolveOk.mp resolved
            rw [resolved] at known
            cases known
            exact ⟨last, label, position, rfl, transfers, aims, index, rfl⟩
      · rename_i goesOn
        left
        cases known
        refine ⟨fun other same => ?_, rfl⟩
        obtain rfl := Option.some.inj same
        exact Bool.eq_false_iff.mpr goesOn

/-- A segment has one or two exits, and they differ. -/
theorem exitsCount {labels : List String} {order : Nat} {segment : Segment} {targets : List Nat}
    (known : exits labels order segment = .ok targets) :
    targets.Nodup ∧ 1 ≤ targets.length ∧ targets.length ≤ 2 := by
  rcases exitsCases known with ⟨_, rfl⟩ | ⟨_, _, position, _, _, _, _, rfl⟩
  · simp
  · split
    · simp
    · rename_i apart
      have different : position ≠ order + 1 := fun same => apart (.inr same)
      simp [different]

/-- Control goes on behind a segment that does not end in a jump, and to the target of a segment
that ends in a branch or jump. -/
theorem exitsMember {labels : List String} {order : Nat} {segment : Segment} {targets : List Nat}
    (known : exits labels order segment = .ok targets) (target : Nat) :
    target ∈ targets ↔
      (∀ last, segment.instructions.getLast? = some last → last.isJump = false) ∧
          target = order + 1 ∨
        ∃ last label, segment.instructions.getLast? = some last ∧ last.transfers = true ∧
          last.target? = some label ∧ labels.idxOf? label = some target := by
  rcases exitsCases known with
    ⟨goesOn, rfl⟩ | ⟨last, label, position, ends, transfers, aims, index, rfl⟩
  · have noJump : ∀ last, segment.instructions.getLast? = some last → last.isJump = false :=
      fun last ends => (Bool.or_eq_false_iff.mp (goesOn last ends)).2
    rw [List.mem_singleton]
    constructor
    · exact fun next => .inl ⟨noJump, next⟩
    · rintro (⟨_, next⟩ | ⟨last, _, ends, transfers, _⟩)
      · exact next
      · rw [goesOn last ends] at transfers
        cases transfers
  · have aimed : (∃ other label, segment.instructions.getLast? = some other ∧
        other.transfers = true ∧ other.target? = some label ∧
          labels.idxOf? label = some target) ↔ target = position := by
      constructor
      · intro ⟨other, name, otherEnds, _, otherAims, otherIndex⟩
        obtain rfl := Option.some.inj (ends.symm.trans otherEnds)
        obtain rfl := Option.some.inj (aims.symm.trans otherAims)
        exact Option.some.inj (otherIndex.symm.trans index)
      · rintro rfl
        exact ⟨last, label, ends, transfers, aims, index⟩
    have goesOn : (∀ other, segment.instructions.getLast? = some other → other.isJump = false) ↔
        last.isJump = false := by
      simp [ends]
    rw [aimed, goesOn]
    split
    · rename_i single
      rw [List.mem_singleton]
      constructor
      · exact .inr
      · rintro (⟨noJump, next⟩ | same)
        · rcases single with jump | same
          · rw [noJump] at jump
            cases jump
          · rw [next, same]
        · exact same
    · rename_i apart
      have noJump : last.isJump = false := Bool.eq_false_iff.mpr fun jump => apart (.inl jump)
      rw [List.mem_cons, List.mem_singleton, and_iff_right noJump]
      exact or_comm

end Program

end ShaderAnalysis
