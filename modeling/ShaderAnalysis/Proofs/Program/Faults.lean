/-
This file shows which streams are programs, and which fault is reported for all the others.
-/

import ShaderAnalysis.Proofs.Program.Leaders
import ShaderAnalysis.Proofs.Program.Linking

namespace ShaderAnalysis

namespace Program

/-- A position stands in the block of the last leader through it. -/
def labelAt (stream : List Instruction) (position : Nat) : String :=
  (leaderLabels 1 true (stream.take (position + 1))).getLastD Block.entryLabel

/-- A branch or jump is resolved if its first operand is one of the labels. -/
def Resolved (labels : List String) (instruction : Instruction) : Prop :=
  instruction.transfers = true → ∃ target ∈ labels, instruction.target? = some target

/-- In a well-labelled stream no two blocks share a label, and every branch and jump goes to a
block. -/
structure WellLabelled (stream : List Instruction) : Prop where
  distinct : (blockLabels stream).Nodup
  resolved : ∀ instruction ∈ stream, Resolved (blockLabels stream) instruction

/-- The instruction is the first one in the stream that is not resolved, and labels are no fault. -/
structure FirstUnresolved (stream : List Instruction) (position : Nat) (instruction : Instruction) :
    Prop where
  distinct : (blockLabels stream).Nodup
  found : stream[position]? = some instruction
  unresolved : ¬ Resolved (blockLabels stream) instruction
  earlier : ∀ before < position, ∀ other, stream[before]? = some other →
    Resolved (blockLabels stream) other

/-- The fault of a stream is the first label that repeats an earlier one, or else the first branch
or jump that is not resolved. -/
inductive FirstFault (stream : List Instruction) : BuildError → Prop
  | duplicate {index : Nat} {label : String} (found : (blockLabels stream)[index]? = some label)
      (distinct : ((blockLabels stream).take index).Nodup)
      (again : label ∈ (blockLabels stream).take index) :
      FirstFault stream (.duplicateLabel label)
  | missing {position : Nat} {instruction : Instruction}
      (first : FirstUnresolved stream position instruction)
      (without : instruction.target? = none) :
      FirstFault stream (.missingTarget (labelAt stream position))
  | unresolved {position : Nat} {instruction : Instruction} {target : String}
      (first : FirstUnresolved stream position instruction)
      (aims : instruction.target? = some target) :
      FirstFault stream (.unresolvedTarget (labelAt stream position) target)

/-- The error of a result, if it is one. -/
def failure {ε α : Type} : Except ε α → Option ε
  | .ok _ => none
  | .error error => some error

theorem failureNone {ε α : Type} {result : Except ε α} :
    failure result = none ↔ ∃ value, result = .ok value := by
  cases result <;> simp [failure]

theorem failureSome {ε α : Type} {result : Except ε α} {error : ε} :
    failure result = some error ↔ result = .error error := by
  cases result <;> simp [failure]

theorem failureMap {ε α β : Type} (change : α → β) (result : Except ε α) :
    failure (result.map change) = failure result := by
  cases result <;> rfl

/-- The first step that fails decides. -/
theorem failureMapM {ε α β : Type} (step : α → Except ε β) (values : List α) :
    failure (values.mapM step) = values.findSome? fun value => failure (step value) := by
  induction values with
  | nil => rfl
  | cons value values inductionHypothesis =>
      rw [List.mapM_cons, List.findSome?_cons, ← inductionHypothesis]
      cases step value with
      | error error => rfl
      | ok result => cases values.mapM step <;> rfl

/-- What is found is found first. -/
theorem findSomeFirst {α β : Type} {find : α → Option β} {list : List α} {result : β} :
    list.findSome? find = some result ↔ ∃ (index : Nat) (value : α), list[index]? = some value ∧
      find value = some result ∧
        ∀ before < index, ∀ other, list[before]? = some other → find other = none := by
  rw [List.findSome?_eq_some_iff]
  constructor
  · rintro ⟨before, value, after, rfl, found, earlier⟩
    refine ⟨before.length, value, by simp, found, fun index inside other place => ?_⟩
    rw [List.getElem?_append_left inside] at place
    exact earlier other (List.mem_of_getElem? place)
  · rintro ⟨index, value, place, found, earlier⟩
    obtain ⟨inside, rfl⟩ := List.getElem?_eq_some_iff.mp place
    refine ⟨list.take index, list[index], list.drop (index + 1), ?_, found, fun other member => ?_⟩
    · rw [← List.drop_eq_getElem_cons inside, List.take_append_drop]
    · obtain ⟨before, same⟩ := List.mem_iff_getElem?.mp member
      have bound := (List.getElem?_eq_some_iff.mp same).1
      rw [List.length_take] at bound
      rw [List.getElem?_take_of_lt (by omega)] at same
      exact earlier before (by omega) other same

theorem firstRepeatSome {seen labels : List String} {label : String} :
    firstRepeat seen labels = some label ↔ ∃ index, labels[index]? = some label ∧
      (labels.take index).Nodup ∧ (∀ earlier ∈ labels.take index, earlier ∉ seen) ∧
        (label ∈ seen ∨ label ∈ labels.take index) := by
  -- A label that was passed counts as seen, so the labels seen are general in the induction.
  induction labels generalizing seen with
  | nil => simp [firstRepeat]
  | cons first rest inductionHypothesis =>
      rw [firstRepeat]
      split
      · rename_i repeated
        rw [List.contains_iff_mem] at repeated
        constructor
        · intro same
          obtain rfl := Option.some.inj same
          exact ⟨0, rfl, .nil, by simp, .inl repeated⟩
        · rintro ⟨index, found, _, fresh, _⟩
          cases index with
          | zero => exact found
          | succ index => exact absurd repeated (fresh first (by simp))
      · rename_i fresh
        rw [List.contains_iff_mem] at fresh
        rw [inductionHypothesis]
        constructor
        · rintro ⟨index, found, distinct, apart, again⟩
          refine ⟨index + 1, found, ?_, ?_, ?_⟩
          · rw [List.take_succ_cons, List.nodup_cons]
            exact ⟨fun member => apart first member List.mem_cons_self, distinct⟩
          · rw [List.take_succ_cons, List.forall_mem_cons]
            exact ⟨fresh, fun other member => fun old =>
              apart other member (List.mem_cons_of_mem first old)⟩
          · rw [List.take_succ_cons, List.mem_cons]
            rw [List.mem_cons] at again
            tauto
        · rintro ⟨index, found, distinct, apart, again⟩
          cases index with
          | zero =>
              obtain rfl : first = label := Option.some.inj found
              rcases again with old | none
              · exact absurd old fresh
              · cases none
          | succ index =>
              rw [List.take_succ_cons] at distinct apart again
              obtain ⟨once, distinct⟩ := List.nodup_cons.mp distinct
              refine ⟨index, found, distinct, fun other member old => ?_, ?_⟩
              · rcases List.mem_cons.mp old with rfl | older
                · exact once member
                · exact apart other (List.mem_cons_of_mem first member) older
              · rw [List.mem_cons] at again ⊢
                tauto

section

variable (labels : List String)

/-- The fault of an instruction in a block. -/
def fault (block : String) (instruction : Instruction) : Option BuildError :=
  if instruction.transfers = true then failure (resolve labels block instruction) else none

theorem faultMissing (block : String) {instruction : Instruction}
    (transfers : instruction.transfers = true) (without : instruction.target? = none) :
    fault labels block instruction = some (.missingTarget block) := by
  rw [fault, if_pos transfers, resolve, without]
  rfl

theorem faultTarget (block : String) {instruction : Instruction} {target : String}
    (transfers : instruction.transfers = true) (aims : instruction.target? = some target) :
    fault labels block instruction =
      if target ∈ labels then none else some (.unresolvedTarget block target) := by
  rw [fault, if_pos transfers, resolve, aims]
  dsimp only
  split
  · rename_i unknown
    rw [if_neg (List.idxOf?_eq_none_iff.mp unknown)]
    rfl
  · rename_i position known
    rw [if_pos]
    · rfl
    · by_contra unknown
      rw [List.idxOf?_eq_none_iff.mpr unknown] at known
      cases known

theorem faultNone (block : String) (instruction : Instruction) :
    fault labels block instruction = none ↔ Resolved labels instruction := by
  unfold Resolved
  by_cases transfers : instruction.transfers = true
  · cases aims : instruction.target? with
    | none => simp [faultMissing labels block transfers aims, transfers]
    | some target => simp [faultTarget labels block transfers aims, transfers]
  · simp [fault, transfers]

/-- The instructions of a segment stand under its label. -/
def Segment.placed (segment : Segment) : List (String × Instruction) :=
  segment.instructions.map fun instruction => (segment.label, instruction)

/-- Only the last instruction of a segment can be at fault. -/
theorem exitsFault (order : Nat) {segment : Segment}
    (straight : ∀ instruction ∈ segment.instructions.dropLast, instruction.transfers = false) :
    failure (exits labels order segment) =
      segment.placed.findSome? fun placed => fault labels placed.1 placed.2 := by
  rw [Segment.placed, List.findSome?_map]
  change _ = segment.instructions.findSome? (fault labels segment.label)
  cases ends : segment.instructions.getLast? with
  | none =>
      rw [exits, ends, List.getLast?_eq_none_iff.mp ends]
      rfl
  | some last =>
      have before :
          segment.instructions.dropLast.findSome? (fault labels segment.label) = none := by
        rw [List.findSome?_eq_none_iff]
        intro instruction member
        simp [fault, straight instruction member]
      rw [exitsLast ends, ← List.dropLast_append_getLast? last ends, List.findSome?_append, before,
        Option.none_or, List.findSome?_singleton, fault]
      split
      · rw [failureMap]
      · rfl

end

theorem prependPlaced (first : Instruction) (order : Nat) (transferred : Bool) (label : String)
    (stream : List Instruction) :
    (prepend first (pieces order transferred label stream)).flatMap (·.placed) =
      (label, first) :: (pieces order transferred label stream).flatMap (·.placed) := rfl

/-- Every instruction stands in the segment of the last leader through it. -/
theorem piecesPlaced (order : Nat) (transferred : Bool) (label : String)
    (stream : List Instruction) :
    (pieces order transferred label stream).flatMap (·.placed) =
      stream.zipIdx.map fun (instruction, position) =>
        ((leaderLabels order transferred (stream.take (position + 1))).getLastD label,
          instruction) := by
  induction stream generalizing order transferred label with
  | nil => rfl
  | cons first stream inductionHypothesis =>
      rw [List.zipIdx_cons, Nat.zero_add, List.zipIdx_succ, List.map_cons, List.map_map]
      simp only [Function.comp_def, List.take_succ_cons, List.take_zero, leaderLabelsCons]
      by_cases leader : (transferred || first.label.isSome) = true
      · rw [piecesLeader leader, List.flatMap_cons, prependPlaced, inductionHypothesis]
        simp only [if_pos leader, List.getLastD_cons]
        rfl
      · rw [piecesOther leader, prependPlaced, inductionHypothesis]
        simp only [if_neg leader]
        rfl

theorem piecesStraight (stream : List Instruction) :
    ∀ segment ∈ pieces 1 true Block.entryLabel stream,
      ∀ instruction ∈ segment.instructions.dropLast, instruction.transfers = false := by
  intro segment member
  rcases List.mem_cons.mp member with rfl | later
  · exact (cutRunning 1 true stream).straight
  · exact (cutStraight 1 true stream segment later).straight

/-- Searching the segments for one that fails is searching their instructions for a fault. -/
theorem segmentsFault (labels : List String) {list : List Segment}
    (straight : ∀ segment ∈ list, ∀ instruction ∈ segment.instructions.dropLast,
      instruction.transfers = false) (order : Nat) :
    (list.zipIdx order).findSome? (fun place => failure (exits labels place.2 place.1)) =
      (list.flatMap (·.placed)).findSome? fun placed => fault labels placed.1 placed.2 := by
  induction list generalizing order with
  | nil => rfl
  | cons segment list inductionHypothesis =>
      obtain ⟨here, later⟩ := List.forall_mem_cons.mp straight
      rw [List.zipIdx_cons, List.findSome?_cons, exitsFault labels order here,
        inductionHypothesis later, List.flatMap_cons, List.findSome?_append]
      cases segment.placed.findSome? fun placed => fault labels placed.1 placed.2 <;> rfl

/-- A stream fails with the first label that repeats, or else with the first fault in it. -/
theorem buildFailure (stream : List Instruction) :
    failure (build stream) =
      match firstRepeat [] (blockLabels stream) with
      | some label => some (.duplicateLabel label)
      | none => stream.zipIdx.findSome? fun (instruction, position) =>
          fault (blockLabels stream) (labelAt stream position) instruction := by
  rw [build, segmentsLabels]
  cases firstRepeat [] (blockLabels stream) with
  | some label => rfl
  | none =>
      dsimp only
      rw [bind_pure_comp]
      change failure (Except.map _ _) = _
      -- Only the exit is left out of the search, and it has no instruction.
      rw [failureMap, failureMapM, segmentsPieces, List.dropLast_concat,
        segmentsFault _ (piecesStraight stream), piecesPlaced, List.findSome?_map]
      rfl

section

variable {stream : List Instruction}

theorem blockLabelsDistinct :
    firstRepeat [] (blockLabels stream) = none ↔ (blockLabels stream).Nodup := by
  rw [firstRepeatNone]
  simp

theorem transfersOfUnresolved {labels : List String} {instruction : Instruction}
    (unresolved : ¬ Resolved labels instruction) : instruction.transfers = true := by
  by_contra goesOn
  exact unresolved fun transfers => absurd transfers goesOn

/-- Where the labels are no fault, the first instruction that is not resolved is the fault. -/
theorem buildFailureFirst (distinct : (blockLabels stream).Nodup) {error : BuildError} :
    failure (build stream) = some error ↔ ∃ position instruction,
      FirstUnresolved stream position instruction ∧
        fault (blockLabels stream) (labelAt stream position) instruction = some error := by
  rw [buildFailure, blockLabelsDistinct.mpr distinct]
  dsimp only
  rw [findSomeFirst]
  constructor
  · rintro ⟨index, ⟨instruction, position⟩, place, found, earlier⟩
    rw [List.getElem?_zipIdx, Option.map_eq_some_iff] at place
    obtain ⟨_, here, same⟩ := place
    obtain ⟨rfl, rfl⟩ := Prod.mk.inj same
    rw [Nat.zero_add] at found
    refine ⟨index, _, ⟨distinct, here, fun resolved => ?_, fun before inside other there => ?_⟩,
      found⟩
    · rw [(faultNone _ _ _).mpr resolved] at found
      cases found
    · apply (faultNone _ (labelAt stream before) other).mp
      refine earlier before inside (other, before) ?_
      rw [List.getElem?_zipIdx, there, Option.map_some, Nat.zero_add]
  · rintro ⟨position, instruction, first, found⟩
    refine ⟨position, (instruction, position), ?_, found, fun before inside place there => ?_⟩
    · rw [List.getElem?_zipIdx, first.found, Option.map_some, Nat.zero_add]
    · rw [List.getElem?_zipIdx, Option.map_eq_some_iff] at there
      obtain ⟨other, here, rfl⟩ := there
      exact (faultNone _ _ _).mpr (first.earlier before inside other here)

theorem buildAccepts : (∃ program, build stream = .ok program) ↔ WellLabelled stream := by
  rw [← failureNone, buildFailure]
  cases repeated : firstRepeat [] (blockLabels stream) with
  | some label =>
      refine iff_of_false (by simp) fun wellLabelled => ?_
      rw [blockLabelsDistinct.mpr wellLabelled.distinct] at repeated
      cases repeated
  | none =>
      have distinct := blockLabelsDistinct.mp repeated
      dsimp only
      rw [List.findSome?_eq_none_iff]
      constructor
      · intro faultless
        refine ⟨distinct, fun instruction member => ?_⟩
        obtain ⟨position, place⟩ := List.mem_iff_getElem?.mp member
        exact (faultNone _ _ _).mp (faultless (instruction, position)
          (List.mem_zipIdx_iff_getElem?.mpr place))
      · intro wellLabelled place member
        have inside := List.mem_of_getElem? (List.mem_zipIdx_iff_getElem?.mp member)
        exact (faultNone _ _ _).mpr (wellLabelled.resolved place.1 inside)

theorem faultOfBuild {error : BuildError} (failed : build stream = .error error) :
    FirstFault stream error := by
  rw [← failureSome] at failed
  cases repeated : firstRepeat [] (blockLabels stream) with
  | some label =>
      rw [buildFailure, repeated] at failed
      obtain rfl := Option.some.inj failed
      obtain ⟨index, found, distinct, _, again⟩ := firstRepeatSome.mp repeated
      exact .duplicate found distinct (again.resolve_left List.not_mem_nil)
  | none =>
      obtain ⟨position, instruction, first, found⟩ :=
        (buildFailureFirst (blockLabelsDistinct.mp repeated)).mp failed
      have transfers := transfersOfUnresolved first.unresolved
      cases aims : instruction.target? with
      | none =>
          rw [faultMissing _ _ transfers aims] at found
          obtain rfl := Option.some.inj found
          exact .missing first aims
      | some target =>
          rw [faultTarget _ _ transfers aims] at found
          split at found
          · cases found
          · obtain rfl := Option.some.inj found
            exact .unresolved first aims

theorem buildOfFault {error : BuildError} (first : FirstFault stream error) :
    build stream = .error error := by
  rw [← failureSome]
  cases first with
  | duplicate found distinct again =>
      have repeated := firstRepeatSome.mpr
        ⟨_, found, distinct, fun _ _ => List.not_mem_nil, .inr again⟩
      rw [buildFailure, repeated]
  | missing first without =>
      refine (buildFailureFirst first.distinct).mpr ⟨_, _, first, ?_⟩
      exact faultMissing _ _ (transfersOfUnresolved first.unresolved) without
  | unresolved first aims =>
      refine (buildFailureFirst first.distinct).mpr ⟨_, _, first, ?_⟩
      rw [faultTarget _ _ (transfersOfUnresolved first.unresolved) aims, if_neg]
      intro member
      exact first.unresolved fun _ => ⟨_, member, aims⟩

end

end Program

end ShaderAnalysis
