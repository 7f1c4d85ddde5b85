/-
This file shows when a label that is generated for a block clashes with a label of the stream.
-/

import Mathlib.Data.List.Nodup
import ShaderAnalysis.Proofs.Program.Faults
import Std.Data.String.ToNat

namespace ShaderAnalysis

namespace Program

/-- The labels that the instructions of a stream carry. -/
def ownLabels (stream : List Instruction) : List String := stream.filterMap (·.label)

def generatedLabel (number : Nat) : String := "basic_block_" ++ toString number

/-- The leaders are numbered from `order` on, and those without a label have their labels generated
from their numbers. -/
def generatedLabels (order : Nat) (transferred : Bool) (stream : List Instruction) : List String :=
  (((leaders transferred stream).zipIdx order).filter fun (position, _) =>
    (stream[position]?.bind (·.label)).isNone).map fun (_, number) => generatedLabel number

theorem generatedLabelInjective : Function.Injective generatedLabel := by
  intro first second same
  exact Nat.repr_inj.mp ((String.append_right_inj "basic_block_").mp same)

/-- A generated label names neither the entry nor the exit. -/
theorem generatedLabelApart (number : Nat) :
    generatedLabel number ≠ Block.entryLabel ∧ generatedLabel number ≠ Block.exitLabel := by
  have long : 12 ≤ (generatedLabel number).length := by
    rw [generatedLabel, String.length_append]
    exact Nat.le_add_right 12 _
  constructor
  · intro same
    rw [same] at long
    exact absurd long (by decide)
  · intro same
    rw [same] at long
    exact absurd long (by decide)

theorem generatedLabelsNodup (order : Nat) (transferred : Bool) (stream : List Instruction) :
    (generatedLabels order transferred stream).Nodup := by
  have distinct : (((leaders transferred stream).zipIdx order).map
      (generatedLabel ∘ Prod.snd)).Nodup := by
    rw [← List.map_map, List.zipIdx_map_snd]
    exact List.Nodup.map generatedLabelInjective List.nodup_range'
  exact (List.filter_sublist.map _).nodup distinct

section

variable (order : Nat) (transferred : Bool) (first : Instruction) (stream : List Instruction)

theorem ownLabelsCons : ownLabels (first :: stream) = first.label.toList ++ ownLabels stream := by
  rw [ownLabels, List.filterMap_cons]
  cases first.label with
  | none => rfl
  | some label => rfl

theorem generatedLabelsCons :
    generatedLabels order transferred (first :: stream) =
      if first.label.isSome = true then generatedLabels (order + 1) first.transfers stream
      else if transferred = true then
        generatedLabel order :: generatedLabels (order + 1) first.transfers stream
      else generatedLabels order first.transfers stream := by
  have later : ∀ number, ((((leaders first.transfers stream).map (· + 1)).zipIdx number).filter
      fun place => ((first :: stream)[place.1]?.bind (·.label)).isNone).map
        (fun place => generatedLabel place.2) = generatedLabels number first.transfers stream := by
    intro number
    rw [List.zipIdx_map, List.filter_map, List.map_map]
    rfl
  rw [generatedLabels, leadersCons]
  cases label : first.label with
  | some own => simp [label, ← later]
  | none =>
      cases transferred with
      | true => simp [label, ← later]
      | false => simp [← later]

/-- The labels of the leaders are those of the stream and the generated ones. -/
theorem leaderLabelsPerm :
    (leaderLabels order transferred stream).Perm
      (ownLabels stream ++ generatedLabels order transferred stream) := by
  induction stream generalizing order transferred with
  | nil => exact .nil
  | cons first stream inductionHypothesis =>
      rw [leaderLabelsCons, generatedLabelsCons, ownLabelsCons, leaderLabel]
      cases first.label with
      | some label =>
          simpa using inductionHypothesis (order + 1) first.transfers
      | none =>
          cases transferred with
          | true =>
              have same := (inductionHypothesis (order + 1) first.transfers).cons
                (generatedLabel order)
              exact same.trans List.perm_middle.symm
          | false => exact inductionHypothesis order first.transfers

end

/-- The labels of the two blocks at the ends. -/
def endLabels : List String := [Block.entryLabel, Block.exitLabel]

theorem endLabelsNodup {labels : List String} (distinct : labels.Nodup)
    (noEntry : Block.entryLabel ∉ labels) (noExit : Block.exitLabel ∉ labels) :
    (endLabels ++ labels).Nodup := by
  have apart : Block.entryLabel ≠ Block.exitLabel := by decide
  simp [endLabels, distinct, noEntry, noExit, apart]

theorem generatedNotEnd (order : Nat) (transferred : Bool) (stream : List Instruction) :
    Block.entryLabel ∉ generatedLabels order transferred stream ∧
      Block.exitLabel ∉ generatedLabels order transferred stream := by
  constructor
  · intro member
    obtain ⟨place, _, same⟩ := List.mem_map.mp member
    exact (generatedLabelApart place.2).1 same
  · intro member
    obtain ⟨place, _, same⟩ := List.mem_map.mp member
    exact (generatedLabelApart place.2).2 same

/-- The blocks have the labels of the ends, those of the stream and the generated ones. -/
theorem blockLabelsCount (stream : List Instruction) (label : String) :
    (blockLabels stream).count label = endLabels.count label + (ownLabels stream).count label +
      (generatedLabels 1 true stream).count label := by
  rw [blockLabels, List.count_append, List.count_cons, (leaderLabelsPerm 1 true stream).count_eq,
    List.count_append]
  simp only [endLabels, List.count_cons, List.count_nil]
  omega

/-- A label that is reported occurs at least twice. -/
theorem duplicateCount {stream : List Instruction} {label : String}
    (failed : build stream = .error (.duplicateLabel label)) :
    2 ≤ (blockLabels stream).count label := by
  cases faultOfBuild failed with
  | @duplicate index _ found _ again =>
      obtain ⟨inside, same⟩ := List.getElem?_eq_some_iff.mp found
      have whole := List.take_append_drop index (blockLabels stream)
      rw [List.drop_eq_getElem_cons inside, same] at whole
      have earlier := List.count_pos_iff.mpr again
      rw [← whole, List.count_append, List.count_cons_self]
      omega

theorem duplicateOfRepeat {stream : List Instruction} (repeated : ¬ (blockLabels stream).Nodup) :
    ∃ label, build stream = .error (.duplicateLabel label) := by
  cases result : build stream with
  | ok program => exact absurd (buildAccepts.mp ⟨program, result⟩).distinct repeated
  | error error =>
      cases faultOfBuild result with
      | @duplicate _ label _ _ _ => exact ⟨label, rfl⟩
      | missing first _ => exact absurd first.distinct repeated
      | unresolved first _ => exact absurd first.distinct repeated

/-- The generated labels differ from each other and from those of the entry and the exit. Where the
labels of the stream do so as well, a label is reported as a duplicate exactly if one of the
generated labels is a label of the stream. -/
theorem duplicateExactlyOnClash {stream : List Instruction} (distinct : (ownLabels stream).Nodup)
    (noEntry : Block.entryLabel ∉ ownLabels stream) (noExit : Block.exitLabel ∉ ownLabels stream) :
    (generatedLabels 1 true stream).Nodup ∧
      Block.entryLabel ∉ generatedLabels 1 true stream ∧
      Block.exitLabel ∉ generatedLabels 1 true stream ∧
      (∀ label, build stream = .error (.duplicateLabel label) →
        label ∈ generatedLabels 1 true stream ∧ label ∈ ownLabels stream) ∧
      ((∃ label, build stream = .error (.duplicateLabel label)) ↔
        ∃ label ∈ generatedLabels 1 true stream, label ∈ ownLabels stream) := by
  have generated := generatedLabelsNodup 1 true stream
  obtain ⟨notEntry, notExit⟩ := generatedNotEnd 1 true stream
  have clash : ∀ label, build stream = .error (.duplicateLabel label) →
      label ∈ generatedLabels 1 true stream ∧ label ∈ ownLabels stream := by
    intro label failed
    have twice := duplicateCount failed
    have own := List.nodup_iff_count_le_one.mp (endLabelsNodup distinct noEntry noExit) label
    have other := List.nodup_iff_count_le_one.mp (endLabelsNodup generated notEntry notExit) label
    rw [blockLabelsCount] at twice
    rw [List.count_append] at own other
    rw [← List.count_pos_iff, ← List.count_pos_iff]
    omega
  refine ⟨generated, notEntry, notExit, clash, ?_, ?_⟩
  · rintro ⟨label, failed⟩
    exact ⟨label, clash label failed⟩
  · rintro ⟨label, named, carried⟩
    apply duplicateOfRepeat
    intro once
    have count := List.nodup_iff_count_le_one.mp once label
    rw [blockLabelsCount] at count
    rw [← List.count_pos_iff] at named carried
    omega

/-- The first block has the label that is generated for the second one. -/
def clashStream : List Instruction :=
  [{ opcode := { name := "s_nop" }, operands := ["0"], label := some "basic_block_2" },
   { opcode := { name := "s_cbranch_scc0", flow := .branch }, operands := ["exit"] },
   { opcode := { name := "s_endpgm" } }]

theorem clashReported : ∃ label, build clashStream = .error (.duplicateLabel label) ∧
    label ∈ ownLabels clashStream := by
  have exactly := @duplicateExactlyOnClash clashStream (by decide) (by decide) (by decide)
  obtain ⟨label, failed⟩ := exactly.2.2.2.2.mpr ⟨"basic_block_2", by decide, by decide⟩
  exact ⟨label, failed, (exactly.2.2.2.1 label failed).2⟩

/-- The labels of the stream differ, and none of them is reserved, but the stream is refused. -/
theorem clashRefused : (ownLabels clashStream).Nodup ∧ Block.entryLabel ∉ ownLabels clashStream ∧
    Block.exitLabel ∉ ownLabels clashStream ∧
    build clashStream = .error (.duplicateLabel "basic_block_2") := by
  exact ⟨by decide, by decide, by decide, by decide⟩

end Program

end ShaderAnalysis
