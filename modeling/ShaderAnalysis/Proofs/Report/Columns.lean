/-
This file shows that the columns of a histogram have room for their entries.
-/

import Mathlib.Algebra.Order.BigOperators.Group.List
import Mathlib.Data.Nat.Digits.Defs
import Mathlib.Order.Bounds.Defs
import ShaderAnalysis.Proofs.Report.Histogram
import ShaderAnalysis.Report.Basic

namespace ShaderAnalysis

namespace Text

/-- Every character takes at least one byte. -/
theorem lengthBytes (text : String) : text.length ≤ text.utf8ByteSize := by
  induction text using String.push_induction with
  | empty => rfl
  | push text character inductionHypothesis =>
      have positive := character.utf8Size_pos
      rw [String.length_push, String.utf8ByteSize_push]
      omega

end Text

namespace Histogram

section

variable (total : UInt64)

/-- The steps count the exponent up to the first power of ten that reaches the total. As long as the
power is below the total, no step has met the limit of 64 bits. -/
theorem stepsFromLeast {power : Nat} (exponent : Nat) (positive : 0 < power)
    (known : power = min (10 ^ exponent) largest)
    (below : ∀ earlier < exponent, 10 ^ earlier < total.toNat) :
    IsLeast {exponent | total.toNat ≤ 10 ^ exponent}
      (exponent + stepsFrom total power positive) := by
  have limit : total.toNat ≤ largest := Nat.le_sub_one_of_lt total.toNat_lt
  fun_induction stepsFrom total power positive generalizing exponent with
  | case1 power positive less inductionHypothesis =>
      have exact : power = 10 ^ exponent := by omega
      have next : tenfold power = min (10 ^ (exponent + 1)) largest := by
        rw [tenfold, exact, Nat.pow_succ']
      have further := inductionHypothesis (exponent + 1) next fun earlier before => by
        rcases Nat.lt_succ_iff_lt_or_eq.mp before with sooner | rfl
        · exact below earlier sooner
        · exact exact ▸ less
      rwa [Nat.add_assoc, Nat.add_comm 1] at further
  | case2 power positive reached =>
      refine ⟨?_, fun other fits => ?_⟩
      · change total.toNat ≤ 10 ^ exponent
        omega
      · by_contra earlier
        have short := below other (by omega)
        exact absurd fits (by simpa using short)

theorem countWidthLeast :
    ∃ exponent, IsLeast {exponent | total.toNat ≤ 10 ^ exponent} exponent ∧
      countWidth total = exponent + 1 := by
  have least := stepsFromLeast total 0 Nat.one_pos (by decide) (by simp)
  rw [Nat.zero_add] at least
  exact ⟨_, least, rfl⟩

theorem countFits {count : Nat} (bounded : count ≤ total.toNat) :
    (toString count).length ≤ countWidth total := by
  obtain ⟨exponent, least, wide⟩ := countWidthLeast total
  have room : count < 10 ^ (exponent + 1) := by
    calc count ≤ 10 ^ exponent := Nat.le_trans bounded least.1
      _ < 10 ^ (exponent + 1) := Nat.pow_lt_pow_succ (by decide)
  rw [wide, Nat.toString_eq_repr]
  exact Nat.repr_length count (exponent + 1) exponent.succ_pos room

end

theorem keyFits {entries : List (String × Nat)} {entry : String × Nat} (member : entry ∈ entries) :
    entry.1.length + 2 ≤ keyWidth entries := by
  have bounded := ((foldMaxLe (entries.map (·.1.utf8ByteSize)) 0 _).mp (Nat.le_refl _)).2 _
    (List.mem_map_of_mem member)
  have bytes := Text.lengthBytes entry.1
  rw [keyWidth]
  omega

/-- A row starts with the fields of its entry. Spaces fill up the field of the key behind it and the
field of the count before it. -/
def RowOf (keyWidth countWidth : Nat) (entry : String × Nat) (row : String) : Prop :=
  ∃ key count share : String, row = key ++ " " ++ count ++ " (" ++ share ++ " %)" ∧
    key.length = keyWidth ∧ (∃ fill, key = entry.1 ++ String.ofList (List.replicate fill ' ')) ∧
    count.length = countWidth ∧
      ∃ fill, count = String.ofList (List.replicate fill ' ') ++ toString entry.2

theorem rowFields {keyWidth countWidth total : Nat} {entry : String × Nat}
    (keyRoom : entry.1.length ≤ keyWidth) (countRoom : (toString entry.2).length ≤ countWidth) :
    RowOf keyWidth countWidth entry (row keyWidth countWidth total entry) := by
  refine ⟨_, _, _, rfl, ?_, ⟨_, rfl⟩, ?_, ⟨_, rfl⟩⟩
  · rw [Text.leftColumnLength]
    exact Nat.max_eq_left keyRoom
  · rw [Text.rightColumnLength]
    exact Nat.max_eq_left countRoom

/-- As long as 64 bits hold the total, every entry fits into its row. -/
theorem renderRows {entries : List (String × Nat)}
    (fits : (entries.map (·.2)).sum < UInt64.size) :
    ∃ rows, render entries = Text.unlines rows ∧
      List.Forall₂
        (RowOf (keyWidth entries) (countWidth (Nat.toUInt64 (entries.map (·.2)).sum)))
        entries rows := by
  refine ⟨_, rfl, ?_⟩
  rw [List.forall₂_map_right_iff, List.forall₂_same]
  intro entry member
  have counted : entry.2 ≤ (entries.map (·.2)).sum :=
    List.le_sum_of_mem (List.mem_map_of_mem member)
  have total : (Nat.toUInt64 (entries.map (·.2)).sum).toNat = (entries.map (·.2)).sum :=
    UInt64.toNat_ofNat_of_lt' fits
  apply rowFields
  · exact Nat.le_trans (Nat.le_add_right _ 2) (keyFits member)
  · exact countFits _ (total.symm ▸ counted)

/-- The column of the counts is one wider than the least exponent whose power of ten reaches the
total, though the steps stop at the limit of 64 bits. It has room for every count up to the total. A
key is at least two characters shorter than its column. So the fields of all rows are as wide as
their columns. -/
theorem columnsAligned :
    (∀ total : UInt64,
      (∃ exponent, IsLeast {exponent | total.toNat ≤ 10 ^ exponent} exponent ∧
        countWidth total = exponent + 1) ∧
      ∀ count ≤ total.toNat, (toString count).length ≤ countWidth total) ∧
    (∀ (entries : List (String × Nat)), ∀ entry ∈ entries,
      entry.1.length + 2 ≤ keyWidth entries) ∧
    ∀ (program : Program) (grouping : Grouping), program.instructions.length < UInt64.size →
      ∃ rows, Report.render program (.histogram grouping) = Text.unlines rows ∧
        List.Forall₂
          (RowOf (keyWidth (ofProgram program grouping))
            (countWidth program.instructions.length.toUInt64))
          (ofProgram program grouping) rows := by
  refine ⟨fun total => ⟨countWidthLeast total, fun count => countFits total⟩,
    fun entries entry => keyFits, fun program grouping fits => ?_⟩
  have total := (tallyCounts grouping program.instructions).total
  rw [← total] at fits ⊢
  exact renderRows fits

/-- A mnemonic has more bytes than characters. -/
def accentedStream : List Instruction :=
  [{ opcode := { name := "v_né_f32" } }, { opcode := { name := "s_endpgm" } }]

/-- The column of the keys has room for the bytes of the accented mnemonic, one more than its
characters. The shares are computed in double precision and do not evaluate in a proof. -/
theorem accentedAligned : ∃ program, Program.build accentedStream = .ok program ∧
    program.instructions.length < UInt64.size ∧
    ofProgram program .mnemonic = [("s_endpgm", 1), ("v_né_f32", 1)] ∧
    (let share := Text.rightColumn 6 (Share.render 1 2)
     Report.render program (.histogram .mnemonic) = Text.unlines
       ["s_endpgm     1 (" ++ share ++ " %)", "v_né_f32     1 (" ++ share ++ " %)"]) ∧
    (∃ rows, Report.render program (.histogram .mnemonic) = Text.unlines rows ∧
      List.Forall₂
        (RowOf (keyWidth (ofProgram program .mnemonic))
          (countWidth program.instructions.length.toUInt64))
        (ofProgram program .mnemonic) rows) ∧
    countWidth (UInt64.ofNat largest) = 21 := by
  obtain ⟨program, built⟩ : ∃ program, Program.build accentedStream = .ok program := ⟨_, rfl⟩
  obtain ⟨widths, _, aligned⟩ := columnsAligned
  have fits : program.instructions.length < UInt64.size := by
    rw [← (Program.instructionsKept built).length_eq]
    decide
  have entries : ofProgram program .mnemonic = [("s_endpgm", 1), ("v_né_f32", 1)] := by
    rw [ofProgramStream built, tallyDistinct, List.mergeSort_of_pairwise (by decide +kernel)]
    decide +kernel
  refine ⟨program, built, fits, entries, ?_, aligned program .mnemonic fits, ?_⟩
  · intro share
    have keys : keyWidth [("s_endpgm", 1), ("v_né_f32", 1)] = 11 := by decide +kernel
    have counts : countWidth (Nat.toUInt64 2) = 2 := by decide +kernel
    have first : row 11 2 2 ("s_endpgm", 1) = "s_endpgm     1 (" ++ share ++ " %)" :=
      congrArg (· ++ share ++ " %)") (by decide +kernel)
    have second : row 11 2 2 ("v_né_f32", 1) = "v_né_f32     1 (" ++ share ++ " %)" :=
      congrArg (· ++ share ++ " %)") (by decide +kernel)
    change render (ofProgram program .mnemonic) = _
    rw [entries, render, keys, ← first, ← second]
    exact congrArg (fun wide => Text.unlines (List.map (row 11 wide 2) _)) counts
  · obtain ⟨⟨exponent, least, wide⟩, _⟩ := widths (UInt64.ofNat largest)
    have twenty : IsLeast {exponent | (UInt64.ofNat largest).toNat ≤ 10 ^ exponent} 20 := by
      refine ⟨by decide, fun other fits => ?_⟩
      by_contra fewer
      have small : 10 ^ other ≤ 10 ^ 19 := Nat.pow_le_pow_right (by decide) (by omega)
      exact absurd (Nat.le_trans fits small) (by decide)
    rw [wide, least.unique twenty]

end Histogram

end ShaderAnalysis
