/-
This file shows that a histogram counts every instruction of the stream once, and in which order its
entries stand.
-/

import Mathlib.Algebra.BigOperators.Group.List.Lemmas
import ShaderAnalysis.Proofs.Program.Partition
import ShaderAnalysis.Report.Histogram

namespace ShaderAnalysis

namespace Histogram

/-- An entry stands before those with smaller counts and before those with the same count and a
larger key. -/
def Before (first second : String × Nat) : Prop :=
  second.2 < first.2 ∨ first.2 = second.2 ∧ first.1 < second.1

section

variable (entries : List (String × Nat))

/-- The order of the counts alone. -/
def larger (first second : String × Nat) : Bool := second.2 ≤ first.2

theorem largerTransitive (first second third : String × Nat) :
    larger first second = true → larger second third = true → larger first third = true := by
  simp only [larger, decide_eq_true_eq]
  omega

theorem largerTotal (first second : String × Nat) :
    (larger first second || larger second first) = true := by
  simp only [larger, Bool.or_eq_true, decide_eq_true_eq]
  omega

/-- Sorting by count alone leaves the entries of one count in their order. -/
theorem tiesKept (count : Nat) :
    (entries.mergeSort larger).filter (·.2 == count) = entries.filter (·.2 == count) := by
  have ties : (entries.filter (·.2 == count)).Pairwise (larger · · = true) := by
    apply List.pairwise_of_forall_mem_list
    intro first firstMember second secondMember
    simp only [List.mem_filter, beq_iff_eq] at firstMember secondMember
    simp [larger, firstMember.2, secondMember.2]
  have kept := List.sublist_mergeSort largerTransitive largerTotal ties List.filter_sublist
  have inside := kept.filter (·.2 == count)
  simp only [List.filter_filter, Bool.and_self] at inside
  have same := ((List.mergeSort_perm entries larger).filter (·.2 == count)).length_eq
  exact (inside.eq_of_length same.symm).symm

/-- Where the keys ascend, sorting by count alone gives the order of the histogram. -/
theorem sortedBefore (ascending : entries.Pairwise (·.1 < ·.1)) :
    (entries.mergeSort larger).Pairwise Before := by
  have sorted := List.pairwise_mergeSort largerTransitive largerTotal entries
  rw [List.pairwise_iff_forall_sublist] at sorted ⊢
  intro first second pair
  have order := sorted pair
  simp only [larger, decide_eq_true_eq] at order
  by_cases tie : first.2 = second.2
  · have tied := pair.filter (·.2 == second.2)
    rw [tiesKept, List.filter_cons_of_pos (by simp [tie]),
      List.filter_cons_of_pos (by simp)] at tied
    exact .inr ⟨tie, List.pairwise_iff_forall_sublist.mp ascending (tied.trans List.filter_sublist)⟩
  · exact .inl (by omega)

end

end Histogram

section

variable (keys : List String)

/-- The keys in ascending order, each of them once. -/
def distinctKeys : List String := (Std.ExtTreeSet.ofList keys).toList

theorem distinctAscending : (distinctKeys keys).Pairwise (· < ·) := by
  have ordered : (distinctKeys keys).Pairwise (compare · · = .lt) :=
    Std.ExtTreeSet.ordered_toList
  exact ordered.imp compareOfLessAndEq_eq_lt.mp

theorem distinctNodup : (distinctKeys keys).Nodup := by
  apply (distinctAscending keys).imp
  intro first second order same
  exact absurd order (same ▸ String.lt_irrefl first)

theorem distinctMember (key : String) : key ∈ distinctKeys keys ↔ key ∈ keys := by
  rw [distinctKeys, Std.ExtTreeSet.mem_toList, Std.ExtTreeSet.mem_ofList, List.contains_iff_mem]

theorem tallyDistinct : tally keys =
    ((distinctKeys keys).map fun key => (key, keys.count key)).mergeSort Histogram.larger := rfl

theorem tallyPerm :
    (tally keys).Perm ((distinctKeys keys).map fun key => (key, keys.count key)) :=
  List.mergeSort_perm _ _

theorem tallyMember (entry : String × Nat) :
    entry ∈ tally keys ↔ entry.1 ∈ keys ∧ entry.2 = keys.count entry.1 := by
  rw [(tallyPerm keys).mem_iff, List.mem_map]
  constructor
  · rintro ⟨key, member, rfl⟩
    exact ⟨(distinctMember keys key).mp member, rfl⟩
  · intro ⟨member, counted⟩
    exact ⟨entry.1, (distinctMember keys entry.1).mpr member, by rw [← counted]⟩

theorem tallyEntry {key : String} (member : key ∈ keys) : (key, keys.count key) ∈ tally keys :=
  (tallyMember keys (key, keys.count key)).mpr ⟨member, rfl⟩

theorem tallyKeysNodup : ((tally keys).map (·.1)).Nodup := by
  have same := (tallyPerm keys).map (·.1)
  rw [List.map_map] at same
  exact same.nodup_iff.mpr (by simpa [Function.comp_def] using distinctNodup keys)

theorem tallyOrdered : (tally keys).Pairwise Histogram.Before := by
  rw [tallyDistinct]
  apply Histogram.sortedBefore
  rw [List.pairwise_map]
  exact distinctAscending keys

/-- The counts of the keys with some property add up to the number of times that such keys occur. -/
theorem tallySum (holds : String → Bool) :
    (((tally keys).filter (holds ·.1)).map (·.2)).sum = keys.countP holds := by
  have same : (distinctKeys keys).Perm keys.dedup := by
    rw [List.perm_ext_iff_of_nodup (distinctNodup keys) keys.nodup_dedup]
    intro key
    rw [distinctMember, List.mem_dedup]
  rw [(((tallyPerm keys).filter _).map _).sum_nat, List.filter_map, List.map_map,
    ((same.filter _).map _).sum_nat]
  exact List.sum_map_count_dedup_filter_eq_countP holds keys

end

namespace Histogram

/-- The count of a key, which is zero without an entry. -/
def countOf (entries : List (String × Nat)) (key : String) : Nat := (entries.lookup key).getD 0

theorem lookupDistinct {entries : List (String × Nat)} (distinct : (entries.map (·.1)).Nodup)
    {entry : String × Nat} (member : entry ∈ entries) :
    entries.lookup entry.1 = some entry.2 := by
  obtain ⟨before, behind, rfl⟩ := List.append_of_mem member
  rw [List.map_append, List.nodup_append] at distinct
  refine List.lookup_eq_some_iff.mpr ⟨before, behind, rfl, fun other among => ?_⟩
  have apart := distinct.2.2 other.1 (List.mem_map_of_mem among) entry.1 List.mem_cons_self
  exact bne_iff_ne.mpr (Ne.symm apart)

theorem countOfTally (keys : List String) (key : String) :
    countOf (tally keys) key = keys.count key := by
  rw [countOf]
  by_cases member : key ∈ keys
  · rw [lookupDistinct (tallyKeysNodup keys) (tallyEntry keys member), Option.getD_some]
  · have missing : (tally keys).lookup key = none := by
      rw [List.lookup_eq_none_iff]
      intro entry among
      have present := ((tallyMember keys entry).mp among).1
      exact bne_iff_ne.mpr fun same => member (same ▸ present)
    rw [missing, Option.getD_none, List.count_eq_zero_of_not_mem member]

/-- A histogram counts the instructions of a stream by their keys: it has one entry for each key
that occurs, with the number of the instructions that have it, and larger counts come first. -/
structure Counts (grouping : Grouping) (stream : List Instruction)
    (entries : List (String × Nat)) : Prop where
  distinct : (entries.map (·.1)).Nodup
  present : ∀ key, key ∈ entries.map (·.1) ↔ ∃ instruction ∈ stream, grouping.key instruction = key
  counted : ∀ entry ∈ entries, entry.2 = stream.countP (grouping.key · == entry.1)
  total : (entries.map (·.2)).sum = stream.length
  ordered : entries.Pairwise Before

theorem tallyCounts (grouping : Grouping) (stream : List Instruction) :
    Counts grouping stream (tally (stream.map grouping.key)) where
  distinct := tallyKeysNodup _
  present key := by
    rw [List.mem_map]
    constructor
    · rintro ⟨entry, member, rfl⟩
      exact List.mem_map.mp ((tallyMember _ entry).mp member).1
    · intro occurs
      exact ⟨_, tallyEntry _ (List.mem_map.mpr occurs), rfl⟩
  counted entry member := by
    rw [((tallyMember _ entry).mp member).2, List.count, List.countP_map]
    rfl
  total := by
    have sum := tallySum (stream.map grouping.key) fun _ => true
    simpa using sum
  ordered := tallyOrdered _

/-- The blocks hold the instructions of the stream, so their keys are those of the stream. -/
theorem ofProgramStream {stream : List Instruction} {program : Program}
    (built : Program.build stream = .ok program) (grouping : Grouping) :
    ofProgram program grouping = tally (stream.map grouping.key) := by
  have same : stream.map grouping.key = program.instructions.map grouping.key := by
    rw [← List.forall₂_eq_eq_eq, List.forall₂_map_left_iff, List.forall₂_map_right_iff]
    refine (Program.instructionsKept built).imp fun first second kept => ?_
    cases grouping <;> simp only [Grouping.key, Instruction.mnemonic, kept.opcode]
  rw [ofProgram, same]

/-- The histogram of a program counts the stream that the program was built from, reached or not. By
operand size it has for each size the counts of the mnemonics of this size. -/
theorem histogramCountsStream {stream : List Instruction} {program : Program}
    (built : Program.build stream = .ok program) :
    (∀ grouping, Counts grouping stream (ofProgram program grouping)) ∧
    ∀ size, countOf (ofProgram program .operandSize) size =
      (((ofProgram program .mnemonic).filter (Grouping.suffixSize ·.1 == size)).map
        (·.2)).sum := by
  refine ⟨fun grouping => ?_, fun size => ?_⟩
  · rw [ofProgramStream built]
    exact tallyCounts grouping stream
  · have sum := tallySum (stream.map (Grouping.key .mnemonic)) fun mnemonic =>
      Grouping.suffixSize mnemonic == size
    rw [ofProgramStream built, ofProgramStream built, countOfTally, sum, List.count,
      List.countP_map, List.countP_map]
    rfl

/-- Behind the jump stands a sum that control never reaches. -/
def jumpStream : List Instruction :=
  [{ opcode := { name := "v_mov_b32" }, operands := ["v1", "v0"] },
   { opcode := { name := "s_branch", flow := .jump }, operands := ["exit"] },
   { opcode := { name := "v_add_f32" }, operands := ["v2", "v1", "v0"] },
   { opcode := { name := "v_not_b32" }, operands := ["v1", "v1"] }]

theorem unreachedCounted : ∃ program, Program.build jumpStream = .ok program ∧
    ("f32", 1) ∈ ofProgram program .operandSize ∧
    countOf (ofProgram program .operandSize) "b32" =
      (((ofProgram program .mnemonic).filter (Grouping.suffixSize ·.1 == "b32")).map
        (·.2)).sum := by
  have built : Program.build jumpStream = .ok _ := rfl
  obtain ⟨counts, sizes⟩ := histogramCountsStream built
  have occurs : ∃ instruction ∈ jumpStream, Grouping.key .operandSize instruction = "f32" := by
    decide +kernel
  obtain ⟨entry, member, named⟩ :=
    List.mem_map.mp (((counts .operandSize).present "f32").mpr occurs)
  have counted := (counts .operandSize).counted entry member
  rw [named, show jumpStream.countP _ = 1 by decide +kernel] at counted
  refine ⟨_, built, ?_, sizes "b32"⟩
  rw [← named, ← counted]
  exact member

end Histogram

end ShaderAnalysis
