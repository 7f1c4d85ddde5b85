/-
This file finds the instructions that lead the blocks of a stream, and the labels of these blocks.
-/

import ShaderAnalysis.Counting
import ShaderAnalysis.Proofs.Program.Segments

namespace ShaderAnalysis

namespace Program

/-- An instruction leads a block if control was transferred right before it or if it has a label. In
front of the first instruction control was transferred or not, as given. -/
def leads (transferred : Bool) (stream : List Instruction) (position : Nat) : Bool :=
  (match position with
    | 0 => transferred
    | before + 1 => stream[before]?.any (·.transfers)) ||
  stream[position]?.any (·.label.isSome)

/-- The positions of the leaders, in ascending order. -/
def leaders (transferred : Bool) (stream : List Instruction) : List Nat :=
  (List.range stream.length).filter (leads transferred stream)

/-- The leaders are numbered from `order` on, and one without a label is named for its number. -/
def leaderLabels (order : Nat) (transferred : Bool) (stream : List Instruction) : List String :=
  ((leaders transferred stream).zipIdx order).map fun (position, number) =>
    (stream[position]?.bind (·.label)).getD ("basic_block_" ++ toString number)

/-- The first instruction leads a block, and the entry and the exit stand at either end. -/
def blockLabels (stream : List Instruction) : List String :=
  Block.entryLabel :: leaderLabels 1 true stream ++ [Block.exitLabel]

section

variable (transferred : Bool) (first : Instruction) (stream : List Instruction)

theorem leadsNext (position : Nat) :
    leads transferred (first :: stream) (position + 1) = leads first.transfers stream position := by
  cases position with
  | zero => rfl
  | succ position => rfl

theorem leadersCons :
    leaders transferred (first :: stream) =
      if (transferred || first.label.isSome) = true then
        0 :: (leaders first.transfers stream).map (· + 1)
      else (leaders first.transfers stream).map (· + 1) := by
  have later : leads transferred (first :: stream) ∘ Nat.succ = leads first.transfers stream :=
    funext (leadsNext transferred first stream)
  rw [leaders, List.length_cons, List.range_succ_eq_map, List.filter_cons, List.filter_map, later]
  rfl

theorem leaderLabelsCons (order : Nat) :
    leaderLabels order transferred (first :: stream) =
      if (transferred || first.label.isSome) = true then
        leaderLabel order first :: leaderLabels (order + 1) first.transfers stream
      else leaderLabels order first.transfers stream := by
  unfold leaderLabels
  rw [leadersCons]
  split
  · rw [List.zipIdx_cons, List.map_cons, List.zipIdx_map, List.map_map]
    rfl
  · rw [List.zipIdx_map, List.map_map]
    rfl

end

theorem leaderLabelsAt (order : Nat) (transferred : Bool) (stream : List Instruction)
    (index : Nat) :
    (leaderLabels order transferred stream)[index]? =
      (leaders transferred stream)[index]?.map fun position =>
        (stream[position]?.bind (·.label)).getD ("basic_block_" ++ toString (order + index)) := by
  rw [leaderLabels, List.getElem?_map, List.getElem?_zipIdx, Option.map_map]
  rfl

theorem leadersMember (transferred : Bool) (stream : List Instruction) (position : Nat) :
    position ∈ leaders transferred stream ↔
      position < stream.length ∧ leads transferred stream position = true := by
  rw [leaders, List.mem_filter, List.mem_range]

/-- Cutting loses no instruction and keeps their order. -/
theorem cutConcat (order : Nat) (transferred : Bool) (stream : List Instruction) :
    (cut order transferred stream).1 ++
      (cut order transferred stream).2.flatMap (·.instructions) = stream := by
  induction stream generalizing order transferred with
  | nil => rfl
  | cons first stream inductionHypothesis =>
      rw [cut]
      split
      · rw [List.flatMap_cons, List.nil_append, List.cons_append, inductionHypothesis]
      · rw [List.cons_append, inductionHypothesis]

/-- A segment carries the label of its leader. -/
theorem cutLabels (order : Nat) (transferred : Bool) (stream : List Instruction) :
    (cut order transferred stream).2.map (·.label) = leaderLabels order transferred stream := by
  induction stream generalizing order transferred with
  | nil => rfl
  | cons first stream inductionHypothesis =>
      rw [cut, leaderLabelsCons]
      split
      · rw [List.map_cons, inductionHypothesis]
      · rw [inductionHypothesis]

/-- A segment begins at its leader. -/
theorem cutLeaders (order : Nat) (transferred : Bool) (stream : List Instruction) {index : Nat}
    (inside : index < (cut order transferred stream).2.length) :
    (leaders transferred stream)[index]? =
      some ((cut order transferred stream).1.length +
        (((cut order transferred stream).2.take index).map (·.instructions.length)).sum) := by
  induction stream generalizing order transferred index with
  | nil => cases inside
  | cons first stream inductionHypothesis =>
      rw [leadersCons]
      rw [cut] at inside ⊢
      split at inside
      · rename_i leader
        rw [if_pos leader, if_pos leader]
        cases index with
        | zero => rfl
        | succ index =>
            have later := inductionHypothesis (order + 1) first.transfers
              (Nat.lt_of_succ_lt_succ inside)
            simp only [List.getElem?_cons_succ, List.getElem?_map, later, Option.map_some,
              List.take_succ_cons, List.map_cons, List.sum_cons, List.length_cons, List.length_nil]
            congr 1
            omega
      · rename_i other
        rw [if_neg other, if_neg other, List.getElem?_map,
          inductionHypothesis order first.transfers inside, Option.map_some, List.length_cons,
          Nat.add_right_comm]

theorem segmentsConcat (stream : List Instruction) :
    (segments stream).flatMap (·.instructions) = stream := by
  have whole := cutConcat 1 true stream
  rw [(cutRunning 1 true stream).stopped rfl, List.nil_append] at whole
  rw [segments, List.flatMap_append, List.flatMap_cons, whole]
  simp

theorem segmentsLabels (stream : List Instruction) :
    (segments stream).map (·.label) = blockLabels stream := by
  rw [segments, List.map_append, List.map_cons, cutLabels]
  rfl

theorem leadersLength (stream : List Instruction) :
    (leaders true stream).length + 1 = lastSegment stream := by
  have counts := congrArg List.length (cutLabels 1 true stream)
  rw [List.length_map, leaderLabels, List.length_map, List.length_zipIdx] at counts
  rw [lastSegment, counts]

/-- All the segments between entry and exit begin at their leaders. -/
theorem segmentsLeader {stream : List Instruction} {index position : Nat}
    (found : (leaders true stream)[index]? = some position) :
    (((segments stream).take (index + 1)).map (·.instructions.length)).sum = position := by
  have inside := (List.getElem?_eq_some_iff.mp found).1
  have counts := leadersLength stream
  unfold lastSegment at counts
  have within : index < (cut 1 true stream).2.length := by omega
  rw [cutLeaders 1 true stream within, (cutRunning 1 true stream).stopped rfl] at found
  rw [← Option.some.inj found, segments, List.cons_append, List.take_succ_cons,
    List.take_append_of_le_length (Nat.le_of_lt within)]
  simp

end Program

end ShaderAnalysis
