/-
This file builds a program from an instruction stream.
-/

import ShaderAnalysis.Graph.Walk
import ShaderAnalysis.Program.Basic

namespace ShaderAnalysis

/-- A stream whose labels or targets are at fault is no program. -/
inductive BuildError where
  | unresolvedTarget (block target : String)
  | missingTarget (block : String)
  | duplicateLabel (label : String)
  deriving DecidableEq, Repr

def BuildError.message : BuildError → String
  | unresolvedTarget block target =>
      s!"the branch ending block `{block}` targets an unknown label `{target}`"
  | missingTarget block => s!"the branch ending block `{block}` has no target"
  | duplicateLabel label => s!"label `{label}` names more than one basic block"

namespace Program

/-- A segment is the label and the instructions of a block that is not linked yet. -/
structure Segment where
  label : String
  instructions : List Instruction
  deriving DecidableEq, Repr

/-- A leader without a label of its own is named for the position of its block. -/
def leaderLabel (order : Nat) (leader : Instruction) : String :=
  leader.label.getD ("basic_block_" ++ toString order)

/-- Cutting a stream gives the rest of the running segment and the segments after it. A segment
starts at a label and wherever control was just transferred; `order` is the position of the next
block. -/
def cut (order : Nat) (transferred : Bool) :
    List Instruction → List Instruction × List Segment
  | [] => ([], [])
  | instruction :: stream =>
      if transferred || instruction.label.isSome then
        let rest := cut (order + 1) instruction.transfers stream
        ([], ⟨leaderLabel order instruction, instruction :: rest.1⟩ :: rest.2)
      else
        let rest := cut order instruction.transfers stream
        (instruction :: rest.1, rest.2)

/-- The stream starts a segment, and an empty segment stands at either end. -/
def segments (stream : List Instruction) : List Segment :=
  ⟨Block.entryLabel, []⟩ :: (cut 1 true stream).2 ++ [⟨Block.exitLabel, []⟩]

/-- The first label that repeats an earlier one. -/
def firstRepeat (seen : List String) : List String → Option String
  | [] => none
  | label :: rest => if seen.contains label then some label else firstRepeat (label :: seen) rest

/-- The position of the block that a branch or jump goes to. -/
def resolve (labels : List String) (block : String) (instruction : Instruction) :
    Except BuildError Nat :=
  match instruction.target? with
  | none => .error (.missingTarget block)
  | some target =>
      match labels.idxOf? target with
      | none => .error (.unresolvedTarget block target)
      | some position => .ok position

/-- The last instruction of a segment decides where control goes: to its target, to the next
segment, or to either. -/
def exits (labels : List String) (order : Nat) (segment : Segment) :
    Except BuildError (List Nat) :=
  match segment.instructions.getLast? with
  | none => .ok [order + 1]
  | some last =>
      if last.isBranch then
        (resolve labels segment.label last).map fun target =>
          if target = order + 1 then [target] else [target, order + 1]
      else if last.isJump then (resolve labels segment.label last).map fun target => [target]
      else .ok [order + 1]

/-- The first instruction of a block carries the label of the block. -/
def labelFirst (label : String) : List Instruction → List Instruction
  | [] => []
  | first :: rest => first.withLabel label :: rest

/-- Labelled segments and their successors make up the blocks. -/
def link (segments : List Segment) (successors : List (List Nat)) : List Block :=
  (segments.zip successors).zipIdx.map fun ((segment, targets), order) =>
    { label := segment.label
      instructions := labelFirst segment.label segment.instructions
      order := order
      successors := targets
      predecessors := sourcesOf successors order }

/-- A stream is a program if no label repeats and every branch and jump has a known target. -/
def build (stream : List Instruction) : Except BuildError Program := do
  let segments := segments stream
  let labels := segments.map (·.label)
  match firstRepeat [] labels with
  | some label => throw (.duplicateLabel label)
  | none =>
      let successors ← segments.dropLast.zipIdx.mapM fun (segment, order) =>
        exits labels order segment
      return ⟨link segments (successors ++ [[]])⟩

end Program

end ShaderAnalysis
