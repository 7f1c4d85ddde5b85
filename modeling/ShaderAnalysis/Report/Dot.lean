/-
This file draws the control flow in the dot language.
-/

import ShaderAnalysis.Graph.Basic
import ShaderAnalysis.Text.Column

namespace ShaderAnalysis.Dot

/-- A double quote is written with a backslash before it. -/
def escape (text : String) : String :=
  String.ofList <| text.toList.flatMap fun character =>
    if character == '"' then ['\\', '"'] else [character]

def quoted (text : String) : String := "\"" ++ text ++ "\""

/-- The entry and the exit have round corners. -/
def style (block : Block) : String :=
  if block.isEntry || block.isExit then "style=rounded" else ""

def nodeLine (identifier label style : String) : String :=
  quoted identifier ++ " [ label= " ++ quoted label ++ " " ++ style ++ "]"

def edgeLine (source target : String) : String :=
  quoted source ++ ":s -> " ++ quoted target ++ ";"

def drawing (nodes edges : List String) : String :=
  Text.unlines (["digraph \x7b", "node [shape=box]"] ++ nodes ++ edges ++ ["\x7d"])

/-- A line within a label ends with `\l`, which puts it to the left. -/
def blockContent (compact : Bool) (block : Block) : String :=
  if compact then toString block.instructions.length ++ " instructions\\l"
  else String.join (block.instructions.map fun instruction => escape instruction.body ++ "\\l")

def blockIdentifier (block : Block) : String := "n_" ++ escape block.label

def blockLine (compact : Bool) (block : Block) : String :=
  nodeLine (blockIdentifier block)
    (escape block.label ++ "\\n" ++ blockContent compact block) (style block)

def blockEdges (program : Program) (block : Block) : List String :=
  block.successors.filterMap fun successor =>
    program.blocks[successor]?.map fun target =>
      edgeLine (blockIdentifier block) (blockIdentifier target)

/-- One node for each block; compact nodes tell only how many instructions the block has. -/
def blocks (program : Program) (compact : Bool) : String :=
  drawing (program.blocks.map (blockLine compact)) (program.blocks.flatMap (blockEdges program))

def nodeIdentifier (node : Nat) : String := "n" ++ toString node

/-- A node without an instruction shows which block it stands for. -/
def nodeContent (program : Program) (node : Node) : String × String :=
  match node.instruction, program.blocks[node.block]? with
  | some instruction, _ => (instruction.body, "")
  | none, some block =>
      if block.isEntry then ("Entry", style block)
      else if block.isExit then ("Exit", style block)
      else (block.label, "")
  | none, none => ("", "")

def instructionLine (program : Program) (graph : Graph) (index : Nat) : List String :=
  (graph.nodes[index]?.map fun node =>
    let content := nodeContent program node
    nodeLine (nodeIdentifier index) (escape content.1 ++ "\\l") content.2).toList

def instructionEdges (graph : Graph) (index : Nat) : List String :=
  (graph.successors index).map fun successor =>
    edgeLine (nodeIdentifier index) (nodeIdentifier successor)

/-- One node for each instruction that can be reached. -/
def instructions (program : Program) (graph : Graph) : String :=
  let order := graph.gather .forward graph.entry
  drawing (order.flatMap (instructionLine program graph)) (order.flatMap (instructionEdges graph))

end ShaderAnalysis.Dot
