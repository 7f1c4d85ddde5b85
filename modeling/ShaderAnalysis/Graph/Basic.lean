/-
This file expands a program into a graph with one node for each instruction.
-/

import ShaderAnalysis.Counting
import ShaderAnalysis.Graph.Walk
import ShaderAnalysis.Program.Basic

namespace ShaderAnalysis

/-- A node stands for the instruction at a position of a block; an empty block has one node
without an instruction. -/
structure Node where
  block : Nat
  position : Nat
  instruction : Option Instruction
  successors : List Nat
  predecessors : List Nat
  deriving DecidableEq, Repr

/-- A node without an instruction uses no register. -/
def Node.registers (node : Node) : RegisterUse :=
  (node.instruction.map (·.registers)).getD {}

/-- The two directions along the edges. -/
inductive Direction where
  | forward | backward
  deriving DecidableEq, Repr

/-- The nodes refer to each other by their index. -/
structure Graph where
  nodes : Array Node
  deriving DecidableEq, Repr

namespace Graph

def size (graph : Graph) : Nat := graph.nodes.size

/-- The expansion starts at the entry node. -/
def entry (_ : Graph) : Nat := 0

def successors (graph : Graph) (node : Nat) : List Nat :=
  (graph.nodes[node]?.map (·.successors)).getD []

def predecessors (graph : Graph) (node : Nat) : List Nat :=
  (graph.nodes[node]?.map (·.predecessors)).getD []

def instruction? (graph : Graph) (node : Nat) : Option Instruction :=
  graph.nodes[node]?.bind (·.instruction)

def registers (graph : Graph) (node : Nat) : RegisterUse :=
  (graph.nodes[node]?.map (·.registers)).getD {}

def neighbours (graph : Graph) : Direction → Nat → List Nat
  | .forward => graph.successors
  | .backward => graph.predecessors

/-- Nodes are gathered depth first, and of the edges of a node the last one is followed first. -/
def gather (graph : Graph) (direction : Direction) (start : Nat) : List Nat :=
  walk (fun node => (graph.neighbours direction node).reverse) (List.range graph.size) [start]

/-- The exit is the first gathered node without successors. -/
def exit? (graph : Graph) : Option Nat :=
  (graph.gather .forward graph.entry).find? fun node => (graph.successors node).isEmpty

/-- A block takes one node for each instruction and at least one. -/
def width (program : Program) (block : Nat) : Nat :=
  max 1 ((program.blocks[block]?.map (·.instructions.length)).getD 0)

/-- The blocks that can be reached, in the order of their nodes. -/
def reached (program : Program) (start : Nat) : List Nat :=
  walk program.successors (List.range program.blocks.length) [start]

/-- The nodes of a block follow those of all the blocks before it. -/
def firstNode (program : Program) (order : List Nat) (block : Nat) : Nat :=
  ((order.takeWhile (· != block)).map (width program)).sum

/-- The nodes within a block form a chain, and the last one leads to the successors of the block. -/
def nodeSuccessors (program : Program) (order : List Nat) (block position : Nat) : List Nat :=
  if position + 1 < width program block then [firstNode program order block + position + 1]
  else (program.successors block).map (firstNode program order)

/-- The nodes by block and position. -/
def places (program : Program) (order : List Nat) : List (Nat × Nat) :=
  order.flatMap fun block => (List.range (width program block)).map fun position =>
    (block, position)

/-- The expansion of the blocks that can be reached from a block. -/
def expandFrom (program : Program) (start : Nat) : Graph :=
  let order := reached program start
  let places := places program order
  let successors := places.map fun (block, position) =>
    nodeSuccessors program order block position
  let nodes := (places.zip successors).zipIdx.map fun (((block, position), targets), index) =>
    { block := block
      position := position
      instruction := program.blocks[block]?.bind (·.instructions[position]?)
      successors := targets
      predecessors := sourcesOf successors index : Node }
  ⟨nodes.toArray⟩

def expand (program : Program) : Graph := expandFrom program program.entry

end Graph

end ShaderAnalysis
