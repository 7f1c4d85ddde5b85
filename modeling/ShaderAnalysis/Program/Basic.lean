/-
This file describes programs as basic blocks that are linked by control flow.
-/

import ShaderAnalysis.Instruction

namespace ShaderAnalysis

/-- Control enters a basic block at its first instruction and leaves it at its last one. Blocks
refer to each other by their position in the program. -/
structure Block where
  label : String
  instructions : List Instruction
  order : Nat
  successors : List Nat
  predecessors : List Nat
  deriving DecidableEq, Repr

namespace Block

def entryLabel : String := "entry"

def exitLabel : String := "exit"

def isEntry (block : Block) : Bool := block.label == entryLabel

def isExit (block : Block) : Bool := block.label == exitLabel

def last? (block : Block) : Option Instruction := block.instructions.getLast?

/-- The registers that the block reads and writes, whatever control does. -/
def registers (block : Block) : RegisterUse :=
  .merge (block.instructions.map (·.registers))

end Block

/-- A program has an empty entry block first and an empty exit block last. -/
structure Program where
  blocks : List Block
  deriving DecidableEq, Repr

namespace Program

def entry (_ : Program) : Nat := 0

def exit (program : Program) : Nat := program.blocks.length - 1

def labels (program : Program) : List String := program.blocks.map (·.label)

def indexOf? (program : Program) (label : String) : Option Nat :=
  program.blocks.findIdx? (·.label == label)

def successors (program : Program) (block : Nat) : List Nat :=
  (program.blocks[block]?.map (·.successors)).getD []

/-- The instruction stream, with the labels of the blocks. -/
def instructions (program : Program) : List Instruction :=
  program.blocks.flatMap (·.instructions)

end Program

end ShaderAnalysis
