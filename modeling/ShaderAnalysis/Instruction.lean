/-
This file describes instructions and the vector registers that they use.
-/

import ShaderAnalysis.Opcode.Table
import ShaderAnalysis.Register.Basic
import ShaderAnalysis.Register.Operand
import ShaderAnalysis.Text.Blank

namespace ShaderAnalysis

/-- An instruction has an opcode, its operands as written, and perhaps a label. -/
structure Instruction where
  opcode : Opcode
  operands : List String := []
  label : Option String := none
  deriving DecidableEq, Repr

/-- The leading word of an encoded instruction, of at most 32 bits; a plus sign may stand first. -/
def leadingWord? (encoded : String) : Option UInt32 := do
  let word ← (Text.words encoded.toList).head?
  let digits := match word with
    | '+' :: digits => digits
    | digits => digits
  let value ← (Text.hexadecimal? digits).filter (· < UInt32.size)
  return value.toUInt32

namespace Instruction

/-- The encoded word settles the encoding of an opcode of the two dual families. -/
def settle (opcode : Opcode) (encoded : Option String) : Opcode :=
  if opcode.encoding.isDual then
    match encoded.bind leadingWord? with
    | some word => { opcode with encoding := .ofWord word }
    | none => opcode
  else opcode

/-- An instruction is decoded with the opcode that the table gives for its mnemonic. -/
def decode (table : OpcodeTable) (encoded : Option String) (mnemonic : String)
    (operands : List String) (label : Option String) : Instruction where
  opcode := settle (table.lookup mnemonic) encoded
  operands := operands
  label := label

def mnemonic (instruction : Instruction) : String := instruction.opcode.name

def isBranch (instruction : Instruction) : Bool := instruction.opcode.isBranch

def isJump (instruction : Instruction) : Bool := instruction.opcode.isJump

def transfers (instruction : Instruction) : Bool := instruction.opcode.transfers

/-- The target of a branch or jump is its first operand. -/
def target? (instruction : Instruction) : Option String := instruction.operands.head?

def withLabel (instruction : Instruction) (label : String) : Instruction :=
  { instruction with label := some label }

/-- The registers named by the operands at the positions that are used. -/
def registersAt (operands : List String) (uses : Nat → Bool) : RegisterSet :=
  .ofList <| operands.zipIdx.flatMap fun (operand, position) =>
    if uses position then ((RegisterRange.ofOperand? operand).map (·.registers)).getD [] else []

/-- The registers that an instruction reads and writes, by the access to its operands. -/
def registers (instruction : Instruction) : RegisterUse where
  read := registersAt instruction.operands fun position =>
    (instruction.opcode.access position).reads
  written := registersAt instruction.operands fun position =>
    (instruction.opcode.access position).writes

/-- The text of an instruction without its label. -/
def body (instruction : Instruction) : String :=
  if instruction.operands.isEmpty then instruction.mnemonic
  else instruction.mnemonic ++ " " ++ ", ".intercalate instruction.operands

def render (instruction : Instruction) : String :=
  match instruction.label with
  | some label => label ++ ": " ++ instruction.body
  | none => instruction.body

theorem settleName (opcode : Opcode) (encoded : Option String) :
    (settle opcode encoded).name = opcode.name := by
  unfold settle
  split
  · split <;> rfl
  · rfl

theorem decodeMnemonic (table : OpcodeTable) (encoded : Option String) (mnemonic : String)
    (operands : List String) (label : Option String) :
    (decode table encoded mnemonic operands label).mnemonic = mnemonic := by
  rw [Instruction.mnemonic, decode, settleName, OpcodeTable.lookupName]

end Instruction

end ShaderAnalysis
