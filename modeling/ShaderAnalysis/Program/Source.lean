/-
This file reads programs from listings and from single instructions.
-/

import ShaderAnalysis.Program.Read

namespace ShaderAnalysis

/-- An instruction as it is written, before its opcode is looked up. -/
structure WrittenInstruction where
  mnemonic : String
  operands : List String := []
  encoded : Option String := none
  label : Option String := none
  deriving DecidableEq, Repr

def WrittenInstruction.decode (table : OpcodeTable) (written : WrittenInstruction) : Instruction :=
  .decode table written.encoded written.mnemonic written.operands written.label

/-- A program is given by a listing or by its instructions. -/
inductive Source where
  | listing (format : ListingFormat) (text : String)
  | stream (instructions : List WrittenInstruction)
  deriving DecidableEq, Repr

/-- A source fails as a listing or, given by its instructions, as a stream. -/
inductive SourceError where
  | listing (error : ProgramError)
  | stream (error : BuildError)
  deriving DecidableEq, Repr

def SourceError.message : SourceError → String
  | listing error => error.message
  | stream error => error.message

def Source.read (table : OpcodeTable) : Source → Except SourceError Program
  | listing format text => (Program.read table format text).mapError .listing
  | stream instructions =>
      (Program.build (instructions.map (·.decode table))).mapError .stream

end ShaderAnalysis
