/-
This file decodes the instructions of a shader body.
-/

import ShaderAnalysis.Instruction
import ShaderAnalysis.Listing.Body

namespace ShaderAnalysis

namespace Listing

/-- Metadata lines describe the shader and hold no instruction. -/
def isMetadata (token : String) : Bool :=
  token == "shader" ||
    ["asic", "type", "@kernel"].any fun start => start.toList.isPrefixOf token.toList

/-- A label is a token with a colon at its end. -/
def label? (token : String) : Option String :=
  if token.toList.getLast? = some ':' then some (String.ofList token.toList.dropLast) else none

/-- Commas separate the operands, and an operand is the first word of its piece. -/
def operandsOf (tokens : List String) : List String :=
  ((" ".intercalate tokens).toList.splitOn ',').filterMap fun piece =>
    (TokenLine.tokensOf piece).head?

/-- A label is kept for the next instruction; a later label replaces it. -/
def decodeFrom (table : OpcodeTable) : Option String → List TokenLine → List Instruction
  | _, [] => []
  | pending, line :: rest =>
      if isMetadata line.head then decodeFrom table pending rest
      else match label? line.head with
        | some label => decodeFrom table (some label) rest
        | none =>
            Instruction.decode table line.encoded line.head (operandsOf line.tail) pending ::
              decodeFrom table none rest

def decode (table : OpcodeTable) (body : List TokenLine) : List Instruction :=
  decodeFrom table none body

/-- The instructions of a listing. -/
def instructions (table : OpcodeTable) (format : ListingFormat) (text : String) :
    Except ReadError (List Instruction) :=
  (Body.read format text.toList).map (decode table)

end Listing

end ShaderAnalysis
