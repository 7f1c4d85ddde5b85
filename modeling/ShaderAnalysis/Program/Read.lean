/-
This file reads programs from listings.
-/

import ShaderAnalysis.Listing.Instructions
import ShaderAnalysis.Program.Build

namespace ShaderAnalysis

/-- A listing is refused for its body or for the stream in its body. -/
inductive ProgramError where
  | invalidInput (error : ReadError)
  | malformedInput (error : BuildError)
  deriving DecidableEq, Repr

def ProgramError.message : ProgramError → String
  | invalidInput error => "parse error: " ++ error.message
  | malformedInput error => "malformed program: " ++ error.message

/-- The program of a listing in the given format. -/
def Program.read (table : OpcodeTable) (format : ListingFormat) (text : String) :
    Except ProgramError Program := do
  let stream ← (Listing.instructions table format text).mapError .invalidInput
  (Program.build stream).mapError .malformedInput

end ShaderAnalysis
