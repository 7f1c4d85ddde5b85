/-
This file finds the shader body of a listing.
-/

import ShaderAnalysis.Listing.Format
import ShaderAnalysis.Listing.Line
import ShaderAnalysis.Text.Lowercase

namespace ShaderAnalysis

/-- A listing without a well delimited body cannot be read. -/
inductive ReadError where
  | mismatchedDelimiter (line : Nat) (found : String)
  | unterminatedBody (opened : Nat)
  | missingBody (format : ListingFormat)
  deriving DecidableEq, Repr

def ReadError.message : ReadError → String
  | mismatchedDelimiter line found => s!"mismatched `{found}` in line {line}"
  | unterminatedBody opened => s!"shader body starting in line {opened} is never closed by `end`"
  | missingBody format => "no shader body found in " ++ format.name ++ " input"

namespace Body

/-- What a line does to the body: open it, close it, stand in it, or break it. -/
inductive Role where
  | opens | closes | stands | breaks
  deriving DecidableEq, Repr

/-- Every `shader` needs its own `end`. -/
def analyzerRole (inside : Bool) (line : TokenLine) : Role :=
  if line.head = "shader" then if inside then .breaks else .opens
  else if line.head = "end" then if inside then .closes else .breaks
  else .stands

/-- Every `end` needs a `Disassembly for` before it. -/
def hsailRole (inside : Bool) (line : TokenLine) : Role :=
  if line.head = "Disassembly" ∧ line.tail.head? = some "for" then .opens
  else if line.head = "end" then if inside then .closes else .breaks
  else .stands

/-- An `end` before the marker has no meaning. -/
def dumpRole (inside : Bool) (line : TokenLine) : Role :=
  if line.tokens = TokenLine.dumpMarker then .opens
  else if inside ∧ line.head = "end" then .closes
  else .stands

/-- The lines from the first opening line to the next closing one; `opened` is the number of the
opening line, once there is one. -/
def delimited (format : ListingFormat) (role : Bool → TokenLine → Role) :
    Option Nat → List TokenLine → Except ReadError (List TokenLine)
  | none, [] => .error (.missingBody format)
  | some opened, [] => .error (.unterminatedBody opened)
  | opened, line :: rest =>
      match role opened.isSome line with
      | .opens => delimited format role (some (opened.getD line.number)) rest
      | .closes => .ok []
      | .breaks => .error (.mismatchedDelimiter line.number line.head)
      | .stands =>
          if opened.isSome then (delimited format role opened rest).map (line :: ·)
          else delimited format role opened rest

def lowercaseString (text : String) : String := String.ofList (Text.lowercase text.toList)

def lowercaseLine (line : TokenLine) : TokenLine where
  number := line.number
  encoded := line.encoded.map lowercaseString
  head := lowercaseString line.head
  tail := line.tail.map lowercaseString

/-- A raw body ends with the first `s_endpgm`, in letters of either case. -/
def throughEnd : List TokenLine → List TokenLine
  | [] => []
  | line :: rest =>
      let lower := lowercaseLine line
      if lower.head = "s_endpgm" then [lower] else lower :: throughEnd rest

/-- The body of token lines in an explicit format. -/
def ofLines (format : ListingFormat) (lines : List TokenLine) : Except ReadError (List TokenLine) :=
  match format with
  | .hsail => delimited .hsail hsailRole none lines
  | .shaderDump => delimited .shaderDump dumpRole none lines
  | .raw => .ok (throughEnd lines)
  | .shaderAnalyzer | .auto => delimited .shaderAnalyzer analyzerRole none lines

/-- The body of a listing, in the format that it shows if none is given. -/
def read (format : ListingFormat) (text : List Char) : Except ReadError (List TokenLine) :=
  ofLines (format.detect text) (TokenLine.ofListing text)

end Body

end ShaderAnalysis
