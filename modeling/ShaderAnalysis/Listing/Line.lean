/-
This file cuts a listing into numbered lines of tokens.
-/

import ShaderAnalysis.Text.Blank
import ShaderAnalysis.Text.Digits

namespace ShaderAnalysis

/-- A token line has at least one token, its number in the listing, and perhaps the encoded
instruction that its comment shows. -/
structure TokenLine where
  number : Nat
  encoded : Option String
  head : String
  tail : List String
  deriving DecidableEq, Repr

namespace TokenLine

def tokens (line : TokenLine) : List String := line.head :: line.tail

def ofTokens? (number : Nat) (encoded : Option String) : List String → Option TokenLine
  | [] => none
  | head :: tail => some ⟨number, encoded, head, tail⟩

/-- This marker precedes the body in a shader dump. -/
def dumpMarker : List String := [";", "--------", "Disassembly", "--------------------"]

/-- After the colon of an offset come spaces and eight hexadecimal digits. -/
def startsWord (text : List Char) : Bool :=
  let digits := (text.dropWhile (· == ' ')).take 8
  digits.length == 8 && digits.all Text.isHexDigit

/-- Somewhere in the comment an offset in hexadecimal digits precedes an encoded word. -/
def showsEncoding : List Char → Bool
  | digit :: ':' :: rest =>
      (Text.isHexDigit digit && startsWord rest) || showsEncoding (':' :: rest)
  | _ :: rest => showsEncoding rest
  | [] => false

/-- The encoded instruction is all that follows the first colon of such a comment. -/
def encoding? (comment : List Char) : Option String :=
  if showsEncoding comment then
    some (String.ofList (Text.trim ((comment.dropWhile (· != ':')).drop 1)))
  else none

/-- Two slashes start a comment. -/
def splitComment : List Char → List Char × Option (List Char)
  | '/' :: '/' :: comment => ([], some comment)
  | character :: rest =>
      let split := splitComment rest
      (character :: split.1, split.2)
  | [] => ([], none)

def tokensOf (text : List Char) : List String := (Text.words text).map String.ofList

/-- A line that starts with a semicolon is dropped unless it is the marker of a shader dump. -/
def ofText? (number : Nat) (text : List Char) : Option TokenLine :=
  match Text.trim text with
  | ';' :: rest =>
      let tokens := tokensOf (';' :: rest)
      if tokens = dumpMarker then ofTokens? number none tokens else none
  | trimmed =>
      let split := splitComment trimmed
      ofTokens? number (split.2.bind encoding?) (tokensOf split.1)

/-- The token lines of a listing, numbered from one with the dropped lines counted. -/
def ofListing (text : List Char) : List TokenLine :=
  ((text.splitOn '\n').zipIdx 1).filterMap fun (line, number) => ofText? number line

end TokenLine

end ShaderAnalysis
