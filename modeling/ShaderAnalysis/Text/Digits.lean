/-
This file reads numbers written in decimal or hexadecimal digits.
-/

namespace ShaderAnalysis.Text

/-- A hexadecimal digit has a value below sixteen. -/
def hexDigit? (character : Char) : Option Nat :=
  if '0' ≤ character ∧ character ≤ '9' then some (character.toNat - '0'.toNat)
  else if 'a' ≤ character ∧ character ≤ 'f' then some (character.toNat - 'a'.toNat + 10)
  else if 'A' ≤ character ∧ character ≤ 'F' then some (character.toNat - 'A'.toNat + 10)
  else none

def isHexDigit (character : Char) : Bool := (hexDigit? character).isSome

/-- The value of decimal digits, the leading digit first. -/
def decimalValue (digits : List Char) : Nat :=
  digits.foldl (fun value digit => 10 * value + (digit.toNat - '0'.toNat)) 0

/-- A decimal number is one or more ASCII digits. -/
def decimal? (digits : List Char) : Option Nat :=
  if digits.isEmpty then none
  else if digits.all Char.isDigit then some (decimalValue digits)
  else none

/-- The value of hexadecimal digits, the leading digit first. -/
def hexValue (digits : List Char) : Nat :=
  digits.foldl (fun value digit => 16 * value + (hexDigit? digit).getD 0) 0

/-- A hexadecimal number is one or more hexadecimal digits of either case. -/
def hexadecimal? (digits : List Char) : Option Nat :=
  if digits.isEmpty then none
  else if digits.all isHexDigit then some (hexValue digits)
  else none

end ShaderAnalysis.Text
