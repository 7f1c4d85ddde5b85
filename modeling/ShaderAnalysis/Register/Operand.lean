/-
This file finds the vector registers that an operand names.
-/

import ShaderAnalysis.Text.Digits

namespace ShaderAnalysis

/-- A register range runs from its first to its last register; it is empty if they are reversed. -/
structure RegisterRange where
  first : Nat
  last : Nat
  deriving DecidableEq, Repr

namespace RegisterRange

/-- A wave addresses this many vector registers. -/
def limit : Nat := 256

def registers (range : RegisterRange) : List Nat :=
  List.range' range.first (range.last + 1 - range.first)

theorem registersMember (range : RegisterRange) (register : Nat) :
    register ∈ range.registers ↔ range.first ≤ register ∧ register ≤ range.last := by
  simp only [registers, List.mem_range'_1]
  omega

/-- A register number is decimal and below the limit. -/
def number? (digits : List Char) : Option Nat :=
  (Text.decimal? digits).filter (· < limit)

/-- Registers are written `v3`, or `v[2:5]` for several of them. -/
def ofName? : List Char → Option RegisterRange
  | 'v' :: '[' :: text => do
      let first ← number? (text.takeWhile (· != ':'))
      match text.dropWhile (· != ':') with
      | ':' :: rest =>
          let last ← number? (rest.takeWhile (· != ']'))
          if rest.dropWhile (· != ']') = [']'] then some ⟨first, last⟩ else none
      | _ => none
  | 'v' :: digits => (number? digits).map fun register => ⟨register, register⟩
  | _ => none

/-- A negation sign is not part of the operand proper. -/
def withoutSign : List Char → List Char
  | '-' :: operand => operand
  | operand => operand

/-- An absolute value is written `abs(…)` around its operand. -/
def withoutAbsolute (operand : List Char) : List Char :=
  match operand with
  | 'a' :: 'b' :: 's' :: '(' :: inner =>
      if inner.getLast? = some ')' then inner.dropLast else operand
  | _ => operand

/-- The registers of an operand, under its sign and its absolute value. -/
def ofOperand? (operand : String) : Option RegisterRange :=
  ofName? (withoutAbsolute (withoutSign operand.toList))

end RegisterRange

end ShaderAnalysis
