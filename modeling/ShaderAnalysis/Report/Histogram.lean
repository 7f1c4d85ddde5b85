/-
This file counts the instructions of a program by group.
-/

import ShaderAnalysis.Counting
import ShaderAnalysis.Program.Basic
import ShaderAnalysis.Report.Share
import ShaderAnalysis.Text.Column

namespace ShaderAnalysis

/-- Instructions are grouped by a property of their opcode. -/
inductive Grouping where
  | mnemonic | operandSize | instructionClass
  deriving DecidableEq, Repr

namespace Grouping

def all : List Grouping := [mnemonic, operandSize, instructionClass]

def name : Grouping → String
  | mnemonic => "mnemonic"
  | operandSize => "operand-size"
  | instructionClass => "instruction-class"

def ofName? (name : String) : Option Grouping := all.find? (·.name == name)

theorem ofNameName (grouping : Grouping) : ofName? grouping.name = some grouping := by
  cases grouping <;> decide

/-- An operand size is a letter for the type and a number of bits. -/
def isSize : List Char → Bool
  | type :: digit :: _ => ['i', 'u', 'f', 'b'].contains type && digit.isDigit
  | _ => false

/-- The operand size of a mnemonic stands after its last underscore. -/
def suffixSize (mnemonic : String) : String :=
  let tail := (mnemonic.toList.reverse.takeWhile (· != '_')).reverse
  if mnemonic.toList.contains '_' && isSize tail then String.ofList tail else "unknown"

def key (grouping : Grouping) (instruction : Instruction) : String :=
  match grouping with
  | mnemonic => instruction.mnemonic
  | operandSize => suffixSize instruction.mnemonic
  | instructionClass => instruction.opcode.encoding.name

end Grouping

/-- The count of each key, larger counts first and equal counts by key. -/
def tally (keys : List String) : List (String × Nat) :=
  let distinct := (Std.ExtTreeSet.ofList keys).toList
  (distinct.map fun key => (key, keys.count key)).mergeSort fun first second =>
    second.2 ≤ first.2

namespace Histogram

/-- The instructions of a program by group. -/
def ofProgram (program : Program) (grouping : Grouping) : List (String × Nat) :=
  tally (program.instructions.map grouping.key)

/-- The largest number of 64 bits. -/
def largest : Nat := UInt64.size - 1

/-- Tenfold, as far as 64 bits reach. -/
def tenfold (power : Nat) : Nat := min (10 * power) largest

/-- The number of tenfold steps from a power until it reaches the total. -/
def stepsFrom (total : UInt64) (power : Nat) (positive : 0 < power) : Nat :=
  if power < total.toNat then
    stepsFrom total (tenfold power) (by simp only [tenfold, largest, UInt64.size]; omega) + 1
  else 0
termination_by total.toNat - power
decreasing_by
  have bounded := total.toNat_lt
  simp only [tenfold, largest, UInt64.size]
  omega

/-- Counts up to the total fit into a column of this width. -/
def countWidth (total : UInt64) : Nat := stepsFrom total 1 (by decide) + 1

/-- Keys are at least two characters shorter than their column. -/
def keyWidth (entries : List (String × Nat)) : Nat :=
  (entries.map (·.1.utf8ByteSize)).foldl max 0 + 2

def row (keyWidth countWidth total : Nat) (entry : String × Nat) : String :=
  Text.leftColumn keyWidth entry.1 ++ " " ++ Text.rightColumn countWidth (toString entry.2) ++
    " (" ++ Text.rightColumn 6 (Share.render entry.2 total) ++ " %)"

/-- One row for each group: its key, its count and its share. -/
def render (entries : List (String × Nat)) : String :=
  let total := (entries.map (·.2)).sum
  Text.unlines (entries.map (row (keyWidth entries) (countWidth total.toUInt64) total))

end Histogram

end ShaderAnalysis
