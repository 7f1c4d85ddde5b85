/-
This file keeps opcodes by mnemonic.
-/

import ShaderAnalysis.Opcode.Basic

namespace ShaderAnalysis

/-- An opcode table holds at most one opcode of each name. -/
structure OpcodeTable where
  entries : List Opcode := []
  deriving DecidableEq, Repr

namespace OpcodeTable

def empty : OpcodeTable := {}

def size (table : OpcodeTable) : Nat := table.entries.length

def get? (table : OpcodeTable) (name : String) : Option Opcode :=
  table.entries.find? (·.name == name)

/-- A mnemonic outside the table stands for an opcode without effect. -/
def lookup (table : OpcodeTable) (name : String) : Opcode :=
  (table.get? name).getD (.unknown name)

/-- A new opcode takes the place of the one with its name. -/
def insert (table : OpcodeTable) (opcode : Opcode) : OpcodeTable where
  entries := opcode :: table.entries.filter (·.name != opcode.name)

def insertMany (table : OpcodeTable) (opcodes : List Opcode) : OpcodeTable :=
  opcodes.foldl insert table

theorem getInsert (table : OpcodeTable) (opcode : Opcode) :
    (table.insert opcode).get? opcode.name = some opcode := by
  simp [get?, insert]

theorem getInsertOther (table : OpcodeTable) (opcode : Opcode) (name : String)
    (other : name ≠ opcode.name) : (table.insert opcode).get? name = table.get? name := by
  simp only [get?, insert, List.find?_cons, List.find?_filter]
  rw [show (opcode.name == name) = false by simpa using Ne.symm other]
  dsimp only
  congr 1
  funext entry
  by_cases same : entry.name = name
  · simp [same, other]
  · simp [same]

theorem lookupName (table : OpcodeTable) (name : String) : (table.lookup name).name = name := by
  unfold lookup get?
  cases found : table.entries.find? (·.name == name) with
  | none => rfl
  | some opcode => simpa using List.find?_some found

end OpcodeTable

end ShaderAnalysis
