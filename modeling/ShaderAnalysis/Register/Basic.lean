/-
This file describes sets of vector registers and their use by instructions.
-/

import Std.Data.ExtTreeSet

namespace ShaderAnalysis

/-- A register set holds vector registers by their number. -/
abbrev RegisterSet := Std.ExtTreeSet Nat

/-- A register use tells the registers read from those written. -/
structure RegisterUse where
  read : RegisterSet := ∅
  written : RegisterSet := ∅
  deriving DecidableEq

namespace RegisterUse

instance : Inhabited RegisterUse := ⟨{}⟩

def union (first second : RegisterUse) : RegisterUse :=
  ⟨first.read ∪ second.read, first.written ∪ second.written⟩

/-- The merged use reads and writes what any of the uses does. -/
def merge (uses : List RegisterUse) : RegisterUse := uses.foldl union {}

/-- The registers that are read or written. -/
def used (use : RegisterUse) : RegisterSet := use.read ∪ use.written

def render (use : RegisterUse) : String :=
  "Written: " ++ toString use.written.size ++ ", read: " ++ toString use.read.size

end RegisterUse

end ShaderAnalysis
