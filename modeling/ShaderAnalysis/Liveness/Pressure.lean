/-
This file measures how many registers a program needs.
-/

import ShaderAnalysis.Liveness.Sweep

namespace ShaderAnalysis

/-- The pressure over some nodes: the most registers live at one of them, and the highest register
that is live, read or written at any of them. -/
structure Pressure where
  maxLive : Nat
  highest : Option Nat
  deriving DecidableEq, Repr

namespace Pressure

/-- The registers through the highest one are allocated; the count stays within 32 bits. -/
def allocated (pressure : Pressure) : Nat :=
  match pressure.highest with
  | none => 0
  | some highest => min (highest + 1) (UInt32.size - 1)

/-- The registers that are live, read or written at a node. -/
def registersAt (graph : Graph) (live : LiveMap) (node : Nat) : RegisterSet :=
  (live.setsAt node).live ∪ (graph.registers node).used

def ofNodes (graph : Graph) (live : LiveMap) (nodes : List Nat) : Pressure where
  maxLive := (nodes.map fun node => (live.setsAt node).live.size).foldl max 0
  highest := (nodes.filterMap fun node => (registersAt graph live node).max?).max?

end Pressure

end ShaderAnalysis
