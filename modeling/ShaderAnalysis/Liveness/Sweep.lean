/-
This file sweeps over the nodes of a graph to find the registers that are live at them.
-/

import ShaderAnalysis.Graph.Basic
import ShaderAnalysis.Register.Join

namespace ShaderAnalysis

/-- The registers that are live before and after a node. -/
structure LiveSets where
  before : RegisterSet := ∅
  after : RegisterSet := ∅
  deriving DecidableEq

namespace LiveSets

instance : Inhabited LiveSets := ⟨{}⟩

/-- The registers that are live before or after the node. -/
def live (sets : LiveSets) : RegisterSet := sets.before ∪ sets.after

/-- The number of registers in both sets together. -/
def count (sets : LiveSets) : Nat := sets.before.size + sets.after.size

end LiveSets

/-- A live map holds the live sets of the nodes by index. -/
abbrev LiveMap := Array LiveSets

namespace LiveMap

/-- Before any sweep nothing is known to be live. -/
def fresh (graph : Graph) : LiveMap := Array.replicate graph.size {}

def setsAt (live : LiveMap) (node : Nat) : LiveSets := live[node]?.getD {}

/-- Visiting a node adds what is live before its successors to what is live after it, and then the
registers that it reads and those that it leaves alone to what is live before it. -/
def visit (graph : Graph) (live : LiveMap) (node : Nat) : LiveMap × Bool :=
  match live[node]? with
  | none => (live, false)
  | some sets =>
      let after := joinMany sets.after <|
        (graph.successors node).map fun successor => (live.setsAt successor).before
      let use := graph.registers node
      let before := join sets.before (use.read ∪ (after.1 \ use.written))
      (live.setIfInBounds node ⟨before.1, after.1⟩, after.2 || before.2)

/-- A sweep visits the nodes in order and notes whether any set grew. -/
def sweep (graph : Graph) (live : LiveMap) : List Nat → LiveMap × Bool
  | [] => (live, false)
  | node :: rest =>
      let visited := live.visit graph node
      let swept := visited.1.sweep graph rest
      (swept.1, visited.2 || swept.2)

end LiveMap

end ShaderAnalysis
