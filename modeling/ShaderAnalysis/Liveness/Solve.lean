/-
This file repeats sweeps until the live sets stop growing.
-/

import ShaderAnalysis.Liveness.Growth

namespace ShaderAnalysis

/-- The nodes that lead to the exit, gathered backward from it; without an exit, the nodes gathered
forward from the entry. -/
def Graph.processingOrder (graph : Graph) : List Nat :=
  match graph.exit? with
  | some exit => graph.gather .backward exit
  | none => graph.gather .forward graph.entry

/-- Sweeping ends because every sweep but the last grows the live sets, which never leave a finite
set of registers. The result counts the last sweep as well. -/
def LiveMap.settle (graph : Graph) (order : List Nat) (registers : RegisterSet)
    (covers : Covers registers graph) (live : LiveMap) (within : live.Within registers)
    (sweeps : Nat) : LiveMap × Nat :=
  match swept : live.sweep graph order with
  | (next, true) =>
      settle graph order registers covers next
        (by simpa only [swept] using sweepWithin covers within order) (sweeps + 1)
  | (next, false) => (next, sweeps)
termination_by live.size * (2 * registers.size) - live.count
decreasing_by
  have size := sweepSize graph live order
  have grown := (sweepCount graph live order).2
  have bounded := countLe (sweepWithin covers within order)
  simp only [swept, forall_const] at size grown bounded
  rw [size] at bounded ⊢
  omega

/-- A solution tells which nodes were swept, how often, and what is live. -/
structure Solution where
  order : List Nat
  sweeps : Nat
  live : LiveMap

/-- Solving goes on from the given live sets. -/
def solve (graph : Graph) (live : LiveMap) : Solution :=
  let order := graph.processingOrder
  let settled := live.settle graph order (LiveMap.known graph live)
    (LiveMap.coversKnown graph live) (LiveMap.withinKnown graph live) 1
  ⟨order, settled.2, settled.1⟩

/-- The block of a node and its position in the block. -/
def Graph.place (graph : Graph) (node : Nat) : Nat × Nat :=
  (graph.nodes[node]?.map fun entry => (entry.block, entry.position)).getD (0, 0)

/-- Places are ordered by block and then by position. -/
def placeLe (first second : Nat × Nat) : Bool :=
  first.1 < second.1 || (first.1 == second.1 && first.2 ≤ second.2)

/-- Nodes in program order; equal nodes keep their order. -/
def Graph.programOrder (graph : Graph) (nodes : List Nat) : List Nat :=
  nodes.mergeSort fun first second => placeLe (graph.place first) (graph.place second)

end ShaderAnalysis
