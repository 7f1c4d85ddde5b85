/-
This file shows that a walk visits nodes in the order of a recursive depth-first search.
-/

import ShaderAnalysis.Proofs.Graph.Gathering

namespace ShaderAnalysis

/-- A recursive search makes its calls one after the other and keeps the visited nodes in the order
of their visits. A call at a visited node returns at once. Any other call visits its node and makes
a call at each node next to it before the search goes on. -/
inductive Descent (next : Nat → List Nat) : List Nat → List Nat → List Nat → Prop
  | done {visited : List Nat} : Descent next visited [] visited
  | again {visited calls after : List Nat} {node : Nat} (known : node ∈ visited)
      (rest : Descent next visited calls after) : Descent next visited (node :: calls) after
  | visit {visited inner calls after : List Nat} {node : Nat} (fresh : node ∉ visited)
      (below : Descent next (visited ++ [node]) (next node) inner)
      (rest : Descent next inner calls after) : Descent next visited (node :: calls) after

/-- The nodes that a search has still to visit. -/
def unvisited (size : Nat) (visited : List Nat) : List Nat :=
  (List.range size).filter (!visited.contains ·)

section

variable {size : Nat} {visited : List Nat} {node : Nat}

theorem unvisitedMember : node ∈ unvisited size visited ↔ node < size ∧ node ∉ visited := by
  simp [unvisited]

theorem unvisitedErase :
    (unvisited size visited).erase node = unvisited size (visited ++ [node]) := by
  have distinct : (unvisited size visited).Nodup := List.nodup_range.filter _
  rw [distinct.erase_eq_filter, unvisited, List.filter_filter, unvisited]
  apply List.filter_congr
  intro other _
  rw [Bool.eq_iff_iff]
  simp [and_comm]

theorem unvisitedLess (inside : node < size) (fresh : node ∉ visited) :
    (unvisited size (visited ++ [node])).length < (unvisited size visited).length := by
  have member : node ∈ unvisited size visited := unvisitedMember.mpr ⟨inside, fresh⟩
  have positive := List.length_pos_of_mem member
  rw [← unvisitedErase, List.length_erase_of_mem member]
  omega

theorem unvisitedAppend (more : List Nat) :
    (unvisited size (visited ++ more)).length ≤ (unvisited size visited).length := by
  apply List.Sublist.length_le
  apply List.monotone_filter_right
  intro other
  simp +contextual

end

section

variable {next : Nat → List Nat} {size : Nat}
  (closed : ∀ node < size, ∀ other ∈ next node, other < size)

include closed

/-- The nodes that wait in a walk are the calls that a search has still to make. What waits behind
these calls is left alone until the search returns. -/
theorem descentWalk {visited calls after : List Nat} (search : Descent next visited calls after)
    (inside : ∀ node ∈ calls, node < size) :
    ∃ fresh, after = visited ++ fresh ∧ ∀ waiting,
      walk next (unvisited size visited) (calls ++ waiting) =
        fresh ++ walk next (unvisited size after) waiting := by
  induction search with
  | done => exact ⟨[], by simp, by simp⟩
  | @again visited calls after node known _ restHypothesis =>
      obtain ⟨fresh, grown, walked⟩ := restHypothesis (List.forall_mem_cons.mp inside).2
      refine ⟨fresh, grown, fun waiting => ?_⟩
      have gone : node ∉ unvisited size visited := fun member =>
        (unvisitedMember.mp member).2 known
      rw [List.cons_append, walkSkip gone, walked]
  | @visit visited inner calls after node new _ _ belowHypothesis restHypothesis =>
      obtain ⟨nodeInside, callsInside⟩ := List.forall_mem_cons.mp inside
      obtain ⟨deeper, innerGrown, belowWalked⟩ := belowHypothesis (closed node nodeInside)
      obtain ⟨later, afterGrown, restWalked⟩ := restHypothesis callsInside
      refine ⟨node :: deeper ++ later, by simp [afterGrown, innerGrown], fun waiting => ?_⟩
      calc walk next (unvisited size visited) (node :: calls ++ waiting)
          = node :: walk next (unvisited size (visited ++ [node]))
              (next node ++ (calls ++ waiting)) := by
            rw [List.cons_append, walkVisit (unvisitedMember.mpr ⟨nodeInside, new⟩),
              unvisitedErase]
        _ = node :: (deeper ++ walk next (unvisited size inner) (calls ++ waiting)) := by
            rw [belowWalked]
        _ = node :: deeper ++ later ++ walk next (unvisited size after) waiting := by
            rw [restWalked]
            simp

/-- The search returns, since every visit leaves fewer nodes to be visited. -/
theorem descentReturns (visited calls : List Nat) (inside : ∀ node ∈ calls, node < size) :
    ∃ after, Descent next visited calls after := by
  match calls with
  | [] => exact ⟨visited, .done⟩
  | node :: calls =>
      obtain ⟨nodeInside, callsInside⟩ := List.forall_mem_cons.mp inside
      by_cases known : node ∈ visited
      · obtain ⟨after, rest⟩ := descentReturns visited calls callsInside
        exact ⟨after, .again known rest⟩
      · have less := unvisitedLess nodeInside known
        obtain ⟨inner, below⟩ :=
          descentReturns (visited ++ [node]) (next node) (closed node nodeInside)
        obtain ⟨deeper, grown, _⟩ := descentWalk closed below (closed node nodeInside)
        have fewer : (unvisited size inner).length < (unvisited size visited).length := by
          rw [grown]
          exact Nat.lt_of_le_of_lt (unvisitedAppend deeper) less
        obtain ⟨after, rest⟩ := descentReturns inner calls callsInside
        exact ⟨after, .visit known below rest⟩
termination_by ((unvisited size visited).length, calls.length)

/-- From a single start the search returns exactly what the walk visits, in the same order. -/
theorem descentIffWalk {start : Nat} (inside : start < size) (order : List Nat) :
    Descent next [] [start] order ↔ order = walk next (List.range size) [start] := by
  have only : ∀ node ∈ [start], node < size := by simpa using inside
  have everything : unvisited size [] = List.range size := by simp [unvisited]
  have returned : ∀ after, Descent next [] [start] after →
      after = walk next (List.range size) [start] := by
    intro after search
    obtain ⟨fresh, grown, walked⟩ := descentWalk closed search only
    have whole := walked []
    rw [everything, walkDone] at whole
    simpa [grown] using whole.symm
  constructor
  · exact returned order
  · intro same
    obtain ⟨after, search⟩ := descentReturns closed [] [start] only
    rwa [same, ← returned after search]

end

namespace Graph

/-- The blocks of a graph in the order in which their first nodes are numbered. -/
def blockOrder (graph : Graph) : List Nat :=
  (graph.nodes.toList.filter (·.position == 0)).map (·.block)

theorem placesFirst (program : Program) (order : List Nat) :
    ((places program order).filter (·.2 == 0)).map (·.1) = order := by
  induction order with
  | nil => rfl
  | cons block order inductionHypothesis =>
      obtain ⟨rest, wide⟩ := Nat.exists_eq_add_one.mpr (widthPositive program block)
      rw [placesCons, List.filter_append, List.map_append, inductionHypothesis, wide,
        List.range_succ_eq_map]
      simp [List.filter_map, Function.comp_def]

theorem blockOrderReached (program : Program) (start : Nat) :
    (expandFrom program start).blockOrder = reached program start := by
  have placed : (expandFrom program start).nodes.toList.map
      (fun node => (node.block, node.position)) = places program (reached program start) := by
    apply List.ext_getElem?
    intro index
    rw [List.getElem?_map, Array.getElem?_toList, nodesAt, Option.map_map]
    cases (places program (reached program start))[index]? with
    | none => rfl
    | some place => rfl
  rw [← placesFirst program (reached program start), ← placed, List.filter_map, List.map_map]
  rfl

/-- From every node and in both directions the nodes of an expanded program are gathered in the
order of the recursive search that follows the edges from last to first. The nodes of the blocks are
numbered in the order of the search that follows the edges between blocks from first to last. -/
theorem gatheredByDescent {stream : List Instruction} {program : Program}
    (built : Program.build stream = .ok program) {start : Nat}
    (inside : start < program.blocks.length) :
    let graph := expandFrom program start
    (∀ direction, ∀ origin < graph.size,
      (∀ order, Descent (fun node => (graph.neighbours direction node).reverse) [] [origin] order ↔
        order = graph.gather direction origin) ∧
      (graph.gather direction origin).head? = some origin ∧
      (graph.gather direction origin).Nodup ∧
      ∀ node, node ∈ graph.gather direction origin ↔
        Reaches (graph.neighbours direction) origin node) ∧
    ∀ order, Descent program.successors [] [start] order ↔ order = graph.blockOrder := by
  intro graph
  have closed := Program.buildClosed built
  have coherent : graph.Coherent := expandCoherent closed inside
  constructor
  · intro direction origin originInside
    obtain ⟨rest, begins⟩ := gatherHead direction originInside
    refine ⟨fun order => ?_, by rw [begins]; rfl, gatherNodup graph direction origin,
      coherent.gatherReaches direction originInside⟩
    exact descentIffWalk (coherent.neighboursInside direction) originInside order
  · intro order
    rw [blockOrderReached]
    exact descentIffWalk (fun node _ => closed node) inside order

/-- Two ways that part at a branch and meet again. -/
def forkStream : List Instruction :=
  [{ opcode := { name := "s_cbranch_scc0", flow := .branch }, operands := ["other"] },
   { opcode := { name := "s_branch", flow := .jump }, operands := ["join"] },
   { opcode := { name := "s_nop" }, operands := ["0"], label := some "other" },
   { opcode := { name := "s_endpgm" }, label := some "join" }]

/-- The way by the fall-through is gathered first, although its nodes are numbered last. -/
theorem forkGathered : ∃ program, Program.build forkStream = .ok program ∧
    Descent (fun node => ((expandFrom program 0).neighbours .forward node).reverse) [] [0]
      [0, 1, 5, 3, 4, 2] ∧
    Descent (fun node => ((expandFrom program 0).neighbours .backward node).reverse) [] [4]
      [4, 3, 5, 1, 0, 2] ∧
    Descent program.successors [] [0] [0, 1, 3, 4, 5, 2] := by
  have built : Program.build forkStream = .ok _ := rfl
  have found := gatheredByDescent built (show 0 < 6 by decide)
  refine ⟨_, built, ?_, ?_, ?_⟩
  · exact ((found.1 .forward 0 (by decide +kernel)).1 _).mpr (by decide +kernel)
  · exact ((found.1 .backward 4 (by decide +kernel)).1 _).mpr (by decide +kernel)
  · exact (found.2 _).mpr (by decide +kernel)

end Graph

end ShaderAnalysis
