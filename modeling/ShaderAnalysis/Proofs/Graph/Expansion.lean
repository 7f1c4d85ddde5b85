/-
This file shows where the expansion of a program puts the instructions of its blocks.
-/

import Mathlib.Data.List.Nodup
import ShaderAnalysis.Liveness.Solve
import ShaderAnalysis.Proofs.Graph.Reachability
import ShaderAnalysis.Proofs.Program.WellFormed

namespace ShaderAnalysis

/-- Every edge of a closed program leads to one of its blocks. -/
def Program.Closed (program : Program) : Prop :=
  ∀ block, ∀ target ∈ program.successors block, target < program.blocks.length

theorem Program.buildClosed {stream : List Instruction} {program : Program}
    (built : Program.build stream = .ok program) : program.Closed :=
  fun _ _ member => Program.successorsInside built member

namespace Graph

section

variable (program : Program)

theorem widthPositive (block : Nat) : 0 < width program block :=
  Nat.lt_of_lt_of_le Nat.one_pos (Nat.le_max_left _ _)

theorem widthAt {index : Nat} {block : Block} (found : program.blocks[index]? = some block) :
    width program index = max 1 block.instructions.length := by
  rw [width, found]
  rfl

theorem firstNodeCons (first : Nat) (order : List Nat) (block : Nat) :
    firstNode program (first :: order) block =
      if first = block then 0 else width program first + firstNode program order block := by
  unfold firstNode
  rw [List.takeWhile_cons]
  by_cases same : first = block
  · simp [same]
  · simp [same]

theorem placesCons (first : Nat) (order : List Nat) :
    places program (first :: order) =
      (List.range (width program first)).map (fun position => (first, position)) ++
        places program order := by
  unfold places
  rw [List.flatMap_cons]

theorem placesMember (order : List Nat) (block position : Nat) :
    (block, position) ∈ places program order ↔ block ∈ order ∧ position < width program block := by
  simp only [places, List.mem_flatMap, List.mem_map, List.mem_range, Prod.mk.injEq]
  constructor
  · rintro ⟨_, member, _, inside, rfl, rfl⟩
    exact ⟨member, inside⟩
  · intro ⟨member, inside⟩
    exact ⟨block, member, position, inside, rfl, rfl⟩

theorem placesNodup {order : List Nat} (distinct : order.Nodup) :
    (places program order).Nodup := by
  induction order with
  | nil => exact .nil
  | cons first order inductionHypothesis =>
      obtain ⟨fresh, distinct⟩ := List.nodup_cons.mp distinct
      rw [placesCons]
      apply List.Nodup.append
      · exact List.nodup_range.map fun _ _ same => (Prod.mk.inj same).2
      · exact inductionHypothesis distinct
      · intro place here later
        obtain ⟨position, _, rfl⟩ := List.mem_map.mp here
        exact fresh ((placesMember program order first position).mp later).1

/-- The nodes of a block follow each other from its first node on. -/
theorem placesAt {order : List Nat} {block position : Nat} (member : block ∈ order)
    (inside : position < width program block) :
    (places program order)[firstNode program order block + position]? = some (block, position) := by
  induction order with
  | nil => cases member
  | cons first order inductionHypothesis =>
      rw [placesCons, firstNodeCons]
      by_cases same : first = block
      · subst same
        rw [if_pos rfl, Nat.zero_add, List.getElem?_append_left (by simpa using inside)]
        simp [inside]
      · have later := (List.mem_cons.mp member).resolve_left (Ne.symm same)
        rw [if_neg same, List.getElem?_append_right (by simp; omega)]
        simp only [List.length_map, List.length_range]
        rw [show width program first + firstNode program order block + position -
          width program first = firstNode program order block + position by omega]
        exact inductionHypothesis later

theorem placesIndex {order : List Nat} (distinct : order.Nodup) {index block position : Nat}
    (found : (places program order)[index]? = some (block, position)) :
    index = firstNode program order block + position := by
  obtain ⟨member, inside⟩ :=
    (placesMember program order block position).mp (List.mem_of_getElem? found)
  have again := placesAt program member inside
  have bound := (List.getElem?_eq_some_iff.mp found).1
  exact (List.getElem?_inj bound (placesNodup program distinct)).mp (found.trans again.symm)

/-- The successors of all the nodes, in the order of the nodes. -/
def edgeLists (start : Nat) : List (List Nat) :=
  (places program (reached program start)).map fun place =>
    nodeSuccessors program (reached program start) place.1 place.2

theorem nodesAt (start index : Nat) :
    (expandFrom program start).nodes[index]? =
      (places program (reached program start))[index]?.map fun place =>
        { block := place.1
          position := place.2
          instruction := program.blocks[place.1]?.bind (·.instructions[place.2]?)
          successors := nodeSuccessors program (reached program start) place.1 place.2
          predecessors := sourcesOf (edgeLists program start) index } := by
  unfold expandFrom edgeLists
  dsimp only
  rw [List.getElem?_toArray, List.getElem?_map, List.getElem?_zipIdx, List.zip,
    List.getElem?_zipWith, List.getElem?_map]
  cases (places program (reached program start))[index]? with
  | none => rfl
  | some place => simp only [Option.map_some, Nat.zero_add]

theorem expandSize (start : Nat) :
    (expandFrom program start).size = (places program (reached program start)).length := by
  simp [expandFrom, size]

theorem successorsEdgeLists (start index : Nat) :
    (expandFrom program start).successors index = (edgeLists program start)[index]?.getD [] := by
  rw [successors, nodesAt, edgeLists, List.getElem?_map, Option.map_map]
  rfl

/-- The predecessors of a node are the nodes that have it among their successors. -/
theorem predecessorsExpand (start index source : Nat) :
    source ∈ (expandFrom program start).predecessors index ↔
      index < (expandFrom program start).size ∧
        index ∈ (expandFrom program start).successors source := by
  have sources : source ∈ sourcesOf (edgeLists program start) index ↔
      index ∈ (expandFrom program start).successors source := by
    rw [sourcesOfMember, successorsEdgeLists]
    cases (edgeLists program start)[source]? with
    | none => simp
    | some targets => simp
  rw [← sources, predecessors, nodesAt, expandSize]
  cases found : (places program (reached program start))[index]? with
  | none => simpa using fun inside => absurd inside (by simpa using found)
  | some place => simp [(List.getElem?_eq_some_iff.mp found).1]

/-- Control goes on inside a block, and from its last place to the first places of other blocks. -/
def nextPlaces (place : Nat × Nat) : List (Nat × Nat) :=
  if place.2 + 1 < width program place.1 then [(place.1, place.2 + 1)]
  else (program.successors place.1).map fun block => (block, 0)

theorem placeOf {start index : Nat} {place : Nat × Nat}
    (found : (places program (reached program start))[index]? = some place) :
    (expandFrom program start).place index = place := by
  rw [Graph.place, nodesAt, found]
  rfl

end

section

variable {program : Program} {start : Nat}

theorem reachedNodup : (reached program start).Nodup :=
  walkNodup _ _ _ List.nodup_range

theorem firstNodeStart (inside : start < program.blocks.length) :
    firstNode program (reached program start) start = 0 := by
  obtain ⟨rest, begins⟩ := walkHead program.successors (List.mem_range.mpr inside)
  rw [reached, begins, firstNodeCons, if_pos rfl]

/-- The first node stands at the start. -/
theorem placesEntry (inside : start < program.blocks.length) :
    (places program (reached program start))[0]? = some (start, 0) := by
  obtain ⟨rest, begins⟩ := walkHead program.successors (List.mem_range.mpr inside)
  have member : start ∈ reached program start := by
    rw [reached, begins]
    exact List.mem_cons_self
  have first := placesAt program member (widthPositive program start)
  rwa [firstNodeStart inside] at first

theorem reachedMember (closed : program.Closed) (inside : start < program.blocks.length)
    (block : Nat) : block ∈ reached program start ↔ Reaches program.successors start block := by
  apply walkReaches
  · intro node _ other edge
    exact List.mem_range.mpr (closed node other edge)
  · exact List.mem_range.mpr inside

theorem reachedClosed (closed : program.Closed) (inside : start < program.blocks.length)
    {block target : Nat} (member : block ∈ reached program start)
    (edge : target ∈ program.successors block) : target ∈ reached program start := by
  rw [reachedMember closed inside] at member ⊢
  exact member.tail edge

/-- Every node stands for one position of a block that is reached. -/
theorem nodePlace {index : Nat} (bound : index < (expandFrom program start).size) :
    ∃ block position, (places program (reached program start))[index]? = some (block, position) ∧
      block ∈ reached program start ∧ position < width program block ∧
      index = firstNode program (reached program start) block + position := by
  rw [expandSize] at bound
  have found := List.getElem?_eq_getElem bound
  obtain ⟨member, within⟩ :=
    (placesMember program _ _ _).mp (List.mem_of_getElem? found)
  exact ⟨_, _, found, member, within, placesIndex program reachedNodup found⟩

theorem nodeOfPlace {block position : Nat} (member : block ∈ reached program start)
    (within : position < width program block) :
    firstNode program (reached program start) block + position < (expandFrom program start).size ∧
      (expandFrom program start).place (firstNode program (reached program start) block + position) =
        (block, position) := by
  have found := placesAt program member within
  rw [expandSize]
  exact ⟨(List.getElem?_eq_some_iff.mp found).1, placeOf program found⟩

/-- The places of the blocks that can be reached are those that the nodes stand for. -/
theorem placeTaken (closed : program.Closed) (inside : start < program.blocks.length)
    (index position : Nat) :
    (∃ node < (expandFrom program start).size,
        (expandFrom program start).place node = (index, position)) ↔
      Reaches program.successors start index ∧ position < width program index := by
  rw [← reachedMember closed inside]
  constructor
  · rintro ⟨node, bound, place⟩
    obtain ⟨block, offset, found, member, within, _⟩ := nodePlace bound
    rw [placeOf program found] at place
    cases place
    exact ⟨member, within⟩
  · intro ⟨member, within⟩
    exact ⟨_, nodeOfPlace member within⟩

theorem successorsNode {index : Nat} {place : Nat × Nat}
    (found : (places program (reached program start))[index]? = some place) :
    (expandFrom program start).successors index =
      nodeSuccessors program (reached program start) place.1 place.2 := by
  rw [successors, nodesAt, found]
  rfl

/-- Each successor of a node stands for a place where control goes next. -/
theorem successorPlaces (closed : program.Closed) (inside : start < program.blocks.length)
    {index : Nat} (bound : index < (expandFrom program start).size) :
    (∀ target ∈ (expandFrom program start).successors index,
        target < (expandFrom program start).size) ∧
      ((expandFrom program start).successors index).map (expandFrom program start).place =
        nextPlaces program ((expandFrom program start).place index) := by
  obtain ⟨block, position, found, member, within, _⟩ := nodePlace bound
  rw [successorsNode found, placeOf program found, nodeSuccessors, nextPlaces]
  split
  · rename_i more
    have next := placesAt program member more
    rw [← Nat.add_assoc] at next
    rw [List.map_singleton, placeOf program next]
    refine ⟨fun target same => ?_, rfl⟩
    rw [List.mem_singleton.mp same, expandSize]
    exact (List.getElem?_eq_some_iff.mp next).1
  · have first : ∀ target ∈ program.successors block,
        (places program (reached program start))[
          firstNode program (reached program start) target]? = some (target, 0) := fun target edge =>
      placesAt program (reachedClosed closed inside member edge) (widthPositive program target)
    constructor
    · intro target among
      obtain ⟨other, edge, rfl⟩ := List.mem_map.mp among
      rw [expandSize]
      exact (List.getElem?_eq_some_iff.mp (first other edge)).1
    · rw [List.map_map]
      exact List.map_congr_left fun target edge => placeOf program (first target edge)

theorem placeInside {index : Nat} (bound : index < (expandFrom program start).size) :
    ((expandFrom program start).place index).1 < program.blocks.length ∧
      ((expandFrom program start).place index).2 <
        width program ((expandFrom program start).place index).1 := by
  obtain ⟨block, position, found, member, within, _⟩ := nodePlace bound
  rw [placeOf program found]
  exact ⟨List.mem_range.mp (walkRemains member), within⟩

/-- No two nodes stand for the same place. -/
theorem placeInjective {first second : Nat} (firstBound : first < (expandFrom program start).size)
    (secondBound : second < (expandFrom program start).size)
    (same : (expandFrom program start).place first = (expandFrom program start).place second) :
    first = second := by
  obtain ⟨block, position, firstFound, _, _, firstIndex⟩ := nodePlace firstBound
  obtain ⟨otherBlock, otherPosition, secondFound, _, _, secondIndex⟩ := nodePlace secondBound
  rw [placeOf program firstFound, placeOf program secondFound] at same
  obtain ⟨rfl, rfl⟩ := Prod.mk.inj same
  exact firstIndex.trans secondIndex.symm

/-- The successors of a node are the nodes that stand where control goes next. -/
theorem successorIff (closed : program.Closed) (inside : start < program.blocks.length)
    {index : Nat} (bound : index < (expandFrom program start).size) (target : Nat) :
    target ∈ (expandFrom program start).successors index ↔
      target < (expandFrom program start).size ∧ (expandFrom program start).place target ∈
        nextPlaces program ((expandFrom program start).place index) := by
  obtain ⟨targets, places⟩ := successorPlaces closed inside bound
  rw [← places, List.mem_map]
  constructor
  · intro edge
    exact ⟨targets target edge, target, edge, rfl⟩
  · rintro ⟨targetBound, other, edge, same⟩
    rwa [← placeInjective (targets other edge) targetBound same]

theorem placeEntry (inside : start < program.blocks.length) :
    (expandFrom program start).place (expandFrom program start).entry = (start, 0) :=
  placeOf program (placesEntry inside)

theorem instructionPlace (index : Nat) (bound : index < (expandFrom program start).size) :
    (expandFrom program start).instruction? index =
      program.blocks[((expandFrom program start).place index).1]?.bind
        (·.instructions[((expandFrom program start).place index).2]?) := by
  obtain ⟨block, position, found, _⟩ := nodePlace bound
  rw [placeOf program found, instruction?, nodesAt, found]
  rfl

theorem predecessorsOnce (index : Nat) :
    ((expandFrom program start).predecessors index).Nodup := by
  rw [predecessors, nodesAt]
  cases (places program (reached program start))[index]? with
  | none => exact .nil
  | some place => exact sourcesOfNodup _ _

/-- The first node of a block reaches the other nodes of the block. -/
theorem reachesInBlock {block position : Nat} (member : block ∈ reached program start)
    (within : position < width program block) :
    Reaches (expandFrom program start).successors
      (firstNode program (reached program start) block)
      (firstNode program (reached program start) block + position) := by
  induction position with
  | zero => exact .refl
  | succ position inductionHypothesis =>
      have before : position < width program block := Nat.lt_of_succ_lt within
      refine (inductionHypothesis before).tail ?_
      rw [successorsNode (placesAt program member before), nodeSuccessors, if_pos within]
      exact List.mem_singleton_self _

theorem reachesFirstNode (closed : program.Closed) (inside : start < program.blocks.length)
    {block : Nat} (member : block ∈ reached program start) :
    Reaches (expandFrom program start).successors (expandFrom program start).entry
      (firstNode program (reached program start) block) := by
  -- The induction is on the path of blocks, each of which is crossed to its last node.
  have path := (reachedMember closed inside block).mp member
  clear member
  induction path with
  | refl =>
      rw [firstNodeStart inside]
      exact .refl
  | @tail block target path edge inductionHypothesis =>
      have member := (reachedMember closed inside block).mpr path
      have positive := widthPositive program block
      have last : width program block - 1 < width program block := Nat.sub_one_lt_of_lt positive
      refine (inductionHypothesis.trans (reachesInBlock member last)).tail ?_
      rw [successorsNode (placesAt program member last), nodeSuccessors,
        if_neg (by dsimp only; omega)]
      exact List.mem_map_of_mem edge

end

/-- The edges of a coherent graph stay inside it and are noted at both ends, and the entry reaches
every node. -/
structure Coherent (graph : Graph) : Prop where
  entryInside : graph.entry < graph.size
  inside : ∀ node, ∀ target ∈ graph.successors node, target < graph.size
  converse : ∀ node target, node ∈ graph.predecessors target ↔ target ∈ graph.successors node
  reached : ∀ node < graph.size, Reaches graph.successors graph.entry node

/-- The registers of a node are those of its instruction. -/
theorem registersInstruction (graph : Graph) (node : Nat) :
    graph.registers node = ((graph.instruction? node).map (·.registers)).getD {} := by
  unfold registers instruction?
  cases graph.nodes[node]? with
  | none => rfl
  | some entry => rfl

/-- The node of an empty block uses no register. -/
theorem emptyRegisters {program : Program} {start node index position : Nat}
    (bound : node < (expandFrom program start).size)
    (place : (expandFrom program start).place node = (index, position)) {block : Block}
    (found : program.blocks[index]? = some block) (empty : block.instructions = []) :
    (expandFrom program start).registers node = {} := by
  rw [registersInstruction, instructionPlace node bound, place, found]
  simp [empty]

theorem successorsOutside {graph : Graph} {node : Nat} (outside : graph.size ≤ node) :
    graph.successors node = [] := by
  rw [successors, Array.getElem?_eq_none outside]
  rfl

theorem sourceInside {graph : Graph} {node target : Nat} (edge : target ∈ graph.successors node) :
    node < graph.size := by
  by_contra outside
  rw [successorsOutside (Nat.le_of_not_lt outside)] at edge
  cases edge

/-- Where no block has an edge twice, no node has one twice. -/
theorem successorsDistinct {program : Program} {start : Nat} (closed : program.Closed)
    (once : ∀ block, (program.successors block).Nodup) (inside : start < program.blocks.length)
    (node : Nat) : ((expandFrom program start).successors node).Nodup := by
  by_cases bound : node < (expandFrom program start).size
  · apply List.Nodup.of_map (expandFrom program start).place
    rw [(successorPlaces closed inside bound).2, nextPlaces]
    split
    · exact List.nodup_singleton _
    · exact (once _).map fun _ _ same => (Prod.mk.inj same).1
  · rw [successorsOutside (Nat.le_of_not_lt bound)]
    exact .nil

theorem expandCoherent {program : Program} {start : Nat} (closed : program.Closed)
    (inside : start < program.blocks.length) : (expandFrom program start).Coherent := by
  have edges : ∀ node, ∀ target ∈ (expandFrom program start).successors node,
      target < (expandFrom program start).size := by
    intro node target edge
    exact (successorPlaces closed inside (sourceInside edge)).1 target edge
  refine ⟨?_, edges, ?_, ?_⟩
  · rw [expandSize]
    exact (List.getElem?_eq_some_iff.mp (placesEntry inside)).1
  · intro node target
    rw [predecessorsExpand, and_iff_right_iff_imp]
    exact edges node target
  · intro node bound
    obtain ⟨block, position, _, reached, within, rfl⟩ := nodePlace bound
    exact (reachesFirstNode closed inside reached).trans (reachesInBlock reached within)

/-- Every program that is built expands to a coherent graph. -/
theorem expandBuilt {stream : List Instruction} {program : Program}
    (built : Program.build stream = .ok program) : (expand program).Coherent :=
  expandCoherent (Program.buildClosed built) (Program.entryInside built)

end Graph

end ShaderAnalysis
