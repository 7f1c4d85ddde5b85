/-
This file shows that an expansion lays out exactly the blocks that can be reached from its start.
-/

import ShaderAnalysis.Proofs.Liveness.Paths
import ShaderAnalysis.Session

namespace ShaderAnalysis

namespace Graph

/-- Control goes from a place to the next one of its block, and from the last place of a block to
the first place of every successor. -/
inductive NextPlace (program : Program) : Nat × Nat → Nat × Nat → Prop
  | within {index position : Nat} {block : Block} (found : program.blocks[index]? = some block)
      (more : position + 1 < max 1 block.instructions.length) :
      NextPlace program (index, position) (index, position + 1)
  | across {index position target : Nat} {block : Block}
      (found : program.blocks[index]? = some block)
      (last : position + 1 = max 1 block.instructions.length) (edge : target ∈ block.successors) :
      NextPlace program (index, position) (target, 0)

/-- A graph lays out the blocks that can be reached from a start. The label of such a block leads
back to it, and each of its successors has a first node. Every block takes consecutive nodes in
ascending order, one for each instruction and at least one, and no place is taken twice. -/
structure LaysOut (program : Program) (start : Nat) (graph : Graph) : Prop where
  known : ∀ index, Reaches program.successors start index →
    ∃ block, program.blocks[index]? = some block ∧ program.indexOf? block.label = some index
  goesOn : ∀ index block, Reaches program.successors start index →
    program.blocks[index]? = some block → ∀ target ∈ block.successors,
      ∃ node < graph.size, graph.place node = (target, 0)
  taken : ∀ index position, (∃ node < graph.size, graph.place node = (index, position)) ↔
    Reaches program.successors start index ∧
      ∃ block, program.blocks[index]? = some block ∧ position < max 1 block.instructions.length
  distinct : ∀ first < graph.size, ∀ second < graph.size,
    graph.place first = graph.place second → first = second
  consecutive : ∀ index block, Reaches program.successors start index →
    program.blocks[index]? = some block →
      ∃ first, ∀ position < max 1 block.instructions.length,
        first + position < graph.size ∧ graph.place (first + position) = (index, position)
  instruction : ∀ node < graph.size, graph.instruction? node =
    program.blocks[(graph.place node).1]?.bind (·.instructions[(graph.place node).2]?)
  begins : 0 < graph.size ∧ graph.place 0 = (start, 0)
  edges : ∀ node < graph.size, ∀ target, target ∈ graph.successors node ↔
    target < graph.size ∧ NextPlace program (graph.place node) (graph.place target)
  successorsOnce : ∀ node, (graph.successors node).Nodup
  predecessorsOnce : ∀ node, (graph.predecessors node).Nodup
  converse : ∀ node target, node ∈ graph.predecessors target ↔ target ∈ graph.successors node
  connected : ∀ node < graph.size, Reaches graph.successors 0 node

section

variable {program : Program} {start : Nat}

theorem nextPlacesMember {index position : Nat} (inside : index < program.blocks.length)
    (within : position < width program index) (next : Nat × Nat) :
    next ∈ nextPlaces program (index, position) ↔ NextPlace program (index, position) next := by
  have found := List.getElem?_eq_getElem inside
  have wide := widthAt program found
  unfold nextPlaces
  split
  · rename_i more
    dsimp only at more
    rw [List.mem_singleton]
    constructor
    · rintro rfl
      exact .within found (wide ▸ more)
    · intro step
      cases step with
      | within => rfl
      | across same last =>
          rw [widthAt program same] at more
          omega
  · rename_i less
    dsimp only at less
    rw [List.mem_map, Program.successorsAt program found]
    constructor
    · rintro ⟨target, edge, rfl⟩
      exact .across found (by omega) edge
    · intro step
      cases step with
      | within same more =>
          rw [widthAt program same] at less
          omega
      | @across _ _ target _ same last edge =>
          cases Option.some.inj (found.symm.trans same)
          exact ⟨target, edge, rfl⟩

variable (closed : program.Closed) (inside : start < program.blocks.length)

include closed inside

/-- Whatever can be reached is a block of the program. -/
theorem reachedInside {index : Nat} (path : Reaches program.successors start index) :
    index < program.blocks.length :=
  List.mem_range.mp (walkRemains ((reachedMember closed inside index).mpr path))

end

end Graph

theorem Session.stepExpand {session : Session} {program : Program}
    (held : session.program = some program) {start : Nat}
    (inside : start < program.blocks.length) :
    session.step (.expand (some start)) =
      .ok ({ session with
          graph := some (Graph.expandFrom program start, .fresh (Graph.expandFrom program start))
          order := none },
        .graph (Graph.expandFrom program start)) := by
  simp only [step, needProgram, held, Option.getD_some, bind, Except.bind, if_pos inside]
  rfl

namespace Graph

/-- Every program that is built is laid out from each of its blocks, with no register live yet. -/
theorem expandLaysOutReached {stream : List Instruction} {program : Program}
    (built : Program.build stream = .ok program) {start : Nat}
    (inside : start < program.blocks.length) :
    LaysOut program start (expandFrom program start) ∧
      ∀ session : Session, session.program = some program →
        ∃ live : LiveMap,
          session.step (.expand (some start)) =
            .ok ({ session with graph := some (expandFrom program start, live), order := none },
              .graph (expandFrom program start)) ∧
            live.size = (expandFrom program start).size ∧ ∀ node, live.setsAt node = {} := by
  have closed := Program.buildClosed built
  have coherent := expandCoherent closed inside
  have blockAt : ∀ index, Reaches program.successors start index →
      ∃ block, program.blocks[index]? = some block :=
    fun index path => ⟨_, List.getElem?_eq_getElem (reachedInside closed inside path)⟩
  constructor
  · exact {
      known := by
        intro index path
        obtain ⟨block, found⟩ := blockAt index path
        refine ⟨block, found, ?_⟩
        rw [Program.indexOfLabels, Program.idxOfDistinct (Program.labelsNodup built),
          Program.labelsAt]
        exact ⟨block, found, rfl⟩
      goesOn := by
        intro index block path found target edge
        rw [← Program.successorsAt program found] at edge
        exact (placeTaken closed inside target 0).mpr
          ⟨path.tail edge, widthPositive program target⟩
      taken := by
        intro index position
        rw [placeTaken closed inside]
        refine and_congr_right fun path => ?_
        obtain ⟨block, found⟩ := blockAt index path
        simp [widthAt program found, found]
      distinct := fun _ firstBound _ secondBound => placeInjective firstBound secondBound
      consecutive := by
        intro index block path found
        rw [← widthAt program found]
        have member := (reachedMember closed inside index).mpr path
        exact ⟨_, fun position within => nodeOfPlace member within⟩
      instruction := instructionPlace
      begins := ⟨coherent.entryInside, placeEntry inside⟩
      edges := by
        intro node bound target
        obtain ⟨blockInside, within⟩ := placeInside bound
        rw [successorIff closed inside bound, nextPlacesMember blockInside within]
      successorsOnce := successorsDistinct closed (Program.successorsOnce built) inside
      predecessorsOnce := predecessorsOnce
      converse := coherent.converse
      connected := coherent.reached }
  · intro session held
    exact ⟨_, Session.stepExpand held inside, Array.size_replicate, LiveMap.freshSets _⟩

/-- The loop is laid out from its start, without the blocks before it. -/
theorem loopLaidOut : ∃ program, Program.build Program.loopStream = .ok program ∧
    (List.range (expandFrom program 2).size).map (expandFrom program 2).place =
      [(2, 0), (2, 1), (3, 0), (4, 0)] ∧
    (expandFrom program 2).successors 1 = [0, 2] ∧
    LaysOut program 2 (expandFrom program 2) ∧ ¬ Reaches program.successors 2 1 := by
  have built : Program.build Program.loopStream = .ok _ := rfl
  have laid := (expandLaysOutReached built (show 2 < 5 by decide)).1
  refine ⟨_, built, by decide +kernel, by decide +kernel, laid, fun path => ?_⟩
  obtain ⟨block, found, _⟩ := laid.known 1 path
  have taken := (laid.taken 1 0).mpr ⟨path, block, found, by omega⟩
  exact absurd taken (by decide +kernel)

end Graph

end ShaderAnalysis
