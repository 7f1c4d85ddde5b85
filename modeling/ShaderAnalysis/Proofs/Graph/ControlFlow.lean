/-
This file compares the expansion of a program with the control flow of its instruction stream.
-/

import ShaderAnalysis.Proofs.Graph.Expansion
import ShaderAnalysis.Proofs.Program.Stream

namespace ShaderAnalysis

open Relation

/-- Control is at a position of the stream, at the entry before it or at the exit behind it. -/
inductive StreamPlace where
  | entry
  | position (index : Nat)
  | exit
  deriving DecidableEq, Repr

namespace StreamPlace

/-- The place behind a number of instructions. -/
def after (stream : List Instruction) (count : Nat) : StreamPlace :=
  if count < stream.length then .position count else .exit

def instruction? (stream : List Instruction) : StreamPlace → Option Instruction
  | .position index => stream[index]?
  | .entry | .exit => none

/-- A label names the entry, the exit or the instruction that carries it. -/
inductive Named (stream : List Instruction) : String → StreamPlace → Prop
  | entry : Named stream Block.entryLabel .entry
  | exit : Named stream Block.exitLabel .exit
  | position {index : Nat} {instruction : Instruction} {label : String}
      (found : stream[index]? = some instruction) (labelled : instruction.label = some label) :
      Named stream label (.position index)

/-- Control enters at the first instruction. It goes on behind every instruction that is no jump,
and from every branch or jump to the place that its first operand names. -/
inductive Edge (stream : List Instruction) : StreamPlace → StreamPlace → Prop
  | enter : Edge stream .entry (after stream 0)
  | next {index : Nat} {instruction : Instruction} (found : stream[index]? = some instruction)
      (goesOn : instruction.isJump = false) :
      Edge stream (.position index) (after stream (index + 1))
  | transfer {index : Nat} {instruction : Instruction} {label : String} {target : StreamPlace}
      (found : stream[index]? = some instruction) (transfers : instruction.transfers = true)
      (operand : instruction.target? = some label) (named : Named stream label target) :
      Edge stream (.position index) target

section

variable {stream : List Instruction} {index : Nat} {instruction : Instruction}
  {target : StreamPlace}

theorem edgeEntry : Edge stream .entry target ↔ target = after stream 0 := by
  constructor
  · intro edge
    cases edge
    rfl
  · intro same
    rw [same]
    exact .enter

theorem edgeExit : ¬ Edge stream .exit target := by
  intro edge
  cases edge

theorem edgePosition (found : stream[index]? = some instruction) :
    Edge stream (.position index) target ↔
      instruction.isJump = false ∧ target = after stream (index + 1) ∨
        ∃ label, instruction.transfers = true ∧ instruction.target? = some label ∧
          Named stream label target := by
  constructor
  · intro edge
    cases edge with
    | next again goesOn =>
        rw [Option.some.inj (found.symm.trans again)]
        exact .inl ⟨goesOn, rfl⟩
    | transfer again transfers operand named =>
        rw [Option.some.inj (found.symm.trans again)]
        exact .inr ⟨_, transfers, operand, named⟩
  · rintro (⟨goesOn, rfl⟩ | ⟨label, transfers, operand, named⟩)
    · exact .next found goesOn
    · exact .transfer found transfers operand named

end

end StreamPlace

namespace Program

open StreamPlace

/-- The place in the stream of a position in a block. -/
def streamPlace (program : Program) (place : Nat × Nat) : StreamPlace :=
  if place.1 = program.entry then .entry
  else if place.1 = program.exit then .exit
  else .position (program.offset place.1 + place.2)

theorem streamPlaceEntry (program : Program) (position : Nat) :
    program.streamPlace (program.entry, position) = .entry :=
  if_pos rfl

section

variable {stream : List Instruction} {program : Program} {index : Nat} {block : Block}

theorem streamPlaceExit (built : build stream = .ok program) (position : Nat) :
    program.streamPlace (program.exit, position) = .exit := by
  have notEntry := Nat.ne_of_gt (entryBeforeExit built)
  rw [streamPlace, if_neg notEntry, if_pos rfl]

theorem streamPlaceBetween (notEntry : index ≠ program.entry) (notExit : index ≠ program.exit)
    (position : Nat) :
    program.streamPlace (index, position) = .position (program.offset index + position) := by
  rw [streamPlace, if_neg notEntry, if_neg notExit]

/-- Each block ends where the next one begins. -/
theorem streamPlaceNext (built : build stream = .ok program) (beforeExit : index < program.exit) :
    program.streamPlace (index + 1, 0) =
      after program.instructions (program.offset (index + 1)) := by
  have notEntry : index + 1 ≠ program.entry := Nat.succ_ne_zero index
  by_cases last : index + 1 = program.exit
  · rw [last, streamPlaceExit built, after, offsetExit built, if_neg (Nat.lt_irrefl _)]
  · have inside := offsetInside built notEntry (Nat.lt_of_le_of_ne beforeExit last)
    rw [streamPlaceBetween notEntry last, after, if_pos inside, Nat.add_zero]

/-- The labels of the blocks name the places where the blocks begin. -/
theorem namedBlock (built : build stream = .ok program) (label : String) (target : StreamPlace) :
    Named program.instructions label target ↔
      ∃ index, program.labels[index]? = some label ∧ program.streamPlace (index, 0) = target := by
  constructor
  · intro named
    cases named with
    | entry => exact ⟨program.entry, entryLabelled built, streamPlaceEntry program 0⟩
    | exit => exact ⟨program.exit, exitLabelled built, streamPlaceExit built 0⟩
    | position found labelled =>
        obtain ⟨index, notEntry, notExit, named, rfl⟩ :=
          (labelledPosition built _ label).mp ⟨_, found, labelled⟩
        exact ⟨index, named, streamPlaceBetween notEntry notExit 0⟩
  · rintro ⟨index, labelled, rfl⟩
    by_cases isEntry : index = program.entry
    · rw [isEntry, entryLabelled built] at labelled
      rw [isEntry, streamPlaceEntry, ← Option.some.inj labelled]
      exact .entry
    · by_cases isExit : index = program.exit
      · rw [isExit, exitLabelled built] at labelled
        rw [isExit, streamPlaceExit built, ← Option.some.inj labelled]
        exact .exit
      · obtain ⟨_, found, carried⟩ := (labelledPosition built _ label).mpr
          ⟨index, isEntry, isExit, labelled, rfl⟩
        rw [streamPlaceBetween isEntry isExit]
        exact .position found carried

/-- From the last place of a block control goes on behind the block, unless a jump is there, and to
the place that a branch or jump there names. -/
theorem nextAtEnd (built : build stream = .ok program)
    (found : program.blocks[index]? = some block) (notExit : index ≠ program.exit) {position : Nat}
    (last : ¬ position + 1 < Graph.width program index) (target : StreamPlace) :
    target ∈ (Graph.nextPlaces program (index, position)).map program.streamPlace ↔
      (∀ last, block.last? = some last → last.isJump = false) ∧
          target = after program.instructions (program.offset (index + 1)) ∨
        ∃ last label, block.last? = some last ∧ last.transfers = true ∧
          last.target? = some label ∧ Named program.instructions label target := by
  have inside := (List.getElem?_eq_some_iff.mp found).1
  have beforeExit : index < program.exit := by
    rw [exit] at notExit ⊢
    omega
  have next := streamPlaceNext built beforeExit
  rw [Graph.nextPlaces, if_neg last, List.map_map, List.mem_map]
  constructor
  · rintro ⟨successor, member, rfl⟩
    rcases (successorsMember built found notExit successor).mp member with
      ⟨goesOn, rfl⟩ | ⟨last, label, ends, transfers, operand, labelled⟩
    · exact .inl ⟨goesOn, next⟩
    · exact .inr ⟨last, label, ends, transfers, operand,
        (namedBlock built label _).mpr ⟨successor, labelled, rfl⟩⟩
  · rintro (⟨goesOn, rfl⟩ | ⟨last, label, ends, transfers, operand, named⟩)
    · exact ⟨index + 1,
        (successorsMember built found notExit _).mpr (.inl ⟨goesOn, rfl⟩), next⟩
    · obtain ⟨successor, labelled, same⟩ := (namedBlock built label target).mp named
      exact ⟨successor, (successorsMember built found notExit _).mpr
        (.inr ⟨last, label, ends, transfers, operand, labelled⟩), same⟩

/-- The entry and the exit stand at one place each, and every other place has an instruction. -/
inductive Stands (program : Program) : Nat × Nat → StreamPlace → Prop
  | entry : Stands program (program.entry, 0) .entry
  | exit : Stands program (program.exit, 0) .exit
  | position {index : Nat} {block : Block} {position : Nat}
      (found : program.blocks[index]? = some block)
      (inside : position < block.instructions.length) :
      Stands program (index, position) (.position (program.offset index + position))

theorem standsAt (built : build stream = .ok program) {position : Nat}
    (inside : index < program.blocks.length) (within : position < Graph.width program index) :
    Stands program (index, position) (program.streamPlace (index, position)) := by
  have found := List.getElem?_eq_getElem inside
  rw [Graph.widthAt program found] at within
  by_cases empty : program.blocks[index].instructions = []
  · have first : position = 0 := by
      rw [empty, List.length_nil] at within
      omega
    rcases (emptyIffEnd built found).mp empty with isEntry | isExit
    · rw [first, isEntry, streamPlaceEntry]
      exact .entry
    · rw [first, isExit, streamPlaceExit built]
      exact .exit
  · have positive := List.length_pos_of_ne_nil empty
    obtain ⟨notEntry, notExit⟩ := (nonemptyBetween built found).mp empty
    rw [streamPlaceBetween notEntry notExit]
    exact .position found (by omega)

theorem standsInjective {first second : Nat × Nat} {target : StreamPlace}
    (firstStands : Stands program first target) (secondStands : Stands program second target) :
    first = second := by
  cases firstStands with
  | entry => cases secondStands; rfl
  | exit => cases secondStands; rfl
  | @position index block position found inside =>
      generalize same : program.offset index + position = target at secondStands
      cases secondStands with
      | position otherFound otherInside =>
          obtain ⟨sameBlock, samePosition⟩ :=
            streamInjective found otherFound inside otherInside same
          rw [sameBlock, samePosition]

theorem standsInstruction (built : build stream = .ok program) {place : Nat × Nat}
    {source : StreamPlace} (stands : Stands program place source) :
    program.blocks[place.1]?.bind (·.instructions[place.2]?) =
      source.instruction? program.instructions := by
  cases stands with
  | entry =>
      obtain ⟨block, found, empty⟩ := entryEmpty built
      rw [found, Option.bind_some, empty]
      rfl
  | exit =>
      obtain ⟨block, found, empty⟩ := exitEmpty built
      rw [found, Option.bind_some, empty]
      rfl
  | position found inside =>
      rw [found]
      exact (streamAt found inside).symm

theorem edgesFromEntry (built : build stream = .ok program) (target : StreamPlace) :
    target ∈ (Graph.nextPlaces program (program.entry, 0)).map program.streamPlace ↔
      Edge program.instructions .entry target := by
  obtain ⟨block, found, empty⟩ := entryEmpty built
  have notExit := Nat.ne_of_lt (entryBeforeExit built)
  have noLast : block.last? = none := by rw [Block.last?, empty, List.getLast?_nil]
  have narrow : ¬ 0 + 1 < Graph.width program program.entry := by
    simp [Graph.widthAt program found, empty]
  rw [nextAtEnd built found notExit narrow, offsetEntry built, edgeEntry]
  simp [noLast]

theorem edgesFromExit (built : build stream = .ok program) (target : StreamPlace) :
    target ∈ (Graph.nextPlaces program (program.exit, 0)).map program.streamPlace ↔
      Edge program.instructions .exit target := by
  obtain ⟨block, found, empty⟩ := exitEmpty built
  have narrow : ¬ 0 + 1 < Graph.width program program.exit := by
    simp [Graph.widthAt program found, empty]
  rw [Graph.nextPlaces, if_neg narrow, successorsOfExit built]
  exact iff_of_false List.not_mem_nil edgeExit

theorem edgesFromPosition (built : build stream = .ok program)
    (found : program.blocks[index]? = some block) {position : Nat}
    (inside : position < block.instructions.length) (target : StreamPlace) :
    target ∈ (Graph.nextPlaces program (index, position)).map program.streamPlace ↔
      Edge program.instructions (.position (program.offset index + position)) target := by
  obtain ⟨notEntry, notExit⟩ := positionBetween built found inside
  have here := List.getElem?_eq_getElem inside
  have width := Graph.widthAt program found
  rw [edgePosition ((streamAt found inside).trans here)]
  by_cases more : position + 1 < block.instructions.length
  · -- Inside a block no instruction transfers control.
    have straight := blockStraight built found here more
    have goesOn : block.instructions[position].isJump = false :=
      (Bool.or_eq_false_iff.mp straight).2
    have next := (streamAt found more).trans (List.getElem?_eq_getElem more)
    have bound := (List.getElem?_eq_some_iff.mp next).1
    rw [Graph.nextPlaces, if_pos (by dsimp only; omega), List.map_singleton, List.mem_singleton,
      streamPlaceBetween notEntry notExit, after, Nat.add_assoc, if_pos bound]
    simp [straight, goesOn]
  · have last : position + 1 = block.instructions.length := by omega
    have ends : block.last? = some block.instructions[position] := by
      rw [Block.last?, List.getLast?_eq_getElem?, ← last, Nat.add_sub_cancel, here]
    rw [nextAtEnd built found notExit (by omega), offsetNext found, ← last]
    simp [ends, Nat.add_assoc]

/-- Control goes from a place in a block where it goes in the stream. -/
theorem edgesFromPlace (built : build stream = .ok program) {place : Nat × Nat}
    {source : StreamPlace} (stands : Stands program place source) (target : StreamPlace) :
    target ∈ (Graph.nextPlaces program place).map program.streamPlace ↔
      Edge program.instructions source target := by
  cases stands with
  | entry => exact edgesFromEntry built target
  | exit => exact edgesFromExit built target
  | position found inside => exact edgesFromPosition built found inside target

end

end Program

namespace Graph

open StreamPlace

/-- A graph follows a stream when its nodes are the places that control reaches from the entry,
each with its instruction, and its edges lead where control goes next. Every edge is noted once at
both of its ends. -/
structure Follows (graph : Graph) (stream : List Instruction) (place : Nat → StreamPlace) :
    Prop where
  entry : place graph.entry = .entry
  distinct : ∀ first < graph.size, ∀ second < graph.size, place first = place second →
    first = second
  reached : ∀ target, ReflTransGen (Edge stream) .entry target ↔
    ∃ node < graph.size, place node = target
  instruction : ∀ node < graph.size, graph.instruction? node = (place node).instruction? stream
  edges : ∀ node < graph.size, ∀ target, Edge stream (place node) target ↔
    ∃ successor ∈ graph.successors node, place successor = target
  inside : ∀ node, ∀ successor ∈ graph.successors node, successor < graph.size
  successorsOnce : ∀ node, (graph.successors node).Nodup
  predecessorsOnce : ∀ node, (graph.predecessors node).Nodup
  converse : ∀ node successor,
    node ∈ graph.predecessors successor ↔ successor ∈ graph.successors node

section

variable {stream : List Instruction} {program : Program} {node : Nat}

theorem entryNode (built : Program.build stream = .ok program) :
    program.streamPlace ((expand program).place (expand program).entry) = .entry := by
  rw [expand, placeEntry (Program.entryInside built), Program.streamPlaceEntry]

theorem standsNode (built : Program.build stream = .ok program)
    (bound : node < (expand program).size) :
    program.Stands ((expand program).place node)
      (program.streamPlace ((expand program).place node)) := by
  obtain ⟨inside, within⟩ := placeInside bound
  exact Program.standsAt built inside within

/-- The successors of a node stand where control goes next in the stream. -/
theorem edgesFromNode (built : Program.build stream = .ok program)
    (bound : node < (expand program).size) (target : StreamPlace) :
    Edge program.instructions (program.streamPlace ((expand program).place node)) target ↔
      ∃ successor ∈ (expand program).successors node,
        program.streamPlace ((expand program).place successor) = target := by
  have places :=
    (successorPlaces (Program.buildClosed built) (Program.entryInside built) bound).2
  rw [← Program.edgesFromPlace built (standsNode built bound), expand, ← places, List.map_map,
    List.mem_map]
  rfl

theorem nodeOfReached (built : Program.build stream = .ok program) {target : StreamPlace}
    (path : ReflTransGen (Edge program.instructions) .entry target) :
    ∃ node < (expand program).size,
      program.streamPlace ((expand program).place node) = target := by
  have coherent := expandBuilt built
  induction path with
  | refl =>
      exact ⟨(expand program).entry, coherent.entryInside, entryNode built⟩
  | tail path edge inductionHypothesis =>
      obtain ⟨node, bound, rfl⟩ := inductionHypothesis
      obtain ⟨successor, member, same⟩ := (edgesFromNode built bound _).mp edge
      exact ⟨successor, coherent.inside node successor member, same⟩

theorem reachedOfNode (built : Program.build stream = .ok program)
    (bound : node < (expand program).size) :
    ReflTransGen (Edge program.instructions) .entry
      (program.streamPlace ((expand program).place node)) := by
  have coherent := expandBuilt built
  have path := coherent.reached node bound
  clear bound
  induction path with
  | refl => rw [entryNode built]
  | @tail node successor path edge inductionHypothesis =>
      have next := (edgesFromNode built (sourceInside edge) _).mpr ⟨successor, edge, rfl⟩
      exact inductionHypothesis.tail next

theorem successorsOnce (built : Program.build stream = .ok program) (node : Nat) :
    ((expand program).successors node).Nodup :=
  successorsDistinct (Program.buildClosed built) (Program.successorsOnce built)
    (Program.entryInside built) node

/-- The expansion of a program is the control flow of its instruction stream. -/
theorem expandFollowsStream (built : Program.build stream = .ok program) :
    (expand program).Follows program.instructions fun node =>
      program.streamPlace ((expand program).place node) where
  entry := entryNode built
  distinct first firstBound second secondBound same := by
    apply placeInjective firstBound secondBound
    have firstStands := standsNode built firstBound
    rw [same] at firstStands
    exact Program.standsInjective firstStands (standsNode built secondBound)
  reached target := by
    constructor
    · exact nodeOfReached built
    · rintro ⟨node, bound, rfl⟩
      exact reachedOfNode built bound
  instruction node bound := by
    rw [expand, instructionPlace node bound]
    exact Program.standsInstruction built (standsNode built bound)
  edges node bound target := edgesFromNode built bound target
  inside := (expandBuilt built).inside
  successorsOnce := Graph.successorsOnce built
  predecessorsOnce node := Graph.predecessorsOnce node
  converse := (expandBuilt built).converse

end

/-- A branch to the next instruction, a branch to itself, a jump to the exit and dead code. -/
def deadStream : List Instruction :=
  [{ opcode := { name := "s_cbranch_scc0", flow := .branch }, operands := ["spin"] },
   { opcode := { name := "s_cbranch_vccnz", flow := .branch }
     operands := ["spin"]
     label := some "spin" },
   { opcode := { name := "s_branch", flow := .jump }, operands := ["exit"] },
   { opcode := { name := "v_mov_b32", written := [0], read := [1] }, operands := ["v1", "v0"] }]

theorem deadCodeUnreached : ∃ program, Program.build deadStream = .ok program ∧
    (List.range (expand program).size).map
        (fun node => program.streamPlace ((expand program).place node)) =
      [.entry, .position 0, .position 1, .position 2, .exit] ∧
    (expand program).Follows program.instructions
      (fun node => program.streamPlace ((expand program).place node)) ∧
    ¬ ReflTransGen (Edge program.instructions) .entry (.position 3) := by
  have built : Program.build deadStream = .ok _ := rfl
  have follows := expandFollowsStream built
  refine ⟨_, built, by decide +kernel, follows, fun path => ?_⟩
  have stands := (follows.reached _).mp path
  exact absurd stands (by decide +kernel)

end Graph

end ShaderAnalysis
