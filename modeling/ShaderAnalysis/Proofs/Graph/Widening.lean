/-
This file shows how an instruction that is inserted into a block widens the graph of its program.
-/

import ShaderAnalysis.Proofs.Graph.ControlFlow
import ShaderAnalysis.Proofs.Graph.Subdivision
import ShaderAnalysis.Proofs.Program.Insertion

namespace ShaderAnalysis

namespace Graph

section

variable (program : Program) (start index position : Nat) (inserted : Instruction)

/-- Behind the insertion the positions of the block move on by one. -/
def slide (place : Nat × Nat) : Nat :=
  if place.1 = index ∧ position < place.2 then place.2 + 1 else place.2

/-- The node that stands for the same instruction after the insertion. -/
def widened (node : Nat) : Nat :=
  firstNode (program.insertBehind index position inserted) (reached program start)
      ((expandFrom program start).place node).1 +
    slide index position ((expandFrom program start).place node)

/-- The node of the inserted instruction. -/
def freshNode : Nat :=
  firstNode (program.insertBehind index position inserted) (reached program start) index +
    (position + 1)

/-- Nothing slides into the gap behind the position. -/
theorem slideApart (place : Nat × Nat) (same : place.1 = index) :
    slide index position place ≠ position + 1 := by
  rw [slide]
  split <;> omega

theorem slideInjective {first second : Nat × Nat} (sameBlock : first.1 = second.1)
    (same : slide index position first = slide index position second) : first = second := by
  apply Prod.ext sameBlock
  rw [slide, slide, sameBlock] at same
  split at same <;> split at same <;> omega

/-- Neighbours stay next to each other, but for the gap. -/
theorem slideNext {other inner : Nat} (away : ¬ (other = index ∧ inner = position)) :
    slide index position (other, inner) + 1 = slide index position (other, inner + 1) := by
  simp only [slide]
  by_cases same : other = index
  · by_cases behind : position < inner
    · rw [if_pos ⟨same, behind⟩, if_pos ⟨same, Nat.lt_succ_of_lt behind⟩]
    · rw [if_neg (by omega), if_neg (by omega)]
  · rw [if_neg (by omega), if_neg (by omega)]

theorem reachedInsert :
    reached (program.insertBehind index position inserted) start = reached program start := by
  have successors : (program.insertBehind index position inserted).successors =
      program.successors := by
    funext other
    exact Program.insertBehindSuccessors program index position inserted other
  rw [reached, successors, Program.insertBehindLength]
  rfl

theorem widenedAt {other inner : Nat} (member : other ∈ reached program start)
    (inside : inner < width program other) :
    widened program start index position inserted
        (firstNode program (reached program start) other + inner) =
      firstNode (program.insertBehind index position inserted) (reached program start) other +
        slide index position (other, inner) := by
  rw [widened, (nodeOfPlace member inside).2]

/-- Every instruction is found where it slides to. -/
theorem instructionInsert (place : Nat × Nat) :
    (program.insertBehind index position inserted).blocks[place.1]?.bind
        (·.instructions[slide index position place]?) =
      program.blocks[place.1]?.bind (·.instructions[place.2]?) := by
  obtain ⟨other, inner⟩ := place
  rw [Program.insertBehindAt]
  dsimp only
  by_cases same : index = other
  · subst same
    rw [if_pos rfl]
    cases program.blocks[index]? with
    | none => rfl
    | some block =>
        simp only [Option.map_some, Option.bind_some, Block.insertBehind, List.getElem?_insertIdx,
          slide, true_and]
        by_cases behind : position < inner
        · simp [behind, show ¬ inner + 1 < position + 1 by omega, show inner ≠ position by omega]
        · simp [behind, show inner < position + 1 by omega]
  · simp [same, slide, Ne.symm same]

end

section

variable {program : Program} {start index position : Nat} {block : Block}
  (found : program.blocks[index]? = some block) (within : position < block.instructions.length)
  (inserted : Instruction)

include found within

theorem widthInsert (other : Nat) :
    width (program.insertBehind index position inserted) other =
      if other = index then width program other + 1 else width program other := by
  by_cases same : other = index
  · subst same
    have grown := Program.insertBehindFound program other position inserted found
    rw [if_pos rfl, widthAt _ grown, widthAt _ found, Block.insertBehindLength within]
    omega
  · rw [if_neg same, width, width, Program.insertBehindAt, if_neg (Ne.symm same)]

theorem positionInside : position < width program index := by
  rw [widthAt _ found]
  omega

theorem slideInside (place : Nat × Nat) :
    slide index position place < width (program.insertBehind index position inserted) place.1 ↔
      place.2 < width program place.1 := by
  have wide := positionInside found within
  rw [widthInsert found within, slide]
  by_cases same : place.1 = index
  · rw [same, if_pos rfl]
    split <;> omega
  · simp [same]

theorem freshInside :
    position + 1 < width (program.insertBehind index position inserted) index := by
  rw [widthInsert found within, if_pos rfl, widthAt _ found]
  omega

theorem instructionFresh :
    (program.insertBehind index position inserted).blocks[index]?.bind
      (·.instructions[position + 1]?) = some inserted := by
  rw [Program.insertBehindFound program index position inserted found, Option.bind_some,
    Block.insertBehind, List.getElem?_insertIdx_self, if_pos (by omega)]

/-- Each node slides along with its instruction. -/
theorem widenedPlace {node : Nat} (bound : node < (expandFrom program start).size) :
    widened program start index position inserted node <
        (expandFrom (program.insertBehind index position inserted) start).size ∧
      (expandFrom (program.insertBehind index position inserted) start).place
          (widened program start index position inserted node) =
        (((expandFrom program start).place node).1,
          slide index position ((expandFrom program start).place node)) := by
  obtain ⟨other, inner, place, member, inside, _⟩ := nodePlace bound
  have stays : slide index position (other, inner) <
      width (program.insertBehind index position inserted) other :=
    (slideInside found within inserted (other, inner)).mpr inside
  rw [widened, placeOf program place, ← reachedInsert program start index position inserted] at *
  exact nodeOfPlace member stays

theorem freshNodePlace (member : index ∈ reached program start) :
    freshNode program start index position inserted <
        (expandFrom (program.insertBehind index position inserted) start).size ∧
      (expandFrom (program.insertBehind index position inserted) start).place
        (freshNode program start index position inserted) = (index, position + 1) := by
  rw [freshNode, ← reachedInsert program start index position inserted] at *
  exact nodeOfPlace member (freshInside found within inserted)

/-- Every node of the wider graph but the fresh one stands for an instruction that was there. -/
theorem widenedCovers {node : Nat}
    (bound : node < (expandFrom (program.insertBehind index position inserted) start).size) :
    (index ∈ reached program start ∧ node = freshNode program start index position inserted) ∨
      ∃ source < (expandFrom program start).size,
        widened program start index position inserted source = node := by
  obtain ⟨other, inner, _, member, inside, rfl⟩ := nodePlace bound
  rw [reachedInsert] at member ⊢
  have unslid : ∀ earlier, slide index position (other, earlier) = inner →
      ∃ source < (expandFrom program start).size,
        widened program start index position inserted source =
          firstNode (program.insertBehind index position inserted) (reached program start) other +
            inner := by
    intro earlier same
    subst same
    have before := (slideInside found within inserted (other, earlier)).mp inside
    exact ⟨_, (nodeOfPlace member before).1,
      widenedAt program start index position inserted member before⟩
  by_cases behind : other = index ∧ position < inner
  · obtain ⟨rfl, later⟩ := behind
    by_cases fresh : inner = position + 1
    · rw [fresh]
      exact .inl ⟨member, rfl⟩
    · right
      apply unslid (inner - 1)
      rw [slide, if_pos ⟨rfl, by dsimp only; omega⟩]
      dsimp only
      omega
  · exact .inr (unslid inner (if_neg behind))

/-- Control goes on from a slot of the wider graph to where the next places slide to. -/
theorem widenedNext (closed : program.Closed) (inside : start < program.blocks.length)
    {other inner slot : Nat} (member : other ∈ reached program start)
    (next : slot + 1 = slide index position (other, inner + 1)) :
    nodeSuccessors (program.insertBehind index position inserted) (reached program start) other
        slot =
      (nodeSuccessors program (reached program start) other inner).map
        (widened program start index position inserted) := by
  have more := slideInside found within inserted (other, inner + 1)
  rw [← next] at more
  rw [nodeSuccessors, nodeSuccessors]
  by_cases goesOn : inner + 1 < width program other
  · rw [if_pos goesOn, if_pos (more.mpr goesOn), List.map_singleton, Nat.add_assoc, Nat.add_assoc,
      widenedAt program start index position inserted member goesOn, next]
  · rw [if_neg goesOn, if_neg (mt more.mp goesOn), Program.insertBehindSuccessors, List.map_map]
    apply List.map_congr_left
    intro target edge
    have first := widenedAt program start index position inserted
      (reachedClosed closed inside member edge) (widthPositive program target)
    rw [Function.comp_apply]
    simpa [slide] using first.symm

omit found within in
theorem widenedSuccessors {other slot : Nat} (member : other ∈ reached program start)
    (inside : slot < width (program.insertBehind index position inserted) other) :
    (expandFrom (program.insertBehind index position inserted) start).successors
        (firstNode (program.insertBehind index position inserted) (reached program start) other +
          slot) =
      nodeSuccessors (program.insertBehind index position inserted) (reached program start) other
        slot := by
  rw [← reachedInsert program start index position inserted] at *
  exact successorsNode (placesAt _ member inside)

theorem widenedEdges (closed : program.Closed) (inside : start < program.blocks.length)
    {node : Nat} (bound : node < (expandFrom program start).size)
    (away : node ≠ firstNode program (reached program start) index + position) :
    (expandFrom (program.insertBehind index position inserted) start).successors
        (widened program start index position inserted node) =
      ((expandFrom program start).successors node).map
        (widened program start index position inserted) := by
  obtain ⟨other, inner, place, member, innerInside, rfl⟩ := nodePlace bound
  have stays := (slideInside found within inserted (other, inner)).mpr innerInside
  rw [widenedAt program start index position inserted member innerInside,
    widenedSuccessors inserted member stays, successorsNode place]
  apply widenedNext found within inserted closed inside member
  apply slideNext
  rintro ⟨rfl, rfl⟩
  exact away rfl

theorem widenedRegisters {node : Nat} (bound : node < (expandFrom program start).size) :
    (expandFrom (program.insertBehind index position inserted) start).registers
        (widened program start index position inserted node) =
      (expandFrom program start).registers node := by
  obtain ⟨imageBound, imagePlace⟩ := widenedPlace found within inserted bound
  have same := instructionInsert program index position inserted
    ((expandFrom program start).place node)
  rw [registersInstruction, registersInstruction, instructionPlace _ imageBound, imagePlace,
    instructionPlace _ bound, same]

/-- The graph of the program is divided at the node behind which the instruction is inserted. -/
theorem insertSubdivides {stream : List Instruction}
    (built : Program.build stream = .ok program) (inside : start < program.blocks.length)
    (member : index ∈ reached program start) (unused : inserted.registers = {}) :
    (expandFrom program start).Subdivides
      (expandFrom (program.insertBehind index position inserted) start)
      (widened program start index position inserted)
      (firstNode program (reached program start) index + position)
      (freshNode program start index position inserted) := by
  have closed := Program.buildClosed built
  have wide := positionInside found within
  obtain ⟨nodeInside, nodePlaced⟩ := nodeOfPlace member wide
  obtain ⟨freshBound, freshPlaced⟩ := freshNodePlace found within inserted member
  have slot := freshInside found within inserted
  exact
    { inside := nodeInside
      goesOn := by
        intro last
        have notExit := (Program.positionBetween built found within).2
        rw [expandExit built inside nodeInside, nodePlaced] at last
        exact notExit (Prod.mk.inj last).1
      freshInside := freshBound
      imageInside := fun node bound => (widenedPlace found within inserted bound).1
      apart := by
        intro node bound same
        have place := (widenedPlace found within inserted bound).2
        rw [same, freshPlaced] at place
        obtain ⟨sameBlock, samePosition⟩ := Prod.mk.inj place
        exact slideApart index position _ sameBlock.symm samePosition.symm
      distinct := by
        intro first firstBound second secondBound same
        have place := (widenedPlace found within inserted firstBound).2
        rw [same, (widenedPlace found within inserted secondBound).2] at place
        obtain ⟨sameBlock, samePosition⟩ := Prod.mk.inj place
        exact placeInjective firstBound secondBound
          (slideInjective index position sameBlock samePosition).symm
      covered := fun node bound =>
        (widenedCovers found within inserted bound).imp And.right id
      edges := fun node bound away => widenedEdges found within inserted closed inside bound away
      leads := by
        rw [widenedAt program start index position inserted member wide, slide, if_neg (by simp),
          widenedSuccessors inserted member (Nat.lt_of_succ_lt slot), nodeSuccessors, if_pos slot]
        rfl
      follows := by
        rw [freshNode, widenedSuccessors inserted member slot,
          successorsNode (placesAt program member wide)]
        apply widenedNext found within inserted closed inside member
        rw [slide, if_pos ⟨rfl, Nat.lt_succ_self _⟩]
      registers := fun node bound => widenedRegisters found within inserted bound
      unused := by
        rw [registersInstruction, instructionPlace _ freshBound, freshPlaced,
          instructionFresh found within inserted]
        exact unused }

end

section

variable {program : Program} {start index : Nat} (position : Nat) (inserted : Instruction)
  (apart : index ∉ reached program start)

include apart

theorem blocksUnreached {other : Nat} (member : other ∈ reached program start) :
    (program.insertBehind index position inserted).blocks[other]? = program.blocks[other]? := by
  rw [Program.insertBehindAt, if_neg]
  rintro rfl
  exact apart member

theorem widthUnreached {other : Nat} (member : other ∈ reached program start) :
    width (program.insertBehind index position inserted) other = width program other := by
  rw [width, blocksUnreached position inserted apart member, width]

theorem firstNodeUnreached (other : Nat) :
    firstNode (program.insertBehind index position inserted) (reached program start) other =
      firstNode program (reached program start) other := by
  unfold firstNode
  congr 1
  apply List.map_congr_left
  intro before member
  exact widthUnreached position inserted apart ((List.takeWhile_subset _) member)

theorem placesUnreached :
    places (program.insertBehind index position inserted) (reached program start) =
      places program (reached program start) := by
  unfold places
  apply List.flatMap_congr
  intro other member
  rw [widthUnreached position inserted apart member]

theorem nodeSuccessorsUnreached {other : Nat} (member : other ∈ reached program start)
    (inner : Nat) :
    nodeSuccessors (program.insertBehind index position inserted) (reached program start) other
        inner =
      nodeSuccessors program (reached program start) other inner := by
  rw [nodeSuccessors, nodeSuccessors, widthUnreached position inserted apart member,
    Program.insertBehindSuccessors, funext (firstNodeUnreached position inserted apart)]

/-- Where the block is not reached the graph stays as it was. -/
theorem expandUnreached :
    expandFrom (program.insertBehind index position inserted) start = expandFrom program start := by
  have edges : edgeLists (program.insertBehind index position inserted) start =
      edgeLists program start := by
    rw [edgeLists, edgeLists, reachedInsert, placesUnreached position inserted apart]
    apply List.map_congr_left
    intro place member
    have reachedBlock := ((placesMember program _ _ _).mp member).1
    exact nodeSuccessorsUnreached position inserted apart reachedBlock place.2
  suffices same : (expandFrom (program.insertBehind index position inserted) start).nodes =
      (expandFrom program start).nodes from congrArg Graph.mk same
  apply Array.ext_getElem?
  intro node
  rw [nodesAt, nodesAt, edges, reachedInsert, placesUnreached position inserted apart]
  cases found : (places program (reached program start))[node]? with
  | none => rfl
  | some place =>
      have member := ((placesMember program _ _ _).mp (List.mem_of_getElem? found)).1
      simp only [Option.map_some, blocksUnreached position inserted apart member,
        nodeSuccessorsUnreached position inserted apart member]

theorem widenedUnreached {node : Nat} (bound : node < (expandFrom program start).size) :
    widened program start index position inserted node = node := by
  obtain ⟨other, inner, place, member, _, rfl⟩ := nodePlace bound
  have stays : slide index position (other, inner) = inner := by
    rw [slide, if_neg]
    rintro ⟨rfl, _⟩
    exact apart member
  rw [widened, placeOf program place, firstNodeUnreached position inserted apart, stays]

end

end Graph

/-- Behind an insertion the positions of the stream move on by one. -/
def StreamPlace.shift (behind position : Nat) : Nat :=
  if position ≤ behind then position else position + 1

theorem StreamPlace.shiftApart (behind position : Nat) : shift behind position ≠ behind + 1 := by
  rw [shift]
  split <;> omega

theorem StreamPlace.shiftInjective {behind first second : Nat}
    (same : shift behind first = shift behind second) : first = second := by
  rw [shift, shift] at same
  split at same <;> split at same <;> omega

namespace Program

open StreamPlace

variable {program : Program} {index position : Nat} {block : Block}
  (found : program.blocks[index]? = some block) (within : position < block.instructions.length)
  (inserted : Instruction)

include found within

theorem offsetInsert (other : Nat) :
    (program.insertBehind index position inserted).offset other =
      if index < other then program.offset other + 1 else program.offset other := by
  induction other with
  | zero => rfl
  | succ other inductionHypothesis =>
      have placed := insertBehindAt program index position inserted other
      cases known : program.blocks[other]? with
      | none =>
          have inside := (List.getElem?_eq_some_iff.mp found).1
          have outside := List.getElem?_eq_none_iff.mp known
          rw [known, Option.map_none, ite_self] at placed
          rw [offsetOutside placed, offsetOutside known, inductionHypothesis, if_pos (by omega),
            if_pos (by omega)]
      | some later =>
          rw [known, Option.map_some] at placed
          by_cases same : index = other
          · subst same
            obtain rfl := Option.some.inj (found.symm.trans known)
            rw [if_pos rfl] at placed
            rw [offsetNext placed, offsetNext known, inductionHypothesis,
              Block.insertBehindLength within, if_neg (Nat.lt_irrefl _),
              if_pos (Nat.lt_succ_self _), Nat.add_assoc]
          · rw [if_neg same] at placed
            rw [offsetNext placed, offsetNext known, inductionHypothesis]
            split <;> split <;> omega

/-- A place in the blocks slides as its position in the stream shifts. -/
theorem offsetSlide {other inner : Nat} {later : Block}
    (known : program.blocks[other]? = some later) (inside : inner < later.instructions.length) :
    (program.insertBehind index position inserted).offset other +
        Graph.slide index position (other, inner) =
      shift (program.offset index + position) (program.offset other + inner) := by
  have before : other < index → program.offset other + later.instructions.length ≤
      program.offset index := by
    intro ordered
    rw [← offsetNext known]
    exact offsetMono program ordered
  have behind : index < other → program.offset index + block.instructions.length ≤
      program.offset other := by
    intro ordered
    rw [← offsetNext found]
    exact offsetMono program ordered
  rw [offsetInsert found within, Graph.slide, shift]
  dsimp only
  by_cases same : other = index
  · subst same
    split <;> split <;> split <;> omega
  · split <;> split <;> split <;> omega

theorem streamPlaceInsert {stream : List Instruction} (built : build stream = .ok program)
    {other inner : Nat} (inside : other < program.blocks.length)
    (wide : inner < Graph.width program other) (target : Nat) :
    (program.insertBehind index position inserted).streamPlace
        (other, Graph.slide index position (other, inner)) =
          .position (shift (program.offset index + position) target) ↔
      program.streamPlace (other, inner) = .position target := by
  simp only [streamPlace, insertBehindExit, entry]
  by_cases isEntry : other = 0
  · simp [isEntry]
  · by_cases isExit : other = program.exit
    · rw [if_neg isEntry, if_pos isExit, if_neg isEntry, if_pos isExit]
      simp
    · have known := List.getElem?_eq_getElem inside
      have nonempty := (nonemptyBetween built known).mpr ⟨isEntry, isExit⟩
      have positive := List.length_pos_of_ne_nil nonempty
      rw [Graph.widthAt _ known] at wide
      have slides := offsetSlide found within inserted known
        (show inner < program.blocks[other].instructions.length by omega)
      rw [if_neg isEntry, if_neg isExit, if_neg isEntry, if_neg isExit, slides,
        StreamPlace.position.injEq, StreamPlace.position.injEq]
      exact ⟨shiftInjective, congrArg _⟩

theorem streamPlaceFresh {stream : List Instruction} (built : build stream = .ok program) :
    (program.insertBehind index position inserted).streamPlace (index, position + 1) =
      .position (program.offset index + position + 1) := by
  obtain ⟨notEntry, notExit⟩ := positionBetween built found within
  rw [← insertBehindExit program index position inserted] at notExit
  have unmoved := offsetInsert found within inserted index
  rw [if_neg (Nat.lt_irrefl _)] at unmoved
  rw [streamPlaceBetween _ notExit, unmoved, Nat.add_assoc]
  exact notEntry

end Program

end ShaderAnalysis
