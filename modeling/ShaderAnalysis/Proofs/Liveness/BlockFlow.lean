/-
This file shows that the live sets of the instructions satisfy the equations of liveness by block.
-/

import ShaderAnalysis.Proofs.Liveness.Equations

namespace ShaderAnalysis

/-- A register is exposed by some instructions if one of them reads it and none before that one
writes it. -/
def Exposes (instructions : List Instruction) (register : Nat) : Prop :=
  ∃ before instruction after, instructions = before ++ instruction :: after ∧
    register ∈ instruction.registers.read ∧
      ∀ earlier ∈ before, register ∉ earlier.registers.written

theorem exposesNil (register : Nat) : ¬ Exposes [] register := by
  intro ⟨before, instruction, after, same, _⟩
  simp at same

theorem exposesCons (first : Instruction) (rest : List Instruction) (register : Nat) :
    Exposes (first :: rest) register ↔ register ∈ first.registers.read ∨
      register ∉ first.registers.written ∧ Exposes rest register := by
  constructor
  · intro ⟨before, instruction, after, same, reads, unwritten⟩
    cases before with
    | nil =>
        obtain ⟨rfl, rfl⟩ := List.cons.inj same
        exact .inl reads
    | cons earlier before =>
        obtain ⟨rfl, rfl⟩ := List.cons.inj same
        rw [List.forall_mem_cons] at unwritten
        exact .inr ⟨unwritten.1, before, instruction, after, rfl, reads, unwritten.2⟩
  · intro exposed
    rcases exposed with reads | ⟨alone, before, instruction, after, rfl, reads, unwritten⟩
    · exact ⟨[], first, rest, rfl, reads, by simp⟩
    · exact ⟨first :: before, instruction, after, rfl, reads,
        List.forall_mem_cons.mpr ⟨alone, unwritten⟩⟩

theorem RegisterUse.mergeWritten (uses : List RegisterUse) (register : Nat) :
    register ∈ (merge uses).written ↔ ∃ use ∈ uses, register ∈ use.written := by
  have folded : ∀ start : RegisterUse, register ∈ (uses.foldl union start).written ↔
      register ∈ start.written ∨ ∃ use ∈ uses, register ∈ use.written := by
    induction uses with
    | nil => simp
    | cons use uses inductionHypothesis =>
        intro start
        rw [List.foldl_cons, inductionHypothesis]
        simp [union, or_assoc]
  rw [merge, folded]
  simp

/-- A block writes what one of its instructions writes. -/
theorem Block.registersWritten (block : Block) (register : Nat) :
    register ∈ block.registers.written ↔
      ∃ instruction ∈ block.instructions, register ∈ instruction.registers.written := by
  rw [registers, RegisterUse.mergeWritten]
  simp

namespace Graph

/-- A node and its only successor are processed together. -/
theorem Coherent.processedTogether {graph : Graph} (coherent : graph.Coherent) {node next : Nat}
    (only : graph.successors node = [next]) :
    node ∈ graph.processingOrder ↔ next ∈ graph.processingOrder := by
  have edge : next ∈ graph.successors node := by
    rw [only]
    exact List.mem_singleton_self next
  refine ⟨fun member => ?_, coherent.processingOrderClosed edge⟩
  rw [coherent.processingOrderMember] at member ⊢
  refine ⟨coherent.inside node next edge, fun exit found => ?_⟩
  rcases (member.2 exit found).cases_head with rfl | ⟨middle, step, path⟩
  · have last := List.find?_some found
    simp [only] at last
  · rw [only, List.mem_singleton] at step
    rwa [step] at path

section

variable {program : Program} {start index : Nat}

/-- With one node of a block the graph has a node for each position of the block. -/
theorem nodeInBlock {node position : Nat} (bound : node < (expandFrom program start).size)
    (here : ((expandFrom program start).place node).1 = index)
    (within : position < width program index) :
    ∃ other < (expandFrom program start).size,
      (expandFrom program start).place other = (index, position) := by
  obtain ⟨block, first, found, member, _⟩ := nodePlace bound
  rw [placeOf program found] at here
  subst here
  exact ⟨_, nodeOfPlace member within⟩

variable (closed : program.Closed) (inside : start < program.blocks.length)

include closed inside

/-- Inside a block each node leads to the node of the next position only. -/
theorem nextInBlock {node position : Nat} (bound : node < (expandFrom program start).size)
    (place : (expandFrom program start).place node = (index, position))
    (more : position + 1 < width program index) :
    ∃ next < (expandFrom program start).size,
      (expandFrom program start).successors node = [next] ∧
        (expandFrom program start).place next = (index, position + 1) := by
  obtain ⟨targets, places⟩ := successorPlaces closed inside bound
  rw [place, nextPlaces, if_pos more, List.map_eq_singleton_iff] at places
  obtain ⟨next, only, nextPlace⟩ := places
  exact ⟨next, targets next (by simp [only]), only, nextPlace⟩

/-- The last node of a block leads to the first nodes of the successors of the block. -/
theorem nextBehindBlock {node position : Nat} (bound : node < (expandFrom program start).size)
    (place : (expandFrom program start).place node = (index, position))
    (last : position + 1 = width program index) (target : Nat) :
    target ∈ (expandFrom program start).successors node ↔
      target < (expandFrom program start).size ∧ ∃ successor ∈ program.successors index,
        (expandFrom program start).place target = (successor, 0) := by
  rw [successorIff closed inside bound, place, nextPlaces, if_neg (by dsimp only; omega)]
  simp only [List.mem_map, eq_comm]

/-- The nodes of a block are processed together with its first node. -/
theorem blockProcessed {first node position : Nat}
    (firstBound : first < (expandFrom program start).size)
    (bound : node < (expandFrom program start).size)
    (firstPlace : (expandFrom program start).place first = (index, 0))
    (place : (expandFrom program start).place node = (index, position)) :
    node ∈ (expandFrom program start).processingOrder ↔
      first ∈ (expandFrom program start).processingOrder := by
  induction position generalizing node with
  | zero => rw [placeInjective firstBound bound (firstPlace.trans place.symm)]
  | succ position inductionHypothesis =>
      have more : position + 1 < width program index := by
        have within := (placeInside bound).2
        rwa [place] at within
      obtain ⟨before, beforeBound, beforePlace⟩ :=
        nodeInBlock bound (congrArg Prod.fst place) (Nat.lt_of_succ_lt more)
      obtain ⟨next, nextBound, only, nextPlace⟩ :=
        nextInBlock closed inside beforeBound beforePlace more
      obtain rfl : next = node := placeInjective nextBound bound (nextPlace.trans place.symm)
      rw [← (expandCoherent closed inside).processedTogether only]
      exact inductionHypothesis beforeBound beforePlace

theorem solvedOnlySuccessor {node next : Nat}
    (only : (expandFrom program start).successors node = [next]) (register : Nat) :
    register ∈ ((expandFrom program start).solved.setsAt node).after ↔
      register ∈ ((expandFrom program start).solved.setsAt next).before := by
  rw [(expandCoherent closed inside).solvedAfterEquation, only]
  simp

omit closed inside in
theorem registersInBlock {block : Block} (found : program.blocks[index]? = some block)
    {node position : Nat} (bound : node < (expandFrom program start).size)
    (place : (expandFrom program start).place node = (index, position))
    (stands : position < block.instructions.length) :
    (expandFrom program start).registers node = block.instructions[position].registers := by
  rw [registersInstruction, instructionPlace node bound, place, found]
  simp [stands]

/-- What is live before a node of a block is exposed by the rest of the block, or it is live behind
the block and the rest of the block does not write it. -/
theorem solvedInBlock {block : Block} (found : program.blocks[index]? = some block)
    {node last position remaining : Nat}
    (member : node ∈ (expandFrom program start).processingOrder)
    (lastBound : last < (expandFrom program start).size)
    (place : (expandFrom program start).place node = (index, position))
    (lastPlace : (expandFrom program start).place last = (index, block.instructions.length - 1))
    (rest : position + remaining + 1 = block.instructions.length) (register : Nat) :
    register ∈ ((expandFrom program start).solved.setsAt node).before ↔
      Exposes (block.instructions.drop position) register ∨
        register ∈ ((expandFrom program start).solved.setsAt last).after ∧
          ∀ instruction ∈ block.instructions.drop position,
            register ∉ instruction.registers.written := by
  -- The induction runs from the last node of the block, where nothing remains, to its first one.
  induction remaining generalizing node position with
  | zero =>
      have stands : position < block.instructions.length := by omega
      have bound := processingOrderInside member
      have same : node = last := by
        apply placeInjective bound lastBound
        rw [place, lastPlace, ← rest]
        rfl
      have alone : block.instructions.drop position = [block.instructions[position]] := by
        rw [List.drop_eq_getElem_cons stands, List.drop_eq_nil_of_le (by omega)]
      rw [solvedBeforeEquation _ member, Std.ExtTreeSet.mem_union_iff, Std.ExtTreeSet.mem_diff_iff,
        registersInBlock found bound place stands, alone, exposesCons, same]
      simp [exposesNil]
  | succ remaining inductionHypothesis =>
      have stands : position < block.instructions.length := by omega
      have bound := processingOrderInside member
      have more : position + 1 < width program index := by
        rw [widthAt program found]
        omega
      obtain ⟨next, _, only, nextPlace⟩ := nextInBlock closed inside bound place more
      have nextMember := ((expandCoherent closed inside).processedTogether only).mp member
      have later := inductionHypothesis nextMember nextPlace (by omega)
      rw [solvedBeforeEquation _ member, Std.ExtTreeSet.mem_union_iff, Std.ExtTreeSet.mem_diff_iff,
        registersInBlock found bound place stands, solvedOnlySuccessor closed inside only, later,
        List.drop_eq_getElem_cons stands, exposesCons, List.forall_mem_cons, or_and_right, or_assoc]
      simp only [and_comm, and_left_comm]

/-- What is live before a block is exposed by it, or it is live behind the block, which does not
write it. -/
theorem solvedBlock {block : Block} (found : program.blocks[index]? = some block)
    {first last : Nat} (member : first ∈ (expandFrom program start).processingOrder)
    (lastBound : last < (expandFrom program start).size)
    (place : (expandFrom program start).place first = (index, 0))
    (lastPlace : (expandFrom program start).place last = (index, block.instructions.length - 1))
    (register : Nat) :
    register ∈ ((expandFrom program start).solved.setsAt first).before ↔
      Exposes block.instructions register ∨
        register ∈ ((expandFrom program start).solved.setsAt last).after ∧
          register ∉ block.registers.written := by
  rw [Block.registersWritten]
  by_cases empty : block.instructions = []
  · have bound := processingOrderInside member
    have same : first = last := by
      apply placeInjective bound lastBound
      rw [place, lastPlace, empty]
      rfl
    rw [solvedBeforeEquation _ member, Std.ExtTreeSet.mem_union_iff, Std.ExtTreeSet.mem_diff_iff,
      emptyRegisters bound place found empty, empty, same]
    simp [exposesNil]
  · have positive := List.length_pos_of_ne_nil empty
    have whole := solvedInBlock closed inside found member lastBound place lastPlace
      (show 0 + (block.instructions.length - 1) + 1 = block.instructions.length by omega) register
    simpa using whole

/-- What is live behind a block is live before one of its successors that are processed. -/
theorem solvedBehindBlock {last position : Nat} (bound : last < (expandFrom program start).size)
    (place : (expandFrom program start).place last = (index, position))
    (ends : position + 1 = width program index) (register : Nat) :
    register ∈ ((expandFrom program start).solved.setsAt last).after ↔
      ∃ successor ∈ program.successors index,
        ∃ target ∈ (expandFrom program start).processingOrder,
          (expandFrom program start).place target = (successor, 0) ∧
            register ∈ ((expandFrom program start).solved.setsAt target).before := by
  rw [(expandCoherent closed inside).solvedAfterEquation]
  constructor
  · intro ⟨target, edge, early⟩
    obtain ⟨_, successor, member, targetPlace⟩ :=
      (nextBehindBlock closed inside bound place ends target).mp edge
    exact ⟨successor, member, target, solvedBeforeProcessed _ early, targetPlace, early⟩
  · intro ⟨successor, member, target, processed, targetPlace, early⟩
    have edge := (nextBehindBlock closed inside bound place ends target).mpr
      ⟨processingOrderInside processed, successor, member, targetPlace⟩
    exact ⟨target, edge, early⟩

end

end Graph

/-- The live sets of the instructions agree with dataflow between whole blocks. The nodes of a block
are processed together or not at all. If they are, then before the first of them those registers are
live that the block exposes, and those that are live behind its last node and that it does not
write; and behind the last node those are live that are live before the first node of a successor
that is processed as well. -/
theorem blockFlowAgrees {stream : List Instruction} {program : Program}
    (built : Program.build stream = .ok program) :
    let graph := Graph.expand program
    let solution := solve graph (.fresh graph)
    ∀ index block, program.blocks[index]? = some block →
      (∀ node < graph.size, (graph.place node).1 = index → node ∉ solution.order) ∨
      (∀ node < graph.size, (graph.place node).1 = index → node ∈ solution.order) ∧
        ∃ first ∈ solution.order, ∃ last ∈ solution.order,
          graph.place first = (index, 0) ∧
          graph.place last = (index, block.instructions.length - 1) ∧
          (∀ register, register ∈ (solution.live.setsAt first).before ↔
            Exposes block.instructions register ∨
              register ∈ (solution.live.setsAt last).after ∧
                register ∉ block.registers.written) ∧
          ∀ register, register ∈ (solution.live.setsAt last).after ↔
            ∃ successor ∈ block.successors, ∃ target ∈ solution.order,
              graph.place target = (successor, 0) ∧
                register ∈ (solution.live.setsAt target).before := by
  intro graph solution index block found
  have closed := Program.buildClosed built
  have inside := Program.entryInside built
  by_cases processed : ∃ node < graph.size, (graph.place node).1 = index ∧ node ∈ solution.order
  · obtain ⟨node, bound, here, member⟩ := processed
    have wide := Graph.widthAt program found
    obtain ⟨first, firstBound, firstPlace⟩ :=
      Graph.nodeInBlock bound here (Graph.widthPositive program index)
    obtain ⟨last, lastBound, lastPlace⟩ := Graph.nodeInBlock bound here
      (show block.instructions.length - 1 < Graph.width program index by omega)
    have together : ∀ other < graph.size, (graph.place other).1 = index →
        (other ∈ solution.order ↔ first ∈ solution.order) := by
      intro other otherBound otherHere
      exact Graph.blockProcessed closed inside firstBound otherBound firstPlace
        (Prod.ext otherHere rfl)
    have firstMember := (together node bound here).mp member
    have all : ∀ other < graph.size, (graph.place other).1 = index → other ∈ solution.order :=
      fun other otherBound otherHere => (together other otherBound otherHere).mpr firstMember
    refine .inr ⟨all, first, firstMember, last, all last lastBound (congrArg Prod.fst lastPlace),
      firstPlace, lastPlace, ?_, ?_⟩
    · exact Graph.solvedBlock closed inside found firstMember lastBound firstPlace lastPlace
    · have behind := Graph.solvedBehindBlock closed inside lastBound lastPlace (by omega)
      rw [Program.successorsAt program found] at behind
      exact behind
  · refine .inl fun node bound here member => ?_
    exact processed ⟨node, bound, here, member⟩

/-- The block of the loop has the nodes 2 and 3. The sum is live before it and behind it; as the
block writes the sum, it exposes it. -/
theorem loopExposesSum : ∃ program block, Program.build Program.loopStream = .ok program ∧
    program.blocks[2]? = some block ∧
    let graph := Graph.expand program
    let solution := solve graph (.fresh graph)
    2 ∈ solution.order ∧ 3 ∈ solution.order ∧
      graph.place 2 = (2, 0) ∧ graph.place 3 = (2, block.instructions.length - 1) ∧
      (solution.live.setsAt 2).before.toList = [1, 2] ∧
      (solution.live.setsAt 3).after.toList = [1, 2] ∧
      2 ∈ block.registers.written ∧ Exposes block.instructions 2 := by
  have built : Program.build Program.loopStream = .ok _ := rfl
  refine ⟨_, _, built, rfl, ?_⟩
  intro graph solution
  have firstPlace : graph.place 2 = (2, 0) := by decide +kernel
  have lastPlace : graph.place 3 = (2, 1) := by decide +kernel
  have early : (solution.live.setsAt 2).before.toList = [1, 2] := by decide +kernel
  have late : (solution.live.setsAt 3).after.toList = [1, 2] := by decide +kernel
  rcases blockFlowAgrees built 2 _ rfl with none | ⟨all, first, member, _, _, place, _, before, _⟩
  · exact absurd (by decide +kernel) (none 2 (by decide +kernel) (congrArg Prod.fst firstPlace))
  · obtain rfl : first = 2 := Graph.placeInjective (Graph.processingOrderInside member)
      (by decide +kernel) (place.trans firstPlace.symm)
    refine ⟨member, all 3 (by decide +kernel) (congrArg Prod.fst lastPlace), firstPlace, lastPlace,
      early, late, by decide +kernel, ?_⟩
    refine ((before 2).mp (by decide +kernel)).resolve_right fun passes => passes.2 ?_
    decide +kernel

end ShaderAnalysis
