/-
This file shows that an instruction with an unknown opcode does not matter to the live sets.
-/

import ShaderAnalysis.Proofs.Graph.Widening
import ShaderAnalysis.Proofs.Liveness.Equations
import ShaderAnalysis.Proofs.Liveness.Pressure

namespace ShaderAnalysis

namespace Graph.Subdivides

variable {graph wide : Graph} {image : Nat → Nat} {node fresh : Nat}
  (subdivides : graph.Subdivides wide image node fresh) (coherent : graph.Coherent)
  (single : graph.SingleExit) (wideCoherent : wide.Coherent)

include subdivides coherent single wideCoherent

/-- Whatever a path in the graph uses is live in the wider graph. -/
theorem usedImage {source register : Nat} {rest : List Nat}
    (path : graph.UsePath graph.processingOrder register (source :: rest)) :
    register ∈ (wide.solved.setsAt (image source)).before := by
  induction rest generalizing source with
  | nil =>
      have member := path.inside source List.mem_cons_self
      have inside := processingOrderInside member
      obtain ⟨last, ends, reads⟩ := path.reads
      obtain rfl : source = last := Option.some.inj ends
      have settled := wide.solvedSettled (image source)
        ((subdivides.processedImage coherent single wideCoherent inside).mpr member)
      apply settled.reads
      rwa [subdivides.registers source inside]
  | cons next rest inductionHypothesis =>
      have member := path.inside source List.mem_cons_self
      have inside := processingOrderInside member
      obtain ⟨edge, alone, later⟩ := usePathTail path
      have early := inductionHypothesis later
      have settled := wide.solvedSettled (image source)
        ((subdivides.processedImage coherent single wideCoherent inside).mpr member)
      apply settled.passes
      · by_cases same : source = node
        · subst same
          have freshSettled := wide.solvedSettled fresh
            ((subdivides.processedFresh coherent single wideCoherent).mpr member)
          apply settled.after fresh (by simp [subdivides.leads])
          apply freshSettled.passes
          · apply freshSettled.after (image next) _ _ early
            rw [subdivides.follows]
            exact List.mem_map_of_mem edge
          · simp [subdivides.unused]
        · apply settled.after (image next) _ _ early
          rw [subdivides.edges source inside same]
          exact List.mem_map_of_mem edge
      · rwa [subdivides.registers source inside]

/-- Whatever a path in the wider graph uses is live in the graph. -/
theorem usedSource {start register : Nat} {rest : List Nat}
    (path : wide.UsePath wide.processingOrder register (start :: rest)) :
    (∀ source < graph.size, image source = start →
        register ∈ (graph.solved.setsAt source).before) ∧
      (start = fresh → register ∈ (graph.solved.setsAt node).after) := by
  induction rest generalizing start with
  | nil =>
      have member := path.inside start List.mem_cons_self
      obtain ⟨last, ends, reads⟩ := path.reads
      obtain rfl : start = last := Option.some.inj ends
      refine ⟨fun source inside same => ?_, fun same => ?_⟩
      · subst same
        have settled := graph.solvedSettled source
          ((subdivides.processedImage coherent single wideCoherent inside).mp member)
        apply settled.reads
        rwa [← subdivides.registers source inside]
      · rw [same, subdivides.unused] at reads
        exact absurd reads Std.ExtTreeSet.not_mem_empty
  | cons next rest inductionHypothesis =>
      have member := path.inside start List.mem_cons_self
      obtain ⟨edge, alone, later⟩ := usePathTail path
      have early := inductionHypothesis later
      constructor
      · intro source inside same
        subst same
        have settled := graph.solvedSettled source
          ((subdivides.processedImage coherent single wideCoherent inside).mp member)
        rw [subdivides.registers source inside] at alone
        apply settled.passes _ _ alone
        by_cases isNode : source = node
        · subst isNode
          rw [subdivides.leads, List.mem_singleton] at edge
          exact early.2 edge
        · rw [subdivides.edges source inside isNode] at edge
          obtain ⟨successor, sourceEdge, isImage⟩ := List.mem_map.mp edge
          exact settled.after successor sourceEdge _
            (early.1 successor (coherent.inside _ _ sourceEdge) isImage)
      · intro same
        subst same
        have settled := graph.solvedSettled node
          ((subdivides.processedFresh coherent single wideCoherent).mp member)
        rw [subdivides.follows] at edge
        obtain ⟨successor, sourceEdge, isImage⟩ := List.mem_map.mp edge
        exact settled.after successor sourceEdge _
          (early.1 successor (coherent.inside _ _ sourceEdge) isImage)

theorem solvedBeforeImage {source : Nat} (inside : source < graph.size) (register : Nat) :
    register ∈ (wide.solved.setsAt (image source)).before ↔
      register ∈ (graph.solved.setsAt source).before := by
  constructor
  · intro early
    obtain ⟨rest, path⟩ := (wide.solvedBefore _ _).mp early
    exact (subdivides.usedSource coherent single wideCoherent path).1 source inside rfl
  · intro early
    obtain ⟨rest, path⟩ := (graph.solvedBefore _ _).mp early
    exact subdivides.usedImage coherent single wideCoherent path

/-- Where the successors are images of successors the same is live behind. -/
theorem solvedAfterImages {other source : Nat}
    (images : wide.successors other = (graph.successors source).map image) (register : Nat) :
    register ∈ (wide.solved.setsAt other).after ↔
      register ∈ (graph.solved.setsAt source).after := by
  rw [wideCoherent.solvedAfterEquation, coherent.solvedAfterEquation, images]
  simp only [List.mem_map, exists_exists_and_eq_and]
  apply exists_congr
  intro successor
  apply and_congr_right
  intro edge
  exact subdivides.solvedBeforeImage coherent single wideCoherent (coherent.inside _ _ edge) register

/-- Behind the fresh node that is live which was live behind the node before it. -/
theorem solvedAfterFresh (register : Nat) :
    register ∈ (wide.solved.setsAt fresh).after ↔
      register ∈ (graph.solved.setsAt node).after :=
  subdivides.solvedAfterImages coherent single wideCoherent subdivides.follows register

theorem solvedBeforeFresh (register : Nat) :
    register ∈ (wide.solved.setsAt fresh).before ↔
      register ∈ (graph.solved.setsAt node).after := by
  by_cases member : fresh ∈ wide.processingOrder
  · rw [wide.solvedBeforeEquation member, subdivides.unused, Std.ExtTreeSet.mem_union_iff,
      Std.ExtTreeSet.mem_diff_iff, subdivides.solvedAfterFresh coherent single wideCoherent]
    simp
  · rw [wide.solvedOutside member, graph.solvedOutside
      (mt (subdivides.processedFresh coherent single wideCoherent).mpr member)]

theorem solvedFresh : wide.solved.setsAt fresh =
    ⟨(graph.solved.setsAt node).after, (graph.solved.setsAt node).after⟩ := by
  apply LiveMap.setsExt
  · exact subdivides.solvedBeforeFresh coherent single wideCoherent
  · exact subdivides.solvedAfterFresh coherent single wideCoherent

theorem solvedImage {source : Nat} (inside : source < graph.size) :
    wide.solved.setsAt (image source) = graph.solved.setsAt source := by
  apply LiveMap.setsExt
  · exact subdivides.solvedBeforeImage coherent single wideCoherent inside
  · intro register
    by_cases same : source = node
    · subst same
      rw [wideCoherent.solvedAfterEquation, subdivides.leads]
      simp only [List.mem_singleton, exists_eq_left]
      exact subdivides.solvedBeforeFresh coherent single wideCoherent register
    · exact subdivides.solvedAfterImages coherent single wideCoherent
        (subdivides.edges source inside same) register

/-- Nothing is live or used at the fresh node that was not so at the node before it. -/
theorem pressureSame :
    Pressure.ofNodes wide wide.solved wide.processingOrder =
      Pressure.ofNodes graph graph.solved graph.processingOrder := by
  apply Pressure.ofNodesCovered
  · intro other processed
    rcases subdivides.covered other (processingOrderInside processed) with
      rfl | ⟨source, inside, rfl⟩
    · refine ⟨node, (subdivides.processedFresh coherent single wideCoherent).mp processed, ?_⟩
      simp only [Pressure.registersAtMember, LiveSets.live, subdivides.unused,
        subdivides.solvedFresh coherent single wideCoherent]
      simp +contextual
    · refine ⟨source,
        (subdivides.processedImage coherent single wideCoherent inside).mp processed, ?_⟩
      simp [Pressure.registersAt, subdivides.registers source inside,
        subdivides.solvedImage coherent single wideCoherent inside]
  · intro source processed
    have inside := processingOrderInside processed
    refine ⟨image source,
      (subdivides.processedImage coherent single wideCoherent inside).mpr processed, ?_⟩
    simp [Pressure.registersAt, subdivides.registers source inside,
      subdivides.solvedImage coherent single wideCoherent inside]

end Graph.Subdivides

namespace Program

/-- The pressure on all the nodes that are processed. -/
def pressure (program : Program) : Pressure :=
  let solution := solve (Graph.expand program) (.fresh (Graph.expand program))
  .ofNodes (Graph.expand program) solution.live solution.order

/-- What is live at the instruction at a position of the stream, if control reaches it. -/
def liveAt (program : Program) (position : Nat) : Option LiveSets :=
  ((List.range (Graph.expand program).size).find? fun node =>
    program.streamPlace ((Graph.expand program).place node) = .position position).map
      (Graph.expand program).solved.setsAt

section

variable {stream : List Instruction} {program : Program}
  (built : build stream = .ok program)

theorem liveAtNone {position : Nat} (apart : ∀ node < (Graph.expand program).size,
    program.streamPlace ((Graph.expand program).place node) ≠ .position position) :
    program.liveAt position = none := by
  rw [liveAt, Option.map_eq_none_iff, List.find?_eq_none]
  simpa using apart

include built

theorem liveAtSome {node position : Nat} (bound : node < (Graph.expand program).size)
    (placed : program.streamPlace ((Graph.expand program).place node) = .position position) :
    program.liveAt position = some ((Graph.expand program).solved.setsAt node) := by
  cases search : (List.range (Graph.expand program).size).find? fun node =>
      program.streamPlace ((Graph.expand program).place node) = .position position with
  | none =>
      have missed := List.find?_eq_none.mp search node (List.mem_range.mpr bound)
      exact absurd placed (by simpa using missed)
  | some other =>
      have otherBound := List.mem_range.mp (List.mem_of_find?_eq_some search)
      have otherPlaced : program.streamPlace ((Graph.expand program).place other) =
          .position position := by simpa using List.find?_some search
      have same : other = node := by
        apply Graph.placeInjective otherBound bound
        have stands := Graph.standsNode built bound
        have otherStands := Graph.standsNode built otherBound
        rw [placed] at stands
        rw [otherPlaced] at otherStands
        exact standsInjective otherStands stands
      rw [liveAt, search, same, Option.map_some]

/-- Nothing is known to be live in a block that control does not reach. -/
theorem liveAtUnreached {index position : Nat} {block : Block}
    (found : program.blocks[index]? = some block) (within : position < block.instructions.length)
    (apart : index ∉ Graph.reached program program.entry) :
    program.liveAt (program.offset index + position) = none := by
  apply liveAtNone
  intro node bound placed
  have stands := Graph.standsNode built bound
  rw [placed] at stands
  obtain ⟨other, inner, place, member, _⟩ := Graph.nodePlace bound
  have same := standsInjective stands (.position found within)
  rw [Graph.expand, Graph.placeOf program place] at same
  exact apart ((Prod.mk.inj same).1 ▸ member)

end

section

variable {stream longer : List Instruction} {program : Program} {index position : Nat}
  {block : Block} {inserted : Instruction} (built : build stream = .ok program)
  (found : program.blocks[index]? = some block) (within : position < block.instructions.length)
  (longerBuilt : build longer = .ok (program.insertBehind index position inserted))
  (unused : inserted.registers = {})

include built found within

theorem widenedStream (inserted : Instruction) {node : Nat}
    (bound : node < (Graph.expand program).size) (target : Nat) :
    (program.insertBehind index position inserted).streamPlace
        ((Graph.expand (program.insertBehind index position inserted)).place
          (Graph.widened program program.entry index position inserted node)) =
      .position (StreamPlace.shift (program.offset index + position) target) ↔
    program.streamPlace ((Graph.expand program).place node) = .position target := by
  obtain ⟨inside, wide⟩ := Graph.placeInside bound
  have placed := (Graph.widenedPlace found within inserted bound).2
  have shifts := streamPlaceInsert found within inserted built inside wide target
  rw [← placed] at shifts
  exact shifts

include unused

theorem expandDivides (member : index ∈ Graph.reached program program.entry) :
    (Graph.expand program).Subdivides
      (Graph.expand (program.insertBehind index position inserted))
      (Graph.widened program program.entry index position inserted)
      (Graph.firstNode program (Graph.reached program program.entry) index + position)
      (Graph.freshNode program program.entry index position inserted) :=
  Graph.insertSubdivides found within inserted built (entryInside built) member unused

include longerBuilt

theorem solvedWidened {node : Nat} (bound : node < (Graph.expand program).size) :
    (Graph.expand (program.insertBehind index position inserted)).solved.setsAt
        (Graph.widened program program.entry index position inserted node) =
      (Graph.expand program).solved.setsAt node := by
  by_cases member : index ∈ Graph.reached program program.entry
  · exact (expandDivides built found within unused member).solvedImage (Graph.expandBuilt built)
      (Graph.expandSingleExit built (entryInside built)) (Graph.expandBuilt longerBuilt) bound
  · have same : Graph.expand (program.insertBehind index position inserted) =
        Graph.expand program := Graph.expandUnreached position inserted member
    rw [Graph.widenedUnreached position inserted member bound, same]

/-- Every instruction keeps its live sets. -/
theorem liveAtShift (target : Nat) :
    (program.insertBehind index position inserted).liveAt
        (StreamPlace.shift (program.offset index + position) target) =
      program.liveAt target := by
  by_cases placed : ∃ node < (Graph.expand program).size,
      program.streamPlace ((Graph.expand program).place node) = .position target
  · obtain ⟨node, bound, stands⟩ := placed
    have imageBound := (Graph.widenedPlace found within inserted bound).1
    have imageStands := (widenedStream built found within inserted bound target).mpr stands
    rw [liveAtSome built bound stands, liveAtSome longerBuilt imageBound imageStands,
      solvedWidened built found within longerBuilt unused bound]
  · rw [liveAtNone fun node bound stands => placed ⟨node, bound, stands⟩]
    apply liveAtNone
    intro node bound stands
    rcases Graph.widenedCovers found within inserted bound with
      ⟨member, rfl⟩ | ⟨source, sourceBound, rfl⟩
    · have fresh := (Graph.freshNodePlace found within inserted member).2
      have freshStands := streamPlaceFresh found within inserted built
      rw [← fresh] at freshStands
      have same := StreamPlace.position.inj (stands.symm.trans freshStands)
      exact StreamPlace.shiftApart _ _ same
    · exact placed ⟨source, sourceBound,
        (widenedStream built found within inserted sourceBound target).mp stands⟩

/-- At the inserted instruction that is live which is live behind the one before it. -/
theorem liveAtFresh :
    (program.insertBehind index position inserted).liveAt (program.offset index + position + 1) =
      (program.liveAt (program.offset index + position)).map fun sets =>
        ⟨sets.after, sets.after⟩ := by
  by_cases member : index ∈ Graph.reached program program.entry
  · have divides := expandDivides built found within unused member
    obtain ⟨notEntry, notExit⟩ := positionBetween built found within
    have wide := Graph.positionInside found within
    have stands := streamPlaceBetween notEntry notExit position
    rw [← (Graph.nodeOfPlace member wide).2] at stands
    have freshStands := streamPlaceFresh found within inserted built
    rw [← (Graph.freshNodePlace found within inserted member).2] at freshStands
    rw [liveAtSome built divides.inside stands, liveAtSome longerBuilt divides.freshInside freshStands,
      divides.solvedFresh (Graph.expandBuilt built)
        (Graph.expandSingleExit built (entryInside built)) (Graph.expandBuilt longerBuilt)]
    rfl
  · have unreached := member
    rw [← Graph.reachedInsert program program.entry index position inserted] at unreached
    have grown := insertBehindFound program index position inserted found
    have wider : position + 1 < (block.insertBehind position inserted).instructions.length := by
      rw [Block.insertBehindLength within]
      omega
    have unmoved := offsetInsert found within inserted index
    rw [if_neg (Nat.lt_irrefl _)] at unmoved
    rw [liveAtUnreached built found within member, Nat.add_assoc, ← unmoved,
      liveAtUnreached longerBuilt grown wider unreached, Option.map_none]

/-- The pressure stays as it was. -/
theorem pressureInsert :
    (program.insertBehind index position inserted).pressure = program.pressure := by
  by_cases member : index ∈ Graph.reached program program.entry
  · exact (expandDivides built found within unused member).pressureSame (Graph.expandBuilt built)
      (Graph.expandSingleExit built (entryInside built)) (Graph.expandBuilt longerBuilt)
  · have same : Graph.expand (program.insertBehind index position inserted) =
        Graph.expand program := Graph.expandUnreached position inserted member
    rw [pressure, same, ← pressure]

end

end Program

/-- An instruction whose mnemonic the table does not know is plain. -/
theorem Instruction.decodePlain {table : OpcodeTable} {mnemonic : String}
    (absent : table.get? mnemonic = none) (encoded : Option String) (operands : List String) :
    (decode table encoded mnemonic operands none).Plain ∧
      (decode table encoded mnemonic operands none).registers = {} := by
  have opcode : (decode table encoded mnemonic operands none).opcode = .unknown mnemonic := by
    rw [decode, OpcodeTable.lookup, absent]
    rfl
  have unnamed : registersAt operands (fun _ => false) = ∅ := by
    apply Std.ExtTreeSet.ext_mem
    intro register
    simp [registersAtMember]
  refine ⟨⟨rfl, ?_⟩, ?_⟩
  · rw [transfers, opcode, Opcode.unknownTransfers]
  · rw [registers, opcode]
    exact congrArg₂ RegisterUse.mk unnamed unnamed

/-- Behind an instruction from which control goes on, an instruction with an unknown opcode changes
neither the blocks and their edges nor what is live at the others nor the pressure. All that is live
behind the instruction before it is live on both of its sides. -/
theorem unknownOpcodeTransparent (before after : List Instruction) (instruction : Instruction)
    {program : Program} (built : Program.build (before ++ instruction :: after) = .ok program)
    (goesOn : instruction.transfers = false) (table : OpcodeTable) (mnemonic : String)
    (absent : table.get? mnemonic = none) (encoded : Option String) (operands : List String) :
    ∃ longer, Program.build
        (before ++ instruction :: .decode table encoded mnemonic operands none :: after) =
          .ok longer ∧
      longer.labels = program.labels ∧
      longer.blocks.map (·.successors) = program.blocks.map (·.successors) ∧
      (∀ position, longer.liveAt (StreamPlace.shift before.length position) =
        program.liveAt position) ∧
      longer.liveAt (before.length + 1) =
        (program.liveAt before.length).map (fun sets => ⟨sets.after, sets.after⟩) ∧
      longer.pressure = program.pressure := by
  obtain ⟨plain, unused⟩ := Instruction.decodePlain absent encoded operands
  obtain ⟨index, position, block, found, within, behind, longerBuilt⟩ :=
    Program.buildInsert built goesOn plain
  refine ⟨_, longerBuilt, ?_, ?_, ?_, ?_, ?_⟩
  · exact Program.insertBehindMap program index position _ _ fun _ => rfl
  · exact Program.insertBehindMap program index position _ _ fun _ => rfl
  · rw [← behind]
    exact Program.liveAtShift built found within longerBuilt unused
  · rw [← behind]
    exact Program.liveAtFresh built found within longerBuilt unused
  · exact Program.pressureInsert built found within longerBuilt unused

/-- The loop with an unknown opcode behind its labelled instruction. -/
theorem loopKeepsLiveSets : ∃ program longer,
    Program.build Program.loopStream = .ok program ∧
    Program.build (Program.loopStream.insertIdx 2
      (.decode .empty none "xyz_foo" ["v2", "v0"] none)) = .ok longer ∧
    (program.liveAt 1).map (fun sets => (sets.before.toList, sets.after.toList)) =
      some ([1, 2], [1, 2]) ∧
    longer.liveAt 1 = program.liveAt 1 ∧
    longer.liveAt 2 = (program.liveAt 1).map (fun sets => ⟨sets.after, sets.after⟩) ∧
    longer.liveAt 3 = program.liveAt 2 ∧ longer.pressure = program.pressure := by
  have built : Program.build Program.loopStream = .ok _ := rfl
  obtain ⟨longer, longerBuilt, _, _, kept, fresh, pressure⟩ :=
    unknownOpcodeTransparent (Program.loopStream.take 1) (Program.loopStream.drop 2)
      (Program.loopStream.get ⟨1, by decide⟩) built rfl .empty "xyz_foo" rfl none ["v2", "v0"]
  exact ⟨_, longer, built, longerBuilt, by decide +kernel, kept 1, fresh, kept 2, pressure⟩

end ShaderAnalysis
