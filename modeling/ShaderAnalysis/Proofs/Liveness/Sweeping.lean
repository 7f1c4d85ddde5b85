/-
This file shows what a single sweep changes and that it notes exactly whether it changed anything.
-/

import ShaderAnalysis.Proofs.Liveness.Pressure
import ShaderAnalysis.Session

namespace ShaderAnalysis

namespace LiveMap

/-- From one live map to another nothing is lost. -/
structure Grows (live next : LiveMap) : Prop where
  before : ∀ node, ∀ register ∈ (live.setsAt node).before, register ∈ (next.setsAt node).before
  after : ∀ node, ∀ register ∈ (live.setsAt node).after, register ∈ (next.setsAt node).after

variable {graph : Graph} {live : LiveMap} {node : Nat} {order : List Nat}

theorem growsSame (live : LiveMap) : live.Grows live :=
  ⟨fun _ _ member => member, fun _ _ member => member⟩

theorem growsThrough {middle next : LiveMap} (first : live.Grows middle)
    (second : middle.Grows next) : live.Grows next where
  before node register member := second.before node register (first.before node register member)
  after node register member := second.after node register (first.after node register member)

theorem setsAtOutside (outside : live.size ≤ node) : live.setsAt node = {} := by
  rw [setsAt, Array.getElem?_eq_none outside]
  rfl

theorem visitOutside (outside : live.size ≤ node) : (live.visit graph node).1 = live := by
  unfold visit
  rw [Array.getElem?_eq_none outside]

theorem visitGrows (graph : Graph) (live : LiveMap) (node : Nat) :
    live.Grows (live.visit graph node).1 := by
  by_cases inside : node < live.size
  · refine ⟨fun other register member => ?_, fun other register member => ?_⟩
    · by_cases same : other = node
      · subst same
        exact (visitBeforeMember inside register).mpr (.inl member)
      · rwa [visitOther same]
    · by_cases same : other = node
      · subst same
        exact (visitAfterMember inside register).mpr (.inl member)
      · rwa [visitOther same]
  · rw [visitOutside (Nat.le_of_not_lt inside)]
    exact growsSame live

theorem sweepGrows (graph : Graph) (live : LiveMap) (order : List Nat) :
    live.Grows (live.sweep graph order).1 := by
  apply sweepPreserves _ (growsSame live)
  intro next grown node _
  exact growsThrough grown (visitGrows graph next node)

/-- Only the nodes of the order are touched. -/
theorem sweepOutside (untouched : node ∉ order) :
    (live.sweep graph order).1.setsAt node = live.setsAt node := by
  refine @sweepPreserves graph live (fun next => next.setsAt node = live.setsAt node) order ?_ rfl
  intro next same other member
  have different : node ≠ other := fun equal => untouched (equal ▸ member)
  rw [visitOther different, same]

/-- Every register that is live comes from the given registers or is read by one of the nodes. -/
def Fed (graph : Graph) (registers : RegisterSet) (nodes : List Nat) (live : LiveMap) : Prop :=
  ∀ node register, register ∈ (live.setsAt node).before ∨ register ∈ (live.setsAt node).after →
    register ∈ registers ∨ ∃ reader ∈ nodes, register ∈ (graph.registers reader).read

theorem withinFed {registers : RegisterSet} (within : live.Within registers) (nodes : List Nat) :
    live.Fed graph registers nodes := by
  intro node register member
  by_cases inside : node < live.size
  · exact .inl (within _ (Array.mem_of_getElem? (setsAtInside inside)) register member)
  · rw [setsAtOutside (Nat.le_of_not_lt inside)] at member
    simp at member

/-- A visit adds what its node reads and otherwise only moves registers along. -/
theorem visitFed {registers : RegisterSet} {nodes : List Nat} (fed : live.Fed graph registers nodes)
    (member : node ∈ nodes) : (live.visit graph node).1.Fed graph registers nodes := by
  by_cases inside : node < live.size
  · have after : ∀ register ∈ ((live.visit graph node).1.setsAt node).after,
        register ∈ registers ∨ ∃ reader ∈ nodes, register ∈ (graph.registers reader).read := by
      intro register added
      rcases (visitAfterMember inside register).mp added with old | ⟨successor, _, early⟩
      · exact fed node register (.inr old)
      · exact fed successor register (.inl early)
    intro other register added
    by_cases same : other = node
    · subst same
      rcases added with early | late
      · rcases (visitBeforeMember inside register).mp early with old | reads | ⟨passes, _⟩
        · exact fed other register (.inl old)
        · exact .inr ⟨other, member, reads⟩
        · exact after register passes
      · exact after register late
    · rw [visitOther same] at added
      exact fed other register added
  · rwa [visitOutside (Nat.le_of_not_lt inside)]

theorem sweepFed {registers : RegisterSet} (within : live.Within registers) :
    (live.sweep graph order).1.Fed graph registers order := by
  apply sweepPreserves _ (withinFed within order)
  intro next fed node member
  exact visitFed fed member

/-- A sweep tells that it grew a set exactly if it did not leave all of them as they were. -/
theorem sweepChanged : (live.sweep graph order).2 = true ↔ (live.sweep graph order).1 ≠ live := by
  constructor
  · intro grown same
    have larger := (sweepCount graph live order).2 grown
    rw [same] at larger
    exact Nat.lt_irrefl _ larger
  · intro changed
    by_contra still
    exact changed (sweepUnchanged (Bool.eq_false_iff.mpr still))

theorem differsSomewhere {next : LiveMap} (size : next.size = live.size) (changed : next ≠ live) :
    ∃ node < live.size, (next.setsAt node).before ≠ (live.setsAt node).before ∨
      (next.setsAt node).after ≠ (live.setsAt node).after := by
  by_contra nowhere
  simp only [not_exists, not_and, not_or, not_not] at nowhere
  apply changed
  apply mapExt size
  intro node
  by_cases inside : node < live.size
  · obtain ⟨before, after⟩ := nowhere node inside
    exact setsExt (fun register => by rw [before]) (fun register => by rw [after])
  · rw [setsAtOutside (Nat.le_of_not_lt inside),
      setsAtOutside (size ▸ Nat.le_of_not_lt inside)]

end LiveMap

/-- A session sweeps its live sets and keeps the graph. -/
theorem Session.stepSweep {session : Session} {graph : Graph} {live : LiveMap}
    (held : session.graph = some (graph, live)) {nodes : List Nat}
    (inside : ∀ node ∈ nodes, node < graph.size) :
    session.step (.sweep (some nodes)) =
      .ok ({ session with graph := some (graph, (live.sweep graph nodes).1) },
        .swept (live.sweep graph nodes).2 (live.sweep graph nodes).1) := by
  have known : needNodes graph nodes = .ok () := by
    rw [needNodes, if_pos (by simpa using inside)]
  simp only [step, needGraph, held, Option.getD_some, bind, Except.bind, known]
  rfl

/-- A sweep over some nodes, in whatever order and however often each of them is listed, loses no
register, adds only registers that are live somewhere or that the listed nodes read, touches neither
the other nodes nor the graph, and tells exactly whether it changed some live set. -/
theorem sweepGrowsExactly (graph : Graph) (live : LiveMap) (sized : live.size = graph.size)
    (registers : RegisterSet) (within : live.Within registers) (nodes : List Nat)
    (inside : ∀ node ∈ nodes, node < graph.size) :
    let swept := live.sweep graph nodes
    swept.1.size = graph.size ∧
      (∀ node,
        (∀ register ∈ (live.setsAt node).before, register ∈ (swept.1.setsAt node).before) ∧
          ∀ register ∈ (live.setsAt node).after, register ∈ (swept.1.setsAt node).after) ∧
      (∀ node register,
        register ∈ (swept.1.setsAt node).before ∨ register ∈ (swept.1.setsAt node).after →
          register ∈ registers ∨ ∃ reader ∈ nodes, ∃ instruction,
            graph.instruction? reader = some instruction ∧
              register ∈ instruction.registers.read) ∧
      (∀ node, node ∉ nodes → swept.1.setsAt node = live.setsAt node) ∧
      (∀ session : Session, session.graph = some (graph, live) →
        session.step (.sweep (some nodes)) =
          .ok ({ session with graph := some (graph, swept.1) }, .swept swept.2 swept.1)) ∧
      (swept.2 = true ↔ ∃ node < graph.size,
        (swept.1.setsAt node).before ≠ (live.setsAt node).before ∨
          (swept.1.setsAt node).after ≠ (live.setsAt node).after) := by
  intro swept
  have grows := LiveMap.sweepGrows graph live nodes
  have size : swept.1.size = live.size := LiveMap.sweepSize graph live nodes
  refine ⟨size.trans sized, fun node => ⟨grows.before node, grows.after node⟩, ?_,
    fun node untouched => LiveMap.sweepOutside untouched,
    fun session held => Session.stepSweep held inside, ?_⟩
  · intro node register member
    refine (LiveMap.sweepFed within node register member).imp_right ?_
    intro ⟨reader, among, reads⟩
    exact ⟨reader, among, graph.readInstruction reads⟩
  · rw [LiveMap.sweepChanged, ← sized]
    constructor
    · intro changed
      exact LiveMap.differsSomewhere size changed
    · intro ⟨node, _, different⟩ same
      rw [show swept.1 = live from same] at different
      simp at different

/-- The end of the loop is swept before and after its start, with a stray register behind it. -/
theorem loopSweptTwiceAtItsEnd : ∃ program, Program.build Program.loopStream = .ok program ∧
    let graph := Graph.expand program
    let live : LiveMap := (LiveMap.fresh graph).setIfInBounds 4 { before := .ofList [9] }
    let swept := live.sweep graph [3, 2, 3]
    swept.2 = true ∧ (swept.1.setsAt 3).after.toList = [1, 2, 9] ∧
      (∀ register ∈ (swept.1.setsAt 3).after, register ∈ (Std.ExtTreeSet.ofList [9]) ∨
        ∃ reader ∈ [3, 2, 3], ∃ instruction, graph.instruction? reader = some instruction ∧
          register ∈ instruction.registers.read) ∧
      swept.1.setsAt 1 = live.setsAt 1 := by
  have built : Program.build Program.loopStream = .ok _ := rfl
  refine ⟨_, built, ?_⟩
  intro graph live swept
  have within : live.Within (.ofList [9]) := by
    intro sets member register inside
    rcases Array.mem_or_eq_of_mem_setIfInBounds member with old | rfl
    · rw [(Array.mem_replicate.mp old).2] at inside
      simp at inside
    · simpa using inside
  have known := sweepGrowsExactly graph live (by decide +kernel) (.ofList [9]) within [3, 2, 3]
    (by decide +kernel)
  refine ⟨known.2.2.2.2.2.mpr ⟨3, by decide +kernel⟩, by decide +kernel, ?_, ?_⟩
  · intro register member
    exact known.2.2.1 3 register (.inr member)
  · exact known.2.2.2.1 1 (by decide)

end ShaderAnalysis
