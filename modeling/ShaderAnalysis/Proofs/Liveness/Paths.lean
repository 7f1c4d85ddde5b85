/-
This file shows that the solved live sets hold exactly the registers that some path still uses.
-/

import ShaderAnalysis.Proofs.Graph.Gathering
import ShaderAnalysis.Proofs.Liveness.Fixpoint

namespace ShaderAnalysis

/-- A path that uses a register follows the edges inside the given nodes and ends at a node that
reads the register, and no node before the end writes it. -/
structure Graph.UsePath (graph : Graph) (nodes : List Nat) (register : Nat) (path : List Nat) :
    Prop where
  edges : path.IsChain fun node next => next ∈ graph.successors node
  inside : ∀ node ∈ path, node ∈ nodes
  reads : ∃ last, path.getLast? = some last ∧ register ∈ (graph.registers last).read
  unwritten : ∀ node ∈ path.dropLast, register ∉ (graph.registers node).written

namespace Graph

variable {graph : Graph} {nodes : List Nat} {register node next : Nat} {rest : List Nat}

theorem usePathSingle (member : node ∈ nodes) (reads : register ∈ (graph.registers node).read) :
    graph.UsePath nodes register [node] := by
  refine ⟨.singleton node, fun other same => ?_, ⟨node, rfl, reads⟩, fun other none => nomatch none⟩
  rwa [List.mem_singleton.mp same]

theorem usePathCons (member : node ∈ nodes) (edge : next ∈ graph.successors node)
    (alone : register ∉ (graph.registers node).written)
    (path : graph.UsePath nodes register (next :: rest)) :
    graph.UsePath nodes register (node :: next :: rest) := by
  obtain ⟨last, ends, reads⟩ := path.reads
  refine ⟨.cons_cons edge path.edges, ?_, ⟨last, ?_, reads⟩, ?_⟩
  · intro other among
    rcases List.mem_cons.mp among with rfl | later
    · exact member
    · exact path.inside other later
  · rw [List.getLast?_cons_cons]
    exact ends
  · intro other among
    rw [List.dropLast_cons_cons] at among
    rcases List.mem_cons.mp among with rfl | later
    · exact alone
    · exact path.unwritten other later

theorem usePathTail (path : graph.UsePath nodes register (node :: next :: rest)) :
    next ∈ graph.successors node ∧ register ∉ (graph.registers node).written ∧
      graph.UsePath nodes register (next :: rest) := by
  obtain ⟨edge, edges⟩ := List.isChain_cons_cons.mp path.edges
  obtain ⟨last, ends, reads⟩ := path.reads
  rw [List.getLast?_cons_cons] at ends
  have unwritten := path.unwritten
  rw [List.dropLast_cons_cons] at unwritten
  exact ⟨edge, unwritten node List.mem_cons_self, edges,
    fun other later => path.inside other (List.mem_cons_of_mem _ later), ⟨last, ends, reads⟩,
    fun other later => unwritten other (List.mem_cons_of_mem _ later)⟩

end Graph

namespace LiveMap

/-- In a justified live map every register that is live has a path that uses it. -/
structure Justified (graph : Graph) (nodes : List Nat) (live : LiveMap) : Prop where
  before : ∀ node, ∀ register ∈ (live.setsAt node).before,
    ∃ rest, graph.UsePath nodes register (node :: rest)
  after : ∀ node, ∀ register ∈ (live.setsAt node).after,
    node ∈ nodes ∧ ∃ successor ∈ graph.successors node,
      ∃ rest, graph.UsePath nodes register (successor :: rest)

theorem freshSets (graph : Graph) (node : Nat) : (fresh graph).setsAt node = {} := by
  rw [setsAt, fresh, Array.getElem?_replicate]
  split <;> rfl

theorem freshJustified (graph : Graph) (nodes : List Nat) :
    (fresh graph).Justified graph nodes := by
  refine ⟨fun node register member => ?_, fun node register member => ?_⟩
  · rw [freshSets] at member
    exact absurd member Std.ExtTreeSet.not_mem_empty
  · rw [freshSets] at member
    exact absurd member Std.ExtTreeSet.not_mem_empty

/-- Visiting one of the nodes only adds registers that a path uses. -/
theorem visitJustified {graph : Graph} {nodes : List Nat} {live : LiveMap}
    (justified : live.Justified graph nodes) {node : Nat} (member : node ∈ nodes)
    (inside : node < live.size) : (live.visit graph node).1.Justified graph nodes := by
  -- What is live before the node is drawn from what is live after it, so the latter comes first.
  have after : ∀ register ∈ ((live.visit graph node).1.setsAt node).after,
      node ∈ nodes ∧ ∃ successor ∈ graph.successors node,
        ∃ rest, graph.UsePath nodes register (successor :: rest) := by
    intro register added
    rcases (visitAfterMember inside register).mp added with old | ⟨successor, edge, early⟩
    · exact justified.after node register old
    · exact ⟨member, successor, edge, justified.before successor register early⟩
  constructor
  · intro other register added
    by_cases same : other = node
    · subst same
      rcases (visitBeforeMember inside register).mp added with old | reads | ⟨passes, alone⟩
      · exact justified.before other register old
      · exact ⟨[], Graph.usePathSingle member reads⟩
      · obtain ⟨_, successor, edge, rest, path⟩ := after register passes
        exact ⟨successor :: rest, Graph.usePathCons member edge alone path⟩
    · rw [visitOther same] at added
      exact justified.before other register added
  · intro other register added
    by_cases same : other = node
    · subst same
      exact after register added
    · rw [visitOther same] at added
      exact justified.after other register added

/-- Where all nodes are settled, a register that a path uses is live at its start. -/
theorem settledUsePath {graph : Graph} {nodes : List Nat} {live : LiveMap}
    (settled : ∀ node ∈ nodes, live.SettledAt graph node) {register node : Nat} {rest : List Nat}
    (path : graph.UsePath nodes register (node :: rest)) :
    register ∈ (live.setsAt node).before := by
  have here := settled node (path.inside node List.mem_cons_self)
  induction rest generalizing node with
  | nil =>
      obtain ⟨last, ends, reads⟩ := path.reads
      obtain rfl : node = last := Option.some.inj ends
      exact here.reads register reads
  | cons next rest inductionHypothesis =>
      obtain ⟨edge, alone, later⟩ := Graph.usePathTail path
      have there := settled next (later.inside next List.mem_cons_self)
      have early := inductionHypothesis later there
      exact here.passes register (here.after next edge register early) alone

/-- A sound live map has sets for each node of the graph, and every register that is live has a path
inside the given nodes that uses it. -/
structure Sound (graph : Graph) (nodes : List Nat) (live : LiveMap) : Prop where
  size : live.size = graph.size
  justified : live.Justified graph nodes

section

variable {graph : Graph} {nodes : List Nat} {live : LiveMap}

theorem freshSound (graph : Graph) (nodes : List Nat) : (fresh graph).Sound graph nodes :=
  ⟨Array.size_replicate, freshJustified graph nodes⟩

theorem visitSound (sound : live.Sound graph nodes) {node : Nat} (member : node ∈ nodes)
    (inside : node < graph.size) : (live.visit graph node).1.Sound graph nodes where
  size := (visitSize graph live node).trans sound.size
  justified := visitJustified sound.justified member (sound.size ▸ inside)

/-- In a sound map that is settled at all the given nodes exactly the registers with a path are
live. -/
theorem soundBefore (sound : live.Sound graph nodes)
    (settled : ∀ node ∈ nodes, live.SettledAt graph node) (node register : Nat) :
    register ∈ (live.setsAt node).before ↔
      ∃ rest, graph.UsePath nodes register (node :: rest) := by
  constructor
  · exact sound.justified.before node register
  · intro ⟨rest, path⟩
    exact settledUsePath settled path

theorem soundAfter (sound : live.Sound graph nodes)
    (settled : ∀ node ∈ nodes, live.SettledAt graph node) (node register : Nat) :
    register ∈ (live.setsAt node).after ↔ node ∈ nodes ∧
      ∃ successor ∈ graph.successors node,
        ∃ rest, graph.UsePath nodes register (successor :: rest) := by
  constructor
  · exact sound.justified.after node register
  · intro ⟨member, successor, edge, rest, path⟩
    exact (settled node member).after successor edge register (settledUsePath settled path)

/-- The live sets at the end of repeated sweeps over an order. -/
def final (graph : Graph) (order : List Nat) (live : LiveMap) : LiveMap :=
  (live.settle graph order (known graph live) (coversKnown graph live) (withinKnown graph live) 1).1

theorem finalSound (inside : ∀ node ∈ nodes, node < graph.size)
    (sound : live.Sound graph nodes) : (live.final graph nodes).Sound graph nodes := by
  apply settlePreserves _ _ _ _ sound
  intro live sound node member
  exact visitSound sound member (inside node member)

theorem finalSettled (inside : ∀ node ∈ nodes, node < graph.size)
    (sound : live.Sound graph nodes) :
    ∀ node ∈ nodes, (live.final graph nodes).SettledAt graph node := by
  apply sweepSettled
  · intro node member
    rw [(finalSound inside sound).size]
    exact inside node member
  · exact settleStill _ _ _

end

end LiveMap

/-- The live sets of a graph after solving it from scratch. -/
def Graph.solved (graph : Graph) : LiveMap := (solve graph (.fresh graph)).live

namespace Graph

variable (graph : Graph)

theorem solvedInvariant : graph.solved.Sound graph graph.processingOrder :=
  LiveMap.finalSound (fun _ => processingOrderInside) (LiveMap.freshSound graph _)

theorem solvedSettled : ∀ node ∈ graph.processingOrder, graph.solved.SettledAt graph node :=
  LiveMap.finalSettled (fun _ => processingOrderInside) (LiveMap.freshSound graph _)

theorem solvedBefore (node register : Nat) :
    register ∈ (graph.solved.setsAt node).before ↔
      ∃ rest, graph.UsePath graph.processingOrder register (node :: rest) :=
  LiveMap.soundBefore graph.solvedInvariant graph.solvedSettled node register

theorem solvedAfter {node : Nat} (member : node ∈ graph.processingOrder) (register : Nat) :
    register ∈ (graph.solved.setsAt node).after ↔ ∃ successor ∈ graph.successors node,
      successor ∈ graph.processingOrder ∧ register ∈ (graph.solved.setsAt successor).before := by
  constructor
  · intro liveAfter
    obtain ⟨_, successor, edge, rest, path⟩ := graph.solvedInvariant.2.after node register liveAfter
    have early := (graph.solvedBefore successor register).mpr ⟨rest, path⟩
    exact ⟨successor, edge, path.inside successor List.mem_cons_self, early⟩
  · intro ⟨successor, edge, _, early⟩
    exact (graph.solvedSettled node member).after successor edge register early

/-- Nodes that are not processed keep their empty live sets. -/
theorem solvedOutside {node : Nat} (outside : node ∉ graph.processingOrder) :
    graph.solved.setsAt node = {} := by
  apply LiveMap.setsExt
  · intro register
    refine iff_of_false (fun early => ?_) Std.ExtTreeSet.not_mem_empty
    obtain ⟨rest, path⟩ := (graph.solvedBefore node register).mp early
    exact outside (path.inside node List.mem_cons_self)
  · intro register
    refine iff_of_false (fun late => ?_) Std.ExtTreeSet.not_mem_empty
    exact outside (graph.solvedInvariant.2.after node register late).1

end Graph

/-- Before a processed node exactly those registers are live that some path from it uses, after it
those that are live before a processed successor, and nothing is live at the other nodes. -/
theorem liveExactlyOnUsePaths (program : Program) :
    let graph := Graph.expand program
    let solution := solve graph (.fresh graph)
    solution.live.size = graph.size ∧
      (∀ node ∈ solution.order, ∀ register,
        (register ∈ (solution.live.setsAt node).before ↔
            ∃ rest, graph.UsePath solution.order register (node :: rest)) ∧
          (register ∈ (solution.live.setsAt node).after ↔
            ∃ successor ∈ graph.successors node, successor ∈ solution.order ∧
              register ∈ (solution.live.setsAt successor).before)) ∧
      ∀ node, node ∉ solution.order → solution.live.setsAt node = {} := by
  intro graph solution
  refine ⟨graph.solvedInvariant.1, fun node member register => ?_, fun node outside => ?_⟩
  · exact ⟨graph.solvedBefore node register, graph.solvedAfter member register⟩
  · exact graph.solvedOutside outside

/-- At the branch that closes a loop, the operand that the loop reads has a path back to its use. -/
theorem loopOperandUsed : ∃ program, Program.build Program.loopStream = .ok program ∧
    3 ∈ (solve (Graph.expand program) (.fresh (Graph.expand program))).order ∧
    1 ∈ ((solve (Graph.expand program) (.fresh (Graph.expand program))).live.setsAt 3).before ∧
    ∃ rest, (Graph.expand program).UsePath
      (solve (Graph.expand program) (.fresh (Graph.expand program))).order 1 (3 :: rest) := by
  have built : Program.build Program.loopStream = .ok _ := rfl
  refine ⟨_, built, by decide +kernel, by decide +kernel, ?_⟩
  exact ((liveExactlyOnUsePaths _).2.1 3 (by decide +kernel) 1).1.mp (by decide +kernel)

end ShaderAnalysis
