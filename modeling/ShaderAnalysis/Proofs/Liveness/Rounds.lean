/-
This file bounds the number of sweeps that it takes to solve a graph.
-/

import ShaderAnalysis.Proofs.Liveness.Schedules
import ShaderAnalysis.Proofs.Liveness.Sweeping

namespace ShaderAnalysis

namespace Graph

variable {graph : Graph} {nodes : List Nat} {register node : Nat} {rest : List Nat}

/-- The rest of a path from one of its nodes on uses the same register. -/
theorem usePathSuffix {front : List Nat}
    (path : graph.UsePath nodes register (front ++ node :: rest)) :
    graph.UsePath nodes register (node :: rest) := by
  induction front with
  | nil => exact path
  | cons first front inductionHypothesis =>
      apply inductionHypothesis
      cases front with
      | nil => exact (usePathTail path).2.2
      | cons next front => exact (usePathTail path).2.2

/-- A path that uses a register need not come back to any node. -/
theorem usePathDistinct (path : graph.UsePath nodes register (node :: rest)) :
    ∃ shorter, graph.UsePath nodes register (node :: shorter) ∧ (node :: shorter).Nodup := by
  induction rest generalizing node with
  | nil => exact ⟨[], path, List.nodup_singleton node⟩
  | cons next rest inductionHypothesis =>
      obtain ⟨edge, alone, later⟩ := usePathTail path
      obtain ⟨shorter, usePath, distinct⟩ := inductionHypothesis later
      by_cases again : node ∈ next :: shorter
      · -- The path comes back to the node, so that it can as well start there.
        obtain ⟨front, back, same⟩ := List.append_of_mem again
        rw [same] at usePath distinct
        exact ⟨back, usePathSuffix usePath, (List.nodup_append.mp distinct).2.1⟩
      · have member := path.inside node List.mem_cons_self
        exact ⟨next :: shorter, usePathCons member edge alone usePath,
          List.nodup_cons.mpr ⟨again, distinct⟩⟩

end Graph

namespace LiveMap

variable {graph : Graph} {live : LiveMap} {order : List Nat} {node register : Nat}

/-- Each node of the order is visited somewhere in a sweep. -/
theorem sweepVisits (member : node ∈ order) :
    ∃ middle : LiveMap, middle.size = live.size ∧ live.Grows middle ∧
      (middle.visit graph node).1.Grows (live.sweep graph order).1 := by
  induction order generalizing live with
  | nil => cases member
  | cons first rest inductionHypothesis =>
      by_cases same : node = first
      · subst same
        exact ⟨live, rfl, growsSame live, sweepGrows graph _ rest⟩
      · have later := (List.mem_cons.mp member).resolve_left same
        obtain ⟨middle, size, grown, grows⟩ := @inductionHypothesis (live.visit graph first).1 later
        exact ⟨middle, size.trans (visitSize graph live first),
          growsThrough (visitGrows graph live first) grown, grows⟩

theorem sweepReads (member : node ∈ order) (inside : node < live.size)
    (reads : register ∈ (graph.registers node).read) :
    register ∈ ((live.sweep graph order).1.setsAt node).before := by
  obtain ⟨middle, size, _, grows⟩ := @sweepVisits graph live order node member
  apply grows.before
  exact (visitBeforeMember (size ▸ inside) register).mpr (.inr (.inl reads))

/-- What is live before a successor reaches the node with the next sweep. -/
theorem sweepPulls (member : node ∈ order) (inside : node < live.size) {successor : Nat}
    (edge : successor ∈ graph.successors node)
    (early : register ∈ (live.setsAt successor).before) :
    register ∈ ((live.sweep graph order).1.setsAt node).after ∧
      (register ∉ (graph.registers node).written →
        register ∈ ((live.sweep graph order).1.setsAt node).before) := by
  obtain ⟨middle, size, grown, grows⟩ := @sweepVisits graph live order node member
  have late : register ∈ ((middle.visit graph node).1.setsAt node).after :=
    (visitAfterMember (size ▸ inside) register).mpr
      (.inr ⟨successor, edge, grown.before successor register early⟩)
  refine ⟨grows.after node register late, fun alone => grows.before node register ?_⟩
  exact (visitBeforeMember (size ▸ inside) register).mpr (.inr (.inr ⟨late, alone⟩))

/-- What is live before the first node of the order after a sweep reached the nodes that lead to it
in that same sweep. -/
theorem sweepPullsFirst {first : Nat} {rest : List Nat} (once : first ∉ rest)
    (member : node ∈ rest) (inside : node < live.size) (edge : first ∈ graph.successors node)
    (early : register ∈ ((live.sweep graph (first :: rest)).1.setsAt first).before) :
    register ∈ ((live.sweep graph (first :: rest)).1.setsAt node).after ∧
      (register ∉ (graph.registers node).written →
        register ∈ ((live.sweep graph (first :: rest)).1.setsAt node).before) := by
  have visited : register ∈ ((live.visit graph first).1.setsAt first).before := by
    rwa [sweep, sweepOutside once] at early
  have still : node < (live.visit graph first).1.size := by rwa [visitSize]
  rw [sweep]
  exact sweepPulls member still edge visited

theorem settledStill (inside : ∀ node ∈ order, node < live.size)
    (settled : ∀ node ∈ order, live.SettledAt graph node) :
    (live.sweep graph order).2 = false := by
  induction order with
  | nil => rfl
  | cons first rest inductionHypothesis =>
      have still := (visitStill (inside first List.mem_cons_self)).mpr
        (settled first List.mem_cons_self)
      rw [sweep, still, visitUnchanged still, Bool.false_or]
      exact inductionHypothesis (fun node later => inside node (List.mem_cons_of_mem _ later))
        fun node later => settled node (List.mem_cons_of_mem _ later)

/-- The live sets after a number of sweeps over one order. -/
def sweepTimes (graph : Graph) (order : List Nat) (live : LiveMap) (count : Nat) : LiveMap :=
  live.sweepEach graph (List.replicate count order)

theorem sweepTimesNext (count : Nat) : live.sweepTimes graph order (count + 1) =
    ((live.sweepTimes graph order count).sweep graph order).1 := by
  simp only [sweepTimes, sweepEach, List.replicate_succ', List.foldl_append, List.foldl_cons,
    List.foldl_nil]

theorem sweepTimesFirst (count : Nat) : live.sweepTimes graph order (count + 1) =
    (live.sweep graph order).1.sweepTimes graph order count := by
  simp only [sweepTimes, sweepEach, List.replicate_succ, List.foldl_cons]

/-- Settling sweeps as long as the sweeps grow something, and counts them. -/
theorem settleCount {registers : RegisterSet} (covers : Covers registers graph)
    (within : live.Within registers) (sweeps : Nat) :
    ∃ grown,
      live.settle graph order registers covers within sweeps =
          (live.sweepTimes graph order grown, sweeps + grown) ∧
        (∀ count < grown, ((live.sweepTimes graph order count).sweep graph order).2 = true) ∧
        ((live.sweepTimes graph order grown).sweep graph order).2 = false := by
  fun_induction settle graph order registers covers live within sweeps with
  | case1 live within sweeps next swept inductionHypothesis =>
      obtain ⟨grown, same, growing, still⟩ := inductionHypothesis
      have moved : ∀ count, live.sweepTimes graph order (count + 1) =
          next.sweepTimes graph order count := by
        intro count
        rw [sweepTimesFirst, swept]
      refine ⟨grown + 1, ?_, fun count below => ?_, ?_⟩
      · rw [same, moved, Nat.add_right_comm, Nat.add_assoc]
      · cases count with
        | zero =>
            show (live.sweep graph order).2 = true
            rw [swept]
        | succ count =>
            rw [moved]
            exact growing count (Nat.lt_of_succ_lt_succ below)
      · rw [moved]
        exact still
  | case2 live within sweeps next swept =>
      have still : (live.sweep graph order).2 = false := by rw [swept]
      have same : next = live := by
        have unchanged := sweepUnchanged still
        rwa [swept] at unchanged
      exact ⟨0, by rw [same]; rfl, fun count below => absurd below (Nat.not_lt_zero count), still⟩

theorem sweepTimesSound {nodes : List Nat} (inside : ∀ node ∈ nodes, node < graph.size)
    (count : Nat) : ((fresh graph).sweepTimes graph nodes count).Sound graph nodes := by
  apply sweepEachSound inside _ (freshSound graph nodes)
  intro order member node among
  rwa [List.eq_of_mem_replicate member] at among

section

variable {first : Nat} {rest : List Nat} (distinct : (first :: rest).Nodup)
  (inside : ∀ node ∈ first :: rest, node < graph.size)

include distinct inside

/-- A register needs one sweep for each node of a path that uses it, except that it gets past the
first node of the order together with the node before that on the path. -/
theorem usedInTime {others : List Nat}
    (path : graph.UsePath (first :: rest) register (node :: others))
    (simple : (node :: others).Nodup) {count : Nat}
    (enough : (node :: others).length ≤ count + if first ∈ others then 1 else 0) :
    register ∈ (((fresh graph).sweepTimes graph (first :: rest) count).setsAt node).before := by
  have sized : ∀ count, ((fresh graph).sweepTimes graph (first :: rest) count).size = graph.size :=
    fun count => (sweepTimesSound inside count).size
  induction others generalizing node count with
  | nil =>
      obtain ⟨last, ends, reads⟩ := path.reads
      obtain rfl : node = last := Option.some.inj ends
      have member := path.inside node List.mem_cons_self
      obtain ⟨earlier, rfl⟩ : ∃ earlier, count = earlier + 1 := by
        rw [List.length_singleton, if_neg List.not_mem_nil] at enough
        exact ⟨count - 1, by omega⟩
      rw [sweepTimesNext]
      exact sweepReads member (sized earlier ▸ inside node member) reads
  | cons next others inductionHypothesis =>
      obtain ⟨edge, alone, later⟩ := Graph.usePathTail path
      obtain ⟨left, simple⟩ := List.nodup_cons.mp simple
      have member := path.inside node List.mem_cons_self
      obtain ⟨earlier, rfl⟩ : ∃ earlier, count = earlier + 1 := by
        rw [List.length_cons, List.length_cons] at enough
        refine ⟨count - 1, ?_⟩
        split at enough <;> omega
      have bound := sized earlier ▸ inside node member
      rw [List.length_cons] at enough
      rw [sweepTimesNext]
      by_cases same : next = first
      · subst same
        have once : next ∉ others := (List.nodup_cons.mp simple).1
        rw [if_pos List.mem_cons_self] at enough
        have short : (next :: others).length ≤ earlier + 1 + if next ∈ others then 1 else 0 := by
          rw [if_neg once]
          omega
        have early := inductionHypothesis later simple short
        rw [sweepTimesNext] at early
        have behind : node ∈ rest :=
          (List.mem_cons.mp member).resolve_left fun equal => left (equal ▸ List.mem_cons_self)
        exact (sweepPullsFirst (List.nodup_cons.mp distinct).1 behind bound edge early).2 alone
      · have short : (next :: others).length ≤ earlier + if first ∈ others then 1 else 0 := by
          simp only [List.mem_cons, Ne.symm same, false_or] at enough
          omega
        have early := inductionHypothesis later simple short
        exact (sweepPulls member bound edge early).2 alone

/-- From every node but the first one a path has fewer nodes than the order, unless it passes the
first one. -/
theorem usedBeforeLast (other : node ≠ first)
    (used : ∃ others, graph.UsePath (first :: rest) register (node :: others)) :
    register ∈
      (((fresh graph).sweepTimes graph (first :: rest) rest.length).setsAt node).before := by
  obtain ⟨others, path⟩ := used
  obtain ⟨shorter, path, simple⟩ := Graph.usePathDistinct path
  apply usedInTime distinct inside path simple
  by_cases passes : first ∈ shorter
  · rw [if_pos passes]
    exact (simple.subperm path.inside).length_le
  · rw [if_neg passes]
    have longer : (first :: node :: shorter).Nodup := by
      rw [List.nodup_cons, List.mem_cons, not_or]
      exact ⟨⟨Ne.symm other, passes⟩, simple⟩
    have within : (first :: node :: shorter) ⊆ first :: rest :=
      List.cons_subset.mpr ⟨List.mem_cons_self, path.inside⟩
    exact Nat.le_of_succ_le_succ (longer.subperm within).length_le

theorem usedAtLast (used : ∃ others, graph.UsePath (first :: rest) register (node :: others)) :
    register ∈
      (((fresh graph).sweepTimes graph (first :: rest) (rest.length + 1)).setsAt node).before := by
  obtain ⟨others, path⟩ := used
  obtain ⟨shorter, path, simple⟩ := Graph.usePathDistinct path
  apply usedInTime distinct inside path simple
  have short := (simple.subperm path.inside).length_le
  rw [List.length_cons, List.length_cons] at short
  rw [List.length_cons]
  omega

/-- After as many sweeps as there are nodes, all of them are settled if the first one reads
nothing. -/
theorem settledInTime (quiet : ∀ register, register ∉ (graph.registers first).read) :
    ∀ node ∈ first :: rest,
      ((fresh graph).sweepTimes graph (first :: rest) (rest.length + 1)).SettledAt graph node := by
  intro node member
  have sound := sweepTimesSound inside (rest.length + 1)
  have bound : node < ((fresh graph).sweepTimes graph (first :: rest) rest.length).size := by
    rw [(sweepTimesSound inside rest.length).size]
    exact inside node member
  have passes := fun {register successor : Nat}
      (edge : successor ∈ graph.successors node) (other : successor ≠ first)
      (used : ∃ others, graph.UsePath (first :: rest) register (successor :: others)) =>
    (sweepPulls member bound edge (usedBeforeLast distinct inside other used)).1
  refine ⟨fun successor edge register early => ?_, fun register reads => ?_,
    fun register late alone => ?_⟩
  · obtain ⟨others, path⟩ := sound.justified.before successor register early
    rw [sweepTimesNext]
    by_cases same : successor = first
    · subst same
      by_cases loops : node = successor
      · -- The first node leads to itself, but it reads nothing, so the path goes on elsewhere.
        subst loops
        obtain ⟨shorter, path, simple⟩ := Graph.usePathDistinct path
        cases shorter with
        | nil =>
            obtain ⟨last, ends, reads⟩ := path.reads
            obtain rfl : node = last := Option.some.inj ends
            exact absurd reads (quiet register)
        | cons next shorter =>
            obtain ⟨away, _, later⟩ := Graph.usePathTail path
            have other : next ≠ node :=
              fun equal => (List.nodup_cons.mp simple).1 (equal ▸ List.mem_cons_self)
            exact passes away other ⟨shorter, later⟩
      · have behind := (List.mem_cons.mp member).resolve_left loops
        rw [sweepTimesNext] at early
        exact (sweepPullsFirst (List.nodup_cons.mp distinct).1 behind bound edge early).1
    · exact passes edge same ⟨others, path⟩
  · apply usedAtLast distinct inside
    exact ⟨[], Graph.usePathSingle member reads⟩
  · obtain ⟨_, successor, edge, others, path⟩ := sound.justified.after node register late
    apply usedAtLast distinct inside
    exact ⟨successor :: others, Graph.usePathCons member edge alone path⟩

end

end LiveMap

/-- The nodes of a program are processed from its exit or its entry on, and neither of these reads a
register. -/
theorem Graph.processingOrderQuiet {stream : List Instruction} {program : Program}
    (built : Program.build stream = .ok program) :
    ∃ first rest, (expand program).processingOrder = first :: rest ∧ (first :: rest).Nodup ∧
      ∀ register, register ∉ ((expand program).registers first).read := by
  unfold processingOrder
  cases found : (expand program).exit? with
  | none =>
      have inside := (expandBuilt built).entryInside
      obtain ⟨rest, begins⟩ := gatherHead .forward inside
      obtain ⟨block, first, empty⟩ := Program.entryEmpty built
      have place := placeEntry (Program.entryInside built)
      have uses : (expand program).registers (expand program).entry = {} :=
        emptyRegisters inside place first empty
      exact ⟨_, rest, begins, begins ▸ gatherNodup _ _ _, by simp [uses]⟩
  | some exit =>
      have inside := gatherInside (List.mem_of_find?_eq_some found)
      obtain ⟨rest, begins⟩ := gatherHead .backward inside
      obtain ⟨block, last, empty⟩ := Program.exitEmpty built
      have ends : (expand program).successors exit = [] := by simpa using List.find?_some found
      have place := (expandExit built (Program.entryInside built) inside).mp ends
      have uses : (expand program).registers exit = {} :=
        emptyRegisters inside place last empty
      exact ⟨_, rest, begins, begins ▸ gatherNodup _ _ _, by simp [uses]⟩

/-- Solving sweeps the processed nodes as long as the sweeps grow something, and counts them. -/
theorem solveCount (graph : Graph) (live : LiveMap) :
    ∃ grown, (solve graph live).sweeps = grown + 1 ∧
      (solve graph live).live = live.sweepTimes graph graph.processingOrder grown ∧
      (∀ count < grown, ((live.sweepTimes graph graph.processingOrder count).sweep graph
        graph.processingOrder).2 = true) ∧
      ((live.sweepTimes graph graph.processingOrder grown).sweep graph
        graph.processingOrder).2 = false := by
  obtain ⟨grown, same, growing, still⟩ := @LiveMap.settleCount graph live graph.processingOrder _
    (LiveMap.coversKnown graph live) (LiveMap.withinKnown graph live) 1
  refine ⟨grown, ?_, ?_, growing, still⟩
  · rw [solve, same, Nat.add_comm]
  · rw [solve, same]

/-- Settled live sets are swept once more and no further. -/
theorem sweepsSettled {graph : Graph} {count : Nat}
    (settled : ∀ node ∈ graph.processingOrder,
      ((LiveMap.fresh graph).sweepTimes graph graph.processingOrder count).SettledAt graph node) :
    (solve graph (.fresh graph)).sweeps ≤ count + 1 := by
  obtain ⟨grown, counted, _, growing, _⟩ := solveCount graph (.fresh graph)
  have inside : ∀ node ∈ graph.processingOrder, node < graph.size :=
    fun node => Graph.processingOrderInside
  have sized := (LiveMap.sweepTimesSound inside count).size
  have still := LiveMap.settledStill (fun node member => sized ▸ inside node member) settled
  have bound : grown ≤ count := by
    by_contra later
    have grows := growing count (Nat.lt_of_not_le later)
    rw [still] at grows
    cases grows
  omega

theorem LiveMap.freshSettled {graph : Graph} {node : Nat}
    (quiet : ∀ register, register ∉ (graph.registers node).read) :
    (fresh graph).SettledAt graph node := by
  refine ⟨fun successor _ register early => ?_, fun register reads => ?_,
    fun register late _ => ?_⟩
  · rw [freshSets] at early
    exact absurd early Std.ExtTreeSet.not_mem_empty
  · exact absurd reads (quiet register)
  · rw [freshSets] at late
    exact absurd late Std.ExtTreeSet.not_mem_empty

/-- Solving repeats its sweep exactly until one changes nothing. That takes at most one sweep more
than there are nodes to process, and a single one if these nodes read no register. -/
theorem sweepsWithinOrder {stream : List Instruction} {program : Program}
    (built : Program.build stream = .ok program) :
    let graph := Graph.expand program
    let solution := solve graph (.fresh graph)
    let after := (LiveMap.fresh graph).sweepTimes graph solution.order
    solution.sweeps ≤ solution.order.length + 1 ∧
      (∃ grown, solution.sweeps = grown + 1 ∧ solution.live = after grown ∧
        (∀ count < grown, ((after count).sweep graph solution.order).2 = true) ∧
        ((after grown).sweep graph solution.order).2 = false) ∧
      ((∀ node ∈ solution.order, ∀ instruction, graph.instruction? node = some instruction →
          instruction.registers.read = ∅) → solution.sweeps = 1) := by
  intro graph solution after
  refine ⟨?_, solveCount graph (.fresh graph), fun unread => ?_⟩
  · obtain ⟨first, rest, order, distinct, quiet⟩ := Graph.processingOrderQuiet built
    apply sweepsSettled
    rw [show solution.order = first :: rest from order, order]
    have inside : ∀ node ∈ first :: rest, node < graph.size := by
      rw [← order]
      exact fun node => Graph.processingOrderInside
    exact LiveMap.settledInTime distinct inside quiet
  · have quiet : ∀ node ∈ graph.processingOrder, ∀ register,
        register ∉ (graph.registers node).read := by
      intro node member register reads
      obtain ⟨instruction, known, reads⟩ := graph.readInstruction reads
      rw [unread node member instruction known] at reads
      exact absurd reads Std.ExtTreeSet.not_mem_empty
    have bound : solution.sweeps ≤ 0 + 1 :=
      sweepsSettled fun node member => LiveMap.freshSettled (quiet node member)
    obtain ⟨grown, counted, _⟩ := solveCount graph (.fresh graph)
    have positive : solution.sweeps = grown + 1 := counted
    omega

/-- A loop through the entry, whose only operand is read right behind the entry. -/
def roundStream : List Instruction :=
  [{ opcode := { name := "v_mov_b32", written := [0], read := [1] }, operands := ["v1", "v0"] },
   { opcode := { name := "s_nop" } },
   { opcode := { name := "s_branch", flow := .jump }, operands := ["entry"] }]

/-- The operand travels against the sweeps all around the loop, so that the bound is met. -/
theorem roundTakesAllSweeps : ∃ program, Program.build roundStream = .ok program ∧
    let solution := solve (Graph.expand program) (.fresh (Graph.expand program))
    solution.order.length = 4 ∧ solution.sweeps = 5 := by
  have built : Program.build roundStream = .ok _ := rfl
  refine ⟨_, built, ?_⟩
  intro solution
  have length : solution.order.length = 4 := by decide +kernel
  have least : 5 ≤ solution.sweeps := by decide +kernel
  have most : solution.sweeps ≤ solution.order.length + 1 := (sweepsWithinOrder built).1
  exact ⟨length, by omega⟩

end ShaderAnalysis
