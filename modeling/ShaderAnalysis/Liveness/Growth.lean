/-
This file bounds the growth of the live sets.
-/

import ShaderAnalysis.Counting
import ShaderAnalysis.Liveness.Sweep

namespace ShaderAnalysis

namespace LiveMap

/-- The number of registers in all the live sets together. -/
def count (live : LiveMap) : Nat := (live.toList.map (·.count)).sum

/-- All the live sets lie in one set of registers. -/
def Within (registers : RegisterSet) (live : LiveMap) : Prop :=
  ∀ sets ∈ live, ∀ register, register ∈ sets.before ∨ register ∈ sets.after → register ∈ registers

/-- All the registers that the nodes of a graph read lie in one set of registers. -/
def Covers (registers : RegisterSet) (graph : Graph) : Prop :=
  ∀ node ∈ graph.nodes, ∀ register ∈ node.registers.read, register ∈ registers

/-- The registers of the live sets and of the reads of a graph. -/
def known (graph : Graph) (live : LiveMap) : RegisterSet :=
  .ofList (live.toList.flatMap (fun sets => sets.before.toList ++ sets.after.toList) ++
    graph.nodes.toList.flatMap (·.registers.read.toList))

theorem withinKnown (graph : Graph) (live : LiveMap) : Within (known graph live) live := by
  intro sets member register inside
  simp only [known, Std.ExtTreeSet.mem_ofList, List.contains_iff_mem, List.mem_append,
    List.mem_flatMap, Array.mem_toList_iff, Std.ExtTreeSet.mem_toList]
  exact .inl ⟨sets, member, inside⟩

theorem coversKnown (graph : Graph) (live : LiveMap) : Covers (known graph live) graph := by
  intro node member register inside
  simp only [known, Std.ExtTreeSet.mem_ofList, List.contains_iff_mem, List.mem_append,
    List.mem_flatMap, Array.mem_toList_iff, Std.ExtTreeSet.mem_toList]
  exact .inr ⟨node, member, inside⟩

theorem coversRegisters {registers : RegisterSet} {graph : Graph} (covers : Covers registers graph)
    (node register : Nat) (inside : register ∈ (graph.registers node).read) :
    register ∈ registers := by
  unfold Graph.registers at inside
  cases found : graph.nodes[node]? with
  | none => simp [found] at inside
  | some entry =>
      rw [found] at inside
      exact covers entry (Array.mem_of_getElem? found) register inside

theorem withinSetsAt {registers : RegisterSet} {live : LiveMap} (within : live.Within registers)
    (node register : Nat) (inside : register ∈ (live.setsAt node).before) :
    register ∈ registers := by
  unfold LiveMap.setsAt at inside
  cases found : live[node]? with
  | none => simp [found] at inside
  | some sets =>
      rw [found] at inside
      exact within sets (Array.mem_of_getElem? found) register (.inl inside)

theorem sizeLe {small large : RegisterSet} (inside : ∀ register ∈ small, register ∈ large) :
    small.size ≤ large.size := by
  have equal : small ∪ large = large := by
    apply Std.ExtTreeSet.ext_mem
    intro register
    rw [Std.ExtTreeSet.mem_union_iff]
    exact ⟨fun either => either.elim (inside register) id, .inr⟩
  calc small.size ≤ (small ∪ large).size := Std.ExtTreeSet.size_left_le_size_union
    _ = large.size := by rw [equal]

theorem countLe {registers : RegisterSet} {live : LiveMap} (within : live.Within registers) :
    live.count ≤ live.size * (2 * registers.size) := by
  have each : ∀ sets ∈ live.toList, sets.count ≤ 2 * registers.size := by
    intro sets member
    have inside := within sets (Array.mem_toList_iff.mp member)
    have before := sizeLe fun register found => inside register (.inl found)
    have after := sizeLe fun register found => inside register (.inr found)
    simp only [LiveSets.count]
    omega
  rw [← Array.length_toList]
  unfold count
  generalize live.toList = list at each
  induction list with
  | nil => simp
  | cons sets rest inductionHypothesis =>
      have first := each sets (by simp)
      have others := inductionHypothesis fun other member => each other (by simp [member])
      simp only [List.map_cons, List.sum_cons, List.length_cons, Nat.add_mul]
      omega

theorem sumSet (list : List LiveSets) (index : Nat) (old new : LiveSets)
    (found : list[index]? = some old) :
    ((list.set index new).map (·.count)).sum + old.count =
      (list.map (·.count)).sum + new.count := by
  induction list generalizing index with
  | nil => simp at found
  | cons first rest inductionHypothesis =>
      cases index with
      | zero =>
          obtain rfl : first = old := by simpa using found
          simp only [List.set_cons_zero, List.map_cons, List.sum_cons]
          omega
      | succ index =>
          have tail := inductionHypothesis index (by simpa using found)
          simp only [List.set_cons_succ, List.map_cons, List.sum_cons]
          omega

theorem visitSize (graph : Graph) (live : LiveMap) (node : Nat) :
    (live.visit graph node).1.size = live.size := by
  unfold visit
  split <;> simp

theorem visitCount (graph : Graph) (live : LiveMap) (node : Nat) :
    live.count ≤ (live.visit graph node).1.count ∧
      ((live.visit graph node).2 = true → live.count < (live.visit graph node).1.count) := by
  unfold visit
  split
  · simp
  · rename_i sets found
    dsimp only
    generalize (graph.successors node).map _ = befores
    have after := joinManySize sets.after befores
    generalize joinMany sets.after befores = joined at after
    generalize (graph.registers node).read ∪ (joined.1 \ (graph.registers node).written) = added
    have before := joinSize sets.before added
    generalize join sets.before added = grown at before
    have total := sumSet live.toList node sets ⟨grown.1, joined.1⟩ (by simpa using found)
    simp only [count, Array.toList_setIfInBounds, Bool.or_eq_true, after.2, before.2]
    simp only [LiveSets.count] at total ⊢
    omega

theorem visitWithin {registers : RegisterSet} {graph : Graph} (covers : Covers registers graph)
    {live : LiveMap} (within : live.Within registers) (node : Nat) :
    (live.visit graph node).1.Within registers := by
  unfold visit
  split
  · exact within
  · rename_i sets found
    have old := within sets (Array.mem_of_getElem? found)
    have after : ∀ register ∈ (joinMany sets.after ((graph.successors node).map fun successor =>
        (live.setsAt successor).before)).1, register ∈ registers := by
      intro register inside
      rcases (joinManyMember _ _ _).mp inside with kept | ⟨other, member, added⟩
      · exact old register (.inr kept)
      · obtain ⟨successor, _, rfl⟩ := List.mem_map.mp member
        exact withinSetsAt within successor register added
    intro changed member register inside
    rcases Array.mem_or_eq_of_mem_setIfInBounds member with kept | rfl
    · exact within changed kept register inside
    · rcases inside with inBefore | inAfter
      · rcases (joinMember _ _ _).mp inBefore with kept | added
        · exact old register (.inl kept)
        · rcases Std.ExtTreeSet.mem_union_iff.mp added with read | passed
          · exact coversRegisters covers node register read
          · exact after register (Std.ExtTreeSet.mem_diff_iff.mp passed).1
      · exact after register inAfter

theorem sweepSize (graph : Graph) (live : LiveMap) (order : List Nat) :
    (live.sweep graph order).1.size = live.size := by
  induction order generalizing live with
  | nil => rfl
  | cons node rest inductionHypothesis =>
      simp only [sweep]
      rw [inductionHypothesis, visitSize]

theorem sweepCount (graph : Graph) (live : LiveMap) (order : List Nat) :
    live.count ≤ (live.sweep graph order).1.count ∧
      ((live.sweep graph order).2 = true → live.count < (live.sweep graph order).1.count) := by
  induction order generalizing live with
  | nil => simp [sweep]
  | cons node rest inductionHypothesis =>
      have visited := visitCount graph live node
      have swept := inductionHypothesis (live.visit graph node).1
      simp only [sweep, Bool.or_eq_true]
      exact ⟨by omega, fun grown => grown.elim (fun first => by have := visited.2 first; omega)
        (fun later => by have := swept.2 later; omega)⟩

theorem sweepWithin {registers : RegisterSet} {graph : Graph} (covers : Covers registers graph)
    {live : LiveMap} (within : live.Within registers) (order : List Nat) :
    (live.sweep graph order).1.Within registers := by
  induction order generalizing live with
  | nil => exact within
  | cons node rest inductionHypothesis =>
      exact inductionHypothesis (visitWithin covers within node)

end LiveMap

end ShaderAnalysis
