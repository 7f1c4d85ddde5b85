/-
This file shows that the liveness table has a row for each instruction that was solved, and that the
marks of a row tell how the instruction uses the registers.
-/

import ShaderAnalysis.Proofs.Liveness.Pressure
import ShaderAnalysis.Report.Registers

namespace ShaderAnalysis

namespace Graph

/-- A node comes before another one by its block, or by its position in the same block. -/
def Before (graph : Graph) (first second : Nat) : Prop :=
  Prod.Lex (· < ·) (· < ·) (graph.place first) (graph.place second)

instance (graph : Graph) : DecidableRel graph.Before := fun first second =>
  inferInstanceAs (Decidable (Prod.Lex _ _ (graph.place first) (graph.place second)))

theorem beforeAsymmetric {graph : Graph} {first second : Nat} (before : graph.Before first second) :
    ¬graph.Before second first := by
  rw [Before, Prod.lex_def] at before ⊢
  omega

theorem placeLeIff (first second : Nat × Nat) :
    placeLe first second = true ↔ first.1 < second.1 ∨ first.1 = second.1 ∧ first.2 ≤ second.2 := by
  simp [placeLe]

theorem programOrderPerm (graph : Graph) (nodes : List Nat) :
    (graph.programOrder nodes).Perm nodes :=
  List.mergeSort_perm nodes _

theorem programOrderSorted (graph : Graph) (nodes : List Nat) :
    (graph.programOrder nodes).Pairwise fun first second =>
      placeLe (graph.place first) (graph.place second) = true := by
  apply List.pairwise_mergeSort
  · intro first second third
    simp only [placeLeIff]
    omega
  · intro first second
    simp only [Bool.or_eq_true, placeLeIff]
    omega

/-- Where no two nodes share a place, the program order is strict. -/
theorem programOrderAscending {graph : Graph} {nodes : List Nat} (distinct : nodes.Nodup)
    (apart : ∀ first ∈ nodes, ∀ second ∈ nodes,
      graph.place first = graph.place second → first = second) :
    (graph.programOrder nodes).Pairwise graph.Before := by
  have kept := graph.programOrderPerm nodes
  have different : (graph.programOrder nodes).Nodup := kept.nodup_iff.mpr distinct
  apply List.Pairwise.imp_of_mem _ ((graph.programOrderSorted nodes).and different)
  intro first second firstMember secondMember ⟨sorted, differs⟩
  have places : graph.place first ≠ graph.place second := fun same =>
    differs (apart first (kept.mem_iff.mp firstMember) second (kept.mem_iff.mp secondMember) same)
  rw [placeLeIff] at sorted
  rw [Before, Prod.lex_def]
  rw [Ne, Prod.ext_iff] at places
  omega

end Graph

namespace RegisterReport

open Text

/-- One of the marks stands at the position of the register. -/
def Marked (state : String) (marks : List Char) (register : Nat) : Prop :=
  ∃ mark ∈ marks, state.toList[register]? = some mark

/-- A state has one mark for each allocated register. The marks tell which registers are read, which
are written, and which are live but left alone; those that are read or left alone are live. -/
structure Shows (use : RegisterUse) (live : RegisterSet) (allocated : Nat) (state : String) :
    Prop where
  length : state.length = allocated
  read : ∀ register, register ∈ use.read ↔ Marked state ['v', 'x'] register
  written : ∀ register, register ∈ use.written ↔ Marked state ['^', 'x'] register
  alone : ∀ register, register ∈ live ∧ register ∉ use.read ∧ register ∉ use.written ↔
    Marked state [':'] register
  live : ∀ register, Marked state ['v', 'x', ':'] register → register ∈ live

section

variable {use : RegisterUse} {live : RegisterSet} {register : Nat}

theorem stateMarkMembers : stateMark use live register =
    if register ∈ use.read then if register ∈ use.written then 'x' else 'v'
    else if register ∈ use.written then '^' else if register ∈ live then ':' else ' ' := by
  simp only [stateMark, Std.ExtTreeSet.mem_iff_contains]
  split <;> simp [*]

theorem stateMarkRead : stateMark use live register ∈ ['v', 'x'] ↔ register ∈ use.read := by
  rw [stateMarkMembers]
  split_ifs <;> simp [*]

theorem stateMarkWritten : stateMark use live register ∈ ['^', 'x'] ↔ register ∈ use.written := by
  rw [stateMarkMembers]
  split_ifs <;> simp [*]

theorem stateMarkAlone : stateMark use live register ∈ [':'] ↔
    register ∈ live ∧ register ∉ use.read ∧ register ∉ use.written := by
  rw [stateMarkMembers]
  split_ifs <;> simp [*]

theorem statesMarked (allocated : Nat) (marks : List Char) :
    Marked (states use live allocated) marks register ↔
      register < allocated ∧ stateMark use live register ∈ marks := by
  rw [Marked, states, String.toList_ofList, List.getElem?_map]
  by_cases inside : register < allocated
  · simp [inside]
  · simp [inside]

/-- The states show all registers if there is room for those that are written or live, and those
that are read are live. -/
theorem statesShow {allocated : Nat} (readLive : ∀ register ∈ use.read, register ∈ live)
    (writtenRoom : ∀ register ∈ use.written, register < allocated)
    (liveRoom : ∀ register ∈ live, register < allocated) :
    Shows use live allocated (states use live allocated) where
  length := by simp [states]
  read register := by
    rw [statesMarked, stateMarkRead]
    exact (and_iff_right_of_imp fun read => liveRoom register (readLive register read)).symm
  written register := by
    rw [statesMarked, stateMarkWritten]
    exact (and_iff_right_of_imp (writtenRoom register)).symm
  alone register := by
    rw [statesMarked, stateMarkAlone]
    exact (and_iff_right_of_imp fun kept => liveRoom register kept.1).symm
  live register := by
    intro marked
    have either := ((statesMarked allocated (['v', 'x'] ++ [':'])).mp marked).2
    rcases List.mem_append.mp either with read | kept
    · exact readLive register (stateMarkRead.mp read)
    · exact (stateMarkAlone.mp kept).1

example : states ⟨.ofList [0, 1], .ofList [1, 2]⟩ (.ofList [0, 1, 3]) 5 = "vx^: " := by
  decide +kernel

end

/-- The row of a node shows its number among the nodes, how many registers are live at it, its state
and its instruction. -/
def RowOf (graph : Graph) (live : LiveMap) (nodes : List Nat) (allocated node : Nat)
    (row : String) : Prop :=
  ∃ instruction state, graph.instruction? node = some instruction ∧
    Shows instruction.registers ((live.setsAt node).before ∪ (live.setsAt node).after) allocated
      state ∧
    row = rightColumn 5 (toString (nodes.idxOf node)) ++ " | " ++
      rightColumn 3 (toString ((live.setsAt node).before ∪ (live.setsAt node).after).size) ++
      " | " ++ leftColumn 9 state ++ " | " ++ instruction.render

/-- Each node with an instruction has one row, and the rows keep the order of the nodes. -/
theorem rowsPaired {graph : Graph} {live : LiveMap} {allocated : Nat}
    {Related : Nat → String → Prop} (nodes : List Nat) (line : Nat)
    (related : ∀ node index, (node, index) ∈ nodes.zipIdx line →
      ∀ text, row graph live allocated index node = some text → Related node text) :
    List.Forall₂ Related (nodes.filter fun node => (graph.instruction? node).isSome)
      ((nodes.zipIdx line).filterMap fun (node, index) =>
        row graph live allocated index node) := by
  induction nodes generalizing line with
  | nil => exact .nil
  | cons first nodes inductionHypothesis =>
      rw [List.zipIdx_cons] at related ⊢
      have rest := inductionHypothesis (line + 1) fun node index later =>
        related node index (List.mem_cons_of_mem _ later)
      cases found : graph.instruction? first with
      | none =>
          have without : row graph live allocated line first = none := by simp [row, found]
          rw [List.filter_cons_of_neg (by simp [found])]
          simpa only [List.filterMap_cons, without] using rest
      | some instruction =>
          obtain ⟨text, shown⟩ : ∃ text, row graph live allocated line first = some text := by
            simp [row, found]
          rw [List.filter_cons_of_pos (by simp [found])]
          simp only [List.filterMap_cons, shown]
          exact .cons (related first line List.mem_cons_self text shown) rest

end RegisterReport

/-- All the registers at a node of a solved graph are registers of a wave. -/
theorem Graph.solvedRegistersBelow (graph : Graph) (node : Nat) :
    ∀ register ∈ Pressure.registersAt graph graph.solved node, register < RegisterRange.limit := by
  intro register inside
  rcases (Pressure.registersAtMember _ _ _ _).mp inside with early | late | used
  · exact graph.solvedBelow (.inl early)
  · exact graph.solvedBelow (.inr late)
  · exact graph.registersBelow used

namespace RegisterReport

open Text

/-- At a solved node the states have room for every register, and what is read is live. -/
theorem solvedShows {graph : Graph} {nodes : List Nat} {node : Nat} {instruction : Instruction}
    (among : node ∈ nodes) (processed : node ∈ graph.processingOrder)
    (found : graph.instruction? node = some instruction) :
    let allocated := (Pressure.ofNodes graph graph.solved nodes).allocated
    let live := (graph.solved.setsAt node).live
    Shows instruction.registers live allocated (states instruction.registers live allocated) := by
  intro allocated live
  have registers : graph.registers node = instruction.registers := by
    rw [Graph.registersInstruction, found]
    rfl
  have room : ∀ register ∈ Pressure.registersAt graph graph.solved node, register < allocated :=
    (Pressure.allocatedBelow fun node _ => graph.solvedRegistersBelow node).2.2.1 node among
  simp only [Pressure.registersAtMember, registers] at room
  apply statesShow
  · intro register read
    rw [← registers] at read
    have early := (graph.solvedSettled node processed).reads register read
    exact Std.ExtTreeSet.mem_union_of_left early
  · intro register written
    exact room register (.inr (.inr (.inr written)))
  · intro register kept
    rcases Std.ExtTreeSet.mem_union_iff.mp kept with early | late
    · exact room register (.inl early)
    · exact room register (.inr (.inl late))

end RegisterReport

end ShaderAnalysis
