/-
This file shows which quoted strings of a drawing are closed by the quote at their end.
-/

import Mathlib.Algebra.Ring.Parity
import Mathlib.Data.List.Induction
import ShaderAnalysis.Proofs.Report.Drawing

namespace ShaderAnalysis

namespace Dot

/-- Where a string is closed, counted from behind its opening quote. A backslash takes the next
character with it, and the first quote that is not so taken closes the string. -/
def closing? : List Char → Option Nat
  | [] => none
  | '"' :: _ => some 0
  | '\\' :: _ :: rest => (closing? rest).map (· + 2)
  | _ :: rest => (closing? rest).map (· + 1)

/-- The quote at the end of the content closes it; `rest` is what follows. -/
def ClosedBefore (rest : List Char) (content : String) : Prop :=
  closing? (content.toList ++ '"' :: rest) = some content.length

/-- A string is read on, and the result tells whether its next character is taken. There is none if
the string was closed. -/
def scan : Bool → List Char → Option Bool
  | taken, [] => some taken
  | true, _ :: rest => scan false rest
  | false, character :: rest => if character = '"' then none else scan (character == '\\') rest

theorem scanAppend (taken : Bool) (first second : List Char) :
    scan taken (first ++ second) = (scan taken first).bind (scan · second) := by
  fun_induction scan taken first with
  | case1 taken => rfl
  | case2 character rest inductionHypothesis => exact inductionHypothesis
  | case3 rest => rfl
  | case4 character rest inside inductionHypothesis =>
      rw [List.cons_append, scan, if_neg inside, inductionHypothesis]

theorem closedIffScan (rest : List Char) (content : String) :
    ClosedBefore rest content ↔ scan false content.toList = some false := by
  rw [ClosedBefore, ← String.length_toList]
  generalize content.toList = text
  fun_induction closing? text with
  | case1 => simp [closing?, scan]
  | case2 more => simp [closing?, scan]
  | case3 character more inductionHypothesis =>
      have taken : scan false ('\\' :: character :: more) = scan false more := rfl
      rw [taken, ← inductionHypothesis]
      simp [closing?]
  | case4 character more opens pairs inductionHypothesis =>
      by_cases takes : character = '\\'
      · -- A backslash that comes last takes the quote behind the content.
        cases more with
        | nil =>
            rw [takes]
            simp [closing?, scan]
        | cons next more => exact absurd rfl (pairs next more takes)
      · have plain : scan false (character :: more) = scan false more := by
          rw [scan, if_neg opens, beq_false_of_ne takes]
        rw [plain, ← inductionHypothesis, List.cons_append, closing?.eq_4]
        · simp
        · exact opens
        · intro _ _ same
          exact absurd same takes

/-- The number of backslashes at the end of a text. -/
def backslashes (text : List Char) : Nat := (text.reverse.takeWhile (· == '\\')).length

theorem backslashesConcat (text : List Char) (character : Char) :
    backslashes (text ++ [character]) = if character = '\\' then backslashes text + 1 else 0 := by
  by_cases same : character = '\\' <;> simp [backslashes, same]

/-- Before every quote of the text the backslashes come in pairs. -/
def Paired (text : List Char) : Prop :=
  ∀ before behind, text = before ++ '"' :: behind → Even (backslashes before)

theorem pairedConcat (text : List Char) (character : Char) :
    Paired (text ++ [character]) ↔
      Paired text ∧ (character = '"' → Even (backslashes text)) := by
  constructor
  · intro paired
    refine ⟨fun before behind splits => ?_, fun quote => ?_⟩
    · exact paired before (behind ++ [character]) (by simp [splits])
    · exact paired text [] (by rw [quote])
  · intro ⟨paired, last⟩ before behind splits
    rcases List.eq_nil_or_concat' behind with rfl | ⟨inner, final, rfl⟩
    · obtain ⟨rfl, same⟩ := List.append_inj' splits rfl
      exact last (List.cons.inj same).1
    · rw [← List.cons_append, ← List.append_assoc] at splits
      exact paired before inner (List.append_inj' splits rfl).1

theorem scanWritten (taken : Bool) (character : Char) :
    scan taken (written character) =
      if character = '"' then if taken then none else some false
      else some (character == '\\' && !taken) := by
  by_cases quote : character = '"'
  · subst quote
    cases taken <;> rfl
  · cases taken <;> simp [written, quote, scan]

/-- With paired backslashes an escaped text is read to its end. It takes the next character if it
ends with an odd number of backslashes. -/
theorem scanPaired {text : List Char} (paired : Paired text) :
    scan false (text.flatMap written) = some (decide (Odd (backslashes text))) := by
  induction text using List.reverseRecOn with
  | nil => rfl
  | append_singleton text character inductionHypothesis =>
      obtain ⟨earlier, last⟩ := (pairedConcat text character).mp paired
      rw [List.flatMap_append, scanAppend, inductionHypothesis earlier, Option.bind_some,
        List.flatMap_singleton, scanWritten, backslashesConcat]
      by_cases quote : character = '"'
      · have even := last quote
        simp [quote, even]
      · by_cases slash : character = '\\'
        · rw [if_neg quote, slash, if_pos rfl]
          simp only [BEq.rfl, Bool.true_and, Nat.odd_add_one, decide_not]
        · simp [quote, slash]

theorem pairedOfScan {text : List Char} {taken : Bool}
    (reads : scan false (text.flatMap written) = some taken) : Paired text := by
  induction text using List.reverseRecOn generalizing taken with
  | nil => simp [Paired]
  | append_singleton text character inductionHypothesis =>
      rw [List.flatMap_append, scanAppend, Option.bind_eq_some_iff] at reads
      obtain ⟨state, before, last⟩ := reads
      have paired := inductionHypothesis before
      refine (pairedConcat text character).mpr ⟨paired, fun quote => ?_⟩
      rw [List.flatMap_singleton, scanWritten, if_pos quote] at last
      cases state with
      | true => cases last
      | false => simpa [scanPaired paired] using before

/-- An escaped text is read to its end without taking what follows if its backslashes are paired
before its quotes and at its end. -/
theorem scanEscaped (text : List Char) :
    scan false (text.flatMap written) = some false ↔
      Paired text ∧ Even (backslashes text) := by
  constructor
  · intro reads
    have paired := pairedOfScan reads
    rw [scanPaired paired] at reads
    exact ⟨paired, by simpa using reads⟩
  · intro ⟨paired, even⟩
    rw [scanPaired paired]
    simpa using even

/-- The end of a line within a label is read as such, even if a backslash takes its first
character. -/
theorem scanBreak {letter : Char} (ends : letter = 'n' ∨ letter = 'l') (taken : Bool)
    (rest : List Char) : scan taken ('\\' :: letter :: rest) = scan false rest := by
  rcases ends with rfl | rfl <;> cases taken <;> rfl

theorem scanLine {letter : Char} (ends : letter = 'n' ∨ letter = 'l') (text rest : List Char) :
    scan false (text.flatMap written ++ '\\' :: letter :: rest) = some false ↔
      Paired text ∧ scan false rest = some false := by
  rw [scanAppend]
  constructor
  · intro reads
    obtain ⟨taken, line, after⟩ := Option.bind_eq_some_iff.mp reads
    rw [scanBreak ends] at after
    exact ⟨pairedOfScan line, after⟩
  · intro ⟨paired, after⟩
    rw [scanPaired paired, Option.bind_some, scanBreak ends, after]

theorem scanLines (instructions : List Instruction) :
    scan false (String.join (instructions.map fun instruction =>
        escape instruction.body ++ "\\l")).toList = some false ↔
      ∀ instruction ∈ instructions, Paired instruction.body.toList := by
  rw [String.toList_join]
  induction instructions with
  | nil => simp [scan]
  | cons instruction instructions inductionHypothesis =>
      have line : (escape instruction.body ++ "\\l").toList =
          instruction.body.toList.flatMap written ++ ['\\', 'l'] := by
        rw [String.toList_append, escapeList]
        rfl
      rw [List.map_cons, List.flatMap_cons, line, List.append_assoc]
      rw [List.forall_mem_cons, ← inductionHypothesis]
      exact scanLine (.inr rfl) _ _

theorem scanPlain {text : List Char} (quote : '"' ∉ text) (slash : '\\' ∉ text) :
    scan false text = some false := by
  induction text with
  | nil => rfl
  | cons character text inductionHypothesis =>
      rw [List.mem_cons, not_or] at quote slash
      rw [scan, if_neg (Ne.symm quote.1), beq_false_of_ne (Ne.symm slash.1)]
      exact inductionHypothesis quote.2 slash.2

theorem scanDecimal (number : Nat) : scan false (toString number).toList = some false := by
  have digits := Text.decimalDigits number
  exact scanPlain (fun member => absurd (digits _ member) (by decide))
    fun member => absurd (digits _ member) (by decide)

theorem scanContent (compact : Bool) (block : Block) :
    scan false (blockContent compact block).toList = some false ↔
      (compact = false → ∀ instruction ∈ block.instructions, Paired instruction.body.toList) := by
  unfold blockContent
  cases compact with
  | true =>
      rw [if_pos rfl, String.toList_append, scanAppend, scanDecimal, Option.bind_some]
      exact iff_of_true (by decide) nofun
  | false =>
      rw [if_neg Bool.false_ne_true, scanLines]
      exact ⟨fun paired _ => paired, fun paired => paired rfl⟩

section

variable (rest : List Char)

theorem blockIdentifierClosed (block : Block) :
    ClosedBefore rest (blockIdentifier block) ↔
      Paired block.label.toList ∧ Even (backslashes block.label.toList) := by
  rw [closedIffScan, blockIdentifier, String.toList_append, escapeList, ← scanEscaped]
  rfl

theorem blockTitleClosed (compact : Bool) (block : Block) :
    ClosedBefore rest (blockTitle compact block) ↔ Paired block.label.toList ∧
      (compact = false → ∀ instruction ∈ block.instructions, Paired instruction.body.toList) := by
  have parts : (blockTitle compact block).toList =
      block.label.toList.flatMap written ++
        '\\' :: 'n' :: (blockContent compact block).toList := by
    rw [blockTitle, String.toList_append, String.toList_append, escapeList, List.append_assoc]
    rfl
  rw [closedIffScan, parts, scanLine (.inl rfl), scanContent]

theorem nodeIdentifierClosed (node : Nat) : ClosedBefore rest (nodeIdentifier node) := by
  rw [closedIffScan, nodeIdentifier, String.toList_append]
  exact scanDecimal node

theorem nodeTitleClosed {program : Program} {graph : Graph} {index : Nat}
    (shown : ShowsPlace program graph index) :
    ClosedBefore rest (nodeTitle program graph index) ↔
      ∀ instruction, graph.instruction? index = some instruction →
        Paired instruction.body.toList := by
  rw [closedIffScan]
  cases holds : graph.instruction? index with
  | none =>
      rcases shown.lacking.mp holds with first | last
      · rw [(shown.entry first).1]
        simp [scan]
      · rw [(shown.exit last).1]
        simp [scan]
  | some instruction =>
      rw [(shown.instruction instruction holds).1, String.toList_append, escapeList]
      refine (scanLine (.inr rfl) _ []).trans ?_
      simp [scan]

end

/-- The strings of a drawing are the identifiers and the labels of its nodes. The identifier of a
block is closed by the quote at its end if the backslashes of the label come in pairs, before each
of its quotes and at its end. A label is closed if this holds before the quotes of every text in it,
since the end of a line follows each text. -/
theorem closedIffPaired {table : OpcodeTable} {format : ListingFormat} {text : String}
    {program : Program} (read : Program.read table format text = .ok program) :
    let graph := Graph.expand program
    let order := graph.gather .forward graph.entry
    (∀ compact, Report.render program (.blockGraph compact) =
      drawing (nodeLines program.blocks blockIdentifier (blockTitle compact) style)
        (edgeLines program.blocks (following program) blockIdentifier)) ∧
    Report.render program .instructionGraph =
      drawing (nodeLines order nodeIdentifier (nodeTitle program graph) (nodeStyle program graph))
        (edgeLines order graph.successors nodeIdentifier) ∧
    ∀ rest,
      (∀ block, ClosedBefore rest (blockIdentifier block) ↔
        Paired block.label.toList ∧ Even (backslashes block.label.toList)) ∧
      (∀ compact block, ClosedBefore rest (blockTitle compact block) ↔
        Paired block.label.toList ∧
          (compact = false → ∀ instruction ∈ block.instructions, Paired instruction.body.toList)) ∧
      (∀ node, ClosedBefore rest (nodeIdentifier node)) ∧
      ∀ node ∈ order, ClosedBefore rest (nodeTitle program graph node) ↔
        ∀ instruction, graph.instruction? node = some instruction →
          Paired instruction.body.toList := by
  obtain ⟨stream, _, built⟩ := Program.readOk.mp read
  refine ⟨blocksDrawing program, instructionsDrawing program _, fun rest =>
    ⟨blockIdentifierClosed rest, blockTitleClosed rest, nodeIdentifierClosed rest, ?_⟩⟩
  intro node member
  exact nodeTitleClosed rest (nodesShown built (Graph.gatherInside member))

/-- The label holds two backslashes and a quote. -/
def pairedListing : String := "shader main\na\\\\\"b:\ns_endpgm\nend"

theorem pairedClosed : ∃ program,
    Program.read Gcn.opcodes .shaderAnalyzer pairedListing = .ok program ∧
    ∃ block, program.blocks[1]? = some block ∧ block.label = "a\\\\\"b" ∧
      ∀ rest, ClosedBefore rest (blockIdentifier block) ∧
        ClosedBefore rest (blockTitle true block) := by
  have drawn : (Program.read Gcn.opcodes .shaderAnalyzer pairedListing).map (·.labels) =
      .ok ["entry", "a\\\\\"b", "exit"] := by decide +kernel
  obtain ⟨program, read, labels⟩ := Program.mapOk.mp drawn
  obtain ⟨block, found, label⟩ :=
    (Program.labelsAt program 1 "a\\\\\"b").mp (by rw [labels]; rfl)
  obtain ⟨_, _, closed⟩ := closedIffPaired read
  have paired : Paired block.label.toList := by
    rw [label]
    exact pairedOfScan (show scan false _ = some false by decide)
  refine ⟨program, read, block, found, label, fun rest => ?_⟩
  obtain ⟨identifiers, titles, _⟩ := closed rest
  refine ⟨(identifiers block).mpr ⟨paired, ?_⟩, (titles true block).mpr ⟨paired, nofun⟩⟩
  rw [label]
  decide

/-- The label ends with a backslash. -/
def slashedListing : String := "shader main\na\\:\ns_endpgm\nend"

/-- The backslash takes the quote at the end of the identifier with it. -/
theorem slashedUnclosed : ∃ program,
    Program.read Gcn.opcodes .shaderAnalyzer slashedListing = .ok program ∧
    ∃ block, program.blocks[1]? = some block ∧ block.label = "a\\" ∧
      ∀ rest, ¬ ClosedBefore rest (blockIdentifier block) := by
  have drawn : (Program.read Gcn.opcodes .shaderAnalyzer slashedListing).map (·.labels) =
      .ok ["entry", "a\\", "exit"] := by decide +kernel
  obtain ⟨program, read, labels⟩ := Program.mapOk.mp drawn
  obtain ⟨block, found, label⟩ := (Program.labelsAt program 1 "a\\").mp (by rw [labels]; rfl)
  refine ⟨program, read, block, found, label, fun rest => ?_⟩
  rw [closedIffScan, blockIdentifier, label]
  decide

end Dot

end ShaderAnalysis
