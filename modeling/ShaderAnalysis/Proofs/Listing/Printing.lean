/-
This file prints instructions as a listing and shows that they are read back from it.
-/

import Mathlib.Data.List.Forall2
import ShaderAnalysis.Proofs.Listing.Reading

namespace ShaderAnalysis

/-- Instructions agree in all but the encoding of their opcode. -/
structure Instruction.Agrees (first second : Instruction) : Prop where
  mnemonic : first.mnemonic = second.mnemonic
  operands : first.operands = second.operands
  label : first.label = second.label
  flow : first.opcode.flow = second.opcode.flow
  registers : first.registers = second.registers

/-- The encoded word only settles the encoding. -/
theorem Instruction.settleEncoding (opcode : Opcode) (encoded : Option String) :
    ∃ encoding, settle opcode encoded = { opcode with encoding } := by
  unfold settle
  split
  · split
    · exact ⟨_, rfl⟩
    · exact ⟨opcode.encoding, rfl⟩
  · exact ⟨opcode.encoding, rfl⟩

theorem Instruction.decodeAgrees (table : OpcodeTable) (first second : Option String)
    (mnemonic : String) (operands : List String) (label : Option String) :
    (decode table first mnemonic operands label).Agrees
      (decode table second mnemonic operands label) := by
  obtain ⟨_, firstSettled⟩ := settleEncoding (table.lookup mnemonic) first
  obtain ⟨_, secondSettled⟩ := settleEncoding (table.lookup mnemonic) second
  rw [decode, decode, firstSettled, secondSettled]
  exact ⟨rfl, rfl, rfl, rfl, rfl⟩

namespace Listing

/-- The lines of an instruction: its label with a colon, if it has one, and its text. -/
def printed (instruction : Instruction) : List String :=
  (instruction.label.map (· ++ ":")).toList ++ [instruction.body]

/-- The shader dump of some instructions. -/
def print (instructions : List Instruction) : String :=
  Text.unlines <|
    "; -------- Disassembly --------------------" :: instructions.flatMap printed ++ ["end"]

section

variable {words : List (List Char)} (known : ∀ word ∈ words, Text.Word word)

/-- All the words but the last one are followed by a comma. -/
def commaWords : List (List Char) → List (List Char)
  | [] => []
  | [word] => [word]
  | word :: next :: rest => (word ++ [',']) :: commaWords (next :: rest)

theorem commaWordsEmpty : commaWords words = [] ↔ words = [] := by
  fun_cases commaWords words <;> simp

theorem joinedCommaWords :
    [' '].intercalate (commaWords words) = [',', ' '].intercalate words := by
  fun_induction commaWords words with
  | case1 => rfl
  | case2 word => simp
  | case3 word next rest inductionHypothesis =>
      rw [List.intercalate_cons_of_ne_nil (by simp [commaWordsEmpty]), inductionHypothesis,
        List.intercalate_cons_cons]
      simp

include known

/-- The commas that join words stay with the words before them. -/
theorem wordsJoined : Text.words ([',', ' '].intercalate words) = commaWords words := by
  fun_induction commaWords words with
  | case1 => simp
  | case2 word => simpa using Text.wordsWord (known word (by simp))
  | case3 word next rest inductionHypothesis =>
      rw [List.forall_mem_cons] at known
      have marked : Text.Word (word ++ [',']) := by
        refine ⟨by simp, fun character member => ?_⟩
        rcases List.mem_append.mp member with inside | comma
        · exact known.1.solid character inside
        · rw [List.mem_singleton.mp comma]
          decide
      have text : [',', ' '].intercalate (word :: next :: rest) =
          (word ++ [',']) ++ ' ' :: [',', ' '].intercalate (next :: rest) := by simp
      rw [text, Text.wordsAppend (by decide), Text.wordsWord marked, inductionHypothesis known.2,
        List.singleton_append]

/-- The pieces between the commas have the joined words as their first words. -/
theorem firstWordsJoined (nonempty : words ≠ []) (single : ∀ word ∈ words, ',' ∉ word)
    {start : List Char} (apart : ',' ∉ start)
    (skips : ∀ text, Text.words (start ++ text) = Text.words text) :
    ((start ++ [',', ' '].intercalate words).splitOn ',').filterMap
      (fun piece => (TokenLine.tokensOf piece).head?) = words.map String.ofList := by
  -- The pieces behind the first one start with a blank, so the start is generalised.
  induction words generalizing start with
  | nil => exact absurd rfl nonempty
  | cons word words inductionHypothesis =>
      rw [List.forall_mem_cons] at known single
      have first : TokenLine.tokensOf (start ++ word) = [String.ofList word] := by
        rw [TokenLine.tokensOf, skips, Text.wordsWord known.1, List.map_singleton]
      have uncut : ',' ∉ start ++ word := by simp [apart, single.1]
      cases words with
      | nil => simp [List.splitOn_eq_singleton uncut, first]
      | cons next words =>
          have text : start ++ [',', ' '].intercalate (word :: next :: words) =
              (start ++ word) ++ ',' :: ([' '] ++ [',', ' '].intercalate (next :: words)) := by simp
          rw [text, List.splitOn_append_cons_self_of_not_mem uncut, List.filterMap_cons, first,
            inductionHypothesis known.2 (by simp) single.2 (by simp)
              (Text.wordsBlank (by decide))]
          rfl

end

/-- Operands are read back from the tokens of their text. -/
theorem operandsOfJoined {operands : List String} (known : ∀ operand ∈ operands, Operand operand) :
    operandsOf (TokenLine.tokensOf (", ".intercalate operands).toList) = operands := by
  have words : ∀ word ∈ operands.map String.toList, Text.Word word := by
    simpa using fun operand member => (known operand member).isToken.word
  have single : ∀ word ∈ operands.map String.toList, ',' ∉ word := by
    simpa using fun operand member => (known operand member).single
  have joined : (" ".intercalate (TokenLine.tokensOf (", ".intercalate operands).toList)).toList =
      [',', ' '].intercalate (operands.map String.toList) := by
    have tokens : (TokenLine.tokensOf (", ".intercalate operands).toList).map String.toList =
        commaWords (operands.map String.toList) := by
      rw [TokenLine.tokensOf, String.toList_intercalate, ← wordsJoined words, List.map_map]
      simp [Function.comp_def]
    rw [String.toList_intercalate, tokens]
    exact joinedCommaWords
  rw [operandsOf, joined]
  by_cases empty : operands = []
  · subst empty
    rfl
  · have read := firstWordsJoined words (by simpa using empty) single
      (List.not_mem_nil : ',' ∉ []) fun _ => rfl
    simpa [Function.comp_def] using read

theorem headsStart {token : String} (heads : Heads token) :
    ∃ character rest, token.toList = character :: rest ∧
      Text.isBlank character = false ∧ character ≠ ';' := by
  obtain ⟨character, rest, same⟩ := List.exists_cons_of_ne_nil heads.isToken.word.nonempty
  have solid := heads.isToken.word.solid
  have leads := heads.leads
  rw [same] at solid leads
  exact ⟨character, rest, same, solid character List.mem_cons_self, by simpa using leads⟩

/-- A head can stand alone in its line. -/
theorem headAlone {token : String} (heads : Heads token) (number : Nat) :
    TokenLine.ofText? number token.toList = some ⟨number, none, token, []⟩ := by
  obtain ⟨character, rest, same, solid, other⟩ := headsStart heads
  have free := heads.isToken.free
  have words := Text.wordsWord heads.isToken.word
  rw [same] at free
  rw [same, TokenLine.ofTextPlain solid other free, ← same, TokenLine.tokensOf, words]
  simp [TokenLine.ofTokens?]

/-- The tokens behind a head are those of the rest of its line. -/
theorem headBefore {token : String} (heads : Heads token) {text : List Char}
    (free : TokenLine.CommentFree text) (number : Nat) :
    TokenLine.ofText? number (token.toList ++ ' ' :: text) =
      some ⟨number, none, token, TokenLine.tokensOf text⟩ := by
  obtain ⟨character, rest, same, solid, other⟩ := headsStart heads
  have whole := TokenLine.commentFreeAppend (by decide : ' ' ≠ '/') heads.isToken.free free
  have words := Text.wordsWord heads.isToken.word
  rw [same, List.cons_append] at whole
  rw [same, List.cons_append, TokenLine.ofTextPlain solid other whole, ← List.cons_append, ← same,
    TokenLine.tokensOf, Text.wordsAppend (by decide), words]
  simp [TokenLine.ofTokens?, TokenLine.tokensOf]

theorem bodyOperands (instruction : Instruction) (nonempty : instruction.operands ≠ []) :
    instruction.body.toList = instruction.mnemonic.toList ++
      ' ' :: (", ".intercalate instruction.operands).toList := by
  simp [Instruction.body, nonempty]

/-- The mnemonic and the operands are read back from the text of an instruction. -/
theorem bodyLine {instruction : Instruction} (readable : Readable instruction) (number : Nat) :
    ∃ tail, TokenLine.ofText? number instruction.body.toList =
        some ⟨number, none, instruction.mnemonic, tail⟩ ∧
      operandsOf tail = instruction.operands := by
  by_cases empty : instruction.operands = []
  · refine ⟨[], ?_, by rw [empty]; rfl⟩
    simpa [Instruction.body, empty] using headAlone readable.head number
  · refine ⟨_, ?_, operandsOfJoined readable.operands⟩
    rw [bodyOperands instruction empty]
    apply headBefore readable.head
    rw [String.toList_intercalate]
    apply Text.joinInduction TokenLine.CommentFree
    · simp [TokenLine.CommentFree]
    · simpa using fun operand member => (readable.operands operand member).isToken.free
    · intro before behind beforeFree behindFree
      have spaced := TokenLine.commentFreeAppend (by decide : ' ' ≠ '/')
        (by simp [TokenLine.CommentFree] : TokenLine.CommentFree []) behindFree
      simpa using TokenLine.commentFreeAppend (by decide : ',' ≠ '/') beforeFree spaced

/-- From inside the body the texts are decoded, under the label that waits, whatever their
numbers. -/
def Reads (table : OpcodeTable) (texts : List (List Char))
    (decoded : Option String → List Instruction) : Prop :=
  ∀ opened number, ∃ body,
    Body.delimited .shaderDump Body.dumpRole (some opened) (TokenLine.numbered number texts) =
        .ok body ∧
      ∀ pending, decodeFrom table pending body = decoded pending

section

variable {table : OpcodeTable} {texts : List (List Char)}
  {decoded : Option String → List Instruction}

/-- A line with a head stands in the body. -/
theorem delimitedHead {line : TokenLine} (heads : Heads line.head) (opened : Nat)
    (rest : List TokenLine) :
    Body.delimited .shaderDump Body.dumpRole (some opened) (line :: rest) =
      (Body.delimited .shaderDump Body.dumpRole (some opened) rest).map (line :: ·) := by
  have unmarked : line.tokens ≠ TokenLine.dumpMarker := by
    intro marker
    rw [TokenLine.tokens, TokenLine.dumpMarker, List.cons.injEq] at marker
    exact heads.leads (by rw [marker.1]; rfl)
  have stands : Body.dumpRole true line = .stands := by
    rw [Body.dumpRole, if_neg unmarked, if_neg (by simp [heads.inside])]
  rw [Body.delimited, Option.isSome_some, stands]
  rfl

theorem readsEnd (table : OpcodeTable) : Reads table ["end".toList, []] fun _ => [] :=
  fun _ _ => ⟨[], rfl, fun _ => rfl⟩

theorem readsLabel {label : String} (heads : Heads (label ++ ":"))
    (rest : Reads table texts decoded) :
    Reads table ((label ++ ":").toList :: texts) fun _ => decoded (some label) := by
  intro opened number
  obtain ⟨body, found, decodes⟩ := rest opened (number + 1)
  refine ⟨⟨number, none, label ++ ":", []⟩ :: body, ?_, fun pending => ?_⟩
  · rw [TokenLine.numberedCons, headAlone heads, Option.toList_some, List.singleton_append,
      delimitedHead heads, found]
    rfl
  · rw [decodeFrom, if_neg (by simp [heads.means]), colonLabel]
    exact decodes (some label)

theorem readsBody {instruction : Instruction} (readable : Readable instruction)
    (rest : Reads table texts decoded) :
    Reads table (instruction.body.toList :: texts) fun pending =>
      .decode table none instruction.mnemonic instruction.operands pending :: decoded none := by
  intro opened number
  obtain ⟨body, found, decodes⟩ := rest opened (number + 1)
  obtain ⟨tail, line, operands⟩ := bodyLine readable number
  refine ⟨⟨number, none, instruction.mnemonic, tail⟩ :: body, ?_, fun pending => ?_⟩
  · rw [TokenLine.numberedCons, line, Option.toList_some, List.singleton_append,
      delimitedHead readable.head, found]
    rfl
  · rw [decodeFrom, if_neg (by simp [readable.head.means]), readable.decodes]
    simp only [operands, decodes]

/-- The lines of an instruction are decoded to it, but for its encoding. -/
theorem readsPrinted {instruction : Instruction} (readable : Readable instruction)
    (rest : Reads table texts decoded) :
    ∃ longer, Reads table ((printed instruction).map String.toList ++ texts) longer ∧
      longer none = .decode table none instruction.mnemonic instruction.operands
        instruction.label :: decoded none := by
  have body := readsBody readable rest
  cases labelled : instruction.label with
  | none =>
      have lines : (printed instruction).map String.toList ++ texts =
          instruction.body.toList :: texts := by simp [printed, labelled]
      rw [lines]
      exact ⟨_, body, rfl⟩
  | some label =>
      have lines : (printed instruction).map String.toList ++ texts =
          (label ++ ":").toList :: instruction.body.toList :: texts := by simp [printed, labelled]
      rw [lines]
      exact ⟨_, readsLabel (readable.label label labelled) body, rfl⟩

theorem readsAll (table : OpcodeTable) {instructions : List Instruction}
    (readable : ∀ instruction ∈ instructions, Readable instruction) :
    ∃ decoded,
      Reads table ((instructions.flatMap printed ++ ["end"]).map String.toList ++ [[]]) decoded ∧
      decoded none = instructions.map fun instruction =>
        .decode table none instruction.mnemonic instruction.operands instruction.label := by
  induction instructions with
  | nil => exact ⟨_, readsEnd table, rfl⟩
  | cons instruction instructions inductionHypothesis =>
      rw [List.forall_mem_cons] at readable
      obtain ⟨decoded, rest, same⟩ := inductionHypothesis readable.2
      obtain ⟨longer, reads, first⟩ := readsPrinted readable.1 rest
      refine ⟨longer, ?_, by rw [first, same, List.map_cons]⟩
      simpa using reads

end

theorem tokenUnbroken {token : String} (known : TokenLine.Token token) : '\n' ∉ token.toList :=
  fun member => absurd (known.word.solid _ member) (by decide)

/-- Operands and the mnemonic are joined without a line feed. -/
theorem bodyUnbroken {instruction : Instruction} (mnemonic : '\n' ∉ instruction.mnemonic.toList)
    (operands : ∀ operand ∈ instruction.operands, '\n' ∉ operand.toList) :
    '\n' ∉ instruction.body.toList := by
  by_cases empty : instruction.operands = []
  · simpa [Instruction.body, empty] using mnemonic
  · have joined : '\n' ∉ (", ".intercalate instruction.operands).toList := by
      rw [String.toList_intercalate]
      apply Text.joinInduction ('\n' ∉ ·)
      · simp
      · simpa using operands
      · intro before behind beforeUnbroken behindUnbroken
        simp [beforeUnbroken, behindUnbroken]
    rw [bodyOperands instruction empty]
    simp only [List.mem_append, List.mem_cons, not_or]
    exact ⟨mnemonic, by decide, joined⟩

/-- No printed line is broken. -/
theorem printedUnbroken {instruction : Instruction} (readable : Readable instruction) :
    ∀ line ∈ printed instruction, '\n' ∉ line.toList := by
  intro line member
  rcases List.mem_append.mp member with labels | body
  · obtain ⟨label, labelled, rfl⟩ : ∃ label, instruction.label = some label ∧ label ++ ":" = line := by
      simpa using labels
    exact tokenUnbroken (readable.label label labelled).isToken
  · rw [List.mem_singleton.mp body]
    exact bodyUnbroken (tokenUnbroken readable.head.isToken) fun operand among =>
      tokenUnbroken (readable.operands operand among).isToken

/-- Readable instructions are read back from their shader dump, but for their encodings. -/
theorem readPrint (table : OpcodeTable) {instructions : List Instruction}
    (readable : ∀ instruction ∈ instructions, Readable instruction) :
    Listing.instructions table .shaderDump (print instructions) =
      .ok (instructions.map fun instruction =>
        .decode table none instruction.mnemonic instruction.operands instruction.label) := by
  have lines : ∀ line ∈ instructions.flatMap printed, '\n' ∉ line.toList := by
    intro line member
    obtain ⟨instruction, among, here⟩ := List.mem_flatMap.mp member
    exact printedUnbroken (readable instruction among) line here
  have unbroken : ∀ line ∈ "; -------- Disassembly --------------------" ::
      (instructions.flatMap printed ++ ["end"]), '\n' ∉ line.toList := by
    rw [List.forall_mem_cons, List.forall_mem_append]
    exact ⟨by decide, lines, by simp⟩
  obtain ⟨decoded, reads, same⟩ := readsAll table readable
  obtain ⟨body, found, decodes⟩ := reads 1 2
  have opens : Body.read .shaderDump (print instructions).toList = .ok body := by
    rw [← found]
    change Body.delimited _ _ none (TokenLine.numbered 1 ((Text.unlines _).toList.splitOn '\n')) = _
    rw [List.cons_append, Text.linesUnlines unbroken]
    rfl
  rw [Listing.instructions, opens, ← same, ← decodes]
  rfl

end Listing

/-- Whatever is read from a shader dump is read back from the dump that prints it, but for the
encodings of the opcodes. -/
theorem printedReadBack (table : OpcodeTable) (text : String) {instructions : List Instruction}
    (read : Listing.instructions table .shaderDump text = .ok instructions) :
    ∃ again, Listing.instructions table .shaderDump (Listing.print instructions) = .ok again ∧
      List.Forall₂ Instruction.Agrees instructions again := by
  obtain ⟨body, found, rfl⟩ : ∃ body, Body.read .shaderDump text.toList = .ok body ∧
      Listing.decode table body = instructions := by
    cases found : Body.read .shaderDump text.toList with
    | error _ => simp [Listing.instructions, found, Except.map] at read
    | ok body => exact ⟨body, rfl, by simpa [Listing.instructions, found, Except.map] using read⟩
  have nothingWaits : ∀ label, none = some label → Listing.Heads (label ++ ":") := by simp
  have readable := Listing.decodeReadable table nothingWaits (Listing.dumpMember found)
  refine ⟨_, Listing.readPrint table fun instruction member => (readable instruction member).1, ?_⟩
  rw [List.forall₂_map_right_iff, List.forall₂_same]
  intro instruction member
  obtain ⟨_, encoded, mnemonic, operands, label, rfl⟩ := readable instruction member
  rw [Instruction.decodeMnemonic]
  exact Instruction.decodeAgrees table encoded none mnemonic operands label

/-- A dump with an empty label, a stray comma and a stray word, a slash and an encoded word. -/
def oddDump : String :=
  "; -------- Disassembly --------------------\n:\nv_add_f32 v1/ x,,v2 //0: D1190201\nend"

/-- Of the two encodings of its opcode this table gives the one that the dump does not show. -/
def dualTable : OpcodeTable :=
  ⟨[{ name := "v_add_f32", written := [0], read := [1, 2], encoding := .vop2 }]⟩

theorem oddDumpReadBack : ∃ instructions again,
    Listing.instructions dualTable .shaderDump oddDump = .ok instructions ∧
    instructions.map (fun instruction =>
      (instruction.label, instruction.body, instruction.opcode.encoding)) =
        [(some "", "v_add_f32 v1/, v2", .vop3)] ∧
    Listing.instructions dualTable .shaderDump (Listing.print instructions) = .ok again ∧
    List.Forall₂ Instruction.Agrees instructions again := by
  have read : Listing.instructions dualTable .shaderDump oddDump = .ok _ := rfl
  obtain ⟨again, found, agrees⟩ := printedReadBack _ _ read
  exact ⟨_, again, read, by decide +kernel, found, agrees⟩

end ShaderAnalysis
