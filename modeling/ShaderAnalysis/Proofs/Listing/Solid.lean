/-
This file shows that no blank stands in the labels, mnemonics and operands that are read from a
listing.
-/

import ShaderAnalysis.Proofs.Listing.Comments
import ShaderAnalysis.Proofs.Listing.Printing
import ShaderAnalysis.Proofs.Program.Partition
import ShaderAnalysis.Program.Read

namespace ShaderAnalysis

namespace Text

/-- A solid text has no blank. -/
def Solid (text : List Char) : Prop := ∀ character ∈ text, isBlank character = false

instance (text : List Char) : Decidable (Solid text) :=
  List.decidableBAll (fun character => isBlank character = false) text

theorem solidAppend {first second : List Char} :
    Solid (first ++ second) ↔ Solid first ∧ Solid second := List.forall_mem_append

theorem solidWithout {text : List Char} (solid : Solid text) {blank : Char}
    (isBlank : isBlank blank = true) : blank ∉ text :=
  fun member => absurd isBlank (by simp [solid blank member])

/-- The codes of the blank characters. -/
def blankCodes : List Nat :=
  [0x09, 0x0A, 0x0B, 0x0C, 0x0D, 0x20, 0x85, 0xA0, 0x1680, 0x2000, 0x2001, 0x2002, 0x2003, 0x2004,
    0x2005, 0x2006, 0x2007, 0x2008, 0x2009, 0x200A, 0x2028, 0x2029, 0x202F, 0x205F, 0x3000]

theorem blankCode {character : Char} (blank : isBlank character = true) :
    character.toNat ∈ blankCodes := by
  simp only [isBlank, Bool.or_eq_true, Bool.and_eq_true, decide_eq_true_eq, beq_iff_eq] at blank
  simp only [blankCodes, List.mem_cons]
  omega

theorem blankPositive : ∀ code ∈ blankCodes, 0 < code := by decide

/-- A character is not blank if it has a property that no blank has. -/
theorem solidOf (property : Char → Bool)
    (unlike : ∀ code ∈ blankCodes, property (Char.ofNat code) = false) {character : Char}
    (holds : property character = true) : isBlank character = false := by
  rw [Bool.eq_false_iff]
  intro blank
  have other := unlike character.toNat (blankCode blank)
  rw [Char.ofNat_toNat, holds] at other
  cases other

theorem decimalDigits (number : Nat) :
    ∀ digit ∈ (toString number).toList, digit.isDigit = true := by
  intro digit member
  rw [Nat.toString_eq_ofList_toDigits, String.toList_ofList] at member
  exact Nat.isDigit_of_mem_toDigits (by decide) (by decide) member

theorem decimalSolid (number : Nat) : Solid (toString number).toList := fun digit member =>
  solidOf Char.isDigit (by decide) (decimalDigits number digit member)

/-- No run of capital letters has its small letters around a blank. -/
theorem capitalRunsSolid : ∀ run ∈ capitalRuns, ∀ code ∈ blankCodes,
    ¬ (run.first + run.offset ≤ code ∧ code ≤ run.last + run.offset) := by
  decide +kernel

theorem lowSolid : ∀ code < 0x80, isBlank (Char.ofNat code) = false →
    isBlank (Char.ofNat code).toLower = false := by
  decide

/-- The small letters of a character that is not blank are not blank either. -/
theorem lowerCharacterSolid {character : Char} (solid : isBlank character = false) :
    Solid (lowerCharacter character) := by
  unfold lowerCharacter
  split
  · rename_i low
    have small := lowSolid character.toNat low
    rw [Char.ofNat_toNat] at small
    simpa [Solid] using small solid
  · split
    · decide
    · split
      · rename_i run found
        have apart := capitalRunsSolid run (List.mem_of_find?_eq_some found)
        have covers := List.find?_some found
        simp only [CaseRun.covers, Bool.and_eq_true, decide_eq_true_eq] at covers
        rw [Solid, List.forall_mem_singleton, Bool.eq_false_iff]
        intro blank
        have code := blankCode blank
        rcases ofNatCode (character.toNat + run.offset).toNat with valid | invalid
        · rw [valid] at code
          have positive := blankPositive _ code
          exact apart _ code (by omega)
        · rw [invalid] at code
          exact absurd code (by decide)
      · simpa [Solid] using solid

theorem lowercaseSolid {text : List Char} (solid : Solid text) : Solid (lowercase text) := by
  unfold lowercase
  generalize [] = before
  induction text generalizing before with
  | nil => simp [lowercaseAfter, Solid]
  | cons character text inductionHypothesis =>
      obtain ⟨first, rest⟩ := List.forall_mem_cons.mp solid
      rw [lowercaseAfter, solidAppend]
      refine ⟨?_, inductionHypothesis rest (character :: before)⟩
      split
      · unfold sigma
        split <;> decide
      · exact lowerCharacterSolid first

end Text

namespace TokenLine

open Text (Solid)

/-- No token of the line has a blank. -/
def SolidTokens (line : TokenLine) : Prop := ∀ token ∈ line.tokens, Solid token.toList

theorem ofListingSolid {text : List Char} {line : TokenLine} (member : line ∈ ofListing text) :
    line.SolidTokens := by
  rcases ofTextTokens (sourceRead member) with marker | ⟨tokens, _⟩
  · rw [SolidTokens, marker]
    decide
  · exact fun token among => (tokens token among).word.solid

theorem lowercaseSolid {line : TokenLine} (solid : line.SolidTokens) :
    (Body.lowercaseLine line).SolidTokens := by
  have tokens : (Body.lowercaseLine line).tokens = line.tokens.map Body.lowercaseString := rfl
  rw [SolidTokens, tokens, List.forall_mem_map]
  intro token member
  rw [Body.lowercaseString, String.toList_ofList]
  exact Text.lowercaseSolid (solid token member)

end TokenLine

theorem Body.readSolid {format : ListingFormat} {text : List Char} {body : List TokenLine}
    (found : read format text = .ok body) : ∀ line ∈ body, line.SolidTokens := by
  intro line member
  obtain ⟨original, place, either⟩ := readMember found member
  have solid := TokenLine.ofListingSolid place
  rcases either with rfl | rfl
  · exact solid
  · exact TokenLine.lowercaseSolid solid

open Text (Solid)

/-- In a solid instruction no part that a listing spells has a blank. -/
structure Instruction.Solid (instruction : Instruction) : Prop where
  mnemonic : Text.Solid instruction.mnemonic.toList
  operands : ∀ operand ∈ instruction.operands, Text.Solid operand.toList
  label : ∀ label, instruction.label = some label → Text.Solid label.toList

namespace Listing

theorem operandsOfSolid (tokens : List String) :
    ∀ operand ∈ operandsOf tokens, Solid operand.toList := by
  intro operand member
  obtain ⟨piece, _, first⟩ := List.mem_filterMap.mp member
  obtain ⟨word, among, rfl⟩ := List.mem_map.mp (List.mem_of_mem_head? first)
  rw [String.toList_ofList]
  exact (Text.wordsMember among).1.solid

theorem decodeSolid (table : OpcodeTable) {pending : Option String} {body : List TokenLine}
    (waits : ∀ label, pending = some label → Solid label.toList)
    (known : ∀ line ∈ body, line.SolidTokens) :
    ∀ instruction ∈ decodeFrom table pending body, instruction.Solid := by
  fun_induction decodeFrom table pending body with
  | case1 => simp
  | case2 pending line rest metadata inductionHypothesis =>
      exact inductionHypothesis waits (List.forall_mem_cons.mp known).2
  | case3 pending line rest means label labels inductionHypothesis =>
      obtain ⟨tokens, others⟩ := List.forall_mem_cons.mp known
      apply inductionHypothesis _ others
      rintro _ ⟨rfl⟩
      have declared : Solid (label ++ ":").toList := by
        rw [labelColon labels]
        exact tokens _ List.mem_cons_self
      rw [String.toList_append, Text.solidAppend] at declared
      exact declared.1
  | case4 pending line rest means decodes inductionHypothesis =>
      obtain ⟨tokens, others⟩ := List.forall_mem_cons.mp known
      rw [List.forall_mem_cons]
      refine ⟨⟨?_, operandsOfSolid line.tail, waits⟩, inductionHypothesis (by simp) others⟩
      rw [Instruction.decodeMnemonic]
      exact tokens _ List.mem_cons_self

theorem instructionsSolid {table : OpcodeTable} {format : ListingFormat} {text : String}
    {stream : List Instruction} (read : instructions table format text = .ok stream) :
    ∀ instruction ∈ stream, instruction.Solid := by
  obtain ⟨body, found, rfl⟩ := instructionsOk.mp read
  exact decodeSolid table (by simp) (Body.readSolid found)

end Listing

namespace Program

theorem readOk {table : OpcodeTable} {format : ListingFormat} {text : String} {program : Program} :
    read table format text = .ok program ↔
      ∃ stream, Listing.instructions table format text = .ok stream ∧
        build stream = .ok program := by
  have inputOk : ∀ {ε ζ α : Type} {result : Except ε α} {change : ε → ζ} {value : α},
      result.mapError change = .ok value ↔ result = .ok value := by
    intro ε ζ α result change value
    cases result <;> simp [Except.mapError]
  rw [read, bindOk]
  simp only [inputOk]

section

variable {stream : List Instruction} {program : Program}
  (built : build stream = .ok program) (solid : ∀ instruction ∈ stream, instruction.Solid)

include built solid

/-- The labels of the blocks are taken from the stream, or they are generated without a blank. -/
theorem labelsSolid : ∀ label ∈ program.labels, Text.Solid label.toList := by
  have leaders : ∀ label ∈ leaderLabels 1 true stream, Text.Solid label.toList := by
    intro label member
    obtain ⟨⟨position, number⟩, _, rfl⟩ := List.mem_map.mp member
    dsimp only
    cases carried : stream[position]?.bind (·.label) with
    | none =>
        rw [Option.getD_none, String.toList_append, Text.solidAppend]
        exact ⟨by decide, Text.decimalSolid number⟩
    | some label =>
        obtain ⟨instruction, place, labelled⟩ := Option.bind_eq_some_iff.mp carried
        exact (solid instruction (List.mem_of_getElem? place)).label label labelled
  rw [labelsSegments built, segmentsLabels, blockLabels, List.forall_mem_append,
    List.forall_mem_cons, List.forall_mem_singleton]
  exact ⟨⟨by decide, leaders⟩, by decide⟩

/-- No instruction of a block breaks a line. -/
theorem bodiesUnbroken : ∀ instruction ∈ program.instructions, '\n' ∉ instruction.body.toList := by
  intro instruction member
  have same : stream.map (·.body) = program.instructions.map (·.body) := by
    rw [← List.forall₂_eq_eq_eq, List.forall₂_map_left_iff, List.forall₂_map_right_iff]
    refine (instructionsKept built).imp fun first second kept => ?_
    simp only [Instruction.body, Instruction.mnemonic, kept.opcode, kept.operands]
  have among : instruction.body ∈ stream.map (·.body) := same ▸ List.mem_map_of_mem member
  obtain ⟨original, place, text⟩ := List.mem_map.mp among
  have known := solid original place
  rw [← text]
  exact Listing.bodyUnbroken (Text.solidWithout known.mnemonic (by decide))
    fun operand inside => Text.solidWithout (known.operands operand inside) (by decide)

end

end Program

end ShaderAnalysis
