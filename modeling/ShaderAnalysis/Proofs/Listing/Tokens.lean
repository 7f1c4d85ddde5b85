/-
This file shows that listings with the same tokens are read alike, up to the numbers of their lines
and up to the encodings that their comments settle.
-/

import Mathlib.Data.List.Forall2
import ShaderAnalysis.Proofs.Program.Recoding
import ShaderAnalysis.Program.Read

namespace ShaderAnalysis

/-- Two results match if both are errors that match or both are values that match. -/
inductive Matches {ε α : Type} (errors : ε → ε → Prop) (values : α → α → Prop) :
    Except ε α → Except ε α → Prop
  | error {first second : ε} (same : errors first second) :
      Matches errors values (.error first) (.error second)
  | ok {first second : α} (same : values first second) :
      Matches errors values (.ok first) (.ok second)

namespace Matches

variable {ε ζ α β : Type} {errors : ε → ε → Prop} {values : α → α → Prop}
  {first second : Except ε α}

theorem bind {others : β → β → Prop} {next : α → Except ε β}
    (same : Matches errors values first second)
    (goesOn : ∀ value other, values value other → Matches errors others (next value) (next other)) :
    Matches errors others (first >>= next) (second >>= next) := by
  cases same with
  | error same => exact .error same
  | ok same => exact goesOn _ _ same

theorem map {others : β → β → Prop} {change otherChange : α → β}
    (same : Matches errors values first second)
    (kept : ∀ value other, values value other → others (change value) (otherChange other)) :
    Matches errors others (first.map change) (second.map otherChange) := by
  cases same with
  | error same => exact .error same
  | ok same => exact .ok (kept _ _ same)

theorem imp {others : α → α → Prop} (same : Matches errors values first second)
    (weaker : ∀ value other, values value other → others value other) :
    Matches errors others first second := by
  cases same with
  | error same => exact .error same
  | ok same => exact .ok (weaker _ _ same)

theorem mapError {others : ζ → ζ → Prop} {change : ε → ζ}
    (same : Matches errors values first second)
    (kept : ∀ error other, errors error other → others (change error) (change other)) :
    Matches others values (first.mapError change) (second.mapError change) := by
  cases same with
  | error same => exact .error (kept _ _ same)
  | ok same => exact .ok same

theorem ofMap {change : α → β} (same : first.map change = second.map change) :
    Matches Eq (fun value other => change value = change other) first second := by
  cases first with
  | error error =>
      cases second with
      | error other => exact .error (Except.error.inj same)
      | ok other => cases same
  | ok value =>
      cases second with
      | error other => cases same
      | ok other => exact .ok (Except.ok.inj same)

end Matches

theorem pairsOfMap {α β : Type} {change : α → β} {first second : List α}
    (same : first.map change = second.map change) :
    List.Forall₂ (fun value other => change value = change other) first second := by
  rwa [← List.forall₂_eq_eq_eq, List.forall₂_map_left_iff, List.forall₂_map_right_iff] at same

/-- Two errors are of the same kind if at most the lines differ that they blame. -/
inductive ReadError.SameKind : ReadError → ReadError → Prop
  | mismatched (line other : Nat) (found : String) :
      SameKind (.mismatchedDelimiter line found) (.mismatchedDelimiter other found)
  | unterminated (opened other : Nat) :
      SameKind (.unterminatedBody opened) (.unterminatedBody other)
  | missing (format : ListingFormat) : SameKind (.missingBody format) (.missingBody format)

/-- Lines with the same tokens may differ in their number and in the encoded instruction. -/
def TokenLine.SameTokens (first second : TokenLine) : Prop := first.tokens = second.tokens

theorem TokenLine.sameTokensIff (first second : TokenLine) :
    first.SameTokens second ↔ first.head = second.head ∧ first.tail = second.tail := by
  rw [SameTokens, tokens, tokens, List.cons.injEq]

namespace Body

open TokenLine (SameTokens)

/-- The tokens of a line decide its role. -/
def ByTokens (role : Bool → TokenLine → Role) : Prop :=
  ∀ inside line other, SameTokens line other → role inside line = role inside other

theorem analyzerByTokens : ByTokens analyzerRole := by
  intro inside line other same
  obtain ⟨heads, _⟩ := (TokenLine.sameTokensIff line other).mp same
  simp only [analyzerRole, heads]

theorem hsailByTokens : ByTokens hsailRole := by
  intro inside line other same
  obtain ⟨heads, tails⟩ := (TokenLine.sameTokensIff line other).mp same
  simp only [hsailRole, heads, tails]

theorem dumpByTokens : ByTokens dumpRole := by
  intro inside line other same
  obtain ⟨heads, _⟩ := (TokenLine.sameTokensIff line other).mp same
  rw [SameTokens] at same
  simp only [dumpRole, heads, same]

/-- The body is found by tokens. -/
theorem delimitedTokens (format : ListingFormat) {role : Bool → TokenLine → Role}
    (byTokens : ByTokens role) {lines others : List TokenLine}
    (same : List.Forall₂ SameTokens lines others) {opened otherOpened : Option Nat}
    (alike : opened.isSome = otherOpened.isSome) :
    Matches ReadError.SameKind (List.Forall₂ SameTokens) (delimited format role opened lines)
      (delimited format role otherOpened others) := by
  induction same generalizing opened otherOpened with
  | nil =>
      cases opened with
      | none =>
          cases otherOpened with
          | none => exact .error (.missing format)
          | some other => cases alike
      | some opened =>
          cases otherOpened with
          | none => cases alike
          | some other => exact .error (.unterminated opened other)
  | @cons line other lines others tokens same inductionHypothesis =>
      rw [delimited, delimited, ← alike, ← byTokens _ line other tokens]
      cases role opened.isSome line with
      | opens => exact inductionHypothesis rfl
      | closes => exact .ok .nil
      | breaks =>
          dsimp only
          rw [((TokenLine.sameTokensIff line other).mp tokens).1]
          exact .error (.mismatched _ _ _)
      | stands =>
          dsimp only
          split
          · exact (inductionHypothesis alike).map fun _ _ body => .cons tokens body
          · exact inductionHypothesis alike

theorem lowercaseTokens {line other : TokenLine} (same : SameTokens line other) :
    SameTokens (lowercaseLine line) (lowercaseLine other) := by
  rw [TokenLine.sameTokensIff] at same ⊢
  simp only [lowercaseLine, same]
  exact ⟨trivial, trivial⟩

theorem throughEndTokens {lines others : List TokenLine}
    (same : List.Forall₂ SameTokens lines others) :
    List.Forall₂ SameTokens (throughEnd lines) (throughEnd others) := by
  induction same with
  | nil => exact .nil
  | @cons line other lines others tokens same inductionHypothesis =>
      have lower := lowercaseTokens tokens
      rw [throughEnd, throughEnd, ((TokenLine.sameTokensIff _ _).mp lower).1]
      split
      · exact .cons lower .nil
      · exact .cons lower inductionHypothesis

theorem readTokens {format : ListingFormat} (explicit : format ≠ .auto) {text other : List Char}
    (same : (TokenLine.ofListing text).map (·.tokens) =
      (TokenLine.ofListing other).map (·.tokens)) :
    Matches ReadError.SameKind (List.Forall₂ SameTokens) (read format text)
      (read format other) := by
  have lines : List.Forall₂ SameTokens (TokenLine.ofListing text) (TokenLine.ofListing other) :=
    pairsOfMap same
  cases format with
  | hsail => exact delimitedTokens .hsail hsailByTokens lines rfl
  | shaderAnalyzer => exact delimitedTokens .shaderAnalyzer analyzerByTokens lines rfl
  | shaderDump => exact delimitedTokens .shaderDump dumpByTokens lines rfl
  | raw => exact .ok (throughEndTokens lines)
  | auto => exact absurd rfl explicit

end Body

/-- An encoding is forgotten where it is one of the two dual ones and the table gives the mnemonic
one of these. -/
def OpcodeTable.forget (table : OpcodeTable) (opcode : Opcode) : Encoding :=
  if opcode.encoding.isDual && (table.lookup opcode.name).encoding.isDual then .vop2
  else opcode.encoding

namespace Instruction

theorem settleDual {opcode : Opcode} (dual : opcode.encoding.isDual = true)
    (encoded : Option String) :
    ∃ encoding, encoding.isDual = true ∧ settle opcode encoded = { opcode with encoding } := by
  unfold settle
  rw [if_pos dual]
  split
  · exact ⟨_, Encoding.ofWordDual _, rfl⟩
  · exact ⟨_, dual, rfl⟩

/-- The encoded word leaves no trace where the encoding is forgotten. -/
theorem decodeForget (table : OpcodeTable) (encoded : Option String) (mnemonic : String)
    (operands : List String) (label : Option String) :
    (decode table encoded mnemonic operands label).recode table.forget =
      (decode table none mnemonic operands label).recode table.forget := by
  by_cases dual : (table.lookup mnemonic).encoding.isDual = true
  · have forgets : ∀ encoding : Encoding, encoding.isDual = true →
        table.forget { table.lookup mnemonic with encoding } = .vop2 := by
      intro encoding either
      simp [OpcodeTable.forget, OpcodeTable.lookupName, either, dual]
    obtain ⟨encoding, either, settled⟩ := settleDual dual encoded
    obtain ⟨bare, bareEither, bareSettled⟩ := settleDual dual none
    simp only [decode, recode, settled, bareSettled, forgets _ either, forgets _ bareEither]
  · rw [decode, decode, settle, settle, if_neg dual, if_neg dual]

end Instruction

namespace Listing

open TokenLine (SameTokens)

theorem decodeTokens (table : OpcodeTable) {lines others : List TokenLine}
    (same : List.Forall₂ SameTokens lines others) (pending : Option String) :
    (decodeFrom table pending lines).map (·.recode table.forget) =
      (decodeFrom table pending others).map (·.recode table.forget) := by
  induction same generalizing pending with
  | nil => rfl
  | @cons line other lines others tokens same inductionHypothesis =>
      obtain ⟨heads, tails⟩ := (TokenLine.sameTokensIff line other).mp tokens
      rw [decodeFrom, decodeFrom, heads, tails]
      split
      · exact inductionHypothesis pending
      · split
        · exact inductionHypothesis _
        · rw [List.map_cons, List.map_cons, inductionHypothesis,
            Instruction.decodeForget table line.encoded,
            Instruction.decodeForget table other.encoded]

end Listing

/-- Programs fail for the same kind of error if at most the lines differ that they blame. -/
inductive ProgramError.SameKind : ProgramError → ProgramError → Prop
  | invalid {error other : ReadError} (same : error.SameKind other) :
      SameKind (.invalidInput error) (.invalidInput other)
  | malformed (error : BuildError) : SameKind (.malformedInput error) (.malformedInput error)

/-- Listings with the same tokens fail alike or give the same program, but for the encodings that
are forgotten. -/
theorem Program.readTokens (table : OpcodeTable) {format : ListingFormat}
    (explicit : format ≠ .auto) {text other : String}
    (same : (TokenLine.ofListing text.toList).map (·.tokens) =
      (TokenLine.ofListing other.toList).map (·.tokens)) :
    Matches ProgramError.SameKind
      (fun program other => program.recode table.forget = other.recode table.forget)
      (read table format text) (read table format other) := by
  have streams : Matches ReadError.SameKind
      (fun stream other => stream.map (·.recode table.forget) = other.map (·.recode table.forget))
      (Listing.instructions table format text) (Listing.instructions table format other) :=
    (Body.readTokens explicit same).map fun _ _ lines => Listing.decodeTokens table lines none
  apply (streams.mapError fun _ _ kind => ProgramError.SameKind.invalid kind).bind
  intro stream other alike
  have built : (build stream).map (·.recode table.forget) =
      (build other).map (·.recode table.forget) := by
    rw [← buildRecode, alike, buildRecode]
  apply (Matches.ofMap built).mapError
  rintro error _ rfl
  exact .malformed error

end ShaderAnalysis
