/-
This file shows that the marker of a shader dump is the only comment line that is ever read as an
instruction, and in which bodies it is.
-/

import ShaderAnalysis.Proofs.Listing.Bodies
import ShaderAnalysis.Proofs.Listing.Labels

namespace ShaderAnalysis

namespace Text

/-- No capital letter has its small letter as low as the semicolon. -/
theorem capitalRunsHigh : ∀ run ∈ capitalRuns, (';'.toNat : Int) < run.first + run.offset := by
  decide +kernel

theorem lowSemicolon :
    ∀ code < 0x80, ((Char.ofNat code).toLower = ';' ↔ Char.ofNat code = ';') := by
  decide

/-- A character that is made from a code has this code, unless there is no such character. -/
theorem ofNatCode (code : Nat) : (Char.ofNat code).toNat = code ∨ (Char.ofNat code).toNat = 0 := by
  by_cases valid : code.isValidChar
  · rw [Char.ofNat, dif_pos valid]
    exact .inl rfl
  · rw [Char.ofNat, dif_neg valid]
    exact .inr rfl

theorem semicolonCode {code : Nat} (same : Char.ofNat code = ';') : code = ';'.toNat := by
  rcases ofNatCode code with valid | invalid
  · rw [← valid, same]
  · rw [same] at invalid
    exact absurd invalid (by decide)

/-- Only a semicolon turns into small letters that start with one. -/
theorem lowerCharacterFirst (character : Char) :
    ∃ first rest, lowerCharacter character = first :: rest ∧ (first = ';' ↔ character = ';') := by
  unfold lowerCharacter
  split
  · rename_i low
    have same := lowSemicolon character.toNat low
    rw [Char.ofNat_toNat] at same
    exact ⟨_, _, rfl, same⟩
  · rename_i high
    have other : character ≠ ';' := fun same => high (same ▸ by decide)
    split
    · exact ⟨_, _, rfl, iff_of_false (by decide) other⟩
    · split
      · rename_i run found
        refine ⟨_, _, rfl, iff_of_false (fun same => ?_) other⟩
        have low := capitalRunsHigh run (List.mem_of_find?_eq_some found)
        have covers := List.find?_some found
        have code := semicolonCode same
        simp only [CaseRun.covers, Bool.and_eq_true, decide_eq_true_eq] at covers
        omega
      · exact ⟨_, _, rfl, Iff.rfl⟩

theorem lowercaseFirst (text : List Char) :
    (lowercase text).head? = some ';' ↔ text.head? = some ';' := by
  cases text with
  | nil => rfl
  | cons character rest =>
      rw [lowercase, lowercaseAfter]
      split
      · rename_i capital
        rw [beq_iff_eq.mp capital]
        unfold sigma
        split <;> simp
      · obtain ⟨first, more, small, same⟩ := lowerCharacterFirst character
        simp [small, same]

end Text

namespace TokenLine

/-- The first character of a comment line that is not blank is a semicolon. -/
def IsComment (source : List Char) : Prop := source.find? (!Text.isBlank ·) = some ';'

instance (source : List Char) : Decidable (IsComment source) :=
  inferInstanceAs (Decidable (_ = _))

/-- The line of the listing that a token line was read from. -/
def source (text : List Char) (line : TokenLine) : List Char :=
  (text.splitOn '\n').getD (line.number - 1) []

theorem sourceRead {text : List Char} {line : TokenLine} (member : line ∈ ofListing text) :
    ofText? line.number (line.source text) = some line := by
  obtain ⟨_, source, place, found⟩ := ofListingSource member
  rw [TokenLine.source, List.getD_eq_getElem?_getD, place]
  exact found

theorem commentHead {text : List Char} {line : TokenLine} (member : line ∈ ofListing text)
    (comment : IsComment (line.source text)) : line.head = ";" := by
  have read := sourceRead member
  have marker := (ofTextTokens read).resolve_right fun plain =>
    plain.2 ((ofTextFirst read).trans comment)
  exact (List.cons.inj marker).1

/-- Every other comment line is dropped. -/
theorem ofTextComment {number : Nat} {text : List Char} {line : TokenLine}
    (found : ofText? number text = some line) :
    IsComment text ↔ tokensOf text = dumpMarker := by
  have trimmedTokens : tokensOf (Text.trim text) = tokensOf text := by
    rw [tokensOf, tokensOf, Text.wordsTrim]
  constructor
  · intro comment
    rw [IsComment, ← Text.trimFirst] at comment
    unfold ofText? at found
    split at found
    · rename_i rest trimmed
      dsimp only at found
      split at found
      · rename_i marker
        rw [← trimmedTokens, trimmed, marker]
      · cases found
    · rename_i other
      obtain ⟨rest, trimmed⟩ := List.head?_eq_some_iff.mp comment
      exact absurd trimmed (other rest)
  · intro marker
    rw [← trimmedTokens] at marker
    exact (tokensOfFirst List.prefix_rfl marker).symm

end TokenLine

namespace Body

theorem throughEndMember {lines : List TokenLine} {line : TokenLine}
    (member : line ∈ throughEnd lines) : ∃ original ∈ lines, line = lowercaseLine original := by
  have among : line ∈ lines.map lowercaseLine := by
    rw [rawBody, loweredBody] at member
    exact List.mem_of_mem_take member
  obtain ⟨original, place, same⟩ := List.mem_map.mp among
  exact ⟨original, place, same.symm⟩

/-- The lines of a body are lines of the listing, in small letters if the format is raw. -/
theorem readMember {format : ListingFormat} {text : List Char} {body : List TokenLine}
    (found : read format text = .ok body) {line : TokenLine} (member : line ∈ body) :
    ∃ original ∈ TokenLine.ofListing text, line = original ∨ line = lowercaseLine original := by
  have unchanged {role : Bool → TokenLine → Role} {delimits : ListingFormat}
      (found : delimited delimits role none (TokenLine.ofListing text) = .ok body) :
      ∃ original ∈ TokenLine.ofListing text, line = original ∨ line = lowercaseLine original :=
    ⟨line, (Listing.delimitedMember found line member).1, .inl rfl⟩
  unfold read ofLines at found
  split at found
  · exact unchanged found
  · exact unchanged found
  · cases found
    obtain ⟨original, place, lowered⟩ := throughEndMember member
    exact ⟨original, place, .inr lowered⟩
  · exact unchanged found
  · exact unchanged found

section

variable {format : ListingFormat} {text : List Char} {body : List TokenLine}
  (found : read format text = .ok body) {line : TokenLine} (member : line ∈ body)

include found member

/-- In a body the comment lines are those whose first token starts with a semicolon. -/
theorem readComment :
    TokenLine.IsComment (line.source text) ↔ line.head.toList.head? = some ';' := by
  obtain ⟨original, place, either⟩ := readMember found member
  have read := TokenLine.sourceRead place
  have first := TokenLine.ofTextFirst read
  rw [TokenLine.IsComment]
  rcases either with rfl | rfl
  · rw [first]
  · rw [lowercaseLine, lowercaseString, String.toList_ofList, Text.lowercaseFirst, first]
    rfl

/-- The comment lines of a body are markers. -/
theorem readMarker :
    TokenLine.IsComment (line.source text) ↔
      TokenLine.tokensOf (line.source text) = TokenLine.dumpMarker := by
  obtain ⟨original, place, either⟩ := readMember found member
  have number : line.source text = original.source text := by
    rcases either with rfl | rfl
    · rfl
    · rfl
  rw [number]
  exact TokenLine.ofTextComment (TokenLine.sourceRead place)

/-- A comment line of a body holds an instruction, with the semicolon for its mnemonic. -/
theorem commentHolds (comment : TokenLine.IsComment (line.source text)) :
    line.head = ";" ∧ Listing.holdsInstruction line = true := by
  obtain ⟨original, place, either⟩ := readMember found member
  have head : line.head = ";" := by
    rcases either with rfl | rfl
    · exact TokenLine.commentHead place comment
    · change lowercaseString original.head = ";"
      rw [TokenLine.commentHead place comment]
      decide +kernel
  refine ⟨head, ?_⟩
  rw [Listing.holdsInstruction, head]
  decide

end

end Body

namespace Listing

/-- A token that starts with a semicolon, as a comment does. -/
def startsComment (token : String) : Bool := token.toList.head? == some ';'

theorem decodeMnemonics (table : OpcodeTable) (body : List TokenLine) :
    (decode table body).map (·.mnemonic) = (body.filter holdsInstruction).map (·.head) := by
  rw [← List.forall₂_eq_eq_eq, List.forall₂_map_left_iff, List.forall₂_map_right_iff]
  apply List.Forall₂.flip
  refine (decodeFromLines table none body).imp ?_
  rintro line instruction ⟨label, rfl⟩
  exact Instruction.decodeMnemonic table _ _ _ _

section

variable (table : OpcodeTable) {format : ListingFormat} {text : String} {body : List TokenLine}
  (found : Body.read format text.toList = .ok body)

include found

/-- Each instruction is read from its own line, and its mnemonic tells whether that is a comment. -/
theorem decodeComments :
    List.Forall₂ (fun line instruction => (∃ label, instruction = decodeLine table label line) ∧
        (startsComment instruction.mnemonic = true ↔
          TokenLine.IsComment (line.source text.toList)))
      (body.filter holdsInstruction) (decode table body) := by
  have known : ∀ line ∈ body.filter holdsInstruction,
      TokenLine.IsComment (line.source text.toList) ↔ line.head.toList.head? = some ';' :=
    fun line member => Body.readComment found (List.mem_filter.mp member).1
  refine ((List.forall₂_and_left _ _).mpr ⟨known, decodeFromLines table none body⟩).imp ?_
  rintro line instruction ⟨comment, label, rfl⟩
  have mnemonic : (decodeLine table label line).mnemonic = line.head :=
    Instruction.decodeMnemonic table _ _ _ _
  refine ⟨⟨label, rfl⟩, ?_⟩
  rw [mnemonic, comment, startsComment, beq_iff_eq]

theorem commentDecoded :
    (∃ instruction ∈ decode table body, startsComment instruction.mnemonic = true) ↔
      ∃ line ∈ body, TokenLine.IsComment (line.source text.toList) := by
  have mnemonics := decodeMnemonics table body
  constructor
  · intro ⟨instruction, member, starts⟩
    have read := List.mem_map_of_mem (f := (·.mnemonic)) member
    rw [mnemonics] at read
    obtain ⟨line, place, same⟩ := List.mem_map.mp read
    have among := (List.mem_filter.mp place).1
    refine ⟨line, among, (Body.readComment found among).mpr ?_⟩
    rw [same]
    exact beq_iff_eq.mp starts
  · intro ⟨line, member, comment⟩
    obtain ⟨head, holds⟩ := Body.commentHolds found member comment
    have read := List.mem_map_of_mem (f := (·.head)) (List.mem_filter.mpr ⟨member, holds⟩)
    rw [← mnemonics, head] at read
    obtain ⟨instruction, place, same⟩ := List.mem_map.mp read
    refine ⟨instruction, place, ?_⟩
    rw [same]
    decide

/-- In the body of a shader dump every marker opens the body again. -/
theorem dumpUncommented (dumps : format.detect text.toList = .shaderDump) :
    ∀ line ∈ body, ¬ TokenLine.IsComment (line.source text.toList) := by
  intro line member comment
  have starts := (Body.readComment found member).mp comment
  rw [Body.read, dumps] at found
  exact (dumpMember found line member).2.1 starts

end

/-- A mnemonic starts with a semicolon exactly if its instruction was read from a comment line. Such
an instruction is read exactly if a marker of a shader dump stands in the body, which it does not in
the body of a shader dump. -/
theorem onlyMarkersDecoded {table : OpcodeTable} {format : ListingFormat} {text : String}
    {stream : List Instruction} (read : instructions table format text = .ok stream) :
    ∃ body, Body.read format text.toList = .ok body ∧
      List.Forall₂ (fun line instruction => (∃ label, instruction = decodeLine table label line) ∧
          (startsComment instruction.mnemonic = true ↔
            TokenLine.IsComment (line.source text.toList)))
        (body.filter holdsInstruction) stream ∧
      ((∃ instruction ∈ stream, startsComment instruction.mnemonic = true) ↔
        ∃ line ∈ body, TokenLine.tokensOf (line.source text.toList) = TokenLine.dumpMarker) ∧
      (format.detect text.toList = .shaderDump →
        ∀ instruction ∈ stream, startsComment instruction.mnemonic = false) := by
  obtain ⟨body, found, rfl⟩ := instructionsOk.mp read
  have comments := commentDecoded table found
  refine ⟨body, found, decodeComments table found, ?_, ?_⟩
  · rw [comments]
    exact exists_congr fun line => and_congr_right fun member => Body.readMarker found member
  · intro dumps instruction member
    apply Bool.eq_false_iff.mpr
    intro starts
    obtain ⟨line, among, comment⟩ := comments.mp ⟨instruction, member, starts⟩
    exact dumpUncommented found dumps line among comment

/-- A shader dump with a remark and a second marker in its body. -/
def remarkedDump : String :=
  "; -------- Disassembly --------------------\n; remark\n" ++
    " ; -------- Disassembly --------------------\ns_endpgm\nend"

theorem remarksDropped : ∃ stream, instructions Gcn.opcodes .shaderDump remarkedDump = .ok stream ∧
    stream.map (·.mnemonic) = ["s_endpgm"] ∧
    ∀ instruction ∈ stream, startsComment instruction.mnemonic = false := by
  have body : Body.read .shaderDump remarkedDump.toList = .ok [⟨4, none, "s_endpgm", []⟩] := by
    decide +kernel
  have read := instructionsOk.mpr ⟨_, body, (rfl : decode Gcn.opcodes _ = _)⟩
  obtain ⟨_, _, _, _, uncommented⟩ := onlyMarkersDecoded read
  exact ⟨_, read, decodeMnemonics Gcn.opcodes _, uncommented rfl⟩

/-- A marker in the body of another format. -/
def strayMarker : String :=
  "shader main\n; -------- Disassembly --------------------\ns_endpgm\nend"

/-- The second line of the listing is a comment, but it is read as an instruction. -/
theorem strayMarkerDecoded :
    TokenLine.IsComment "; -------- Disassembly --------------------".toList ∧
    (strayMarker.toList.splitOn '\n')[1]? =
      some "; -------- Disassembly --------------------".toList ∧
    ∃ stream, instructions Gcn.opcodes .shaderAnalyzer strayMarker = .ok stream ∧
      stream.map (·.body) = ["; --------", "s_endpgm"] := by
  have body : Body.read .shaderAnalyzer strayMarker.toList =
      .ok [⟨2, none, ";", ["--------", "Disassembly", "--------------------"]⟩,
        ⟨3, none, "s_endpgm", []⟩] := by
    decide +kernel
  refine ⟨by decide, by decide +kernel, _, instructionsOk.mpr ⟨_, body, rfl⟩, ?_⟩
  decide +kernel

end Listing

end ShaderAnalysis
