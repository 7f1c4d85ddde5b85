/-
This file shows which tokens and numbers the lines of a listing can have.
-/

import ShaderAnalysis.Listing.Line
import ShaderAnalysis.Proofs.Text.Words

namespace ShaderAnalysis

namespace TokenLine

/-- Without two slashes side by side no comment starts. -/
def CommentFree (text : List Char) : Prop := ¬ ['/', '/'] <:+: text

theorem commentFreeInfix {piece text : List Char} (inside : piece <:+: text)
    (free : CommentFree text) : CommentFree piece :=
  fun slashes => free (slashes.trans inside)

theorem splitCommentFree {text : List Char} (free : CommentFree text) :
    splitComment text = (text, none) := by
  fun_induction splitComment text with
  | case1 comment => exact absurd ⟨[], comment, rfl⟩ free
  | case2 character rest _ split inductionHypothesis =>
      have known : split = (rest, none) :=
        inductionHypothesis (commentFreeInfix (List.infix_cons List.infix_rfl) free)
      rw [known]
  | case3 => rfl

/-- The code before a comment starts the line and has no comment in it. -/
theorem splitCommentCode (text : List Char) :
    (splitComment text).1 <+: text ∧ CommentFree (splitComment text).1 := by
  fun_induction splitComment text with
  | case1 comment => simp [CommentFree]
  | case2 character rest apart split inductionHypothesis =>
      obtain ⟨start, free⟩ := inductionHypothesis
      refine ⟨List.cons_prefix_cons.mpr ⟨rfl, start⟩, fun slashes => ?_⟩
      rcases List.infix_cons_iff.mp slashes with first | later
      · obtain ⟨rfl, second⟩ := List.cons_prefix_cons.mp first
        obtain ⟨comment, same⟩ := second.trans start
        exact apart comment rfl same.symm
      · exact free later
  | case3 => simp [CommentFree]

/-- Two slashes cannot stand on both sides of another character. -/
theorem commentFreeAppend {separator : Char} (other : separator ≠ '/')
    {before behind : List Char} (beforeFree : CommentFree before)
    (behindFree : CommentFree behind) : CommentFree (before ++ separator :: behind) := by
  induction before with
  | nil =>
      intro slashes
      rcases List.infix_cons_iff.mp slashes with first | later
      · exact other (List.cons_prefix_cons.mp first).1.symm
      · exact behindFree later
  | cons character before inductionHypothesis =>
      intro slashes
      rcases List.infix_cons_iff.mp slashes with first | later
      · obtain ⟨rfl, second⟩ := List.cons_prefix_cons.mp first
        cases before with
        | nil => exact other (List.cons_prefix_cons.mp second).1.symm
        | cons next before =>
            obtain ⟨rfl, _⟩ := List.cons_prefix_cons.mp second
            exact beforeFree ⟨[], before, rfl⟩
      · exact inductionHypothesis
          (commentFreeInfix (List.infix_cons List.infix_rfl) beforeFree) later

/-- A token is a word in which no comment starts. -/
structure Token (token : String) : Prop where
  word : Text.Word token.toList
  free : CommentFree token.toList

theorem tokensOfMember {text : List Char} (free : CommentFree text) {token : String}
    (member : token ∈ tokensOf text) : Token token := by
  obtain ⟨word, among, rfl⟩ := List.mem_map.mp member
  obtain ⟨known, inside⟩ := Text.wordsMember among
  rw [← String.toList_ofList (l := word)] at known inside
  exact ⟨known, commentFreeInfix inside free⟩

theorem ofTokensSome {number : Nat} {encoded : Option String} {tokens : List String}
    {line : TokenLine} (found : ofTokens? number encoded tokens = some line) :
    line.tokens = tokens := by
  cases tokens with
  | nil => cases found
  | cons head tail =>
      cases found
      rfl

theorem ofTokensNumber {number : Nat} {encoded : Option String} {tokens : List String}
    {line : TokenLine} (found : ofTokens? number encoded tokens = some line) :
    line.number = number := by
  cases tokens with
  | nil => cases found
  | cons head tail =>
      cases found
      rfl

theorem ofTextNumber {number : Nat} {text : List Char} {line : TokenLine}
    (found : ofText? number text = some line) : line.number = number := by
  unfold ofText? at found
  split at found
  · dsimp only at found
    split at found
    · exact ofTokensNumber found
    · cases found
  · exact ofTokensNumber found

/-- The code at the start of a line has the first character of the line in its first token. -/
theorem tokensOfFirst {text code : List Char} (start : code <+: Text.trim text) {head : String}
    {tail : List String} (tokens : tokensOf code = head :: tail) :
    head.toList.head? = text.find? (!Text.isBlank ·) := by
  cases code with
  | nil => simp [tokensOf] at tokens
  | cons character rest =>
      obtain ⟨more, trimmed⟩ := start
      obtain ⟨word, later, words⟩ := Text.wordsFirst (Text.trimSolid trimmed.symm) rest
      rw [tokensOf, words, List.map_cons, List.cons.injEq] at tokens
      rw [← tokens.1, String.toList_ofList, ← Text.trimFirst, ← trimmed]
      rfl

theorem ofTextFirst {number : Nat} {text : List Char} {line : TokenLine}
    (found : ofText? number text = some line) :
    line.head.toList.head? = text.find? (!Text.isBlank ·) := by
  unfold ofText? at found
  split at found
  · rename_i rest trimmed
    dsimp only at found
    split at found
    · exact tokensOfFirst (trimmed ▸ List.prefix_rfl) (ofTokensSome found).symm
    · cases found
  · exact tokensOfFirst (splitCommentCode _).1 (ofTokensSome found).symm

/-- A line of a listing is the marker of a shader dump, or it has tokens of which the first one does
not start with a semicolon. -/
theorem ofTextTokens {number : Nat} {text : List Char} {line : TokenLine}
    (found : ofText? number text = some line) :
    line.tokens = dumpMarker ∨
      (∀ token ∈ line.tokens, Token token) ∧ line.head.toList.head? ≠ some ';' := by
  have first := ofTextFirst found
  unfold ofText? at found
  split at found
  · dsimp only at found
    split at found
    · rename_i marker
      exact .inl ((ofTokensSome found).trans marker)
    · cases found
  · rename_i other
    right
    dsimp only at found
    have free := (splitCommentCode (Text.trim text)).2
    rw [ofTokensSome found, first, ← Text.trimFirst]
    refine ⟨fun token member => tokensOfMember free member, fun semicolon => ?_⟩
    obtain ⟨rest, trimmed⟩ := List.head?_eq_some_iff.mp semicolon
    exact other rest trimmed

theorem ofTextPlain {character : Char} (solid : Text.isBlank character = false)
    (other : character ≠ ';') {text : List Char} (free : CommentFree (character :: text))
    (number : Nat) :
    ofText? number (character :: text) = ofTokens? number none (tokensOf (character :: text)) := by
  obtain ⟨rest, trimmed⟩ := Text.trimCons solid text
  have trimmedFree := commentFreeInfix (Text.trimInfix (character :: text)) free
  have kept := Text.wordsTrim (character :: text)
  unfold ofText?
  split
  · rename_i semicolon
    rw [trimmed] at semicolon
    exact absurd (List.cons.inj semicolon).1 other
  · rw [splitCommentFree trimmedFree]
    dsimp only
    rw [tokensOf, kept, ← tokensOf, Option.bind_none]

/-- The token lines of texts that are numbered from some number on. -/
def numbered (number : Nat) (texts : List (List Char)) : List TokenLine :=
  (texts.zipIdx number).filterMap fun (text, number) => ofText? number text

theorem numberedCons (number : Nat) (text : List Char) (texts : List (List Char)) :
    numbered number (text :: texts) =
      (ofText? number text).toList ++ numbered (number + 1) texts := by
  unfold numbered
  rw [List.zipIdx_cons, List.filterMap_cons]
  dsimp only
  cases ofText? number text with
  | none => rfl
  | some line => rfl

/-- The lines stand in the order of their numbers, and no number comes twice. -/
def Ascending (lines : List TokenLine) : Prop :=
  lines.Pairwise fun first second => first.number < second.number

theorem ofListingAscending (text : List Char) : Ascending (ofListing text) := by
  have numbers : ((text.splitOn '\n').zipIdx 1).Pairwise
      fun first second => first.2 < second.2 := by
    rw [← List.pairwise_map, List.zipIdx_map_snd]
    exact List.pairwise_lt_range' 1
  apply List.Pairwise.filterMap _ _ numbers
  intro first second before line found other otherFound
  rw [ofTextNumber found, ofTextNumber otherFound]
  exact before

/-- The number of a line leads back to the line of the listing that it was read from. -/
theorem ofListingSource {text : List Char} {line : TokenLine} (member : line ∈ ofListing text) :
    0 < line.number ∧ ∃ source, (text.splitOn '\n')[line.number - 1]? = some source ∧
      ofText? line.number source = some line := by
  obtain ⟨⟨source, number⟩, place, found⟩ := List.mem_filterMap.mp member
  obtain ⟨positive, standing⟩ := List.mk_mem_zipIdx_iff_le_and_getElem?_sub.mp place
  obtain rfl : line.number = number := ofTextNumber found
  exact ⟨positive, source, standing, found⟩

end TokenLine

end ShaderAnalysis
