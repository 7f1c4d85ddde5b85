/-
This file shows what the words of a text are made of and how texts are put together from words.
-/

import Mathlib.Data.List.DropRight
import ShaderAnalysis.Text.Blank
import ShaderAnalysis.Text.Column

namespace ShaderAnalysis.Text

section

variable {α : Type} {cuts : α → Bool}

/-- The first piece of a text stands at its start, and every piece stands somewhere in it. -/
theorem piecesInfix (text : List α) :
    (∀ first ∈ (text.splitOnP cuts).head?, first <+: text) ∧
      ∀ piece ∈ text.splitOnP cuts, piece <:+: text := by
  induction text with
  | nil => simp
  | cons character text inductionHypothesis =>
      obtain ⟨start, inside⟩ := inductionHypothesis
      obtain ⟨first, rest, same⟩ := List.exists_cons_of_ne_nil (List.splitOnP_ne_nil cuts text)
      have later : ∀ piece ∈ text.splitOnP cuts, piece <:+: character :: text :=
        fun piece member => List.infix_cons (inside piece member)
      rw [List.splitOnP_cons_eq_if_modifyHead]
      split
      · simpa using later
      · have longer : character :: first <+: character :: text :=
          List.cons_prefix_cons.mpr ⟨rfl, start first (by simp [same])⟩
        rw [same] at later ⊢
        simp only [List.modifyHead_cons, List.head?_cons, Option.mem_some, forall_eq',
          List.forall_mem_cons] at later ⊢
        exact ⟨longer, longer.isInfix, later.2⟩

/-- No piece has a character at which the text was cut. -/
theorem piecesApart (text : List α) :
    ∀ piece ∈ text.splitOnP cuts, ∀ character ∈ piece, cuts character = false := by
  induction text with
  | nil => simp
  | cons character text inductionHypothesis =>
      obtain ⟨first, rest, same⟩ := List.exists_cons_of_ne_nil (List.splitOnP_ne_nil cuts text)
      rw [List.splitOnP_cons_eq_if_modifyHead]
      split
      · simpa using inductionHypothesis
      · rename_i keeps
        rw [same] at inductionHypothesis ⊢
        simp only [List.modifyHead_cons, List.forall_mem_cons] at inductionHypothesis ⊢
        exact ⟨⟨by simpa using keeps, inductionHypothesis.1⟩, inductionHypothesis.2⟩

/-- What holds of all the parts and is kept by the separator holds of the joined text. -/
theorem joinInduction (holds : List α → Prop) {separator : List α} {parts : List (List α)}
    (empty : holds []) (known : ∀ part ∈ parts, holds part)
    (append : ∀ before behind, holds before → holds behind →
      holds (before ++ separator ++ behind)) : holds (separator.intercalate parts) := by
  induction parts with
  | nil => simpa using empty
  | cons part parts inductionHypothesis =>
      rw [List.forall_mem_cons] at known
      cases parts with
      | nil => simpa using known.1
      | cons next parts =>
          rw [List.intercalate_cons_cons]
          exact append _ _ known.1 (inductionHypothesis known.2)

end

/-- A word has a character and no blank. -/
structure Word (word : List Char) : Prop where
  nonempty : word ≠ []
  solid : ∀ character ∈ word, isBlank character = false

theorem wordsMember {text word : List Char} (member : word ∈ words text) :
    Word word ∧ word <:+: text := by
  have piece := (List.mem_filter.mp member).1
  exact ⟨⟨wordsNonempty text word member, piecesApart text word piece⟩,
    (piecesInfix text).2 word piece⟩

/-- A blank keeps the words before it and those behind it apart. -/
theorem wordsAppend {blank : Char} (isBlank : isBlank blank = true) (before behind : List Char) :
    words (before ++ blank :: behind) = words before ++ words behind := by
  unfold words
  rw [List.splitOnP_append_cons before behind isBlank, List.filter_append]

@[simp]
theorem wordsNil : words [] = [] := by simp [words]

theorem wordsBlank {blank : Char} (isBlank : isBlank blank = true) (text : List Char) :
    words (blank :: text) = words text := by
  simpa using wordsAppend isBlank [] text

theorem wordsWord {word : List Char} (known : Word word) : words word = [word] := by
  rw [words, List.splitOnP_eq_singleton known.solid]
  simp [known.nonempty]

/-- A text that starts with no blank starts with its first word. -/
theorem wordsFirst {character : Char} (solid : isBlank character = false) (text : List Char) :
    ∃ word rest, words (character :: text) = (character :: word) :: rest := by
  obtain ⟨first, rest, same⟩ := List.exists_cons_of_ne_nil (List.splitOnP_ne_nil isBlank text)
  refine ⟨first, rest.filter (!·.isEmpty), ?_⟩
  simp [words, List.splitOnP_cons_eq_if_modifyHead, solid, same]

/-- A word goes on up to the next blank. -/
theorem wordsHead {start : List Char} (known : Word start) (text : List Char) :
    (words (start ++ text)).head? = some (start ++ text.takeWhile (!isBlank ·)) := by
  have word : Word (start ++ text.takeWhile (!isBlank ·)) := by
    refine ⟨List.append_ne_nil_of_left_ne_nil known.nonempty _, List.forall_mem_append.mpr
      ⟨known.solid, fun character member => ?_⟩⟩
    simpa using List.mem_takeWhile_imp member
  have parts : start ++ text =
      start ++ text.takeWhile (!isBlank ·) ++ text.dropWhile (!isBlank ·) := by
    rw [List.append_assoc, List.takeWhile_append_dropWhile]
  rw [parts]
  cases behind : text.dropWhile (!isBlank ·) with
  | nil => rw [List.append_nil, wordsWord word, List.head?_cons]
  | cons blank more =>
      have first := List.head?_dropWhile_not (!isBlank ·) text
      rw [behind] at first
      have isBlank : isBlank blank = true := by simpa using first
      rw [wordsAppend isBlank, wordsWord word]
      rfl

theorem wordsSpaces {spaces : List Char} (only : ∀ character ∈ spaces, character = ' ')
    (text : List Char) : words (spaces ++ text) = words text := by
  induction spaces with
  | nil => rfl
  | cons space spaces inductionHypothesis =>
      rw [List.forall_mem_cons] at only
      rw [List.cons_append, only.1, wordsBlank (by decide), inductionHypothesis only.2]

theorem trimRight (text : List Char) :
    trim text = (text.dropWhile isBlank).rdropWhile isBlank := rfl

/-- Trimming drops no word. -/
theorem wordsTrim (text : List Char) : words (trim text) = words text := by
  have left : words (text.dropWhile isBlank) = words text := by
    induction text with
    | nil => rfl
    | cons character text inductionHypothesis =>
        rw [List.dropWhile_cons]
        split
        · rename_i blank
          rw [inductionHypothesis, wordsBlank blank]
        · rfl
  rw [trimRight, ← left]
  generalize text.dropWhile isBlank = rest
  induction rest using List.reverseRecOn with
  | nil => rfl
  | append_singleton rest character inductionHypothesis =>
      rw [List.rdropWhile_concat]
      split
      · rename_i blank
        rw [inductionHypothesis, wordsAppend blank, wordsNil, List.append_nil]
      · rfl

theorem trimInfix (text : List Char) : trim text <:+: text :=
  (List.rdropWhile_prefix isBlank _).isInfix.trans (List.dropWhile_suffix isBlank).isInfix

theorem trimSolid {text rest : List Char} {character : Char}
    (trimmed : trim text = character :: rest) : isBlank character = false := by
  have start : character :: rest <+: text.dropWhile isBlank := by
    rw [← trimmed, trimRight]
    exact List.rdropWhile_prefix isBlank _
  obtain ⟨more, same⟩ := start
  have first := List.head?_dropWhile_not isBlank text
  rw [← same] at first
  simpa using first

theorem trimCons {character : Char} (solid : isBlank character = false) (text : List Char) :
    ∃ rest, trim (character :: text) = character :: rest := by
  have start : trim (character :: text) <+: character :: text := by
    rw [trimRight, List.dropWhile_cons_of_neg (by simp [solid])]
    exact List.rdropWhile_prefix isBlank _
  cases trimmed : trim (character :: text) with
  | nil =>
      have kept := wordsTrim (character :: text)
      obtain ⟨word, rest, first⟩ := wordsFirst solid text
      rw [trimmed, wordsNil, first] at kept
      cases kept
  | cons first rest =>
      rw [trimmed, List.cons_prefix_cons] at start
      exact ⟨rest, by rw [start.1]⟩

/-- Trimming keeps the first character that is not blank. -/
theorem trimFirst (text : List Char) : (trim text).head? = text.find? (!isBlank ·) := by
  induction text with
  | nil => rfl
  | cons character text inductionHypothesis =>
      cases blank : isBlank character with
      | true =>
          have skipped : trim (character :: text) = trim text := by
            rw [trim, trim, List.dropWhile_cons_of_pos blank]
          rw [skipped, inductionHypothesis, List.find?_cons_of_neg (by simp [blank])]
      | false =>
          obtain ⟨rest, trimmed⟩ := trimCons blank text
          rw [trimmed, List.find?_cons_of_pos (by simp [blank]), List.head?_cons]

/-- The lines of a text that was put together from lines. -/
theorem linesUnlines {lines : List String} (apart : ∀ line ∈ lines, '\n' ∉ line.toList) :
    (unlines lines).toList.splitOn '\n' = lines.map String.toList ++ [[]] := by
  induction lines with
  | nil => rfl
  | cons line lines inductionHypothesis =>
      rw [List.forall_mem_cons] at apart
      have text : (unlines (line :: lines)).toList =
          line.toList ++ '\n' :: (unlines lines).toList := by
        simp [unlines]
      rw [text, List.splitOn_append_cons_self_of_not_mem apart.1, inductionHypothesis apart.2,
        List.map_cons, List.cons_append]

end ShaderAnalysis.Text
