/-
This file shows which word of a comment settles the encoding of an instruction.
-/

import Mathlib.Data.List.Induction
import Mathlib.Data.Nat.Bitwise
import Mathlib.Order.WellFounded
import Mathlib.Tactic.Ring
import ShaderAnalysis.Proofs.Listing.Solid

namespace ShaderAnalysis

namespace Text

theorem hexDigitBelow {character : Char} {value : Nat} (found : hexDigit? character = some value) :
    value < 16 := by
  simp only [hexDigit?, Char.le_def, UInt32.le_iff_toNat_le, Char.toNat] at found
  grind

theorem hexDigitZero {character : Char} : hexDigit? character = some 0 ↔ character = '0' := by
  constructor
  · intro found
    simp only [hexDigit?, Char.le_def, UInt32.le_iff_toNat_le, Char.toNat] at found
    have code : character.val.toNat = '0'.val.toNat := by grind
    exact Char.ext (UInt32.toNat_inj.mp code)
  · rintro rfl
    rfl

theorem hexFold (digits : List Char) (value : Nat) :
    digits.foldl (fun value digit => 16 * value + (hexDigit? digit).getD 0) value =
      value * 16 ^ digits.length + hexValue digits := by
  induction digits generalizing value with
  | nil => simp [hexValue]
  | cons digit digits inductionHypothesis =>
      have whole : hexValue (digit :: digits) =
          (hexDigit? digit).getD 0 * 16 ^ digits.length + hexValue digits := by
        rw [hexValue, List.foldl_cons, Nat.mul_zero, Nat.zero_add, inductionHypothesis]
      rw [List.foldl_cons, inductionHypothesis, whole, List.length_cons]
      ring

theorem hexValueAppend (first second : List Char) :
    hexValue (first ++ second) = hexValue first * 16 ^ second.length + hexValue second := by
  rw [hexValue, List.foldl_append]
  exact hexFold second (hexValue first)

theorem hexValueConcat (digits : List Char) (digit : Char) :
    hexValue (digits ++ [digit]) = 16 * hexValue digits + (hexDigit? digit).getD 0 := by
  simp [hexValue]

theorem hexValueBelow (digits : List Char) : hexValue digits < 16 ^ digits.length := by
  induction digits using List.reverseRecOn with
  | nil => decide
  | append_singleton digits digit inductionHypothesis =>
      have below : (hexDigit? digit).getD 0 < 16 := by
        cases found : hexDigit? digit with
        | none => decide
        | some value => exact hexDigitBelow found
      rw [hexValueConcat, List.length_append, List.length_singleton, pow_succ]
      omega

theorem hexValueZero {digits : List Char}
    (hex : ∀ character ∈ digits, isHexDigit character = true) :
    hexValue digits = 0 ↔ ∀ character ∈ digits, character = '0' := by
  induction digits using List.reverseRecOn with
  | nil => simp [hexValue]
  | append_singleton digits digit inductionHypothesis =>
      rw [List.forall_mem_append, List.forall_mem_singleton] at hex
      obtain ⟨value, found⟩ := Option.isSome_iff_exists.mp hex.2
      rw [hexValueConcat, found, Option.getD_some, List.forall_mem_append,
        List.forall_mem_singleton, ← inductionHypothesis hex.1, ← hexDigitZero, found,
        Option.some.injEq]
      omega

theorem hexadecimalIff {digits : List Char} {value : Nat} :
    hexadecimal? digits = some value ↔
      digits ≠ [] ∧ (∀ character ∈ digits, isHexDigit character = true) ∧
        hexValue digits = value := by
  unfold hexadecimal?
  split
  · simp_all
  · split <;> simp_all

/-- A number keeps its value only if nothing is written behind it or if all its digits are zeros. -/
theorem hexadecimalAppend {word run : List Char} (nonempty : word ≠ [])
    (hex : ∀ character ∈ word, isHexDigit character = true) :
    hexadecimal? (word ++ run) = some (hexValue word) ↔
      run = [] ∨ ∀ character ∈ word ++ run, character = '0' := by
  rw [hexadecimalIff]
  constructor
  · intro ⟨_, all, same⟩
    rw [or_iff_not_imp_left]
    intro more
    rw [← hexValueZero all, same]
    rw [hexValueAppend] at same
    have longer : 16 ^ 1 ≤ 16 ^ run.length :=
      Nat.pow_le_pow_right (by decide) (List.length_pos_iff.mpr more)
    have grows := Nat.mul_le_mul_left (hexValue word) longer
    omega
  · intro either
    refine ⟨List.append_ne_nil_of_left_ne_nil nonempty run, ?_⟩
    rcases either with rfl | zeros
    · rw [List.append_nil]
      exact ⟨hex, rfl⟩
    · have all : ∀ character ∈ word ++ run, isHexDigit character = true := fun character member =>
        zeros character member ▸ rfl
      refine ⟨all, ?_⟩
      rw [(hexValueZero all).mpr zeros, (hexValueZero hex).mpr (List.forall_mem_append.mp zeros).1]

end Text

/-- No two numbers below the limit are the same word of 32 bits. -/
theorem wordInjective {first second : Nat} (firstSmall : first < UInt32.size)
    (secondSmall : second < UInt32.size) :
    first.toUInt32 = second.toUInt32 ↔ first = second := by
  have firstKept : first.toUInt32.toNat = first := UInt32.toNat_ofNat_of_lt firstSmall
  have secondKept : second.toUInt32.toNat = second := UInt32.toNat_ofNat_of_lt secondSmall
  rw [← UInt32.toNat_inj, firstKept, secondKept]

/-- The leading word is a number in hexadecimal digits, perhaps behind a plus sign. -/
theorem leadingWordIff {encoded : String} {value : Nat} (small : value < UInt32.size) :
    leadingWord? encoded = some value.toUInt32 ↔
      ∃ digits, ((Text.words encoded.toList).head? = some digits ∨
        (Text.words encoded.toList).head? = some ('+' :: digits)) ∧
          Text.hexadecimal? digits = some value := by
  have reads : ∀ digits, (((Text.hexadecimal? digits).filter (· < UInt32.size)).bind
      fun number => some number.toUInt32) = some value.toUInt32 ↔
        Text.hexadecimal? digits = some value := by
    intro digits
    cases Text.hexadecimal? digits with
    | none => simp
    | some number =>
        by_cases fits : number < UInt32.size
        · rw [Option.filter, if_pos (decide_eq_true fits), Option.bind_some, Option.some.injEq,
            wordInjective fits small, Option.some.injEq]
        · have differs : number ≠ value := by omega
          rw [Option.filter, if_neg (by simpa using fits), Option.bind_none, Option.some.injEq]
          exact iff_of_false nofun differs
  have signed : ∀ digits, Text.hexadecimal? ('+' :: digits) ≠ some value := by
    intro digits found
    exact absurd ((Text.hexadecimalIff.mp found).2.1 '+' List.mem_cons_self) (by decide)
  unfold leadingWord?
  cases (Text.words encoded.toList).head? with
  | none => simp
  | some word =>
      simp only [Option.bind_eq_bind, Option.bind_some, pure, reads, Option.some.injEq]
      split
      · rename_i digits
        constructor
        · exact fun found => ⟨digits, .inr rfl, found⟩
        · rintro ⟨other, rfl | same, found⟩
          · exact absurd found (signed digits)
          · cases same
            exact found
      · rename_i unsigned
        constructor
        · exact fun found => ⟨word, .inl rfl, found⟩
        · rintro ⟨other, rfl | same, found⟩
          · exact found
          · exact absurd same (unsigned other)

theorem Encoding.ofWordTop (word : UInt32) :
    ofWord word = if word.toNat.testBit 31 then vop3 else vop2 := by
  have masked : word &&& 0x80000000 = 0 ↔ word.toNat.testBit 31 = false := by
    rw [← UInt32.toNat_inj, UInt32.toNat_and]
    have power : (0x80000000 : UInt32).toNat = 2 ^ 31 := rfl
    rw [power, Nat.and_two_pow]
    cases word.toNat.testBit 31 <;> decide
  unfold ofWord
  cases top : word.toNat.testBit 31 with
  | false =>
      rw [if_pos (masked.mpr top)]
      rfl
  | true =>
      rw [if_neg (by simp [masked, top])]
      rfl

theorem Instruction.decodeDual {table : OpcodeTable} {encoded : Option String} {mnemonic : String}
    {operands : List String} {label : Option String} {word : UInt32}
    (dual : (table.lookup mnemonic).encoding.isDual = true)
    (found : encoded.bind leadingWord? = some word) :
    (decode table encoded mnemonic operands label).opcode.encoding = .ofWord word := by
  simp [decode, settle, dual, found]

namespace TokenLine

/-- An encoded word occurs in a comment behind an offset in hexadecimal digits and a colon. -/
structure Occurrence (comment : List Char) where
  before : List Char
  indent : List Char
  offset : List Char
  gap : List Char
  word : List Char
  rest : List Char
  splits : comment = before ++ (indent ++ offset ++ ':' :: (gap ++ word ++ rest))
  indentSpaces : ∀ character ∈ indent, character = ' '
  offsetNonempty : offset ≠ []
  offsetDigits : ∀ character ∈ offset, Text.isHexDigit character = true
  gapSpaces : ∀ character ∈ gap, character = ' '
  wordLength : word.length = 8
  wordDigits : ∀ character ∈ word, Text.isHexDigit character = true

namespace Occurrence

variable {comment : List Char}

/-- The word has 32 bits. -/
def value (occurrence : Occurrence comment) : UInt32 := (Text.hexValue occurrence.word).toUInt32

/-- No word occurs further to the left. -/
def Leftmost (occurrence : Occurrence comment) : Prop :=
  ∀ other : Occurrence comment, occurrence.before.length ≤ other.before.length

theorem wordSmall (occurrence : Occurrence comment) :
    Text.hexValue occurrence.word < UInt32.size := by
  have below := Text.hexValueBelow occurrence.word
  rw [occurrence.wordLength] at below
  exact below

/-- The colon of an occurrence is the first one behind its start. -/
theorem colonFree (occurrence : Occurrence comment) :
    ':' ∉ occurrence.indent ++ occurrence.offset := by
  rw [List.mem_append, not_or]
  refine ⟨fun member => absurd (occurrence.indentSpaces ':' member) (by decide), fun member => ?_⟩
  exact absurd (occurrence.offsetDigits ':' member) (by decide)

end Occurrence

/-- The eight characters behind some spaces. -/
def wordBehind (text : List Char) : List Char := (text.dropWhile (· == ' ')).take 8

theorem startsWordIff (text : List Char) : startsWord text = true ↔
    (wordBehind text).length = 8 ∧
      ∀ character ∈ wordBehind text, Text.isHexDigit character = true := by
  simp [startsWord, wordBehind]

/-- A digit behind these characters is the last one of an offset, with a word behind its colon. -/
def Shown (comment left : List Char) : Prop :=
  ∃ digit rest, comment = left ++ digit :: ':' :: rest ∧ Text.isHexDigit digit = true ∧
    startsWord rest = true

theorem shownCons {comment left : List Char} {character : Char} :
    Shown (character :: comment) (character :: left) ↔ Shown comment left := by
  simp [Shown]

theorem shownTail {comment : List Char} {character : Char}
    (first : ¬ Shown (character :: comment) []) :
    (∃ left, Shown (character :: comment) left) ↔ ∃ left, Shown comment left := by
  constructor
  · rintro ⟨left, shown⟩
    cases left with
    | nil => exact absurd shown first
    | cons other left =>
        obtain ⟨digit, rest, splits, hex, starts⟩ := shown
        exact ⟨left, digit, rest, (List.cons.inj splits).2, hex, starts⟩
  · rintro ⟨left, shown⟩
    exact ⟨character :: left, shownCons.mpr shown⟩

theorem showsEncodingIff (comment : List Char) :
    showsEncoding comment = true ↔ ∃ left, Shown comment left := by
  fun_induction showsEncoding comment with
  | case1 digit rest inductionHypothesis =>
      have first : Shown (digit :: ':' :: rest) [] ↔
          (Text.isHexDigit digit && startsWord rest) = true := by
        simp [Shown]
      by_cases shown : Shown (digit :: ':' :: rest) []
      · rw [first.mp shown]
        simpa using ⟨[], shown⟩
      · rw [shownTail shown, ← inductionHypothesis]
        rw [first, Bool.not_eq_true] at shown
        rw [shown, Bool.false_or]
  | case2 character rest unlike inductionHypothesis =>
      rw [inductionHypothesis, shownTail]
      rintro ⟨digit, more, splits, _⟩
      exact unlike more (List.cons.inj splits).2
  | case3 => simp [Shown]

/-- The first word that follows an offset and its colon. -/
def captured? : List Char → Option (List Char)
  | digit :: ':' :: rest =>
      if Text.isHexDigit digit && startsWord rest then some (wordBehind rest)
      else captured? (':' :: rest)
  | _ :: rest => captured? rest
  | [] => none

theorem capturedSkip {comment : List Char} {character : Char}
    (first : ¬ Shown (character :: comment) []) :
    captured? (character :: comment) = captured? comment := by
  conv_lhs => unfold captured?
  split
  · rename_i digit rest same
    obtain ⟨rfl, rfl⟩ := List.cons.inj same
    rw [if_neg]
    intro starts
    rw [Bool.and_eq_true] at starts
    exact first ⟨character, rest, rfl, starts.1, starts.2⟩
  · rename_i other rest _ same
    rw [(List.cons.inj same).2]
  · rename_i same
    cases same

/-- Nothing is captured before the first offset that a word follows. -/
theorem capturedFirst {comment left rest : List Char} {digit : Char}
    (splits : comment = left ++ digit :: ':' :: rest) (hex : Text.isHexDigit digit = true)
    (starts : startsWord rest = true)
    (least : ∀ other, Shown comment other → left.length ≤ other.length) :
    captured? comment = some (wordBehind rest) := by
  subst splits
  induction left with
  | nil => simp [captured?, hex, starts]
  | cons character left inductionHypothesis =>
      rw [List.cons_append] at least ⊢
      have first : ¬ Shown (character :: (left ++ digit :: ':' :: rest)) [] := by
        intro shown
        exact absurd (least [] shown) (by simp)
      rw [capturedSkip first]
      apply inductionHypothesis
      intro other shown
      have further := least (character :: other) (shownCons.mpr shown)
      simpa using further

theorem occurrenceOfShown {comment left : List Char} (shown : Shown comment left) :
    ∃ occurrence : Occurrence comment, occurrence.before = left := by
  obtain ⟨digit, rest, splits, hex, starts⟩ := shown
  obtain ⟨length, digits⟩ := (startsWordIff rest).mp starts
  have parts : rest.takeWhile (· == ' ') ++ wordBehind rest ++
      (rest.dropWhile (· == ' ')).drop 8 = rest := by
    rw [wordBehind, List.append_assoc, List.take_append_drop, List.takeWhile_append_dropWhile]
  refine ⟨{
    before := left
    indent := []
    offset := [digit]
    gap := rest.takeWhile (· == ' ')
    word := wordBehind rest
    rest := (rest.dropWhile (· == ' ')).drop 8
    splits := by rw [parts, splits]; rfl
    indentSpaces := by simp
    offsetNonempty := by simp
    offsetDigits := by simpa using hex
    gapSpaces := fun character member => by simpa using List.mem_takeWhile_imp member
    wordLength := length
    wordDigits := digits }, rfl⟩

namespace Occurrence

variable {comment : List Char} (occurrence : Occurrence comment)

theorem wordFound :
    wordBehind (occurrence.gap ++ occurrence.word ++ occurrence.rest) = occurrence.word := by
  obtain ⟨digit, digits, parts⟩ := List.exists_cons_of_length_eq_add_one occurrence.wordLength
  have solid : digit ≠ ' ' := by
    rintro rfl
    exact absurd (occurrence.wordDigits ' ' (by simp [parts])) (by decide)
  have skipped : (occurrence.gap ++ occurrence.word ++ occurrence.rest).dropWhile (· == ' ') =
      occurrence.word ++ occurrence.rest := by
    rw [List.append_assoc,
      List.dropWhile_append_of_pos (by simpa using occurrence.gapSpaces), parts, List.cons_append,
      List.dropWhile_cons_of_neg (by simpa using solid)]
  rw [wordBehind, skipped, ← occurrence.wordLength, List.take_left]

theorem wordStarts : startsWord (occurrence.gap ++ occurrence.word ++ occurrence.rest) = true := by
  rw [startsWordIff, occurrence.wordFound]
  exact ⟨occurrence.wordLength, occurrence.wordDigits⟩

/-- The last digit of the offset shows the word. -/
theorem lastDigit : ∃ inner digit, occurrence.offset = inner ++ [digit] ∧
    Text.isHexDigit digit = true ∧
    comment = occurrence.before ++ occurrence.indent ++ inner ++
      digit :: ':' :: (occurrence.gap ++ occurrence.word ++ occurrence.rest) := by
  obtain ⟨inner, digit, same⟩ := List.eq_nil_or_concat' occurrence.offset |>.resolve_left
    occurrence.offsetNonempty
  have hex := occurrence.offsetDigits digit (by simp [same])
  refine ⟨inner, digit, same, hex, ?_⟩
  conv_lhs => rw [occurrence.splits, same]
  simp

/-- No offset that a word follows ends before the one of the leftmost occurrence. -/
theorem shownBehind (leftmost : occurrence.Leftmost) {left : List Char}
    (shown : Shown comment left) :
    occurrence.before.length + (occurrence.indent ++ occurrence.offset).length ≤
      left.length + 1 := by
  have least : occurrence.before.length ≤ left.length := by
    obtain ⟨other, same⟩ := occurrenceOfShown shown
    exact same ▸ leftmost other
  by_contra shorter
  -- The colon of the other offset would stand within the leftmost occurrence.
  obtain ⟨digit, rest, splits, _⟩ := shown
  have colon : comment[left.length + 1]? = some ':' := by
    rw [splits, List.getElem?_append_right (by omega)]
    simp
  rw [occurrence.splits, List.getElem?_append_right (by omega),
    List.getElem?_append_left (by omega)] at colon
  exact occurrence.colonFree (List.mem_of_getElem? colon)

theorem capturedLeftmost (leftmost : occurrence.Leftmost) :
    captured? comment = some occurrence.word := by
  obtain ⟨inner, digit, offset, hex, splits⟩ := occurrence.lastDigit
  rw [capturedFirst splits hex occurrence.wordStarts, occurrence.wordFound]
  intro left shown
  have behind := occurrence.shownBehind leftmost shown
  simp only [offset, List.length_append, List.length_singleton] at behind ⊢
  omega

end Occurrence

theorem leftmostExists {comment left : List Char} (shown : Shown comment left) :
    ∃ occurrence : Occurrence comment, occurrence.Leftmost := by
  obtain ⟨occurrence, _⟩ := occurrenceOfShown shown
  have : Nonempty (Occurrence comment) := ⟨occurrence⟩
  exact ⟨Function.argmin fun occurrence : Occurrence comment => occurrence.before.length,
    fun other => Function.argmin_le (fun occurrence : Occurrence comment =>
      occurrence.before.length) other⟩

/-- The encoded instruction is cut off at the first colon. -/
theorem encodingBehind {comment early late : List Char} (shows : showsEncoding comment = true)
    (splits : comment = early ++ ':' :: late) (free : ':' ∉ early) :
    encoding? comment = some (String.ofList (Text.trim late)) := by
  have passed : ∀ character ∈ early, (character != ':') = true := by
    intro character member
    exact bne_iff_ne.mpr fun same => free (same ▸ member)
  have behind : comment.dropWhile (· != ':') = ':' :: late := by
    rw [splits, List.dropWhile_append_of_pos passed, List.dropWhile_cons_of_neg (by decide)]
  rw [encoding?, if_pos shows, behind, List.drop_one, List.tail_cons]

theorem encodingSome (comment : List Char) :
    (encoding? comment).isSome = showsEncoding comment := by
  unfold encoding?
  split <;> simp [*]

theorem showsLeftmost (comment : List Char) : showsEncoding comment = true ↔
    ∃ occurrence : Occurrence comment, occurrence.Leftmost := by
  rw [showsEncodingIff]
  constructor
  · rintro ⟨left, shown⟩
    exact leftmostExists shown
  · rintro ⟨occurrence, _⟩
    obtain ⟨inner, digit, _, hex, splits⟩ := occurrence.lastDigit
    exact ⟨_, digit, _, splits, hex, occurrence.wordStarts⟩

namespace Occurrence

variable {comment : List Char} (occurrence : Occurrence comment)

theorem wordKnown : Text.Word occurrence.word := by
  constructor
  · intro empty
    have length := occurrence.wordLength
    rw [empty] at length
    cases length
  · intro character member
    exact Text.solidOf Text.isHexDigit (by decide) (occurrence.wordDigits character member)

/-- Behind the colon of an occurrence the first word starts with the captured one. -/
theorem firstWord : (Text.words (occurrence.gap ++ occurrence.word ++ occurrence.rest)).head? =
    some (occurrence.word ++ occurrence.rest.takeWhile (!Text.isBlank ·)) := by
  rw [List.append_assoc, Text.wordsSpaces occurrence.gapSpaces,
    Text.wordsHead occurrence.wordKnown]

theorem readIff {late : List Char} :
    leadingWord? (String.ofList (Text.trim late)) = some occurrence.value ↔
      ∃ digits, ((Text.words late).head? = some digits ∨
        (Text.words late).head? = some ('+' :: digits)) ∧
          Text.hexadecimal? digits = some (Text.hexValue occurrence.word) := by
  rw [value, leadingWordIff occurrence.wordSmall, String.toList_ofList, Text.wordsTrim]

/-- Where no colon comes before an occurrence, its own colon is the first one. -/
theorem encodingOwnColon (shows : showsEncoding comment = true)
    (clear : ':' ∉ occurrence.before) : encoding? comment =
      some (String.ofList (Text.trim
        (occurrence.gap ++ occurrence.word ++ occurrence.rest))) := by
  have splits := occurrence.splits
  rw [← List.append_assoc] at splits
  apply encodingBehind shows splits
  rw [List.mem_append, not_or]
  exact ⟨clear, occurrence.colonFree⟩

/-- Right behind its colon the word is read unless it goes on, or if all its digits are zeros. -/
theorem readBehindColon :
    leadingWord? (String.ofList (Text.trim
        (occurrence.gap ++ occurrence.word ++ occurrence.rest))) = some occurrence.value ↔
      occurrence.rest.takeWhile (!Text.isBlank ·) = [] ∨
        ∀ character ∈ occurrence.word ++ occurrence.rest.takeWhile (!Text.isBlank ·),
          character = '0' := by
  have unsigned : ∀ run digits, occurrence.word ++ run ≠ '+' :: digits := by
    intro run digits same
    obtain ⟨digit, word, parts⟩ := List.exists_cons_of_ne_nil occurrence.wordKnown.nonempty
    have hex := occurrence.wordDigits digit (by simp [parts])
    rw [parts, List.cons_append] at same
    rw [(List.cons.inj same).1] at hex
    exact absurd hex (by decide)
  rw [readIff, firstWord,
    ← Text.hexadecimalAppend occurrence.wordKnown.nonempty occurrence.wordDigits]
  simp [unsigned]

end Occurrence

/-- A comment gives an encoded instruction if a word occurs in it. The leftmost word is the one that
settles the encoding of an instruction if the first word behind the first colon has its value. Where
the first colon is its own, no more may follow up to the next blank, unless all is zeros. -/
theorem leftmostWordRead (comment : List Char) :
    ((encoding? comment).isSome = true ↔
      ∃ occurrence : Occurrence comment, occurrence.Leftmost) ∧
    (∀ first second : Occurrence comment, first.Leftmost → second.Leftmost →
      first.word = second.word) ∧
    ∀ occurrence : Occurrence comment, occurrence.Leftmost → ∃ early late code,
      comment = early ++ ':' :: late ∧ ':' ∉ early ∧ encoding? comment = some code ∧
      (leadingWord? code = some occurrence.value ↔
        ∃ digits, ((Text.words late).head? = some digits ∨
          (Text.words late).head? = some ('+' :: digits)) ∧
            Text.hexadecimal? digits = some (Text.hexValue occurrence.word)) ∧
      (':' ∉ occurrence.before → (leadingWord? code = some occurrence.value ↔
        occurrence.rest.takeWhile (!Text.isBlank ·) = [] ∨
          ∀ character ∈ occurrence.word ++ occurrence.rest.takeWhile (!Text.isBlank ·),
            character = '0')) ∧
      (leadingWord? code = some occurrence.value → ∀ table mnemonic operands label,
        (table.lookup mnemonic).encoding.isDual = true →
          (Instruction.decode table (encoding? comment) mnemonic operands label).opcode.encoding =
            if occurrence.value.toNat.testBit 31 then .vop3 else .vop2) := by
  rw [encodingSome]
  refine ⟨showsLeftmost comment, fun first second firstLeft secondLeft => ?_, ?_⟩
  · exact Option.some.inj ((first.capturedLeftmost firstLeft).symm.trans
      (second.capturedLeftmost secondLeft))
  intro occurrence leftmost
  have shows := (showsLeftmost comment).mpr ⟨occurrence, leftmost⟩
  have colon : ':' ∈ comment := by
    rw [occurrence.splits]
    simp
  obtain ⟨early, late, splits, free⟩ := List.eq_append_cons_of_mem colon
  have encoded := encodingBehind shows splits free
  refine ⟨early, late, _, splits, free, encoded, occurrence.readIff, ?_, ?_⟩
  · intro clear
    have own := occurrence.encodingOwnColon shows clear
    rw [Option.some.inj (encoded.symm.trans own)]
    exact occurrence.readBehindColon
  · intro read table mnemonic operands label dual
    rw [Instruction.decodeDual dual (by rw [encoded, Option.bind_some, read]), Encoding.ofWordTop]

/-- The comment shows an offset and two words. -/
def plainComment : List Char := " 000000000130: D1190201 00000100".toList

def plainOccurrence : Occurrence plainComment where
  before := []
  indent := [' ']
  offset := "000000000130".toList
  gap := [' ']
  word := "D1190201".toList
  rest := " 00000100".toList
  splits := by decide
  indentSpaces := by simp
  offsetNonempty := by decide
  offsetDigits := List.all_eq_true.mp (by decide)
  gapSpaces := by simp
  wordLength := by decide
  wordDigits := List.all_eq_true.mp (by decide)

theorem plainWordRead : plainOccurrence.Leftmost ∧
    ∃ code, encoding? plainComment = some code ∧ leadingWord? code = some 0xD1190201 ∧
      (Instruction.decode Gcn.opcodes (encoding? plainComment) "v_add_f32"
        ["v1", "v0", "v2"] none).opcode.encoding = .vop3 := by
  have leftmost : plainOccurrence.Leftmost := fun other => Nat.zero_le _
  obtain ⟨_, _, code, _, _, encoded, _, alone, settles⟩ :=
    (leftmostWordRead plainComment).2.2 plainOccurrence leftmost
  have read := (alone (by decide)).mpr (.inl (by decide))
  refine ⟨leftmost, code, encoded, read, ?_⟩
  rw [settles read Gcn.opcodes "v_add_f32" ["v1", "v0", "v2"] none (by decide +kernel)]
  decide

/-- A remark with a colon comes before the offset. -/
def remarkedComment : List Char := " remark: 000000000130: D1010003 00020501".toList

/-- The leftmost word has its top bit set, but it is not read, and the other encoding is kept. -/
theorem remarkedWordUnread : ∃ occurrence : Occurrence remarkedComment,
    occurrence.Leftmost ∧ occurrence.word = "D1010003".toList ∧
    occurrence.value.toNat.testBit 31 = true ∧
    ∃ code, encoding? remarkedComment = some code ∧ leadingWord? code ≠ some occurrence.value ∧
      (Instruction.decode Gcn.opcodes (encoding? remarkedComment) "v_add_f32"
        ["v1", "v0", "v2"] none).opcode.encoding = .vop2 := by
  have shows : showsEncoding remarkedComment = true := by decide
  obtain ⟨occurrence, leftmost⟩ := (showsLeftmost remarkedComment).mp shows
  have captured : captured? remarkedComment = some "D1010003".toList := by decide
  have word : occurrence.word = "D1010003".toList :=
    Option.some.inj ((occurrence.capturedLeftmost leftmost).symm.trans captured)
  have value : occurrence.value = 0xD1010003 := by
    rw [Occurrence.value, word]
    decide
  have encoded : encoding? remarkedComment = some "000000000130: D1010003 00020501" := by
    decide +kernel
  refine ⟨occurrence, leftmost, word, by rw [value]; decide, _, encoded, ?_, ?_⟩
  · have unread : leadingWord? "000000000130: D1010003 00020501" = none := by decide +kernel
    rw [unread]
    exact nofun
  · decide +kernel

end TokenLine

end ShaderAnalysis
