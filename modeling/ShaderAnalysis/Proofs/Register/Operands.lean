/-
This file gives the grammar of the operands that name registers, and shows that these operands and
no others are read.
-/

import Mathlib.Data.List.Basic
import Mathlib.Data.List.Induction
import ShaderAnalysis.Instruction

namespace ShaderAnalysis

/-- A numeral is one or more decimal digits, the last of which counts the ones. -/
inductive Numeral : List Char → Nat → Prop
  | digit {digit : Nat} (small : digit < 10) : Numeral [digit.digitChar] digit
  | append {digits : List Char} {value digit : Nat} (numeral : Numeral digits value)
      (small : digit < 10) : Numeral (digits ++ [digit.digitChar]) (10 * value + digit)

namespace Numeral

theorem digitCharKnown : ∀ digit < 10,
    digit.digitChar.isDigit = true ∧ digit.digitChar.toNat - '0'.toNat = digit := by
  decide

theorem digitCharOf {character : Char} (known : character.isDigit = true) :
    ∃ digit < 10, character = digit.digitChar := by
  have codes : ∀ code < 58, 48 ≤ code → Char.ofNat code = (code - 48).digitChar := by decide
  obtain ⟨low, high⟩ : 48 ≤ character.toNat ∧ character.toNat ≤ 57 := by
    simpa [Char.isDigit, UInt32.le_iff_toNat_le] using known
  refine ⟨character.toNat - 48, by omega, ?_⟩
  rw [← codes character.toNat (by omega) low, Char.ofNat_toNat]

section

variable {digits : List Char} {value : Nat}

theorem allDigits (numeral : Numeral digits value) :
    digits ≠ [] ∧ ∀ character ∈ digits, character.isDigit = true := by
  induction numeral with
  | digit small => simpa using (digitCharKnown _ small).1
  | append _ small inductionHypothesis =>
      refine ⟨by simp, fun character member => ?_⟩
      rcases List.mem_append.mp member with earlier | last
      · exact inductionHypothesis.2 character earlier
      · rw [List.mem_singleton.mp last]
        exact (digitCharKnown _ small).1

theorem decimalValueOf (numeral : Numeral digits value) : Text.decimalValue digits = value := by
  induction numeral with
  | digit small => simpa [Text.decimalValue] using (digitCharKnown _ small).2
  | append _ small inductionHypothesis =>
      rw [Text.decimalValue, List.foldl_append, ← Text.decimalValue, inductionHypothesis,
        List.foldl_cons, List.foldl_nil, (digitCharKnown _ small).2]

/-- One or more digits are a numeral. -/
theorem ofDigits (nonempty : digits ≠ [])
    (known : ∀ character ∈ digits, character.isDigit = true) : ∃ value, Numeral digits value := by
  induction digits using List.reverseRecOn with
  | nil => exact absurd rfl nonempty
  | append_singleton digits last inductionHypothesis =>
      obtain ⟨earlier, lastKnown⟩ := List.forall_mem_append.mp known
      obtain ⟨digit, small, rfl⟩ := digitCharOf (lastKnown last List.mem_cons_self)
      by_cases single : digits = []
      · subst single
        exact ⟨digit, .digit small⟩
      · obtain ⟨value, numeral⟩ := inductionHypothesis single earlier
        exact ⟨_, .append numeral small⟩

end

theorem decimalIff {digits : List Char} {value : Nat} :
    Text.decimal? digits = some value ↔ Numeral digits value := by
  constructor
  · intro read
    unfold Text.decimal? at read
    split at read
    · cases read
    · rename_i nonempty
      split at read
      · rename_i known
        obtain ⟨same, numeral⟩ := ofDigits (by simpa using nonempty) (List.all_eq_true.mp known)
        rw [numeral.decimalValueOf] at read
        exact Option.some.inj read ▸ numeral
      · cases read
  · intro numeral
    obtain ⟨nonempty, known⟩ := numeral.allDigits
    rw [Text.decimal?, if_neg (by simpa using nonempty), if_pos (List.all_eq_true.mpr known),
      numeral.decimalValueOf]

theorem leadingZero {digits : List Char} {value : Nat} (numeral : Numeral digits value) :
    Numeral ('0' :: digits) value := by
  induction numeral with
  | digit small =>
      have longer := Numeral.append (.digit (by decide : 0 < 10)) small
      rw [Nat.mul_zero, Nat.zero_add] at longer
      exact longer
  | append _ small inductionHypothesis => exact .append inductionHypothesis small

/-- Zeros in front of a numeral do not change its value. -/
theorem leadingZeros {digits : List Char} {value : Nat} (numeral : Numeral digits value)
    (count : Nat) : Numeral (List.replicate count '0' ++ digits) value := by
  induction count with
  | zero => exact numeral
  | succ count inductionHypothesis => exact inductionHypothesis.leadingZero

theorem apart {digits : List Char} {value : Nat} (numeral : Numeral digits value)
    {character : Char} (other : character.isDigit = false) : character ∉ digits := by
  intro member
  rw [numeral.allDigits.2 character member] at other
  cases other

end Numeral

namespace RegisterRange

/-- One register is named by its number, and several by the numbers of the first and the last. -/
inductive Named : List Char → RegisterRange → Prop
  | single {digits : List Char} {register : Nat} (number : Numeral digits register) :
      Named ('v' :: digits) ⟨register, register⟩
  | several {firstDigits lastDigits : List Char} {first last : Nat}
      (firstNumber : Numeral firstDigits first) (lastNumber : Numeral lastDigits last) :
      Named ('v' :: '[' :: (firstDigits ++ ':' :: (lastDigits ++ [']']))) ⟨first, last⟩

/-- A name can stand in an absolute value. -/
inductive Magnitude : List Char → RegisterRange → Prop
  | plain {text : List Char} {range : RegisterRange} (named : Named text range) :
      Magnitude text range
  | absolute {text : List Char} {range : RegisterRange} (named : Named text range) :
      Magnitude ('a' :: 'b' :: 's' :: '(' :: (text ++ [')'])) range

/-- One negation sign can stand in front. -/
inductive Spelled : List Char → RegisterRange → Prop
  | positive {text : List Char} {range : RegisterRange} (magnitude : Magnitude text range) :
      Spelled text range
  | negative {text : List Char} {range : RegisterRange} (magnitude : Magnitude text range) :
      Spelled ('-' :: text) range

/-- An operand names the registers that are spelled, if a wave has them. -/
structure Names (operand : String) (range : RegisterRange) : Prop where
  spelled : Spelled operand.toList range
  first : range.first < 256
  last : range.last < 256

theorem numberIff {digits : List Char} {register : Nat} :
    number? digits = some register ↔ Numeral digits register ∧ register < 256 := by
  rw [number?, Option.filter_eq_some_iff, Numeral.decimalIff, decide_eq_true_eq]
  rfl

/-- The text before the first separator, and what follows the separator. -/
theorem splitSeparator {separator : Char} {before behind : List Char} (apart : separator ∉ before) :
    (before ++ separator :: behind).takeWhile (· != separator) = before ∧
      (before ++ separator :: behind).dropWhile (· != separator) = separator :: behind := by
  have passes : ∀ character ∈ before, (character != separator) = true := by
    intro character member
    exact bne_iff_ne.mpr fun same => apart (same ▸ member)
  rw [List.takeWhile_append_of_pos passes, List.dropWhile_append_of_pos passes,
    List.takeWhile_cons_of_neg (by simp), List.dropWhile_cons_of_neg (by simp), List.append_nil]
  exact ⟨rfl, rfl⟩

/-- A name that is read follows the grammar. -/
theorem ofNameNamed {text : List Char} {range : RegisterRange} (read : ofName? text = some range) :
    Named text range ∧ range.first < 256 ∧ range.last < 256 := by
  unfold ofName? at read
  split at read
  · rename_i text
    obtain ⟨first, firstRead, read⟩ := Option.bind_eq_some_iff.mp read
    split at read
    · rename_i rest separated
      obtain ⟨last, lastRead, read⟩ := Option.bind_eq_some_iff.mp read
      split at read
      · rename_i closed
        cases read
        obtain ⟨firstNumber, firstBelow⟩ := numberIff.mp firstRead
        obtain ⟨lastNumber, lastBelow⟩ := numberIff.mp lastRead
        have inner := List.takeWhile_append_dropWhile (p := (· != ']')) (l := rest)
        have whole := List.takeWhile_append_dropWhile (p := (· != ':')) (l := text)
        rw [closed] at inner
        rw [separated, ← inner] at whole
        rw [← whole]
        exact ⟨.several firstNumber lastNumber, firstBelow, lastBelow⟩
      · cases read
    · cases read
  · obtain ⟨register, registerRead, rfl⟩ := Option.map_eq_some_iff.mp read
    obtain ⟨number, below⟩ := numberIff.mp registerRead
    exact ⟨.single number, below, below⟩
  · cases read

/-- A name that follows the grammar is read. -/
theorem namedOfName {text : List Char} {range : RegisterRange} (named : Named text range)
    (firstBelow : range.first < 256) (lastBelow : range.last < 256) :
    ofName? text = some range := by
  cases named with
  | single number =>
      have read := numberIff.mpr ⟨number, firstBelow⟩
      unfold ofName?
      split
      · rename_i text same
        have bracket := number.apart (by decide : '['.isDigit = false)
        rw [(List.cons.inj same).2] at bracket
        exact absurd List.mem_cons_self bracket
      · rename_i digits _ same
        rw [← (List.cons.inj same).2, read]
        rfl
      · rename_i other
        exact absurd rfl (other _)
  | several firstNumber lastNumber =>
      obtain ⟨beforeColon, behindColon⟩ :=
        splitSeparator (firstNumber.apart (by decide : ':'.isDigit = false))
      obtain ⟨beforeBracket, behindBracket⟩ :=
        splitSeparator (lastNumber.apart (by decide : ']'.isDigit = false))
      rw [ofName?, beforeColon, behindColon, numberIff.mpr ⟨firstNumber, firstBelow⟩]
      change (number? (List.takeWhile (· != ']') (_ ++ [']']))).bind _ = _
      rw [beforeBracket, behindBracket, numberIff.mpr ⟨lastNumber, lastBelow⟩]
      rfl

/-- What stands behind the sign, and whether there is one. -/
theorem withoutSignCases (text : List Char) :
    text = withoutSign text ∨ text = '-' :: withoutSign text := by
  unfold withoutSign
  split
  · exact .inr rfl
  · exact .inl rfl

theorem withoutAbsoluteCases (text : List Char) :
    text = withoutAbsolute text ∨
      text = 'a' :: 'b' :: 's' :: '(' :: (withoutAbsolute text ++ [')']) := by
  unfold withoutAbsolute
  split
  · split
    · rename_i inner closed
      rw [List.dropLast_append_getLast? _ closed]
      exact .inr rfl
    · exact .inl rfl
  · exact .inl rfl

/-- A name is left as it is, and an absolute value is taken off. -/
theorem withoutAbsoluteMagnitude {text : List Char} {range : RegisterRange}
    (magnitude : Magnitude text range) : Named (withoutAbsolute text) range := by
  cases magnitude with
  | plain named => cases named with
    | single number => exact .single number
    | several firstNumber lastNumber => exact .several firstNumber lastNumber
  | absolute named =>
      rw [withoutAbsolute, if_pos (by simp), List.dropLast_concat]
      exact named

theorem withoutSignSpelled {text : List Char} {range : RegisterRange}
    (spelled : Spelled text range) : Magnitude (withoutSign text) range := by
  cases spelled with
  | positive magnitude => cases magnitude with
    | plain named => cases named with
      | single number => exact .plain (.single number)
      | several firstNumber lastNumber => exact .plain (.several firstNumber lastNumber)
    | absolute named => exact .absolute named
  | negative magnitude => exact magnitude

/-- An operand is read exactly if it names registers by the grammar. -/
theorem ofOperandIff {operand : String} {range : RegisterRange} :
    ofOperand? operand = some range ↔ Names operand range := by
  constructor
  · intro read
    obtain ⟨named, first, last⟩ := ofNameNamed read
    have magnitude : Magnitude (withoutSign operand.toList) range := by
      rcases withoutAbsoluteCases (withoutSign operand.toList) with same | same
      · rw [same]
        exact .plain named
      · rw [same]
        exact .absolute named
    have spelled : Spelled operand.toList range := by
      rcases withoutSignCases operand.toList with same | same
      · rw [same]
        exact .positive magnitude
      · rw [same]
        exact .negative magnitude
    exact ⟨spelled, first, last⟩
  · intro ⟨spelled, first, last⟩
    exact namedOfName (withoutAbsoluteMagnitude (withoutSignSpelled spelled)) first last

end RegisterRange

namespace Instruction

/-- A position that is used contributes the registers that its operand names. -/
theorem registersAtMember (operands : List String) (uses : Nat → Bool) (register : Nat) :
    register ∈ registersAt operands uses ↔ ∃ position, uses position = true ∧
      ∃ operand range, operands[position]? = some operand ∧
        RegisterRange.ofOperand? operand = some range ∧
          range.first ≤ register ∧ register ≤ range.last := by
  simp only [registersAt, Std.ExtTreeSet.mem_ofList, List.contains_iff_mem, List.mem_flatMap,
    Prod.exists, List.mem_zipIdx_iff_getElem?]
  constructor
  · intro ⟨operand, position, found, named⟩
    split at named
    · rename_i used
      cases known : RegisterRange.ofOperand? operand with
      | none => simp [known] at named
      | some range =>
          have bounds : range.first ≤ register ∧ register ≤ range.last := by
            simpa [known, RegisterRange.registersMember] using named
          exact ⟨position, used, operand, range, found, known, bounds⟩
    · cases named
  · intro ⟨position, used, operand, range, found, known, bounds⟩
    refine ⟨operand, position, found, ?_⟩
    rw [if_pos used, known]
    exact (RegisterRange.registersMember range register).mpr bounds

/-- The operand at one of the positions names the register. -/
def NamedAt (operands : List String) (positions : List Nat) (register : Nat) : Prop :=
  ∃ position ∈ positions, ∃ operand range, operands[position]? = some operand ∧
    RegisterRange.Names operand range ∧ range.first ≤ register ∧ register ≤ range.last

theorem registersAtNamed {positions : List Nat} {uses : Nat → Bool}
    (listed : ∀ position, uses position = positions.contains position) (operands : List String)
    (register : Nat) :
    register ∈ registersAt operands uses ↔ NamedAt operands positions register := by
  simp only [registersAtMember, listed, List.contains_iff_mem, RegisterRange.ofOperandIff, NamedAt]

theorem registersAtBelow {operands : List String} {uses : Nat → Bool} {register : Nat}
    (named : register ∈ registersAt operands uses) : register < RegisterRange.limit := by
  obtain ⟨_, _, _, range, _, known, _, upper⟩ := (registersAtMember _ _ _).mp named
  exact Nat.lt_of_le_of_lt upper (RegisterRange.ofOperandIff.mp known).last

theorem registersBelow {instruction : Instruction} {register : Nat}
    (used : register ∈ instruction.registers.read ∨ register ∈ instruction.registers.written) :
    register < RegisterRange.limit := by
  simp only [registers] at used
  rcases used with read | written
  · exact registersAtBelow read
  · exact registersAtBelow written

end Instruction

/-- Operands are read by the grammar of register names, in which any digits are a numeral with one
value and zeros may stand in front. An instruction reads and writes exactly the registers that are
named at the positions its opcode lists. -/
theorem registersFollowGrammar :
    (∀ operand range,
      RegisterRange.ofOperand? operand = some range ↔ RegisterRange.Names operand range) ∧
    (∀ digits : List Char, (∃! value, Numeral digits value) ↔
      digits ≠ [] ∧ ∀ character ∈ digits, character.isDigit = true) ∧
    (∀ (digits : List Char) (value count : Nat), Numeral digits value →
      Numeral (List.replicate count '0' ++ digits) value) ∧
    ∀ (instruction : Instruction) (register : Nat),
      (register ∈ instruction.registers.read ↔
        Instruction.NamedAt instruction.operands instruction.opcode.read register) ∧
      (register ∈ instruction.registers.written ↔
        Instruction.NamedAt instruction.operands instruction.opcode.written register) := by
  refine ⟨fun operand range => RegisterRange.ofOperandIff, fun digits => ?_,
    fun digits value count numeral => numeral.leadingZeros count, fun instruction register => ?_⟩
  · constructor
    · intro ⟨value, numeral, _⟩
      exact numeral.allDigits
    · intro ⟨nonempty, known⟩
      obtain ⟨value, numeral⟩ := Numeral.ofDigits nonempty known
      refine ⟨value, numeral, fun other otherNumeral => ?_⟩
      rw [← otherNumeral.decimalValueOf, numeral.decimalValueOf]
  · exact ⟨Instruction.registersAtNamed instruction.opcode.accessReads _ _,
      Instruction.registersAtNamed instruction.opcode.accessWrites _ _⟩

/-- The negated absolute value of three registers, with zeros in front of the first number. -/
theorem paddedRangeRead : RegisterRange.ofOperand? "-abs(v[007:9])" = some ⟨7, 9⟩ := by
  have seven : Numeral ['0', '0', '7'] 7 :=
    registersFollowGrammar.2.2.1 ['7'] 7 2 (.digit (by decide : 7 < 10))
  have nine : Numeral ['9'] 9 := .digit (by decide : 9 < 10)
  exact (registersFollowGrammar.1 _ _).mpr
    ⟨.negative (.absolute (.several seven nine)), by decide, by decide⟩

-- A digit of another script is no digit of a numeral, and 256 is past the last register.
example : RegisterRange.ofOperand? "v٣" = none ∧ RegisterRange.ofOperand? "v256" = none := by
  decide

end ShaderAnalysis
