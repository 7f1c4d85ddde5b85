/-
This file states which characters are blank and cuts text at them.
-/

namespace ShaderAnalysis.Text

/-- Blank characters have the Unicode property White_Space. -/
def isBlank (character : Char) : Bool :=
  let code := character.toNat
  (0x09 ≤ code && code ≤ 0x0D) || code == 0x20 || code == 0x85 || code == 0xA0 ||
    code == 0x1680 || (0x2000 ≤ code && code ≤ 0x200A) || code == 0x2028 || code == 0x2029 ||
    code == 0x202F || code == 0x205F || code == 0x3000

/-- The words of a text are its longest pieces without a blank. -/
def words (text : List Char) : List (List Char) :=
  (text.splitOnP isBlank).filter (!·.isEmpty)

/-- Trimming drops the blanks at both ends. -/
def trim (text : List Char) : List Char :=
  ((text.dropWhile isBlank).reverse.dropWhile isBlank).reverse

theorem blankOfWhitespace (character : Char) (space : character.isWhitespace = true) :
    isBlank character = true := by
  simp only [Char.isWhitespace, Bool.or_eq_true, decide_eq_true_eq] at space
  rcases space with ((rfl | rfl) | rfl) | rfl <;> decide

theorem wordsNonempty (text word : List Char) (member : word ∈ words text) : word ≠ [] := by
  have kept := (List.mem_filter.mp member).2
  intro empty
  simp [empty] at kept

end ShaderAnalysis.Text
