/-
This file finds words that are close to each other.
-/

namespace ShaderAnalysis.CommandLine

/-- The matches found so far: the positions taken in the second word, how many of them stand before
the one taken last, and the one taken last. -/
structure Matching where
  taken : List Nat := []
  transposed : Nat := 0
  latest : Nat := 0

/-- A character takes the first equal one of the second word that is free and within reach. -/
def Matching.take (matching : Matching) (reach position : Nat) (second : List Char)
    (character : Char) : Matching :=
  let free := second.zipIdx.find? fun (other, index) =>
    position ≤ index + reach && index ≤ position + reach && other == character &&
      !matching.taken.contains index
  match free with
  | none => matching
  | some (_, index) =>
      { taken := index :: matching.taken
        transposed := matching.transposed + if index < matching.latest then 1 else 0
        latest := index }

def matchWords (first second : List Char) : Matching :=
  let reach := max first.length second.length / 2 - 1
  first.zipIdx.foldl (fun matching (character, position) =>
    matching.take reach position second character) {}

/-- The length of the common start of two words. -/
def commonLength : List Char → List Char → Nat
  | first :: restFirst, second :: restSecond =>
      if first = second then commonLength restFirst restSecond + 1 else 0
  | _, _ => 0

/-- Two words are close if their Jaro similarity, brought nearer to one by a tenth of what it lacks
for each character of the common start, exceeds four fifths. The similarity is the mean of the
matched parts of both words and of the part of the matches that is in order. -/
def isClose (first second : List Char) : Bool :=
  let matching := matchWords first second
  let matched := matching.taken.length
  let whole := 3 * first.length * second.length * matched
  let similarity := matched * matched * (first.length + second.length) +
    first.length * second.length * (matched - matching.transposed)
  0 < matched && 8 * whole < 10 * similarity + commonLength first second * (whole - similarity)

end ShaderAnalysis.CommandLine
