/-
This file turns text into small letters.
-/

import ShaderAnalysis.Text.CaseTable

namespace ShaderAnalysis.Text

def inRanges (ranges : List (Nat × Nat)) (character : Char) : Bool :=
  ranges.any fun range => range.1 ≤ character.toNat && character.toNat ≤ range.2

def isCased (character : Char) : Bool := inRanges casedRanges character

def isCaseIgnorable (character : Char) : Bool := inRanges caseIgnorableRanges character

def CaseRun.covers (run : CaseRun) (character : Char) : Bool :=
  let code := character.toNat
  run.first ≤ code && code ≤ run.last && (code - run.first) % run.step == 0

/-- The small letters of one character; a dotted capital I keeps its dot. -/
def lowerCharacter (character : Char) : List Char :=
  if character.toNat < 0x80 then [character.toLower]
  else if character.toNat == 0x130 then ['i', Char.ofNat 0x307]
  else match capitalRuns.find? (·.covers character) with
    | some run => [Char.ofNat (character.toNat + run.offset).toNat]
    | none => [character]

/-- Past the case-ignorable characters the text goes on with a cased one. -/
def reachesCased (text : List Char) : Bool :=
  ((text.dropWhile isCaseIgnorable).head?.map isCased).getD false

/-- A sigma ends a word if a cased character stands before it and none after it. -/
def sigma (before after : List Char) : Char :=
  if reachesCased before && !reachesCased after then 'ς' else 'σ'

/-- The walk keeps the characters already passed, the latest first. -/
def lowercaseAfter (before : List Char) : List Char → List Char
  | [] => []
  | character :: after =>
      (if character == 'Σ' then [sigma before after] else lowerCharacter character) ++
        lowercaseAfter (character :: before) after

def lowercase (text : List Char) : List Char := lowercaseAfter [] text

end ShaderAnalysis.Text
