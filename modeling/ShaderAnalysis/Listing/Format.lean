/-
This file names the formats of disassembly listings and tells them apart.
-/

namespace ShaderAnalysis

/-- The formats differ in how they delimit the shader body. -/
inductive ListingFormat where
  /-- The body stands between `Disassembly for` and `end`. -/
  | hsail
  /-- The body stands between `shader` and `end`. -/
  | shaderAnalyzer
  /-- The body stands between a disassembly marker and `end`. -/
  | shaderDump
  /-- The listing is all body, through the first `s_endpgm`. -/
  | raw
  /-- The listing itself shows its format. -/
  | auto
  deriving DecidableEq, Repr

namespace ListingFormat

def all : List ListingFormat := [hsail, shaderAnalyzer, shaderDump, raw, auto]

def name : ListingFormat → String
  | hsail => "HSAIL"
  | shaderAnalyzer => "ShaderAnalyzer"
  | shaderDump => "ShaderDump"
  | raw => "raw"
  | auto => "auto"

def ofName? (name : String) : Option ListingFormat := all.find? (·.name == name)

/-- The start of a listing gives an automatic format away. -/
def detect (format : ListingFormat) (text : List Char) : ListingFormat :=
  match format with
  | auto =>
      if "AMD Kernel Code for".toList.isPrefixOf text then hsail
      else if ";--------".toList.isPrefixOf text then shaderDump
      else shaderAnalyzer
  | explicit => explicit

theorem ofNameName (format : ListingFormat) : ofName? format.name = some format := by
  cases format <;> decide

theorem detectNotAuto (format : ListingFormat) (text : List Char) : format.detect text ≠ auto := by
  cases format <;> simp only [detect, ne_eq, reduceCtorEq, not_false_eq_true]
  split
  · simp
  · split <;> simp

end ListingFormat

end ShaderAnalysis
