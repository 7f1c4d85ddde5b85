/-
This file lays text out in columns and lines.
-/

namespace ShaderAnalysis.Text

/-- A left column holds its text first and is filled with spaces up to its width. -/
def leftColumn (width : Nat) (text : String) : String :=
  text ++ String.ofList (List.replicate (width - text.length) ' ')

/-- A right column holds its text last and is filled with spaces up to its width. -/
def rightColumn (width : Nat) (text : String) : String :=
  String.ofList (List.replicate (width - text.length) ' ') ++ text

/-- Every line ends with a line feed. -/
def unlines (lines : List String) : String :=
  String.join (lines.map (· ++ "\n"))

theorem leftColumnLength (width : Nat) (text : String) :
    (leftColumn width text).length = max width text.length := by
  simp only [leftColumn, String.length_append, String.length_ofList, List.length_replicate]
  omega

theorem rightColumnLength (width : Nat) (text : String) :
    (rightColumn width text).length = max width text.length := by
  simp only [rightColumn, String.length_append, String.length_ofList, List.length_replicate]
  omega

end ShaderAnalysis.Text
