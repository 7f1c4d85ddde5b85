/-
This file reads and writes the files of a directory by their paths.
-/

namespace ShaderAnalysis.CommandLine

/-- The reasons for which a file cannot be read or written. -/
inductive FileError where
  | missing
  | notDirectory
  | isDirectory
  | tooLong
  | notPath
  | notText
  deriving DecidableEq, Repr

def FileError.message : FileError → String
  | missing => "No such file or directory (os error 2)"
  | notDirectory => "Not a directory (os error 20)"
  | isDirectory => "Is a directory (os error 21)"
  | tooLong => "File name too long (os error 36)"
  | notPath => "file name contained an unexpected NUL byte"
  | notText => "stream did not contain valid UTF-8"

/-- The steps of a path between its slashes. -/
def pathSteps (path : String) : List String := (path.toList.splitOn '/').map String.ofList

/-- The steps that count: an empty step or a later dot leads nowhere. -/
def pathNames : List String → List String
  | [] => []
  | first :: rest =>
      let later := rest.filter fun step => step != "" && step != "."
      if first = "" then later else first :: later

/-- A path that is a dash stands for a standard stream. -/
def isStandard (path : String) : Bool :=
  !"/".toList.isPrefixOf path.toList && pathNames (pathSteps path) == ["-"]

/-- A name has at most this many bytes. -/
def nameLimit : Nat := 255

/-- A path has fewer bytes than this. -/
def pathLimit : Nat := 4096

def isLong (name : String) : Bool := nameLimit < name.utf8ByteSize

/-- A directory holds plain files by name. -/
structure Directory where
  files : List (String × ByteArray)

namespace Directory

def get? (directory : Directory) (name : String) : Option ByteArray :=
  (directory.files.find? (·.1 == name)).map (·.2)

def put (directory : Directory) (name : String) (contents : ByteArray) : Directory where
  files := (name, contents) :: directory.files.filter (·.1 != name)

/-- Where a path leads: to a directory, or to a file name inside or outside of the directory, with
or without a slash after it. -/
inductive Place where
  | directory
  | file (inside : Bool) (name : String) (slashed : Bool)
  deriving DecidableEq, Repr

/-- A path is followed step by step. Outside of the directory no file is known; `inside` tells that
the path has not left it. -/
def follow (directory : Directory) (inside : Bool) : List String → Except FileError Place
  | [] => .ok .directory
  | step :: rest =>
      if step = "" ∨ step = "." then follow directory inside rest
      else if step = ".." then follow directory false rest
      else if rest.all (· == "") then .ok (.file inside step !rest.isEmpty)
      else if isLong step then .error .tooLong
      else if inside && (directory.get? step).isSome then .error .notDirectory
      else .error .missing

/-- A path as a whole is refused before it is followed. -/
def locate (directory : Directory) (path : String) : Except FileError Place :=
  if path.toList.contains '\x00' then .error .notPath
  else if pathLimit ≤ path.utf8ByteSize then .error .tooLong
  else if path = "" then .error .missing
  else directory.follow (!"/".toList.isPrefixOf path.toList) (pathSteps path)

def read (directory : Directory) (path : String) : Except FileError ByteArray := do
  match ← directory.locate path with
  | .directory => throw .isDirectory
  | .file inside name slashed =>
      if isLong name then throw .tooLong
      else match if inside then directory.get? name else none with
        | none => throw .missing
        | some contents => if slashed then throw .notDirectory else return contents

/-- A file is written whole, over the file that had its name. A slash after the name asks for a
directory, whatever the name. -/
def write (directory : Directory) (path : String) (contents : ByteArray) :
    Except FileError Directory := do
  match ← directory.locate path with
  | .directory => throw .isDirectory
  | .file inside name slashed =>
      if slashed then throw .isDirectory
      else if isLong name then throw .tooLong
      else if inside then return directory.put name contents
      else throw .missing

/-- The files that are new or other than before. -/
def changesFrom (directory before : Directory) : List (String × ByteArray) :=
  directory.files.filter fun (name, contents) => before.get? name != some contents

theorem getPut (directory : Directory) (name : String) (contents : ByteArray) :
    (directory.put name contents).get? name = some contents := by
  simp [get?, put]

end Directory

end ShaderAnalysis.CommandLine
