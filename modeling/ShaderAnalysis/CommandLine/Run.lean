/-
This file runs invocations in a directory.
-/

import ShaderAnalysis.CommandLine.Directory
import ShaderAnalysis.CommandLine.Invocation

namespace ShaderAnalysis.CommandLine

/-- A run fails by its arguments, its program or its files. -/
inductive RunError where
  | arguments (error : ArgumentError)
  | program (error : ProgramError)
  | file (error : FileError)
  deriving DecidableEq, Repr

/-- Faults of the arguments are told by their kind alone. -/
def RunError.message : RunError → String
  | arguments _ => ""
  | program error => error.message
  | file error => "I/O error: " ++ error.message

/-- Help and version end a run well, other arguments without a report end it with two, and all else
that fails with one. -/
def RunError.status : RunError → UInt32
  | arguments .helpWanted => 0
  | arguments (.versionWanted _) => 0
  | arguments _ => 2
  | _ => 1

def programName : String := "shae"

def programVersion : String := "0.1.0"

/-- A command has its own name for the version. -/
def versionLine (command : Option String) : String :=
  match command with
  | none => programName ++ " " ++ programVersion ++ "\n"
  | some name => programName ++ "-" ++ name ++ " " ++ programVersion ++ "\n"

/-- Contents are text in UTF-8. -/
def textOf (contents : ByteArray) : Except FileError String :=
  match String.fromUTF8? contents with
  | some text => .ok text
  | none => .error .notText

/-- What a run leaves behind: its standard output and its directory. -/
structure Outcome where
  output : String
  directory : Directory
  error : Option RunError := none

/-- The exit status of a run. -/
def Outcome.status (outcome : Outcome) : UInt32 :=
  match outcome.error with
  | none => 0
  | some error => error.status

/-- The line on standard error for a fault that is not in the arguments. -/
def RunError.complaint? : RunError → Option String
  | arguments _ => none
  | error => some ("error: " ++ error.message)

def Outcome.complaint? (outcome : Outcome) : Option String :=
  outcome.error.bind RunError.complaint?

/-- The input is read and the report made before anything is written. -/
def Invocation.execute (invocation : Invocation) (directory : Directory) (input : ByteArray) :
    Except RunError Outcome := do
  let contents ← if isStandard invocation.input then pure input
    else (directory.read invocation.input).mapError .file
  let text ← (textOf contents).mapError RunError.file
  let report ← (invocation.render text).mapError RunError.program
  if isStandard invocation.output then return ⟨report, directory, none⟩
  else
    let written ← (directory.write invocation.output report.toUTF8).mapError .file
    return ⟨"", written, none⟩

/-- A run that fails leaves its directory as it was. -/
def run (arguments : List String) (directory : Directory) (input : ByteArray) : Outcome :=
  match Invocation.parse arguments with
  | .error error =>
      let output := match error with
        | .versionWanted command => versionLine command
        | _ => ""
      ⟨output, directory, some (.arguments error)⟩
  | .ok invocation =>
      match invocation.execute directory input with
      | .ok outcome => outcome
      | .error error => ⟨"", directory, some error⟩

end ShaderAnalysis.CommandLine
