/-
This file runs invocations on the files and streams of the system.
-/

import ShaderAnalysis.CommandLine.Run

namespace ShaderAnalysis

open CommandLine

def usage : String :=
  "usage: " ++ programName ++ " [-f FORMAT] COMMAND [SWITCHES] INPUT OUTPUT\n" ++
    "commands: " ++ ", ".intercalate (Command.all.map Command.name) ++ "\n"

/-- The errors of a directory by the number that the system gives them, with either sign. -/
def fileError? (code : UInt32) : Option FileError :=
  match (min code (0 - code)).toNat with
  | 2 => some .missing
  | 20 => some .notDirectory
  | 21 => some .isDirectory
  | 36 => some .tooLong
  | _ => none

/-- The message of an error of the system; those known to directories have the same text. -/
def systemMessage (error : IO.Error) : String :=
  let known := match error with
    | .noFileOrDirectory _ code _ => fileError? code
    | .inappropriateType _ code _ => fileError? code
    | .invalidArgument _ code _ => fileError? code
    | _ => none
  (known.map FileError.message).getD (toString error)

def readContents (path : String) : IO ByteArray := do
  if isStandard path then (← IO.getStdin).readBinToEnd else IO.FS.readBinFile path

def writeReport (path report : String) : IO Unit := do
  if isStandard path then
    let output ← IO.getStdout
    output.putStr report
    output.flush
  else IO.FS.writeFile path report

/-- The arguments are answered on the standard streams alone. -/
def refuse (error : ArgumentError) : IO Unit := do
  match error with
  | .helpWanted => IO.print usage
  | .versionWanted command => IO.print (versionLine command)
  | _ => IO.eprint usage

def perform (invocation : Invocation) : IO UInt32 := do
  let fail (message : String) : IO UInt32 := do
    IO.eprintln ("error: " ++ message)
    return 1
  try
    match textOf (← readContents invocation.input) with
    | .error error => fail (RunError.file error).message
    | .ok text =>
        match invocation.render text with
        | .error error => fail (RunError.program error).message
        | .ok report =>
            writeReport invocation.output report
            return 0
  catch error => fail ("I/O error: " ++ systemMessage error)

end ShaderAnalysis

open ShaderAnalysis CommandLine in
/-- The result is the exit status. -/
def main (arguments : List String) : IO UInt32 := do
  match Invocation.parse arguments with
  | .ok invocation => perform invocation
  | .error error =>
      refuse error
      return (RunError.arguments error).status
