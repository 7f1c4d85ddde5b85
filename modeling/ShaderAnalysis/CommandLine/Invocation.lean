/-
This file turns arguments into the report that they ask for.
-/

import ShaderAnalysis.CommandLine.Arguments
import ShaderAnalysis.Opcode.Gcn
import ShaderAnalysis.Program.Read
import ShaderAnalysis.Report.Basic

namespace ShaderAnalysis.CommandLine

/-- The commands, one for each report. -/
inductive Command where
  | blockGraph | instructionGraph | blockRegisters | liveness | histogram
  deriving DecidableEq, Repr

namespace Command

def all : List Command := [blockGraph, instructionGraph, blockRegisters, liveness, histogram]

def name : Command → String
  | blockGraph => "dump-bb-cfg"
  | instructionGraph => "dump-pi-cfg"
  | blockRegisters => "dump-bb-vgpr"
  | liveness => "analyse-liveness"
  | histogram => "opcode-histogram"

/-- Other spellings of a command. -/
def aliases : Command → List String
  | liveness => ["analyze-liveness"]
  | _ => []

def names (command : Command) : List String := command.name :: command.aliases

def ofName? (name : String) : Option Command := all.find? (·.names.contains name)

def compactSwitch : Switch := { letter := 'c', name := "compact" }

def summarySwitch : Switch := { letter := 's', name := "summary" }

def groupSwitch : Switch where
  letter := 'g'
  name := "group"
  valid := some fun value => (Grouping.ofName? value).isSome

/-- A command has its own switch and the words for input and output. -/
def grammar (command : Command) : Grammar where
  switches := match command with
    | blockGraph => [compactSwitch]
    | liveness => [summarySwitch]
    | histogram => [groupSwitch]
    | _ => []
  words := 2

def report (command : Command) (given : Given) : Report :=
  match command with
  | blockGraph => .blockGraph (given.occurrences.contains compactSwitch.name)
  | instructionGraph => .instructionGraph
  | blockRegisters => .blockRegisters
  | liveness => .liveness (given.occurrences.contains summarySwitch.name)
  | histogram =>
      .histogram (((given.valuesOf groupSwitch.name).head?.bind Grouping.ofName?).getD .mnemonic)

end Command

def helpCommand : String := "help"

def formatSwitch : Switch where
  letter := 'f'
  name := "format"
  valid := some fun value => (ListingFormat.ofName? value).isSome

/-- The format comes first, and then a command is needed. -/
def outerGrammar : Grammar where
  switches := [formatSwitch]
  commands := Command.all.flatMap Command.names ++ [helpCommand]

/-- Help is given on a command that is named, and no command has commands of its own. -/
def helpOn : List String → ArgumentError
  | [] => .helpWanted
  | [word] => if outerGrammar.commands.contains word then .helpWanted else .commandUnknown
  | _ => .commandUnknown

/-- An invocation asks for a report on an input in some format, to be written to an output. -/
structure Invocation where
  format : ListingFormat
  report : Report
  input : String
  output : String
  deriving DecidableEq, Repr

/-- The arguments of the command are checked before those in front of it. -/
def Invocation.parse (arguments : List String) : Except ArgumentError Invocation := do
  let (outer, ending) ← ({} : Given).read outerGrammar none arguments
  match ending with
  | none =>
      outer.check outerGrammar false
      throw .commandMissing
  | some (name, rest) =>
      match Command.ofName? name with
      | none => throw (helpOn rest)
      | some command =>
          let (inner, _) ← ({} : Given).read command.grammar (some command.name) rest
          inner.check command.grammar false
          outer.check outerGrammar true
          match inner.words with
          | [input, output] =>
              let format := (outer.valuesOf formatSwitch.name).head?.bind ListingFormat.ofName?
              return ⟨format.getD .auto, command.report inner, input, output⟩
          | _ => throw .wordMissing

/-- The report on the contents of the input. -/
def Invocation.render (invocation : Invocation) (contents : String) :
    Except ProgramError String :=
  (Program.read Gcn.opcodes invocation.format contents).map invocation.report.render

end ShaderAnalysis.CommandLine
