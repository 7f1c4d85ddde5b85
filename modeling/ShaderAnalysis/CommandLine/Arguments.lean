/-
This file reads arguments by a grammar of switches, words and commands.
-/

import ShaderAnalysis.CommandLine.Similarity

namespace ShaderAnalysis.CommandLine

/-- Arguments that ask for no report. -/
inductive ArgumentError where
  | helpWanted
  | versionWanted (command : Option String)
  | commandMissing
  | commandClose
  | commandUnknown
  | argumentUnknown
  | wordMissing
  | valueMissing
  | valueInvalid
  | valueUnwanted
  | switchRepeated
  deriving DecidableEq, Repr

/-- A switch has a letter and a name, and it takes a value if it can tell valid values. -/
structure Switch where
  letter : Char
  name : String
  valid : Option (String → Bool) := none

/-- A grammar has switches, a number of words that are all needed, and commands that end it. -/
structure Grammar where
  switches : List Switch
  words : Nat := 0
  commands : List String := []

def helpSwitch : Switch := { letter := 'h', name := "help" }

def versionSwitch : Switch := { letter := 'V', name := "version" }

/-- Every grammar can be asked for help and for the version. -/
def Grammar.allSwitches (grammar : Grammar) : List Switch :=
  grammar.switches ++ [helpSwitch, versionSwitch]

/-- What the arguments have given so far: each occurrence of a switch, the values with the names of
their switches, the words, the switch that waits for its value, and whether switches are over. -/
structure Given where
  occurrences : List String := []
  values : List (String × String) := []
  words : List String := []
  waiting : Option Switch := none
  escaped : Bool := false

namespace Given

/-- A switch occurs with the value that is attached to it, or else waits for one if it takes any.
Help and version are wanted at once. -/
def occur (given : Given) (command : Option String) (switch : Switch) (attached : Option String) :
    Except ArgumentError Given :=
  let occurrences := given.occurrences ++ [switch.name]
  match switch.valid, attached with
  | none, some _ => .error .valueUnwanted
  | none, none =>
      if switch.name = helpSwitch.name then .error .helpWanted
      else if switch.name = versionSwitch.name then .error (.versionWanted command)
      else .ok { given with occurrences, waiting := none }
  | some _, some value =>
      .ok { given with
        occurrences, values := given.values ++ [(switch.name, value)], waiting := none }
  | some _, none => .ok { given with occurrences, waiting := some switch }

/-- A name and its attached value are divided by an equals sign. -/
def readName (given : Given) (grammar : Grammar) (command : Option String) (text : List Char) :
    Except ArgumentError Given :=
  let name := String.ofList (text.takeWhile (· != '='))
  let attached := match text.dropWhile (· != '=') with
    | [] => none
    | _ :: value => some (String.ofList value)
  match grammar.allSwitches.find? (·.name == name) with
  | none => .error .argumentUnknown
  | some switch => given.occur command switch attached

/-- Letters stand together until one takes the rest as its value, with or without an equals sign. -/
def readLetters (given : Given) (grammar : Grammar) (command : Option String) :
    List Char → Except ArgumentError Given
  | [] => .ok given
  | letter :: rest =>
      match grammar.allSwitches.find? (·.letter == letter) with
      | none => .error .argumentUnknown
      | some switch =>
          if switch.valid.isSome then
            given.occur command switch <| match rest with
              | [] => none
              | '=' :: value => some (String.ofList value)
              | value => some (String.ofList value)
          else do
            let next ← given.occur command switch none
            next.readLetters grammar command rest

/-- A word beyond those of the grammar may be meant as a command. -/
def surplus (given : Given) (grammar : Grammar) (word : String) : ArgumentError :=
  if given.escaped && grammar.commands.contains word then .argumentUnknown
  else if grammar.commands.any fun command => isClose word.toList command.toList then .commandClose
  else .argumentUnknown

/-- No switch waits any longer once a word is read. -/
def readWord (given : Given) (grammar : Grammar) (word : String) : Except ArgumentError Given :=
  if given.words.length < grammar.words then
    .ok { given with words := given.words ++ [word], waiting := none }
  else .error (given.surplus grammar word)

/-- A single argument that names no command. Two dashes alone end the switches; a dash alone is a
word. -/
def readArgument (given : Given) (grammar : Grammar) (command : Option String)
    (argument : String) : Except ArgumentError Given :=
  if given.escaped then given.readWord grammar argument
  else match argument.toList with
    | ['-', '-'] => .ok { given with escaped := true }
    | '-' :: '-' :: text => given.readName grammar command text
    | '-' :: letter :: letters => given.readLetters grammar command (letter :: letters)
    | _ => match given.waiting with
        | some switch =>
            .ok { given with
              values := given.values ++ [(switch.name, argument)], waiting := none }
        | none => given.readWord grammar argument

/-- The arguments up to a command, with that command and the arguments after it. -/
def read (given : Given) (grammar : Grammar) (command : Option String) :
    List String → Except ArgumentError (Given × Option (String × List String))
  | [] => .ok (given, none)
  | argument :: rest =>
      if !given.escaped && given.waiting.isNone && grammar.commands.contains argument then
        .ok (given, some (argument, rest))
      else do
        let next ← given.readArgument grammar command argument
        next.read grammar command rest

def valuesOf (given : Given) (name : String) : List String :=
  (given.values.filter (·.1 == name)).map (·.2)

/-- A switch that occurs and takes a value needs at least one. -/
def lacksValue (given : Given) (switch : Switch) : Bool :=
  switch.valid.isSome && given.occurrences.contains switch.name &&
    (given.valuesOf switch.name).isEmpty

/-- A switch that waits still must have had a value before. -/
def isStarved (given : Given) : Bool :=
  match given.waiting with
  | some switch => (given.valuesOf switch.name).isEmpty
  | none => false

def hasInvalid (given : Given) (grammar : Grammar) : Bool :=
  grammar.switches.any fun switch => match switch.valid with
    | some valid => (given.valuesOf switch.name).any (!valid ·)
    | none => false

def hasRepeated (given : Given) (grammar : Grammar) : Bool :=
  grammar.switches.any fun switch => 1 < given.occurrences.count switch.name

/-- The first fault of complete arguments; `commanded` tells that they ended with a command. A value
is missed first at the end of the arguments, and elsewhere only if all words are there. -/
def check (given : Given) (grammar : Grammar) (commanded : Bool) : Except ArgumentError Unit :=
  if given.isStarved then .error .valueMissing
  else if !grammar.commands.isEmpty && !commanded then .error .commandMissing
  else if given.words.length < grammar.words then .error .wordMissing
  else if grammar.switches.any given.lacksValue then .error .valueMissing
  else if given.hasInvalid grammar then .error .valueInvalid
  else if given.hasRepeated grammar then .error .switchRepeated
  else .ok ()

end Given

end ShaderAnalysis.CommandLine
