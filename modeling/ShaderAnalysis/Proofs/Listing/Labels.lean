/-
This file shows which label an instruction carries and which of the declared labels are lost.
-/

import ShaderAnalysis.Opcode.Gcn
import ShaderAnalysis.Proofs.Listing.Reading
import ShaderAnalysis.Proofs.Program.GeneratedLabels

namespace ShaderAnalysis

namespace Listing

/-- A line holds an instruction if it is no metadata and declares no label. -/
def holdsInstruction (line : TokenLine) : Bool :=
  !isMetadata line.head && (label? line.head).isNone

/-- The instruction of a line with the label that waits for it. -/
def decodeLine (table : OpcodeTable) (label : Option String) (line : TokenLine) : Instruction :=
  .decode table line.encoded line.head (operandsOf line.tail) label

/-- The last of some lines that is no metadata. -/
def lastMeant? (lines : List TokenLine) : Option TokenLine :=
  lines.reverse.find? (!isMetadata ·.head)

/-- The last line that is no metadata decides which label waits behind some lines: the one that it
declares, or none if it holds an instruction. -/
def waiting (pending : Option String) (lines : List TokenLine) : Option String :=
  (lastMeant? lines).elim pending (label? ·.head)

theorem labelIff {token label : String} : label? token = some label ↔ token = label ++ ":" := by
  constructor
  · exact fun found => (labelColon found).symm
  · rintro rfl
    exact colonLabel label

theorem instructionsOk {table : OpcodeTable} {format : ListingFormat} {text : String}
    {stream : List Instruction} : instructions table format text = .ok stream ↔
      ∃ body, Body.read format text.toList = .ok body ∧ decode table body = stream :=
  Program.mapOk

section

variable (table : OpcodeTable) (pending : Option String)

theorem lastMeantAppend (first second : List TokenLine) :
    lastMeant? (first ++ second) = (lastMeant? second).or (lastMeant? first) := by
  simp [lastMeant?]

theorem waitingAppend (first second : List TokenLine) :
    waiting pending (first ++ second) = waiting (waiting pending first) second := by
  unfold waiting
  rw [lastMeantAppend]
  cases lastMeant? second <;> rfl

theorem waitingSingle (line : TokenLine) :
    waiting pending [line] = if isMetadata line.head = true then pending else label? line.head := by
  cases metadata : isMetadata line.head <;> simp [waiting, lastMeant?, metadata]

theorem waitingCons (line : TokenLine) (rest : List TokenLine) :
    waiting pending (line :: rest) =
      waiting (if isMetadata line.head = true then pending else label? line.head) rest := by
  rw [← waitingSingle, ← waitingAppend, List.singleton_append]

/-- Some lines are decoded whatever comes behind them, and the label that then waits is all that
the lines behind them need. -/
theorem decodeFromAppend (first second : List TokenLine) :
    decodeFrom table pending (first ++ second) =
      decodeFrom table pending first ++ decodeFrom table (waiting pending first) second := by
  fun_induction decodeFrom table pending first with
  | case1 pending => rfl
  | case2 pending line rest metadata inductionHypothesis =>
      rw [List.cons_append, decodeFrom, if_pos metadata, inductionHypothesis, waitingCons,
        if_pos metadata]
  | case3 pending line rest means label labels inductionHypothesis =>
      rw [List.cons_append, decodeFrom, if_neg means, labels, waitingCons, if_neg means, labels]
      exact inductionHypothesis
  | case4 pending line rest means decodes inductionHypothesis =>
      rw [List.cons_append, decodeFrom, if_neg means, decodes, waitingCons, if_neg means, decodes,
        List.cons_append, ← inductionHypothesis]

/-- Each line that holds an instruction gives one instruction, in the order of the lines. -/
theorem decodeFromLines (lines : List TokenLine) :
    List.Forall₂ (fun line instruction => ∃ label, instruction = decodeLine table label line)
      (lines.filter holdsInstruction) (decodeFrom table pending lines) := by
  fun_induction decodeFrom table pending lines with
  | case1 pending => exact .nil
  | case2 pending line rest metadata inductionHypothesis =>
      rw [List.filter_cons_of_neg (by simp [holdsInstruction, metadata])]
      exact inductionHypothesis
  | case3 pending line rest means label labels inductionHypothesis =>
      rw [List.filter_cons_of_neg (by simp [holdsInstruction, labels])]
      exact inductionHypothesis
  | case4 pending line rest means decodes inductionHypothesis =>
      rw [List.filter_cons_of_pos (by simpa [holdsInstruction, decodes] using means)]
      exact .cons ⟨pending, rfl⟩ inductionHypothesis

/-- The instruction of a line carries the label that waits behind the lines before it. -/
theorem decodeFromAt {line : TokenLine} (holds : holdsInstruction line = true)
    (before behind : List TokenLine) :
    (decodeFrom table pending
      (before ++ line :: behind))[(before.filter holdsInstruction).length]? =
      some (decodeLine table (waiting pending before) line) := by
  obtain ⟨means, decodes⟩ : isMetadata line.head = false ∧ label? line.head = none := by
    simpa [holdsInstruction] using holds
  rw [decodeFromAppend, (decodeFromLines table pending before).length_eq,
    List.getElem?_append_right (Nat.le_refl _), Nat.sub_self, decodeFrom, if_neg (by simp [means]),
    decodes]
  rfl

end

/-- Only a token that is no metadata can have declared a label that waits. -/
theorem waitingMeans {lines : List TokenLine} {label : String}
    (waits : waiting none lines = some label) : isMetadata (label ++ ":") = false := by
  unfold waiting at waits
  cases found : lastMeant? lines with
  | none => simp [found] at waits
  | some last =>
      rw [found, Option.elim_some, labelIff] at waits
      rw [← waits]
      simpa using List.find?_some found

/-- A label that a line of the body declares, and the first line with an instruction behind it. -/
structure Declaration (body : List TokenLine) where
  before : List TokenLine
  line : TokenLine
  between : List TokenLine
  target : TokenLine
  behind : List TokenLine
  label : String
  splits : body = before ++ line :: (between ++ target :: behind)
  declares : line.head = label ++ ":"
  passes : ∀ other ∈ between, holdsInstruction other = false
  decodes : holdsInstruction target = true

namespace Declaration

variable {body : List TokenLine} (declaration : Declaration body)

/-- The position that the instruction behind the declaration has in the stream. -/
def position : Nat := (declaration.before.filter holdsInstruction).length

/-- A declaration counts if it is not taken for metadata, and if no other label is declared between
it and the instruction. -/
structure Counts : Prop where
  means : isMetadata declaration.line.head = false
  last : ∀ other, lastMeant? declaration.between = some other → other.head = declaration.line.head

/-- What waits for the instruction is the declared label exactly if the declaration counts. -/
theorem waitingIff :
    waiting none (declaration.before ++ declaration.line :: declaration.between) =
      some declaration.label ↔ declaration.Counts := by
  have declares := declaration.declares
  constructor
  · intro waits
    have means : isMetadata declaration.line.head = false := by
      rw [declares]
      exact waitingMeans waits
    refine ⟨means, fun other found => ?_⟩
    rw [waitingAppend, waitingCons, waiting, found, Option.elim_some, labelIff] at waits
    rw [waits, declares]
  · rintro ⟨means, last⟩
    rw [waitingAppend, waitingCons, if_neg (by simp [means]), waiting]
    cases found : lastMeant? declaration.between with
    | none => rw [Option.elim_none, labelIff, declares]
    | some other => rw [Option.elim_some, labelIff, last other found, declares]

theorem positionBehind :
    ((declaration.before ++ declaration.line :: declaration.between).filter
      holdsInstruction).length = declaration.position := by
  have declares : holdsInstruction declaration.line = false := by
    simp [holdsInstruction, declaration.declares, colonLabel]
  have passes : declaration.between.filter holdsInstruction = [] := by
    simpa using declaration.passes
  rw [List.filter_append, List.filter_cons_of_neg (by simp [declares]), passes, List.append_nil]
  rfl

theorem decodeTarget (table : OpcodeTable) :
    (decode table body)[declaration.position]? = some (decodeLine table
      (waiting none (declaration.before ++ declaration.line :: declaration.between))
      declaration.target) := by
  have whole : decode table body = decodeFrom table none
      ((declaration.before ++ declaration.line :: declaration.between) ++
        declaration.target :: declaration.behind) :=
    congrArg (decode table) (declaration.splits.trans (by simp))
  rw [whole, ← positionBehind]
  exact decodeFromAt table none declaration.decodes _ _

end Declaration

end Listing

/-- A label that an instruction carries is never reported as unknown. -/
theorem Program.carriedResolved {stream : List Instruction} {position : Nat}
    {instruction : Instruction} {label : String} (found : stream[position]? = some instruction)
    (carried : instruction.label = some label) (block : String) :
    Program.build stream ≠ .error (.unresolvedTarget block label) := by
  intro failed
  have own : label ∈ ownLabels stream :=
    List.mem_filterMap.mpr ⟨instruction, List.mem_of_getElem? found, carried⟩
  have named : label ∈ blockLabels stream := by
    have leader := (leaderLabelsPerm 1 true stream).mem_iff.mpr (List.mem_append_left _ own)
    simp [blockLabels, leader]
  cases faultOfBuild failed with
  | unresolved first aims => exact first.unresolved fun _ => ⟨label, named, aims⟩

namespace Listing

/-- A declared label is carried by the first instruction behind its declaration exactly if the
declaration counts, and a branch or jump to it then has a target. -/
theorem carriedExactlyIfCounted {table : OpcodeTable} {format : ListingFormat} {text : String}
    {stream : List Instruction} (read : instructions table format text = .ok stream) :
    ∃ body, Body.read format text.toList = .ok body ∧ ∀ declaration : Declaration body,
      ∃ carried, stream[declaration.position]? =
          some (decodeLine table carried declaration.target) ∧
        (carried = some declaration.label ↔ declaration.Counts) ∧
        (declaration.Counts → ∀ block,
          Program.build stream ≠ .error (.unresolvedTarget block declaration.label)) := by
  obtain ⟨body, found, rfl⟩ := instructionsOk.mp read
  refine ⟨body, found, fun declaration => ⟨_, declaration.decodeTarget table,
    declaration.waitingIff, fun counts => ?_⟩⟩
  exact Program.carriedResolved (declaration.decodeTarget table) (declaration.waitingIff.mpr counts)

/-- Metadata stands between the label of the loop and its first instruction. -/
def loopListing : String := "shader main\nloop:\nasic(VI)\ns_nop 0\ns_branch loop\nend"

/-- The lines between `shader` and `end`. -/
def loopBody : List TokenLine :=
  [⟨2, none, "loop:", []⟩, ⟨3, none, "asic(VI)", []⟩, ⟨4, none, "s_nop", ["0"]⟩,
    ⟨5, none, "s_branch", ["loop"]⟩]

def loopDeclaration : Declaration loopBody where
  before := []
  line := ⟨2, none, "loop:", []⟩
  between := [⟨3, none, "asic(VI)", []⟩]
  target := ⟨4, none, "s_nop", ["0"]⟩
  behind := [⟨5, none, "s_branch", ["loop"]⟩]
  label := "loop"
  splits := rfl
  declares := by decide
  passes := by decide
  decodes := by decide

theorem loopLabelCarried : ∃ stream,
    instructions Gcn.opcodes .shaderAnalyzer loopListing = .ok stream ∧
    loopDeclaration.Counts ∧ stream[0]?.bind (·.label) = some "loop" ∧
    ∀ block, Program.build stream ≠ .error (.unresolvedTarget block "loop") := by
  have counts : loopDeclaration.Counts := ⟨by decide, by decide⟩
  have same : Body.read .shaderAnalyzer loopListing.toList = .ok loopBody := by decide +kernel
  have read : instructions Gcn.opcodes .shaderAnalyzer loopListing =
      .ok (decode Gcn.opcodes loopBody) := instructionsOk.mpr ⟨_, same, rfl⟩
  obtain ⟨body, found, carries⟩ := carriedExactlyIfCounted read
  obtain rfl := Except.ok.inj (same.symm.trans found)
  obtain ⟨carried, place, exactly, resolved⟩ := carries loopDeclaration
  refine ⟨_, read, counts, ?_, resolved counts⟩
  rw [show loopDeclaration.position = 0 from rfl] at place
  rw [place, Option.bind_some]
  exact exactly.mpr counts

/-- The label of the loop starts like metadata. -/
def hiddenListing : String := "shader main\ntype_0:\ns_nop 0\ns_branch type_0\nend"

def hiddenBody : List TokenLine :=
  [⟨2, none, "type_0:", []⟩, ⟨3, none, "s_nop", ["0"]⟩, ⟨4, none, "s_branch", ["type_0"]⟩]

def hiddenDeclaration : Declaration hiddenBody where
  before := []
  line := ⟨2, none, "type_0:", []⟩
  between := []
  target := ⟨3, none, "s_nop", ["0"]⟩
  behind := [⟨4, none, "s_branch", ["type_0"]⟩]
  label := "type_0"
  splits := rfl
  declares := by decide
  passes := by decide
  decodes := by decide

/-- A label is declared in front of an instruction, but no instruction carries it, and the jump to
it has no target. -/
theorem hiddenLabelLost : Body.read .shaderAnalyzer hiddenListing.toList = .ok hiddenBody ∧
    hiddenDeclaration.label = "type_0" ∧ ∃ stream,
      instructions Gcn.opcodes .shaderAnalyzer hiddenListing = .ok stream ∧
      (∀ instruction ∈ stream, instruction.label ≠ some hiddenDeclaration.label) ∧
      Program.build stream = .error (.unresolvedTarget "basic_block_1" "type_0") := by
  have found : Body.read .shaderAnalyzer hiddenListing.toList = .ok hiddenBody := by decide +kernel
  refine ⟨found, rfl, _, instructionsOk.mpr ⟨_, found, rfl⟩, ?_, ?_⟩
  · decide +kernel
  · decide +kernel

end Listing

end ShaderAnalysis
