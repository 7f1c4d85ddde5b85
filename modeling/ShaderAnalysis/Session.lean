/-
This file keeps the state of an analysis between its steps.
-/

import ShaderAnalysis.Opcode.Gcn
import ShaderAnalysis.Program.Source
import ShaderAnalysis.Report.Basic

namespace ShaderAnalysis

/-- A session holds an opcode table, and perhaps a program, its graph with live sets, and the nodes
that were solved. -/
structure Session where
  table : OpcodeTable := Gcn.opcodes
  program : Option Program := none
  graph : Option (Graph × LiveMap) := none
  order : Option (List Nat) := none

namespace Session

/-- A step that cannot be taken. -/
inductive Fault where
  | noProgram
  | noGraph
  | noLiveness
  | badIndex
  | source (error : SourceError)
  | name (error : UnknownName)
  deriving DecidableEq, Repr

/-- Only a source or a name at fault has something to say. -/
def Fault.message : Fault → String
  | source error => error.message
  | name error => error.message
  | _ => ""

/-- The tables to start from. -/
inductive Base where
  | gcn | empty
  deriving DecidableEq, Repr

def Base.table : Base → OpcodeTable
  | gcn => Gcn.opcodes
  | empty => .empty

inductive Step where
  | useTable (base : Base)
  | insert (opcode : Opcode)
  | get (name : String)
  | lookup (name : String)
  | load (source : Source)
  | block (label : String)
  | expand (start : Option Nat)
  | gather (direction : Direction) (start : Nat)
  | processingOrder
  | sweep (nodes : Option (List Nat))
  | solve
  | setOrder (nodes : List Nat)
  | programOrder
  | pressure (nodes : List Nat)
  | report (request : ReportRequest)
  deriving DecidableEq, Repr

inductive Reply where
  | table (table : OpcodeTable)
  | inserted (replaced : Option Opcode) (table : OpcodeTable)
  | opcode (opcode : Option Opcode)
  | program (program : Program)
  | block (found : Option (Nat × Block))
  | graph (graph : Graph)
  | nodes (nodes : List Nat)
  | swept (changed : Bool) (live : LiveMap)
  | solved (solution : Solution)
  | done
  | pressure (pressure : Pressure)
  | report (text : String)

def needProgram (session : Session) : Except Fault Program :=
  match session.program with
  | some program => .ok program
  | none => .error .noProgram

def needGraph (session : Session) : Except Fault (Graph × LiveMap) :=
  match session.graph with
  | some graph => .ok graph
  | none => .error .noGraph

def needOrder (session : Session) : Except Fault (List Nat) :=
  match session.order with
  | some order => .ok order
  | none => .error .noLiveness

def needNodes (graph : Graph) (nodes : List Nat) : Except Fault Unit :=
  if nodes.all (· < graph.size) then .ok () else .error .badIndex

/-- A report on the state as it is, with nothing expanded or solved for it. -/
def report (session : Session) (request : ReportRequest) : Except Fault String := do
  let program ← session.needProgram
  match ← request.report.mapError Fault.name with
  | .instructionGraph =>
      let graph ← session.needGraph
      return Dot.instructions program graph.1
  | .liveness summaryOnly =>
      let graph ← session.needGraph
      let order ← session.needOrder
      return RegisterReport.liveness graph.1 graph.2 order summaryOnly
  | other => return other.render program

/-- A step gives a reply and the session after it, or a fault. -/
def step (session : Session) : Step → Except Fault (Session × Reply)
  | .useTable base => return ({ session with table := base.table }, .table base.table)
  | .insert opcode =>
      let table := session.table.insert opcode
      return ({ session with table }, .inserted (session.table.get? opcode.name) table)
  | .get name => return (session, .opcode (session.table.get? name))
  | .lookup name => return (session, .opcode (some (session.table.lookup name)))
  | .load source => do
      let program ← (source.read session.table).mapError Fault.source
      return ({ session with program := some program, graph := none, order := none },
        .program program)
  | .block label => do
      let program ← session.needProgram
      let found := (program.indexOf? label).bind fun index =>
        program.blocks[index]?.map fun block => (index, block)
      return (session, .block found)
  | .expand start => do
      let program ← session.needProgram
      let start := start.getD program.entry
      if start < program.blocks.length then
        let graph := Graph.expandFrom program start
        return ({ session with graph := some (graph, .fresh graph), order := none }, .graph graph)
      else throw .badIndex
  | .gather direction start => do
      let graph ← session.needGraph
      needNodes graph.1 [start]
      return (session, .nodes (graph.1.gather direction start))
  | .processingOrder => do
      let graph ← session.needGraph
      return (session, .nodes graph.1.processingOrder)
  | .sweep nodes => do
      let graph ← session.needGraph
      let nodes := nodes.getD graph.1.processingOrder
      needNodes graph.1 nodes
      let swept := graph.2.sweep graph.1 nodes
      return ({ session with graph := some (graph.1, swept.1) }, .swept swept.2 swept.1)
  | .solve => do
      let graph ← session.needGraph
      let solution := ShaderAnalysis.solve graph.1 graph.2
      return ({ session with graph := some (graph.1, solution.live), order := some solution.order },
        .solved solution)
  | .setOrder nodes => do
      let graph ← session.needGraph
      needNodes graph.1 nodes
      return ({ session with order := some nodes }, .done)
  | .programOrder => do
      let order ← session.needOrder
      let graph ← session.needGraph
      return (session, .nodes (graph.1.programOrder order))
  | .pressure nodes => do
      let graph ← session.needGraph
      needNodes graph.1 nodes
      return (session, .pressure (.ofNodes graph.1 graph.2 nodes))
  | .report request => do
      let text ← session.report request
      return (session, .report text)

/-- A step with an unknown name, or at fault otherwise, leaves the session as it was. -/
def run (session : Session) : List (Except UnknownName Step) → List (Except Fault Reply)
  | [] => []
  | .error error :: rest => .error (.name error) :: session.run rest
  | .ok step :: rest =>
      match session.step step with
      | .ok (next, reply) => .ok reply :: next.run rest
      | .error fault => .error fault :: session.run rest

end Session

end ShaderAnalysis
