/-
This file reports the use of registers by block and by instruction.
-/

import ShaderAnalysis.Liveness.Pressure
import ShaderAnalysis.Liveness.Solve
import ShaderAnalysis.Text.Column

namespace ShaderAnalysis.RegisterReport

open Text

def blockLine (block : Block) : String :=
  let use := block.registers
  "Block: " ++ rightColumn 16 block.label ++ " | Read: " ++
    rightColumn 4 (toString use.read.size) ++ " | Written: " ++
    rightColumn 4 (toString use.written.size)

/-- The registers that each block reads and writes, whatever control does. -/
def blocks (program : Program) : String := unlines (program.blocks.map blockLine)

/-- The state of a register at an instruction. -/
def stateMark (use : RegisterUse) (live : RegisterSet) (register : Nat) : Char :=
  match use.read.contains register, use.written.contains register with
  | true, true => 'x'
  | true, false => 'v'
  | false, true => '^'
  | false, false => if live.contains register then ':' else ' '

/-- The marks of the allocated registers in ascending order. -/
def states (use : RegisterUse) (live : RegisterSet) (allocated : Nat) : String :=
  String.ofList ((List.range allocated).map (stateMark use live))

def legend : List String :=
  ["Legend:",
   "  ':' means that the register is kept alive, while it is not actively being used by the " ++
     "current instruction",
   "  '^' means that the current instruction writes to the register",
   "  'v' means that the current instruction reads from the register",
   "  'x' means that the current instruction both reads from the register and writes to it",
   " 'Rn': Number of live registers",
   ""]

def header (allocated : Nat) : List String :=
  [" Line | Rn  | " ++ leftColumn allocated "Reg State" ++ " | Instruction",
   String.ofList (List.replicate 122 '-')]

/-- The row of a node with its line number; a node without an instruction has no row. -/
def row (graph : Graph) (live : LiveMap) (allocated line node : Nat) : Option String :=
  (graph.instruction? node).map fun instruction =>
    let registers := (live.setsAt node).live
    rightColumn 5 (toString line) ++ " | " ++ rightColumn 3 (toString registers.size) ++ " | " ++
      leftColumn 9 (states instruction.registers registers allocated) ++ " | " ++
      instruction.render

/-- Every node takes a line number, whether it has a row or not. -/
def rows (graph : Graph) (live : LiveMap) (allocated : Nat) (nodes : List Nat) : List String :=
  nodes.zipIdx.filterMap fun (node, line) => row graph live allocated line node

def summaryLine (pressure : Pressure) : String :=
  "Maximum # VGPR used " ++ rightColumn 3 (toString pressure.maxLive) ++
    ", # VGPR allocated: " ++ rightColumn 3 (toString pressure.allocated)

/-- The live registers at the given nodes in program order; the summary alone leaves out the
rows. -/
def liveness (graph : Graph) (live : LiveMap) (nodes : List Nat) (summaryOnly : Bool) : String :=
  let ordered := graph.programOrder nodes
  let pressure := Pressure.ofNodes graph live ordered
  let table := if summaryOnly then [] else rows graph live pressure.allocated ordered ++ [""]
  unlines (legend ++ header pressure.allocated ++ table ++ [summaryLine pressure])

end ShaderAnalysis.RegisterReport
