/-
This file describes opcodes: how they are encoded, where control goes, which operands they use.
-/

namespace ShaderAnalysis

/-- The encoding families of instructions. -/
inductive Encoding where
  | unknown | sop1 | sop2 | sopk | sopc | sopp | smem | vop1 | vop2 | vop3 | vopc | vintrp
  | ds | mubuf | mtbuf | mimg | exp | flat
  deriving DecidableEq, Repr

namespace Encoding

def all : List Encoding :=
  [unknown, sop1, sop2, sopk, sopc, sopp, smem, vop1, vop2, vop3, vopc, vintrp, ds, mubuf, mtbuf,
    mimg, exp, flat]

def name : Encoding → String
  | unknown => "UNKNOWN"
  | sop1 => "SOP1"
  | sop2 => "SOP2"
  | sopk => "SOPK"
  | sopc => "SOPC"
  | sopp => "SOPP"
  | smem => "SMEM"
  | vop1 => "VOP1"
  | vop2 => "VOP2"
  | vop3 => "VOP3"
  | vopc => "VOPC"
  | vintrp => "VINTRP"
  | ds => "DS"
  | mubuf => "MUBUF"
  | mtbuf => "MTBUF"
  | mimg => "MIMG"
  | exp => "EXP"
  | flat => "FLAT"

def ofName? (name : String) : Option Encoding := all.find? (·.name == name)

/-- Two vector families share their mnemonics and differ in the encoded word only. -/
def isDual (encoding : Encoding) : Bool := encoding == vop2 || encoding == vop3

/-- The top bit of the leading word tells the two dual families apart. -/
def ofWord (word : UInt32) : Encoding :=
  if word &&& 0x80000000 = 0 then vop2 else vop3

theorem ofNameName (encoding : Encoding) : ofName? encoding.name = some encoding := by
  cases encoding <;> decide

theorem ofWordDual (word : UInt32) : (ofWord word).isDual = true := by
  unfold ofWord
  split <;> rfl

end Encoding

/-- Where control goes after an instruction. -/
inductive Flow where
  /-- Control goes to the next instruction. -/
  | next
  /-- Control goes to the target or to the next instruction. -/
  | branch
  /-- Control goes to the target. -/
  | jump
  deriving DecidableEq, Repr

namespace Flow

def all : List Flow := [next, branch, jump]

def name : Flow → String
  | next => "default"
  | branch => "branch"
  | jump => "jump"

def ofName? (name : String) : Option Flow := all.find? (·.name == name)

theorem ofNameName (flow : Flow) : ofName? flow.name = some flow := by
  cases flow <;> decide

end Flow

/-- How an instruction uses one operand. -/
inductive Access where
  | read | write | readWrite | ignored
  deriving DecidableEq, Repr

namespace Access

def reads : Access → Bool
  | read | readWrite => true
  | write | ignored => false

def writes : Access → Bool
  | write | readWrite => true
  | read | ignored => false

end Access

/-- An opcode lists the positions of the operands that it writes and of those that it reads. -/
structure Opcode where
  name : String
  written : List Nat := []
  read : List Nat := []
  encoding : Encoding := .unknown
  flow : Flow := .next
  /-- The issue cost in cycles. -/
  cycles : Option Nat := none
  deriving DecidableEq, Repr

namespace Opcode

/-- An unknown opcode uses no operand and goes on to the next instruction. -/
def unknown (name : String) : Opcode := { name }

def access (opcode : Opcode) (position : Nat) : Access :=
  match opcode.read.contains position, opcode.written.contains position with
  | true, true => .readWrite
  | false, true => .write
  | true, false => .read
  | false, false => .ignored

theorem accessReads (opcode : Opcode) (position : Nat) :
    (opcode.access position).reads = opcode.read.contains position := by
  unfold access
  split <;> simp only [Access.reads, *]

theorem accessWrites (opcode : Opcode) (position : Nat) :
    (opcode.access position).writes = opcode.written.contains position := by
  unfold access
  split <;> simp only [Access.writes, *]

/-- The positions both read and written, in the order of the reads. -/
def readWritten (opcode : Opcode) : List Nat :=
  opcode.read.filter (opcode.written.contains ·)

def isBranch (opcode : Opcode) : Bool := opcode.flow == .branch

def isJump (opcode : Opcode) : Bool := opcode.flow == .jump

/-- Branches and jumps transfer control to their target. -/
def transfers (opcode : Opcode) : Bool := opcode.isBranch || opcode.isJump

theorem unknownTransfers (name : String) : (unknown name).transfers = false := rfl

end Opcode

end ShaderAnalysis
