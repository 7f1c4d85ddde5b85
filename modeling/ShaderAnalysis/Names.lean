/-
This file reads formats, encodings, flows and groupings by name.
-/

import ShaderAnalysis.Listing.Format
import ShaderAnalysis.Opcode.Basic
import ShaderAnalysis.Report.Histogram

namespace ShaderAnalysis

/-- A text that is not the name of any value of the kind wanted. -/
inductive UnknownName where
  | format | encoding | flow | grouping
  deriving DecidableEq, Repr

def UnknownName.message (_ : UnknownName) : String := "parse failed."

def ListingFormat.ofName (name : String) : Except UnknownName ListingFormat :=
  match ofName? name with
  | some format => .ok format
  | none => .error .format

def Encoding.ofName (name : String) : Except UnknownName Encoding :=
  match ofName? name with
  | some encoding => .ok encoding
  | none => .error .encoding

def Flow.ofName (name : String) : Except UnknownName Flow :=
  match ofName? name with
  | some flow => .ok flow
  | none => .error .flow

def Grouping.ofName (name : String) : Except UnknownName Grouping :=
  match ofName? name with
  | some grouping => .ok grouping
  | none => .error .grouping

end ShaderAnalysis
