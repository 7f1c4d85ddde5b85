/-
This file renders the reports on a program.
-/

import ShaderAnalysis.Names
import ShaderAnalysis.Report.Dot
import ShaderAnalysis.Report.Registers

namespace ShaderAnalysis

/-- The reports and their options. -/
inductive Report where
  | blockGraph (compact : Bool)
  | instructionGraph
  | blockRegisters
  | liveness (summaryOnly : Bool)
  | histogram (grouping : Grouping)
  deriving DecidableEq, Repr

/-- A program is expanded and solved as far as the report needs it. -/
def Report.render (program : Program) : Report → String
  | blockGraph compact => Dot.blocks program compact
  | instructionGraph => Dot.instructions program (Graph.expand program)
  | blockRegisters => RegisterReport.blocks program
  | liveness summaryOnly =>
      let graph := Graph.expand program
      let solution := solve graph (.fresh graph)
      RegisterReport.liveness graph solution.live solution.order summaryOnly
  | histogram grouping => Histogram.render (Histogram.ofProgram program grouping)

/-- A request names its grouping; the name matters to the histogram only. -/
inductive ReportRequest where
  | blockGraph (compact : Bool)
  | instructionGraph
  | blockRegisters
  | liveness (summaryOnly : Bool)
  | histogram (grouping : String)
  deriving DecidableEq, Repr

def ReportRequest.report : ReportRequest → Except UnknownName Report
  | blockGraph compact => .ok (.blockGraph compact)
  | instructionGraph => .ok .instructionGraph
  | blockRegisters => .ok .blockRegisters
  | liveness summaryOnly => .ok (.liveness summaryOnly)
  | histogram grouping => (Grouping.ofName grouping).map .histogram

end ShaderAnalysis
