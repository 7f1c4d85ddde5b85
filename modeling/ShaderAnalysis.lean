import ShaderAnalysis.CommandLine.Run
import ShaderAnalysis.Main
import ShaderAnalysis.Proofs.Liveness.BlockFlow
import ShaderAnalysis.Proofs.Liveness.Rounds
import ShaderAnalysis.Proofs.Liveness.Transparency
import ShaderAnalysis.Proofs.Report.Annotations
import ShaderAnalysis.Session
import ShaderAnalysis.Proofs.Program.Leaders
import ShaderAnalysis.Proofs.Program.Faults
import ShaderAnalysis.Proofs.Program.GeneratedLabels
import ShaderAnalysis.Proofs.Program.Partition
import ShaderAnalysis.Proofs.Graph.Layout
import ShaderAnalysis.Proofs.Graph.Descent
import ShaderAnalysis.Proofs.Listing.Bodies
import ShaderAnalysis.Proofs.Report.LivenessTable
import ShaderAnalysis.Proofs.Listing.Labels
import ShaderAnalysis.Proofs.Listing.Comments
import ShaderAnalysis.Proofs.Register.Operands
import ShaderAnalysis.Proofs.Report.Histogram
import ShaderAnalysis.Proofs.Report.Columns
import ShaderAnalysis.Proofs.Listing.Solid
import ShaderAnalysis.Proofs.Report.Drawing
import ShaderAnalysis.Proofs.Report.Quoting
import ShaderAnalysis.Proofs.Listing.Encodings
