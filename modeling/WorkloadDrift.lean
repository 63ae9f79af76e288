import WorkloadDrift.Files.Tree
import WorkloadDrift.Main
import WorkloadDrift.Proofs.Report.Reordering
import WorkloadDrift.Proofs.Change.Tree
import WorkloadDrift.Proofs.Comparison.Levels
import WorkloadDrift.Proofs.Except
import WorkloadDrift.Proofs.Json.Limits
import WorkloadDrift.Proofs.Json.Numerals
import WorkloadDrift.Proofs.Json.Reading
import WorkloadDrift.Proofs.Report.Respelling
import WorkloadDrift.Proofs.Snapshot.Bounds
import WorkloadDrift.Proofs.Snapshot.Loading
import WorkloadDrift.Proofs.Snapshot.Reloading
import WorkloadDrift.Proofs.Change.Passes
import WorkloadDrift.Proofs.Comparison.Origin
import WorkloadDrift.Proofs.Report.Counts
import WorkloadDrift.Proofs.Comparison.Mirror
import WorkloadDrift.Proofs.Report.Mirror
import WorkloadDrift.Proofs.Json.Indented
import WorkloadDrift.Proofs.Report.Printing
import WorkloadDrift.Proofs.EditScript.Shape
import WorkloadDrift.Proofs.Change.Netting
import WorkloadDrift.Proofs.Change.Rendering
import WorkloadDrift.Proofs.Report.Options
import WorkloadDrift.Proofs.Report.Selection
import WorkloadDrift.Proofs.CommandLine.Gate
import WorkloadDrift.Proofs.EditScript.Invariant
import WorkloadDrift.Proofs.FlagPattern
import WorkloadDrift.Proofs.Snapshot.Acceptance
