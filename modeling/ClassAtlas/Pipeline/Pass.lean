import ClassAtlas.Diagram.Cell
import ClassAtlas.Diagram.Render
import ClassAtlas.Extraction.Coordinator
/-!
# One pass

A pass extracts the project, renders its model and publishes the text. It reports the new snapshot,
and after it the files that are missing from it, if there are any. If the project cannot be loaded
the pass reports that alone, and what was published before stays as it is.
-/
namespace ClassAtlas

/-- What a pass tells those who follow it. Mirrors `DiagramSink`. -/
inductive Report where
  /-- A new snapshot was published. -/
  | updated (snapshot : Diagram.Snapshot)
  /-- The pass failed, or some files are missing. -/
  | failed (message : String)
deriving BEq, DecidableEq, Repr, Inhabited

/-- What a pass works with: the coordinator of a project and the cell it publishes to. -/
structure Publisher where
  coordinator : Coordinator
  cell : Diagram.Cell
deriving BEq, DecidableEq, Repr, Inhabited

namespace Publisher

def new (descriptor : FilePath) : Publisher := ⟨Coordinator.new descriptor, Diagram.Cell.new⟩

/-- What is said of a project that cannot be loaded. Mirrors `RecomputeError`, as `run_pass` reports
it. -/
def failureMessage (e : ProjectError) : String := "Recomputation failed: " ++ e.message

/-- What is said of files that are missing. Mirrors `partial_failure_message`. -/
def missingMessage (failures : List FileFailure) : String :=
  "Diagram is incomplete, " ++ toString failures.length ++ " file(s) failed to parse: "
    ++ String.intercalate "; " (failures.map FileFailure.message)

/-- The reports of a pass that published a snapshot. -/
def reports (s : Diagram.Snapshot) (failures : List FileFailure) : List Report :=
  .updated s :: if failures.isEmpty then [] else [.failed (missingMessage failures)]

/-- Mirrors `run_pass` and `recompute`. -/
def pass (p : Publisher) (disk : Files.Disk) : List Report × Publisher :=
  match p.coordinator.run disk with
  | (.error e, coordinator) => ([.failed (failureMessage e)], { p with coordinator })
  | (.ok e, coordinator) =>
    let cell := p.cell.publish (Diagram.render e.model)
    (reports cell.current e.failures, ⟨coordinator, cell⟩)

theorem pass_coordinator (p : Publisher) (disk : Files.Disk) :
    (p.pass disk).2.coordinator = (p.coordinator.run disk).2 := by
  unfold pass
  cases p.coordinator.run disk with
  | mk r c => cases r <;> rfl

theorem pass_cell (p : Publisher) (disk : Files.Disk) :
    (p.pass disk).2.cell =
      match (p.coordinator.run disk).1 with
      | .error _ => p.cell
      | .ok e => p.cell.publish (Diagram.render e.model) := by
  unfold pass
  cases p.coordinator.run disk with
  | mk r c => cases r <;> rfl

end Publisher
end ClassAtlas
