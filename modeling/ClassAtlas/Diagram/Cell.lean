/-!
# The current diagram

A cell holds one snapshot at a time. Publishing replaces it by a new one with the next revision;
revision 0 stands for a cell in which nothing was published yet. Whoever reads the cell sees the
snapshot whole, and a snapshot once read never changes.
-/
namespace ClassAtlas.Diagram

/-- A diagram as it was published. Mirrors `DiagramSnapshot`. -/
structure Snapshot where
  text : String
  revision : Nat
deriving BEq, DecidableEq, Repr, Inhabited

/-- The snapshot before anything is published. Mirrors `DiagramSnapshot::empty`. -/
def Snapshot.initial : Snapshot := ⟨"", 0⟩

/-- The holder of the current snapshot. Mirrors `DiagramCell`. -/
structure Cell where
  current : Snapshot
deriving BEq, DecidableEq, Repr, Inhabited

namespace Cell

def new : Cell := ⟨Snapshot.initial⟩

/-- Replaces the snapshot. Mirrors `DiagramCell::publish`. -/
def publish (c : Cell) (text : String) : Cell := ⟨⟨text, c.current.revision + 1⟩⟩

@[simp] theorem publish_text (c : Cell) (text : String) :
    (c.publish text).current.text = text := rfl

@[simp] theorem publish_revision (c : Cell) (text : String) :
    (c.publish text).current.revision = c.current.revision + 1 := rfl

end Cell
end ClassAtlas.Diagram
