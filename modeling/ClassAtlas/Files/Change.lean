import ClassAtlas.Files.Edit
/-!
# What changes on a disk

An edit shows on the disk as changes at locations: entries come and go, move, get new content or new
attributes. `Disk.changes` lists them in their order. A file that is written in place changes even
if its content stays the same, because it is emptied first; nothing changes when nothing is added to
a file or an entry is renamed to itself. The back end of `FileWatcher` is told of such changes.
-/
namespace ClassAtlas.Files

inductive Change where
  | created (at_ : Location) (isDirectory : Bool)
  /-- New content. -/
  | modified (at_ : Location)
  /-- New attributes. -/
  | attributes (at_ : Location)
  | moved (source target : Location)
  | removed (at_ : Location)
deriving BEq, DecidableEq, Repr, Inhabited

namespace Disk

/-- The directories that are on the second disk and not on the first, those above coming first. -/
def madeDirectories (before after : Disk) : List Change :=
  let made := after.nodes.filter fun e => e.2.isDirectory && (before.node? e.1).isNone
  ((made.map (·.1)).mergeSort Location.precedes).map (.created · true)

/-- The changes at a place that content is put to. -/
def contentChanges (d : Disk) (at_ : Location) (isModified : Bool) : List Change :=
  match d.node? at_ with
  | none => [.created at_ false]
  | some _ => if isModified then [.modified at_] else []

/-- The changes that an edit makes, above an entry first. -/
def changes (d : Disk) (e : Edit) : Except Fault (List Change) := do
  let made (after : Disk) := madeDirectories d after
  match e with
  | .write p (.bytes _) =>
    let (after, at_) ← d.place p
    .ok (made after ++ d.contentChanges at_ true)
  | .append p content =>
    let (after, at_) ← d.place p
    .ok (made after ++ d.contentChanges at_ (0 < content.size))
  | .write p (.link _) =>
    let (after, at_) ← d.newPlace p
    .ok (made after ++ [.created at_ false])
  | .write p .directory | .makeDirectory p => .ok (made (← d.makeDirectory p))
  | .remove p => .ok [.removed (← d.locate p false)]
  | .rename p q =>
    let source ← d.locate p false
    let (after, target) ← d.newPlace q
    .ok (made after ++ if source == target then [] else [.moved source target])
  | .hardLink _ q =>
    let (after, at_) ← d.newPlace q
    .ok (made after ++ [.created at_ false])
  | .setMode p => .ok [.attributes (← d.locate p true)]

end Disk
end ClassAtlas.Files
