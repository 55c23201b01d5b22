import ClassAtlas.Files.Change
import ClassAtlas.Watch.Filter
/-!
# Watching a tree

A watcher has a watch on every directory below its root, those behind links included, and on a root
that is a file the one on that file. A change shows as events on the watch of the directory it
happens in, whichever name it was made through, and is told under the path of that watch. So a
file written through a second name outside the tree is not seen.

Watches follow the tree: a directory that comes into being gets one, and one that moves is told
under its new path. Links made later are not followed.
-/
namespace ClassAtlas.Watch

/-- A watched location and the path it is told under. -/
structure Place where
  at_ : Files.Location
  path : FilePath
deriving BEq, DecidableEq, Repr, Inhabited

/-- Mirrors `FileWatcher` with the watches of its back end. -/
structure Watcher where
  filter : Filter
  watches : List Place
deriving BEq, DecidableEq, Repr, Inhabited

namespace Watcher

/-- The names of what stands in a directory, in order. -/
def namesIn (disk : Files.Disk) (at_ : Files.Location) : List String :=
  (disk.nodes.filterMap fun e =>
    if e.1.dropLast == at_ && !e.1.isEmpty then e.1.getLast? else none).mergeSort
      fun a b => decide (a ≤ b)

/-- The watches of a directory and those below it. Links are followed, but not back to a directory
on the way; since that way has each directory once, `depth` bounds it. -/
def watchTree (disk : Files.Disk) (depth : Nat) (way : List Files.Location) (at_ : Files.Location)
    (path : FilePath) : List Place :=
  match depth with
  | 0 => []
  | depth + 1 =>
    ⟨at_, path⟩ :: (namesIn disk at_).flatMap fun name =>
      match disk.walk true Files.Disk.maxLinks at_ [name] with
      | .error _ => []
      | .ok below =>
        if disk.isDirectoryAt below && !(at_ :: way).contains below then
          watchTree disk depth (at_ :: way) below (path.join ⟨name⟩)
        else []

/-- A location has one watch, the last that was put on it. -/
def add (watches : List Place) (w : Place) : List Place :=
  w :: watches.filter fun v => v.at_ != w.at_

/-- Puts watches on a directory and those below it. -/
def addTree (disk : Files.Disk) (watches : List Place) (at_ : Files.Location) (path : FilePath) :
    List Place :=
  (watchTree disk (disk.nodes.length + 1) [] at_ path).foldl add watches

/-- Takes the watches off that are told under a path or below it. -/
def removeTree (watches : List Place) (path : FilePath) : List Place :=
  watches.filter fun w => (path.below? w.path).isNone

/-- A watcher on a root, unless the root cannot be found. Mirrors `FileWatcher::new` and `start`. -/
def start (disk : Files.Disk) (root : FilePath) : Except Files.Fault Watcher := do
  let path := disk.absolute root
  let at_ ← disk.locate path true
  let watches ← match disk.node? at_ with
    | none => .error .notFound
    | some .directory => .ok (addTree disk [] at_ path)
    | some _ => .ok [⟨at_, path⟩]
  .ok ⟨Filter.new disk root, watches⟩

/-- The path a watched location is told under. -/
def pathOf? (w : Watcher) (at_ : Files.Location) : Option FilePath :=
  (w.watches.find? (·.at_ == at_)).map (·.path)

/-- The path an entry is told under by the watch of its directory. -/
def entryPath? (w : Watcher) (at_ : Files.Location) : Option FilePath := do
  let name ← at_.getLast?
  some ((← w.pathOf? at_.dropLast).join ⟨name⟩)

/-- The events of a kind at a location, told by the watch of its directory and by its own. -/
def eventsAt (w : Watcher) (kind : EventKind) (at_ : Files.Location) : List Event :=
  ((w.entryPath? at_).toList ++ (w.pathOf? at_).toList).map fun p => ⟨kind, [p]⟩

/-- The events of a move: it is told at either end, and as a whole if both are seen. -/
def moveEvents (source target : Option FilePath) : List Event :=
  let whole := match source, target with
    | some p, some q => [⟨.modify .name, [p, q]⟩]
    | _, _ => []
  (source.toList ++ target.toList).map (fun p => ⟨.modify .name, [p]⟩) ++ whole

/-- The events that tell a change. -/
def events (w : Watcher) : Files.Change → List Event
  | .created at_ isDirectory =>
    (w.entryPath? at_).toList.map fun p => ⟨.create (if isDirectory then .folder else .file), [p]⟩
  | .modified at_ => w.eventsAt (.modify .data) at_
  | .attributes at_ => w.eventsAt (.modify .metadata) at_
  | .removed at_ => w.eventsAt .remove at_
  | .moved source target => moveEvents (w.entryPath? source) (w.entryPath? target)

/-- The watches once a change is told; the disk is as it is then. -/
def follow (w : Watcher) (disk : Files.Disk) (c : Files.Change) : Watcher :=
  let drop (watches : List Place) (at_ : Files.Location) :=
    match w.entryPath? at_ with
    | some p => removeTree watches p
    | none => watches
  let take (watches : List Place) (at_ : Files.Location) :=
    match w.entryPath? at_ with
    | some p => if disk.isDirectoryAt at_ then addTree disk watches at_ p else watches
    | none => watches
  match c with
  | .created at_ true => { w with watches := take w.watches at_ }
  | .created _ false | .modified _ | .attributes _ => w
  | .removed at_ => { w with watches := drop w.watches at_ }
  | .moved source target => { w with watches := take (drop w.watches source) target }

/-- Takes changes in, and tells the files that count as changed; the disk is as it is after all of
them. A directory that comes into being gets its watch too late for what is put into it at once. -/
def observe (w : Watcher) (disk : Files.Disk) (cs : List Files.Change) : List FilePath × Watcher :=
  ((cs.flatMap w.events).flatMap (w.filter.changed disk), cs.foldl (·.follow disk ·) w)

end Watcher
end ClassAtlas.Watch
