import ClassAtlas.Files.Disk
/-!
# Which events count

The system tells what happens below a watched root as events, each with a kind and paths. A file
counts as changed if the event is a write, the file lies below the root, no name on the way from the
root to it begins with a dot, and it is a regular file by then. A write is that a file comes into
being or that something other than attributes of it changes; a name it gets by renaming is one too.

The root counts in the form that was given and in its canonical form, because events may tell
either.
-/
namespace ClassAtlas.Watch

inductive CreateKind where
  | any
  | file
  | folder
  | other
deriving BEq, DecidableEq, Repr, Inhabited

inductive ModifyKind where
  | any
  | data
  | metadata
  | name
  | other
deriving BEq, DecidableEq, Repr, Inhabited

inductive EventKind where
  | any
  | access
  | create (kind : CreateKind)
  | modify (kind : ModifyKind)
  | remove
  | other
deriving BEq, DecidableEq, Repr, Inhabited

/-- What happened, and to which paths. -/
structure Event where
  kind : EventKind
  paths : List FilePath
deriving BEq, DecidableEq, Repr, Inhabited

/-- Whether an event of this kind is a write. Mirrors the `is_write` of `handle_notify_event`. -/
def EventKind.isWrite : EventKind → Bool
  | .create .file | .create .any => true
  | .create .folder | .create .other => false
  | .modify .metadata => false
  | .modify _ => true
  | .any | .access | .remove | .other => false

/-- A watched root. Mirrors `PathFilter`. -/
structure Filter where
  root : FilePath
  canonicalRoot? : Option FilePath
deriving BEq, DecidableEq, Repr, Inhabited

namespace Filter

/-- The filter of a root; one that is not there has no canonical form. Mirrors `PathFilter::new`. -/
def new (disk : Files.Disk) (root : FilePath) : Filter := ⟨root, disk.canonical? root⟩

/-- The way from the root to a path. Mirrors `PathFilter::relative`. -/
def relative? (f : Filter) (p : FilePath) : Option (List Component) :=
  f.root.below? p <|> f.canonicalRoot?.bind (·.below? p)

/-- Whether a path is one of a file that counts. Mirrors `PathFilter::accepts`. -/
def accepts (f : Filter) (disk : Files.Disk) (p : FilePath) : Bool :=
  match f.relative? p with
  | some below => !below.any Component.isHidden && disk.isFile p
  | none => false

/-- The files that an event tells to have changed. Mirrors `handle_notify_event`. -/
def changed (f : Filter) (disk : Files.Disk) (e : Event) : List FilePath :=
  if e.kind.isWrite then e.paths.filter (f.accepts disk) else []

end Filter
end ClassAtlas.Watch
