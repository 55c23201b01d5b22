import ClassAtlas.Files.Disk
/-!
# Changes to a disk

Writing, making and removing directories, renaming. A change either gives the new disk or the fault
that stands in its way; directories above a new entry are made as needed. This is what others do to
the files of a project.
-/
namespace ClassAtlas.Files

namespace Disk

/-- Puts a node at a location. -/
def put (d : Disk) (at_ : Location) (n : Node) : Disk :=
  { d with nodes := (at_, n) :: d.nodes.filter fun e => e.1 != at_ }

/-- Removes a location and all below it. -/
def cut (d : Disk) (at_ : Location) : Disk :=
  { d with nodes := d.nodes.filter fun e => !at_.isPrefixOf e.1 }

def isEmptyDirectoryAt (d : Disk) (at_ : Location) : Bool :=
  !d.nodes.any fun e => at_.isPrefixOf e.1 && e.1 != at_

/-- Walks from a location along segments as `walk` does and makes the directories that are not
there. -/
def ensure (d : Disk) (links : Nat) (at_ : Location) : List String → Except Fault (Disk × Location)
  | [] => if d.isDirectoryAt at_ then .ok (d, at_) else .error .exists
  | s :: rest =>
    if !d.isDirectoryAt at_ then .error .notDirectory
    else if s == "" || s == "." then ensure d links at_ rest
    else if s == ".." then ensure d links at_.dropLast rest
    else if maxNameBytes < s.utf8ByteSize then .error .nameTooLong
    else
      match d.node? (at_ ++ [s]) with
      | none => ensure (d.put (at_ ++ [s]) .directory) links (at_ ++ [s]) rest
      | some (.link target) =>
        match links with
        | 0 => .error .tooManyLinks
        | links + 1 =>
          let t : FilePath := ⟨target⟩
          ensure d links (if t.isAbsolute then [] else at_) (t.segments ++ rest)
      | some _ => ensure d links (at_ ++ [s]) rest
termination_by segments => (links, segments.length)

/-- Makes a directory and those above it. -/
def makeDirectory (d : Disk) (p : FilePath) : Except Fault Disk :=
  match textFault? p with
  | some f => .error f
  | none => (ensure d maxLinks (d.startOf p) p.segments).map (·.1)

/-- The location at which an entry of this path is to be made, with the directories above it. A
link already there is followed, so that what it points to is written. -/
def place (d : Disk) (p : FilePath) : Except Fault (Disk × Location) := do
  match textFault? p with
  | some f => .error f
  | none =>
    let (d, above) ← ensure d maxLinks (d.startOf p) p.segments.dropLast
    let name := p.segments.getLast?.getD ""
    if name == "" || name == "." || name == ".." then .error .isDirectory
    else go d maxLinks above name
where
  go (d : Disk) (links : Nat) (above : Location) (name : String) :
      Except Fault (Disk × Location) := do
    if maxNameBytes < name.utf8ByteSize then .error .nameTooLong
    match d.node? (above ++ [name]), links with
    | some (.link target), links + 1 =>
      let t : FilePath := ⟨target⟩
      let above ← d.walk true links (if t.isAbsolute then [] else above) t.segments.dropLast
      go d links above (t.segments.getLast?.getD "")
    | some (.link _), 0 => .error .tooManyLinks
    | _, _ => .ok (d, above ++ [name])

/-- Writes a file. -/
def writeFile (d : Disk) (p : FilePath) (content : ByteArray) : Except Fault Disk := do
  let (d, at_) ← d.place p
  if d.isDirectoryAt at_ then .error .isDirectory
  else .ok (d.put at_ (.file content))

/-- Adds to the end of a file. -/
def appendFile (d : Disk) (p : FilePath) (content : ByteArray) : Except Fault Disk := do
  let (d, at_) ← d.place p
  match d.node? at_ with
  | some .directory => .error .isDirectory
  | some (.file old) => .ok (d.put at_ (.file (old ++ content)))
  | _ => .ok (d.put at_ (.file content))

/-- The location of an entry that is to be made under a name of its own. -/
def newPlace (d : Disk) (p : FilePath) : Except Fault (Disk × Location) := do
  match textFault? p with
  | some f => .error f
  | none =>
    let names := p.segments.reverse.dropWhile (· == "") |>.reverse
    let (d, above) ← ensure d maxLinks (d.startOf p) names.dropLast
    let name := names.getLast?.getD ""
    if name == "" || name == "." || name == ".." then .error .exists
    else if maxNameBytes < name.utf8ByteSize then .error .nameTooLong
    else .ok (d, above ++ [name])

/-- Makes a symbolic link. -/
def makeLink (d : Disk) (p : FilePath) (target : String) : Except Fault Disk := do
  if target.isEmpty then .error .notFound
  let (d, at_) ← d.newPlace p
  if (d.node? at_).isSome then .error .exists
  else .ok (d.put at_ (.link target))

/-- Gives a file a second name. -/
def hardLink (d : Disk) (source target : FilePath) : Except Fault Disk := do
  let n ← d.locate source false
  let (d, at_) ← d.newPlace target
  match d.node? n, d.node? at_ with
  | some (.file content), none => .ok (d.put at_ (.file content))
  | some (.link t), none => .ok (d.put at_ (.link t))
  | _, _ => .error .exists

/-- Removes a file, a link, or a directory with all in it. -/
def remove (d : Disk) (p : FilePath) : Except Fault Disk := do
  let at_ ← d.locate p false
  match d.node? at_ with
  | none => .error .notFound
  | some _ => .ok (d.cut at_)

/-- Moves what stands at one location, and all below it, to another. -/
def move (d : Disk) (source target : Location) : Disk :=
  let d := d.cut target
  { d with nodes := d.nodes.map fun e =>
      if source.isPrefixOf e.1 then (target ++ e.1.drop source.length, e.2) else e }

/-- Renames an entry. A file takes the place of a file, a directory that of an empty directory. -/
def rename (d : Disk) (source target : FilePath) : Except Fault Disk := do
  let src ← d.locate source false
  let (d, dst) ← d.newPlace target
  match d.node? src, d.node? dst with
  | none, _ => .error .notFound
  | some .directory, some .directory =>
    if src == dst then .ok d
    else if src.isPrefixOf dst then .error .invalid
    else if d.isEmptyDirectoryAt dst then .ok (d.move src dst)
    else .error .notEmpty
  | some .directory, some _ => .error .notDirectory
  | some .directory, none =>
    if src.isPrefixOf dst then .error .invalid else .ok (d.move src dst)
  | some _, some .directory => .error .isDirectory
  | some _, _ => if src == dst then .ok d else .ok (d.move src dst)

end Disk

/-- What a new entry is to hold. -/
inductive Content where
  | bytes (content : ByteArray)
  | link (target : String)
  | directory
deriving Inhabited

/-- A change to a disk. -/
inductive Edit where
  | write (path : FilePath) (content : Content)
  | append (path : FilePath) (content : ByteArray)
  | makeDirectory (path : FilePath)
  | remove (path : FilePath)
  | rename (source target : FilePath)
  | hardLink (source target : FilePath)
  /-- Sets who may do what with an entry; a disk does not keep that. -/
  | setMode (path : FilePath)
deriving Inhabited

/-- The disk after a change. -/
def Disk.apply (d : Disk) : Edit → Except Fault Disk
  | .write p (.bytes content) => d.writeFile p content
  | .write p (.link target) => d.makeLink p target
  | .write p .directory => d.makeDirectory p
  | .append p content => d.appendFile p content
  | .makeDirectory p => d.makeDirectory p
  | .remove p => d.remove p
  | .rename p q => d.rename p q
  | .hardLink p q => d.hardLink p q
  | .setMode p => (d.find p).map fun _ => d

end ClassAtlas.Files
