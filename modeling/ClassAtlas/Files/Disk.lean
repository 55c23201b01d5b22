import ClassAtlas.Path
/-!
# A disk

A disk is a table of what stands at each location: a file with its bytes, a symbolic link with its
target, or a directory. A location is the list of names that leads there from the top; the top
itself is always a directory. Paths are looked up from a working directory, name by name, and links
are followed on the way.

Reading depends on the table alone, so the order in which a disk lists its entries never matters to
a look-up. A disk stands for the file system of the program.
-/
namespace ClassAtlas.Files

/-- What stands at a location. -/
inductive Node where
  | file (content : ByteArray)
  | link (target : String)
  | directory
deriving Inhabited

def Node.isDirectory : Node → Bool
  | .directory => true
  | .file _ | .link _ => false

/-- The names that lead to a place on the disk. -/
abbrev Location := List String

/-- The order of locations: name by name, and what is above comes first. -/
def Location.precedes (a b : Location) : Bool := !List.lex b a fun x y => decide (x < y)

/-- Why a path could not be used. -/
inductive Fault where
  | notFound
  | notDirectory
  | isDirectory
  | tooManyLinks
  | nameTooLong
  | zeroByte
  /-- The bytes of the file are no UTF-8. -/
  | notText
  | exists
  | notEmpty
  | invalid
deriving BEq, DecidableEq, Repr, Inhabited

def Fault.message : Fault → String
  | .notFound => "No such file or directory (os error 2)"
  | .notDirectory => "Not a directory (os error 20)"
  | .isDirectory => "Is a directory (os error 21)"
  | .tooManyLinks => "Too many levels of symbolic links (os error 40)"
  | .nameTooLong => "File name too long (os error 36)"
  | .zeroByte => "file name contained an unexpected NUL byte"
  | .notText => "stream did not contain valid UTF-8"
  | .exists => "File exists (os error 17)"
  | .notEmpty => "Directory not empty (os error 39)"
  | .invalid => "Invalid argument (os error 22)"

/-- The contents of a disk and the directory that relative paths start from. -/
structure Disk where
  nodes : List (Location × Node)
  cwd : Location
deriving Inhabited

namespace Disk

/-- A disk with nothing but the working directory and the directories above it. -/
def fresh (cwd : Location) : Disk :=
  ⟨(List.range cwd.length).map fun n => (cwd.take (n + 1), .directory), cwd⟩

/-- What stands at a location. -/
def node? (d : Disk) (at_ : Location) : Option Node :=
  if at_.isEmpty then some .directory
  else (d.nodes.find? fun e => e.1 == at_).map (·.2)

def isDirectoryAt (d : Disk) (at_ : Location) : Bool := (d.node? at_).any Node.isDirectory

def maxLinks : Nat := 40

def maxNameBytes : Nat := 255

def maxPathBytes : Nat := 4095

/-- Walks from a location along segments. A link at the end is followed if `follow` is set, one on
the way always is; `links` says how many more may be. -/
def walk (d : Disk) (follow : Bool) (links : Nat) (at_ : Location) :
    List String → Except Fault Location
  | [] => .ok at_
  | s :: rest =>
    if !d.isDirectoryAt at_ then .error .notDirectory
    else if s == "" || s == "." then walk d follow links at_ rest
    else if s == ".." then walk d follow links at_.dropLast rest
    else if maxNameBytes < s.utf8ByteSize then .error .nameTooLong
    else
      match d.node? (at_ ++ [s]) with
      | none => .error .notFound
      | some (.link target) =>
        if rest.isEmpty && !follow then .ok (at_ ++ [s])
        else
          match links with
          | 0 => .error .tooManyLinks
          | links + 1 =>
            let t : FilePath := ⟨target⟩
            walk d follow links (if t.isAbsolute then [] else at_) (t.segments ++ rest)
      | some _ => walk d follow links (at_ ++ [s]) rest
termination_by segments => (links, segments.length)

/-- Where a walk along a path begins. -/
def startOf (d : Disk) (p : FilePath) : Location := if p.isAbsolute then [] else d.cwd

/-- Faults of the text of a path alone. -/
def textFault? (p : FilePath) : Option Fault :=
  if p.text.toList.contains '\x00' then some .zeroByte
  else if p.text.isEmpty then some .notFound
  else if maxPathBytes < p.text.utf8ByteSize then some .nameTooLong
  else none

/-- The location a path leads to. -/
def locate (d : Disk) (p : FilePath) (follow : Bool) : Except Fault Location :=
  match textFault? p with
  | some f => .error f
  | none => d.walk follow maxLinks (d.startOf p) p.segments

/-- What stands at the end of a path, links followed. -/
def find (d : Disk) (p : FilePath) : Except Fault Node := do
  let at_ ← d.locate p true
  match d.node? at_ with
  | some n => .ok n
  | none => .error .notFound

/-- The bytes of a file. -/
def read (d : Disk) (p : FilePath) : Except Fault ByteArray := do
  match ← d.find p with
  | .file content => .ok content
  | _ => .error .isDirectory

/-- The text of a file. -/
def readText (d : Disk) (p : FilePath) : Except Fault String := do
  match String.fromUTF8? (← d.read p) with
  | some s => .ok s
  | none => .error .notText

def exists? (d : Disk) (p : FilePath) : Bool := (d.find p).isOk

/-- Whether a path names a regular file, links followed. -/
def isFile (d : Disk) (p : FilePath) : Bool :=
  match d.find p with
  | .ok (.file _) => true
  | _ => false

/-- Whether a path names a directory, links followed. -/
def isDirectory (d : Disk) (p : FilePath) : Bool :=
  match d.find p with
  | .ok .directory => true
  | _ => false

/-- The path from the top that holds no links. -/
def canonical? (d : Disk) (p : FilePath) : Option FilePath :=
  match d.locate p true with
  | .ok at_ => some ⟨"/" ++ String.intercalate "/" at_⟩
  | .error _ => none

/-- The path as it reads from the top of the disk. -/
def absolute (d : Disk) (p : FilePath) : FilePath :=
  FilePath.join ⟨"/" ++ String.intercalate "/" d.cwd⟩ p

/-! ## What a look-up finds -/

theorem mem_nodes_of_node? {d : Disk} {at_ : Location} {n : Node} (h : d.node? at_ = some n) :
    at_ = [] ∧ n = .directory ∨ (at_, n) ∈ d.nodes := by
  unfold node? at h
  split at h
  · rename_i he
    exact Or.inl ⟨List.isEmpty_iff.1 he, (Option.some.inj h).symm⟩
  · obtain ⟨e, he, rfl⟩ := Option.map_eq_some_iff.1 h
    have hat : e.1 = at_ := by simpa using List.find?_some he
    exact Or.inr (hat ▸ List.mem_of_find?_eq_some he)

theorem find_eq_ok_iff {d : Disk} {p : FilePath} {n : Node} :
    d.find p = .ok n ↔ ∃ at_, d.locate p true = .ok at_ ∧ d.node? at_ = some n := by
  unfold find
  cases d.locate p true with
  | error f => simp [bind, Except.bind]
  | ok at_ =>
    simp only [bind, Except.bind, Except.ok.injEq, exists_eq_left']
    cases d.node? at_ with
    | none => simp
    | some m => simp

theorem read_eq_ok_iff {d : Disk} {p : FilePath} {content : ByteArray} :
    d.read p = .ok content ↔ d.find p = .ok (.file content) := by
  unfold read
  cases d.find p with
  | error f => simp [bind, Except.bind]
  | ok n => cases n <;> simp [bind, Except.bind]

/-- What is read stands on the disk. -/
theorem exists_mem_of_read {d : Disk} {p : FilePath} {content : ByteArray}
    (h : d.read p = .ok content) : ∃ at_, (at_, .file content) ∈ d.nodes := by
  obtain ⟨at_, -, hn⟩ := find_eq_ok_iff.1 (read_eq_ok_iff.1 h)
  rcases mem_nodes_of_node? hn with ⟨-, hdir⟩ | hmem
  · cases hdir
  · exact ⟨at_, hmem⟩

end Disk
end ClassAtlas.Files
