import ClassAtlas.Extraction.Cache
import ClassAtlas.Extraction.Extract
import ClassAtlas.Project.Selection
/-!
# Passes over a project

A pass loads the project of a descriptor and puts the models of its files together in their order.
Files that cannot be read or hold errors are listed as failures and add nothing. A coordinator keeps
a cache from pass to pass; a pass without one, `Extraction.ofDisk`, is what its answers have to
agree with.
-/
namespace ClassAtlas

/-- A file that added nothing, and why. Mirrors `FileFailure`. -/
structure FileFailure where
  path : FilePath
  error : ExtractError
deriving BEq, DecidableEq, Repr, Inhabited

def FileFailure.message (f : FileFailure) : String := f.path.text ++ ": " ++ f.error.message

/-- What a pass gives: a model, and the files that are not in it. Mirrors `Extraction`. -/
structure Extraction where
  model : Model
  failures : List FileFailure
deriving BEq, DecidableEq, Repr, Inhabited

namespace Extraction

def empty : Extraction := ⟨Model.empty, []⟩

/-- Whether some file is missing from the model. -/
def isPartial (e : Extraction) : Bool := !e.failures.isEmpty

/-- Adds what came of a file. -/
def add (e : Extraction) (path : FilePath) : Except ExtractError Model → Extraction
  | .ok m => { e with model := e.model ++ m }
  | .error err => { e with failures := e.failures ++ [⟨path, err⟩] }

/-- What a file on a disk gives. -/
def fileModel (disk : Files.Disk) (path : FilePath) : Except ExtractError Model :=
  match disk.read path with
  | .error f => .error (.unreadable f)
  | .ok content => extract path content

/-- The extraction of some files. -/
def ofFiles (disk : Files.Disk) (paths : List FilePath) : Extraction :=
  paths.foldl (fun e p => e.add p (fileModel disk p)) empty

/-- The extraction of a project. -/
def ofDisk (disk : Files.Disk) (descriptor : FilePath) : Except ProjectError Extraction := do
  let project ← Project.load disk descriptor
  .ok (ofFiles disk project.files)

end Extraction

/-- A descriptor and what is known of its files. Mirrors `Coordinator`. -/
structure Coordinator where
  descriptor : FilePath
  cache : Cache
deriving BEq, DecidableEq, Repr, Inhabited

namespace Coordinator

def new (descriptor : FilePath) : Coordinator := ⟨descriptor, Cache.empty⟩

/-- What a file gives, by way of the cache. A file that fails is forgotten. Mirrors
`Coordinator::extract_file`. -/
def extractFile (disk : Files.Disk) (cache : Cache) (path : FilePath) :
    Except ExtractError Model × Cache :=
  match disk.read path with
  | .error f => (.error (.unreadable f), cache.remove path)
  | .ok content =>
    let digest := Digest.ofBytes content
    match cache.get path digest with
    | (some m, cache) => (.ok m, cache)
    | (none, cache) =>
      match extract path content with
      | .ok m => (.ok m, cache.insert path digest m)
      | .error e => (.error e, cache.remove path)

/-- Works through files by way of the cache. Mirrors the loop of `run_full_index`. -/
def extractFiles (disk : Files.Disk) : Extraction × Cache → List FilePath → Extraction × Cache
  | acc, [] => acc
  | (e, cache), p :: ps =>
    let (r, cache) := extractFile disk cache p
    extractFiles disk (e.add p r, cache) ps

/-- A pass. A project that cannot be loaded leaves the cache as it is. Mirrors
`Coordinator::run_full_index`. -/
def run (c : Coordinator) (disk : Files.Disk) : Except ProjectError Extraction × Coordinator :=
  match Project.load disk c.descriptor with
  | .error e => (.error e, c)
  | .ok project =>
    let (e, cache) :=
      extractFiles disk (Extraction.empty, c.cache.retain project.files) project.files
    (.ok e, { c with cache })

end Coordinator
end ClassAtlas
