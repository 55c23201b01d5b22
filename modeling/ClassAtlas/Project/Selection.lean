import ClassAtlas.Files.Walk
import ClassAtlas.Glob.Match
import ClassAtlas.Project.Descriptor
import ClassAtlas.Text.Quoted
/-!
# The files of a project

A project consists of the files its descriptor lists, in their order and whether they exist or not,
followed by the source files below its directory that match an `include` pattern and no `exclude`
pattern. No file stands there twice, and none with a name that begins with a dot.
-/
namespace ClassAtlas

/-- Extensions of the files that always belong to a project. Mirrors `TS_EXTENSIONS`. -/
def typedExtensions : List String := ["ts", "tsx", "mts", "cts"]

/-- Extensions of the files that belong to a project with `allowJs`. Mirrors `JS_EXTENSIONS`. -/
def plainExtensions : List String := ["js", "jsx", "mjs", "cjs"]

/-- Directories that are never entered. Mirrors `SKIPPED_DIRS`. -/
def skippedDirectories : List String := ["node_modules", "bower_components", "jspm_packages"]

def isSourceExtension (allowJs : Bool) (extension : String) : Bool :=
  typedExtensions.contains extension || (allowJs && plainExtensions.contains extension)

/-- Mirrors `has_source_extension`. -/
def isSourceFile (allowJs : Bool) (p : FilePath) : Bool :=
  (p.extension?.map (isSourceExtension allowJs)).getD false

/-- Why a project cannot be loaded. Mirrors `ProjectError`. -/
inductive ProjectError where
  | read (path : FilePath) (fault : Files.Fault)
  | parse (path : FilePath) (reason : String)
  | pattern (path : FilePath) (pattern expanded : String) (fault : Glob.Fault)
deriving BEq, DecidableEq, Repr, Inhabited

namespace ProjectError

/-- What lies behind the error. -/
def cause : ProjectError → String
  | .read _ f => f.message
  | .parse _ reason => reason
  | .pattern _ _ expanded f => f.message expanded

def message (e : ProjectError) : String :=
  match e with
  | .read p _ => "cannot read project descriptor " ++ p.text ++ ": " ++ e.cause
  | .parse p _ => "invalid project descriptor " ++ p.text ++ ": " ++ e.cause
  | .pattern p written _ _ =>
    "invalid pattern " ++ Text.quote written ++ " in " ++ p.text ++ ": " ++ e.cause

end ProjectError

/-- Text without the `./` it begins with, however often. -/
def dropHere : List Char → List Char
  | '.' :: '/' :: cs => dropHere cs
  | cs => cs

/-- The glob for a pattern of a descriptor. A pattern whose last segment has no wildcard and no
source extension names a directory and stands for all that is below it. Mirrors the expansion in
`build_globset`. -/
def expandPattern (allowJs : Bool) (pattern : String) : String :=
  let trimmed := ((dropHere pattern.toList).reverse.dropWhile (· == '/')).reverse
  let last := (trimmed.reverse.takeWhile (· != '/')).reverse
  let namesFile := last.any (fun c => c == '*' || c == '?')
    || isSourceFile allowJs ⟨String.ofList last⟩
  let text := String.ofList trimmed
  if namesFile then text else text ++ "/**/*"

/-- The globs for the patterns of a descriptor. Mirrors `build_globset`. -/
def compilePatterns (descriptor : FilePath) (allowJs : Bool) :
    List String → Except ProjectError (List Glob.Pattern)
  | [] => .ok []
  | pattern :: rest =>
    let expanded := expandPattern allowJs pattern
    match Glob.Pattern.parse expanded with
    | .error f => .error (.pattern descriptor pattern expanded f)
    | .ok g => do
      let gs ← compilePatterns descriptor allowJs rest
      .ok (g :: gs)

/-- Whether a path matches one of some globs. -/
def matchesAny (gs : List Glob.Pattern) (path : String) : Bool := gs.any (·.matches path)

namespace Descriptor

/-- The patterns that select files; with listed files alone there are none. Mirrors the `include` of
`discover`. -/
def includePatterns (d : Descriptor) : List String :=
  match d.includes, d.files with
  | some ps, _ => ps
  | none, some _ => []
  | none, none => ["**/*"]

/-- The patterns that keep files out. Mirrors the `exclude` of `discover`. -/
def excludePatterns (d : Descriptor) : List String :=
  match d.excludes with
  | some ps => ps
  | none => skippedDirectories ++ d.options.outDir.toList

end Descriptor

/-- The paths whose components were not seen before. -/
def firstOnly (seen : List (List Component)) : List FilePath → List FilePath
  | [] => []
  | p :: ps =>
    if seen.contains p.key then firstOnly seen ps else p :: firstOnly (p.key :: seen) ps

/-- Adds the paths that are not there yet. -/
def addNew (paths more : List FilePath) : List FilePath :=
  paths ++ firstOnly (paths.map (·.key)) more

/-- A project and its files, in the order in which they are read. Mirrors `Project`. -/
structure Project where
  root : FilePath
  descriptor : FilePath
  allowJs : Bool
  files : List FilePath
deriving BEq, DecidableEq, Repr, Inhabited

namespace Project

/-- The files a descriptor lists, below the root. Mirrors the loop of `discover` over `files`. -/
def listedFiles (root : FilePath) (d : Descriptor) : List FilePath :=
  addNew [] (((d.files.getD []).filter fun f => !FilePath.isHidden ⟨f⟩).map fun f =>
    root.join ⟨f⟩)

/-- The path of names below a directory. -/
def relativeText (below : Files.Location) : String := String.intercalate "/" below

/-- The files below the root that are selected by patterns. Mirrors the loop of `discover` over the
walk. -/
def matchedFiles (disk : Files.Disk) (root : FilePath) (allowJs : Bool)
    (includes excludes : List Glob.Pattern) : List FilePath :=
  ((disk.walkFrom root skippedDirectories).filter fun below =>
    let path := relativeText below
    isSourceFile allowJs ⟨path⟩ && matchesAny includes path && !matchesAny excludes path).map
    fun below => root.join ⟨relativeText below⟩

/-- The files that a descriptor selects. Mirrors `discover`. -/
def select (disk : Files.Disk) (root descriptor : FilePath) (d : Descriptor) :
    Except ProjectError (List FilePath) := do
  let listed := listedFiles root d
  if d.includePatterns.isEmpty then .ok listed
  else
    let includes ← compilePatterns descriptor d.options.allowJs d.includePatterns
    let excludes ← compilePatterns descriptor d.options.allowJs d.excludePatterns
    .ok (addNew listed (matchedFiles disk root d.options.allowJs includes excludes))

/-- The directory that a descriptor's patterns start from. Mirrors the `root` of `Project::load`. -/
def rootOf (descriptor : FilePath) : FilePath := descriptor.parent?.getD ⟨"."⟩

/-- Loads the project of a descriptor. Mirrors `Project::load`. -/
def load (disk : Files.Disk) (descriptor : FilePath) : Except ProjectError Project := do
  let text ← (disk.readText descriptor).mapError (.read descriptor)
  let d ← (Descriptor.ofText text).mapError (.parse descriptor)
  let root := rootOf descriptor
  let files ← select disk root descriptor d
  .ok ⟨root, descriptor, d.options.allowJs, files⟩

end Project
end ClassAtlas
