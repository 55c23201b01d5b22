import ClassAtlas.Json.Typed
import ClassAtlas.Json.Relaxed
/-!
# Project descriptors

A descriptor is relaxed JSON. It lists files and patterns, and says whether JavaScript belongs to
the project; all it says beside that is skipped.
-/
namespace ClassAtlas

/-- The compiler options that matter to a project. Mirrors `CompilerOptions`. -/
structure CompilerOptions where
  allowJs : Bool
  outDir : Option String
deriving BEq, DecidableEq, Repr, Inhabited

/-- What a descriptor says; a list that is absent differs from an empty one. Mirrors
`Descriptor`. -/
structure Descriptor where
  files : Option (List String)
  includes : Option (List String)
  excludes : Option (List String)
  options : CompilerOptions
deriving BEq, DecidableEq, Repr, Inhabited

namespace CompilerOptions

def standard : CompilerOptions := ⟨false, none⟩

/-- The fields met so far. -/
structure Draft where
  allowJs : Option Bool
  outDir : Option (Option String)
deriving Inhabited

def Draft.finish (d : Draft) : CompilerOptions :=
  ⟨d.allowJs.getD standard.allowJs, d.outDir.getD standard.outDir⟩

open Json.Reader in
def member (key : String) (d : Draft) (cs : List Char) : Except Json.Fault (Draft × List Char) := do
  match key with
  | "allowJs" =>
    let (v, rest) ← field key d.allowJs truth cs
    .ok ({ d with allowJs := v }, rest)
  | "outDir" =>
    let (v, rest) ← field key d.outDir (optional string) cs
    .ok ({ d with outDir := v }, rest)
  | _ =>
    let rest ← skipValue (← colon cs)
    .ok (d, rest)

open Json.Reader in
def fields (cs : List Char) : Except Json.Fault (Draft × List Char) := do
  let (allowJs, cs) ← item? true truth cs
  let (outDir, cs) ← item? allowJs.isNone (optional string) cs
  .ok (⟨allowJs, outDir⟩, cs)

/-- Reads compiler options. -/
def read (depth : Nat) (cs : List Char) : Except Json.Fault (CompilerOptions × List Char) := do
  let (d, rest) ←
    Json.Reader.record "struct CompilerOptions" depth member ⟨none, none⟩ fields cs
  .ok (d.finish, rest)

end CompilerOptions

namespace Descriptor

/-- The fields met so far. -/
structure Draft where
  files : Option (Option (List String))
  includes : Option (Option (List String))
  excludes : Option (Option (List String))
  options : Option CompilerOptions
deriving Inhabited

def Draft.finish (d : Draft) : Descriptor :=
  ⟨d.files.getD none, d.includes.getD none, d.excludes.getD none,
    d.options.getD CompilerOptions.standard⟩

open Json.Reader in
/-- Reads `null` or a list of strings. -/
def strings (depth : Nat) (cs : List Char) :
    Except Json.Fault (Option (List String) × List Char) :=
  optional (list string depth) cs

open Json.Reader in
def member (depth : Nat) (key : String) (d : Draft) (cs : List Char) :
    Except Json.Fault (Draft × List Char) := do
  match key with
  | "files" =>
    let (v, rest) ← field key d.files (strings depth) cs
    .ok ({ d with files := v }, rest)
  | "include" =>
    let (v, rest) ← field key d.includes (strings depth) cs
    .ok ({ d with includes := v }, rest)
  | "exclude" =>
    let (v, rest) ← field key d.excludes (strings depth) cs
    .ok ({ d with excludes := v }, rest)
  | "compilerOptions" =>
    let (v, rest) ← field key d.options (CompilerOptions.read depth) cs
    .ok ({ d with options := v }, rest)
  | _ =>
    let rest ← skipValue (← colon cs)
    .ok (d, rest)

open Json.Reader in
def fields (depth : Nat) (cs : List Char) : Except Json.Fault (Draft × List Char) := do
  let (files, cs) ← item? true (strings depth) cs
  let (includes, cs) ← item? files.isNone (strings depth) cs
  let (excludes, cs) ← item? includes.isNone (strings depth) cs
  let (options, cs) ← item? excludes.isNone (CompilerOptions.read depth) cs
  .ok (⟨files, includes, excludes, options⟩, cs)

open Json.Reader in
/-- Reads a descriptor. -/
def read (cs : List Char) : Except Json.Fault (Descriptor × List Char) := do
  let (d, rest) ← record "struct Descriptor" maxDepth (member (maxDepth - 1))
    ⟨none, none, none, none⟩ (fields (maxDepth - 1)) cs
  .ok (d.finish, rest)

/-- The descriptor of a text. A fault is told with its place in the text without comments. Mirrors
the parsing of `Project::load`. -/
def ofText (text : String) : Except String Descriptor :=
  let plain := Json.Relaxed.toPlain text
  match Json.Reader.readAll read plain with
  | .ok d => .ok d
  | .error f => .error (f.message plain)

end Descriptor
end ClassAtlas
