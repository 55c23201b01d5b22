import ClassAtlas.Text.Split
/-!
# File paths

A path is kept as it was written, because it is shown that way. What it denotes is its list of
components: repeated separators, inner `.` segments and a separator at the end make no difference,
a leading `.` does. Two spellings with the same components are the same key wherever paths are
looked up (`FilePath.key`).
-/
namespace ClassAtlas

/-- A path as it was written. -/
structure FilePath where
  text : String
deriving BEq, ReflBEq, LawfulBEq, DecidableEq, Repr, Inhabited, Hashable

/-- A step of a path. -/
inductive Component where
  /-- The separator an absolute path begins with. -/
  | root
  /-- The `.` a relative path begins with. -/
  | here
  | up
  | name (text : String)
deriving BEq, ReflBEq, LawfulBEq, DecidableEq, Repr, Inhabited, Hashable

/-- Whether a name begins with a dot. -/
def isHiddenName (name : String) : Bool := name.toList.head? == some '.'

/-- Whether a component is a name that begins with a dot. -/
def Component.isHidden : Component → Bool
  | .name s => isHiddenName s
  | .root | .here | .up => false

namespace FilePath

def isAbsolute (p : FilePath) : Bool := p.text.toList.head? == some '/'

/-- The pieces between the separators. -/
def segments (p : FilePath) : List String := (Text.split '/' p.text.toList).map String.ofList

/-- The component a segment stands for when it is not the first of its path. -/
def innerComponent? (s : String) : Option Component :=
  if s == "" || s == "." then none
  else if s == ".." then some .up
  else some (.name s)

/-- The component the first segment stands for. -/
def firstComponent? (s : String) (absolute : Bool) : Option Component :=
  if absolute then some .root else if s == "." then some .here else innerComponent? s

def components (p : FilePath) : List Component :=
  match p.segments with
  | [] => []
  | s :: rest => (firstComponent? s p.isAbsolute).toList ++ rest.filterMap innerComponent?

/-- What paths are compared by. -/
abbrev key (p : FilePath) : List Component := p.components

/-- Puts a path behind another one; an absolute path stands alone. -/
def join (p q : FilePath) : FilePath :=
  if q.isAbsolute then q
  else if p.text.isEmpty || p.text.toList.getLast? == some '/' then ⟨p.text ++ q.text⟩
  else ⟨p.text ++ "/" ++ q.text⟩

instance : Append FilePath := ⟨join⟩

/-- The last component if it is a name. -/
def fileName? (p : FilePath) : Option String :=
  match p.components.getLast? with
  | some (.name s) => some s
  | _ => none

/-- What stands behind the last dot of a name, unless the dot is its first character. -/
def extensionOf (name : String) : Option String :=
  let behind := (name.toList.reverse.takeWhile (· != '.')).reverse
  let before := (name.toList.reverse.dropWhile (· != '.')).reverse.dropLast
  if before.isEmpty then none else some (String.ofList behind)

def extension? (p : FilePath) : Option String := p.fileName?.bind extensionOf

/-- Whether some name on the path begins with a dot. Mirrors `is_dot_path`. -/
def isHidden (p : FilePath) : Bool := p.components.any Component.isHidden

/-- Whether a walk takes the path for the standard input: it is written `-`, whatever separators
stand behind. -/
def isStandardInput (p : FilePath) : Bool := p.key == [.name "-"]

/-- Segments without those at the end that stand for no component. -/
def dropSilent (absolute : Bool) : List String → List String
  | [] => []
  | s :: rest =>
    match dropSilent.inner rest with
    | [] => if (firstComponent? s absolute).isSome then [s] else []
    | r => s :: r
where
  inner : List String → List String
    | [] => []
    | s :: rest =>
      match inner rest with
      | [] => if (innerComponent? s).isSome then [s] else []
      | r => s :: r

/-- Segments with separators between them; the empty first segment of an absolute path is its
separator. -/
def ofSegments : List String → FilePath
  | [""] => ⟨"/"⟩
  | ss => ⟨String.intercalate "/" ss⟩

/-- The path without its last component, in the spelling it has here; a path of no components and
the root have none. -/
def parent? (p : FilePath) : Option FilePath :=
  match p.components.getLast? with
  | none | some .root => none
  | some _ =>
    let abs := p.isAbsolute
    some (ofSegments (dropSilent abs (dropSilent abs p.segments).dropLast))

/-- What is left of a path below a prefix, component by component. -/
def below? (base p : FilePath) : Option (List Component) :=
  if base.components.isPrefixOf p.components then
    some (p.components.drop base.components.length)
  else none

end FilePath
end ClassAtlas
