/-!
# The structural model

What is known of a body of sources: its classes with the signatures of their methods, and which
class extends what. Everything stands in the order in which it was met; nothing is sorted and
nothing is left out as a repetition.
-/
namespace ClassAtlas

/-- The name shown for a class that has none. Mirrors `UNNAMED_CLASS`. -/
def unnamedClass : String := "UnnamedClass"

/-- The name shown for a class; a missing or empty name is replaced. Mirrors `display_name`. -/
def displayName (name : Option String) : String :=
  match name with
  | some n => if n.isEmpty then unnamedClass else n
  | none => unnamedClass

/-- A class and the signatures of its methods. Mirrors `ClassEntry`. -/
structure ClassEntry where
  name : String
  methods : List String
deriving BEq, DecidableEq, Repr, Inhabited

/-- An edge from a class to the text of the base it extends. Mirrors `Relationship`. -/
structure Relationship where
  source : String
  base : String
deriving BEq, DecidableEq, Repr, Inhabited

/-- Classes and relationships in the order in which they were met. Mirrors `StructuralModel`. -/
structure Model where
  classes : List ClassEntry
  relationships : List Relationship
deriving BEq, DecidableEq, Repr, Inhabited

namespace Model

def empty : Model := ⟨[], []⟩

/-- Puts the contents of another model behind those of this one. Mirrors
`StructuralModel::extend`. -/
def append (m n : Model) : Model :=
  ⟨m.classes ++ n.classes, m.relationships ++ n.relationships⟩

instance : Append Model := ⟨append⟩

def isEmpty (m : Model) : Bool := m.classes.isEmpty && m.relationships.isEmpty

@[simp] theorem append_classes (m n : Model) : (m ++ n).classes = m.classes ++ n.classes := rfl

@[simp] theorem append_relationships (m n : Model) :
    (m ++ n).relationships = m.relationships ++ n.relationships := rfl

@[simp] theorem empty_append (m : Model) : empty ++ m = m := rfl

@[simp] theorem append_empty (m : Model) : m ++ empty = m := by
  show append m empty = m
  simp only [append, empty, List.append_nil]

theorem append_assoc (l m n : Model) : l ++ m ++ n = l ++ (m ++ n) := by
  show append (append l m) n = append l (append m n)
  simp only [append, List.append_assoc]

end Model

/-- A method signature: name, parameters with their types, and the type returned. Mirrors
`MethodSignature::new`. -/
def signature (name : String) (params : List (String × String)) (returns : String) : String :=
  name ++ "(" ++ String.intercalate ", " (params.map fun p => p.1 ++ ": " ++ p.2) ++ "): "
    ++ returns

/-- The type of a parameter or of a method about which nothing is written. Mirrors
`IMPLICIT_TYPE`. -/
def implicitType : String := "any"

end ClassAtlas
