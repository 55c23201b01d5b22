import ClassAtlas.Model.Basic
/-!
# Class diagrams

The text of a model as a class diagram: a block for each class with its methods indented by two
spaces, then a line for each relationship, between a header and a trailer. Lines are joined with
line breaks; none stands at the end.
-/
namespace ClassAtlas.Diagram

/-- Mirrors `DIAGRAM_HEADER`. -/
def header : String := "@startuml"

/-- Mirrors `DIAGRAM_TRAILER`. -/
def trailer : String := "@enduml"

/-- The lines of a class. -/
def blockLines (c : ClassEntry) : List String :=
  ("class " ++ c.name ++ " \x7b") :: (c.methods.map ("  " ++ ·) ++ ["\x7d"])

/-- The line of a relationship. -/
def edgeLine (r : Relationship) : String := r.source ++ " --> " ++ r.base

/-- The lines of a model. -/
def lines (m : Model) : List String :=
  header :: (m.classes.flatMap blockLines ++ m.relationships.map edgeLine ++ [trailer])

/-- The text of a model. Mirrors `render`. -/
def render (m : Model) : String := String.intercalate "\n" (lines m)

end ClassAtlas.Diagram
