import ClassAtlas.Model.Basic
/-!
# Class declarations

What a model is built from, whatever the declarations were read from: each class gives one entry
and, if it extends something, one relationship.
-/
namespace ClassAtlas

/-- A parameter and the type written for it. Mirrors `Parameter`. -/
structure Parameter where
  name : String
  annotation : Option String
deriving BEq, DecidableEq, Repr, Inhabited

/-- Mirrors `Parameter::type_text`. -/
def Parameter.typeText (p : Parameter) : String := p.annotation.getD implicitType

/-- A method of a class: its name, parameters, and declared or inferred return type. Mirrors
`MethodDecl`. -/
structure MethodDecl where
  name : String
  params : List Parameter
  returns : String
deriving BEq, DecidableEq, Repr, Inhabited

/-- Mirrors `method_signature`. -/
def MethodDecl.signature (m : MethodDecl) : String :=
  ClassAtlas.signature m.name (m.params.map fun p => (p.name, p.typeText)) m.returns

/-- A class: its name, the text of the base it extends, and its methods. Mirrors `ClassDecl`. -/
structure ClassDecl where
  name : Option String
  base : Option String
  methods : List MethodDecl
deriving BEq, DecidableEq, Repr, Inhabited

namespace ClassDecl

def entry (c : ClassDecl) : ClassEntry := ⟨displayName c.name, c.methods.map (·.signature)⟩

def relationship? (c : ClassDecl) : Option Relationship :=
  c.base.map fun b => ⟨displayName c.name, b⟩

end ClassDecl

/-- The model of some classes, in their order. Mirrors `build_model`. -/
def Model.ofClasses (cs : List ClassDecl) : Model :=
  ⟨cs.map (·.entry), cs.filterMap (·.relationship?)⟩

end ClassAtlas
