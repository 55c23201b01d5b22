import ClassAtlas.Syntax.Tree
import ClassAtlas.Model.Declarations
import ClassAtlas.Text.Blank
/-!
# Classes in a syntax tree

Finds the class declarations of a tree, in the order in which they begin, and reads name, base and
methods off each. The trees of the JavaScript and of the TypeScript grammar differ in where they
put types and bases; both shapes are read here.

The walks keep their own stack, because sources can nest deeper than any call stack.
-/
namespace ClassAtlas.Syntax

/-- Mirrors `CLASS_KINDS`. -/
def classKinds : List String := ["class_declaration", "abstract_class_declaration", "class"]

/-- Mirrors `METHOD_KINDS`. -/
def methodKinds : List String :=
  ["method_definition", "method_signature", "abstract_method_signature"]

/-- Nodes whose `return` statements are their own. Mirrors `SCOPE_KINDS`. -/
def scopeKinds : List String :=
  ["function_declaration", "function_expression", "function", "arrow_function",
   "generator_function", "generator_function_declaration", "method_definition", "class",
   "class_declaration", "abstract_class_declaration"]

namespace Tree

/-- The named children that are no comments. Mirrors `named_children_of`. -/
def parts (t : Tree) : List Tree := t.namedChildren.filter (·.kind != "comment")

/-- Whether one of the given words is a child. Mirrors `has_token`. -/
def hasToken (t : Tree) (words : List String) : Bool :=
  t.children.any fun c => !c.isNamed && words.contains c.kind

theorem sizeOf_filter_le (p : Tree → Bool) (l : List Tree) : sizeOf (l.filter p) ≤ sizeOf l := by
  induction l with
  | nil => simp
  | cons a l ih =>
    simp only [List.filter_cons]
    split <;> simp only [List.cons.sizeOf_spec] <;> omega

theorem sizeOf_append (l m : List Tree) : sizeOf (l ++ m) + 1 = sizeOf l + sizeOf m := by
  induction l with
  | nil => simp; omega
  | cons a l ih => simp only [List.cons_append, List.cons.sizeOf_spec]; omega

theorem sizeOf_reverse (l : List Tree) : sizeOf l.reverse = sizeOf l := by
  induction l with
  | nil => rfl
  | cons a l ih =>
    have h := sizeOf_append l.reverse [a]
    simp only [List.reverse_cons, List.cons.sizeOf_spec, List.nil.sizeOf_spec] at h ⊢
    omega

theorem sizeOf_namedChildren_lt (t : Tree) : sizeOf t.namedChildren < sizeOf t :=
  Nat.lt_of_le_of_lt (sizeOf_filter_le _ _) t.sizeOf_children_lt

theorem sizeOf_parts_lt (t : Tree) : sizeOf t.parts < sizeOf t :=
  Nat.lt_of_le_of_lt (sizeOf_filter_le _ _) t.sizeOf_namedChildren_lt

/-- The nodes on the stack and below, the class nodes among them kept, each before those in it.
Mirrors `collect_classes`. -/
def collectClasses : List Tree → List Tree
  | [] => []
  | t :: stack =>
    let rest := collectClasses (t.namedChildren ++ stack)
    if classKinds.contains t.kind then t :: rest else rest
termination_by stack => sizeOf stack
decreasing_by
  have h := sizeOf_append t.namedChildren stack
  have := t.sizeOf_namedChildren_lt
  simp only [List.cons.sizeOf_spec]
  omega

/-- The class nodes of a tree, outer classes first. -/
def classes (t : Tree) : List Tree := collectClasses [t]

/-- The first error or missing node of a stack of trees; trees without the flag are not entered.
Mirrors `first_error`. -/
def firstErrorIn : List Tree → Option Tree
  | [] => none
  | t :: stack =>
    if t.info.isError || t.info.isMissing then some t
    else if t.info.hasError then firstErrorIn (t.children ++ stack)
    else firstErrorIn stack
termination_by stack => sizeOf stack
decreasing_by
  · have h := sizeOf_append t.children stack
    have := t.sizeOf_children_lt
    simp only [List.cons.sizeOf_spec]
    omega
  · simp only [List.cons.sizeOf_spec]
    omega

def firstError (t : Tree) : Option Tree := firstErrorIn [t]

/-- Whether a `return` with a value stands in a stack of trees, outside nested scopes. The last part
of a node is looked at first. Mirrors `returns_value`. -/
def returnsValueIn : List Tree → Bool
  | [] => false
  | t :: stack =>
    if t.kind == "return_statement" then
      if t.parts.isEmpty then returnsValueIn stack else true
    else if scopeKinds.contains t.kind then returnsValueIn stack
    else returnsValueIn (t.parts.reverse ++ stack)
termination_by stack => sizeOf stack
decreasing_by
  · simp only [List.cons.sizeOf_spec]
    omega
  · simp only [List.cons.sizeOf_spec]
    omega
  · have h := sizeOf_append t.parts.reverse stack
    have := t.sizeOf_parts_lt
    rw [sizeOf_reverse] at h
    simp only [List.cons.sizeOf_spec]
    omega

/-- Whether a function body returns a value from its own scope. -/
def returnsValue (body : Tree) : Bool := returnsValueIn body.parts.reverse

end Tree

namespace Text

variable (s : Text)

/-- Drops leading colons and the blanks at both ends. -/
def bareAnnotation (text : String) : String :=
  ClassAtlas.Text.trim (String.ofList (text.toList.dropWhile (· == ':')))

/-- The type in an annotation, without its colon. Mirrors `annotation_text`. -/
def annotation (t : Tree) : String :=
  match t.parts with
  | ty :: _ => s.of ty
  | [] => bareAnnotation (s.of t)

/-- A parameter of a signature. Mirrors `SyntaxMethod::parameter`. -/
def parameter (t : Tree) : Parameter :=
  if t.kind == "required_parameter" || t.kind == "optional_parameter" then
    ⟨((t.field? "pattern").map s.of).getD (s.of t), (t.field? "type").map s.annotation⟩
  else if t.kind == "assignment_pattern" then
    ⟨((t.field? "left").map s.of).getD (s.of t), none⟩
  else ⟨s.of t, none⟩

def methodName (t : Tree) : String := ((t.field? "name").map s.of).getD ""

/-- Mirrors `SyntaxMethod::is_constructor`. -/
def isConstructor (t : Tree) : Bool := s.methodName t == "constructor"

/-- Mirrors `SyntaxMethod::is_accessor`. -/
def isAccessor (t : Tree) : Bool := t.hasToken ["get", "set", "static get"]

/-- The declared type, or what the body shows: `any` if a value is returned, `void` if none is, and
`any` where there is no body. An `async` body gives a promise of it. Mirrors
`SyntaxMethod::return_type`. -/
def returnType (t : Tree) : String :=
  match t.field? "return_type" with
  | some a => s.annotation a
  | none =>
    match t.field? "body" with
    | none => implicitType
    | some body =>
      let inferred := if body.returnsValue then implicitType else "void"
      if t.hasToken ["async"] then "Promise<" ++ inferred ++ ">" else inferred

def method (t : Tree) : MethodDecl :=
  ⟨s.methodName t, ((t.field? "parameters").map fun ps => ps.parts.map s.parameter).getD [],
    s.returnType t⟩

/-- The members of a class body that are methods and neither constructors nor accessors. -/
def eligibleMembers (body : Tree) : List Tree :=
  body.parts.filter fun m =>
    methodKinds.contains m.kind && !s.isConstructor m && !isAccessor m

/-- The methods of a class. A signature is left out if a method of its name has a body. Mirrors
`SyntaxClass::methods`. -/
def methodNodes (t : Tree) : List Tree :=
  match t.field? "body" with
  | none => []
  | some body =>
    let members := s.eligibleMembers body
    let implemented := (members.filter (·.kind == "method_definition")).map s.methodName
    members.filter fun m => m.kind != "method_signature" || !implemented.contains (s.methodName m)

/-- The text of what a class extends; a class extended in place is shown by its name. Mirrors
`SyntaxClass::base_name`. -/
def baseName (t : Tree) : Option String := do
  let heritage ← t.parts.find? (·.kind == "class_heritage")
  let first ← heritage.parts.head?
  let base ← if first.kind == "extends_clause" then first.field? "value"
    else if first.kind == "implements_clause" then none
    else some first
  let base ← if base.kind == "instantiation_expression" then base.parts.head? else some base
  if base.kind == "class" then
    some (displayName ((base.field? "name").map s.of))
  else some (s.of base)

def classDecl (t : Tree) : ClassDecl :=
  ⟨(t.field? "name").map s.of, s.baseName t, (s.methodNodes t).map s.method⟩

/-- The model of the classes of a tree. -/
def model (t : Tree) : Model := Model.ofClasses (t.classes.map s.classDecl)

end Text
end ClassAtlas.Syntax
