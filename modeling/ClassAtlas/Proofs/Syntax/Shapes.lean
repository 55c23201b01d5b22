import ClassAtlas.Proofs.Syntax.Attribution
import ClassAtlas.Proofs.Syntax.Returns

/-!
# One class in two shapes

A class without type annotations can stand in a JavaScript and in a TypeScript file, and the two
grammars give it trees of different shapes: the base is in the heritage itself or in a clause of it,
and a parameter is a pattern or holds one. What is written (`Written.Class`) is set apart here from
the trees it may have (`Encodes`), with comments and decorators between the parts of any node.

Both shapes are read as the one declaration that is written (`Encodes.classDecl`), but for an
HTML-like comment between `extends` and the base: the shape of JavaScript has no field for the base,
so that the comment is taken for it.
-/
namespace ClassAtlas.Syntax

namespace Written

/-! ## What is written -/

/-- What a class extends: a class written in place, which is shown by its name, or some other
expression. -/
inductive Base where
  | inline (name : Option String)
  | expression (text : String)

def Base.shown : Base → String
  | inline name => displayName name
  | expression text => text

/-- What follows `extends`: the HTML-like comments in front of the base, and the base. -/
structure Heritage where
  remarks : List String
  base : Base

/-- What is listed as a parameter: an identifier, a destructuring or a rest pattern, perhaps with a
default value; and an HTML-like comment. -/
inductive Slot where
  | plain (pattern : String)
  | withDefault (pattern : String)
  | remark (text : String)

def Slot.shown : Slot → Parameter
  | plain text => ⟨text, none⟩
  | withDefault text => ⟨text, none⟩
  | remark text => ⟨text, none⟩

/-- What may stand right in front of the name of a method. -/
inductive Mark where
  | getter
  | setter
  | generator

def Mark.word : Mark → String
  | getter => "get"
  | setter => "set"
  | generator => "*"

def Mark.isAccessor : Mark → Bool
  | generator => false
  | _ => true

structure Modifiers where
  isStatic : Bool
  isAsync : Bool
  mark : Option Mark

namespace Modifiers

/-- The modifiers and the mark, in their order. -/
def words (m : Modifiers) : List String :=
  (if m.isStatic then ["static"] else []) ++ (if m.isAsync then ["async"] else []) ++
    (m.mark.map Mark.word).toList

def isAccessor (m : Modifiers) : Bool := m.mark.any Mark.isAccessor

end Modifiers

structure Method where
  modifiers : Modifiers
  name : String
  slots : List Slot
  body : List Outline

namespace Method

def isListed (m : Method) : Bool := m.name != "constructor" && !m.modifiers.isAccessor

def returns (m : Method) : String :=
  let inferred := if m.body.any Outline.returns then "any" else "void"
  if m.modifiers.isAsync then "Promise<" ++ inferred ++ ">" else inferred

def decl (m : Method) : MethodDecl := ⟨m.name, m.slots.map Slot.shown, m.returns⟩

end Method

inductive Member where
  | method (m : Method)
  | field
  | staticBlock

/-- The method that a member is listed as. -/
def Member.listed? : Member → Option Method
  | method m => if m.isListed then some m else none
  | _ => none

structure Class where
  name : Option String
  heritage : Option Heritage
  members : List Member

namespace Class

def base (c : Class) : Option String := c.heritage.map (·.base.shown)

def methods (c : Class) : List MethodDecl := (c.members.filterMap Member.listed?).map Method.decl

def decl (c : Class) : ClassDecl := ⟨c.name, c.base, c.methods⟩

/-- What is taken for the base where no field tells it. -/
def unmarkedBase (c : Class) : Option String :=
  c.heritage.map fun h => h.remarks.head?.getD h.base.shown

end Class

end Written

open Syntax.Tree

/-! ## The parts of a node and what stands between them -/

/-- The trees of a list, in their order, with others strewn between them. -/
inductive Strewn (aside : Tree → Prop) : List Tree → List Tree → Prop
  | nil : Strewn aside [] []
  | part {t : Tree} {ts cs : List Tree} : Strewn aside ts cs → Strewn aside (t :: ts) (t :: cs)
  | aside {c : Tree} {ts cs : List Tree} : aside c → Strewn aside ts cs → Strewn aside ts (c :: cs)

namespace Strewn

variable {aside : Tree → Prop} {ts cs : List Tree} {p : Tree → Bool}

theorem filter_eq (h : Strewn aside ts cs) (hp : ∀ c, aside c → p c = false) :
    cs.filter p = ts.filter p := by
  induction h with
  | nil => rfl
  | part _ ih => rw [List.filter_cons, List.filter_cons, ih]
  | aside hc _ ih => rw [List.filter_cons_of_neg (by simp [hp _ hc]), ih]

theorem find?_eq (h : Strewn aside ts cs) (hp : ∀ c, aside c → p c = false) :
    cs.find? p = ts.find? p := by
  rw [← List.head?_filter, ← List.head?_filter, h.filter_eq hp]

theorem any_eq (h : Strewn aside ts cs) (hp : ∀ c, aside c → p c = false) :
    cs.any p = ts.any p := by
  rw [← List.isSome_find?, ← List.isSome_find?, h.find?_eq hp]

end Strewn

/-- A keyword or a punctuation mark. -/
def IsToken (word : String) (c : Tree) : Prop :=
  c.isNamed = false ∧ c.kind = word ∧ c.info.fields = []

/-- A comment between slashes or up to the end of the line. -/
def IsComment (c : Tree) : Prop := c.isNamed = true ∧ c.kind = "comment" ∧ c.info.fields = []

/-- An HTML-like comment. -/
def IsRemark (c : Tree) : Prop := c.isNamed = true ∧ c.kind = "html_comment" ∧ c.info.fields = []

/-- A comment or a decorator. -/
def IsAside (c : Tree) : Prop :=
  c.isNamed = true ∧ c.kind ∈ ["comment", "html_comment", "decorator"] ∧
    ∀ f ∈ c.info.fields, f = "decorator"

def IsPunctuation (c : Tree) : Prop :=
  c.isNamed = false ∧ c.kind ∈ ["(", ",", ")", "\x7b", ";", "\x7d"] ∧ c.info.fields = []

instance (c : Tree) : Decidable (IsComment c) :=
  inferInstanceAs (Decidable (c.isNamed = true ∧ c.kind = "comment" ∧ c.info.fields = []))

instance (c : Tree) : Decidable (IsRemark c) :=
  inferInstanceAs (Decidable (c.isNamed = true ∧ c.kind = "html_comment" ∧ c.info.fields = []))

instance (c : Tree) : Decidable (IsPunctuation c) :=
  inferInstanceAs (Decidable (c.isNamed = false ∧ c.kind ∈ ["(", ",", ")", "\x7b", ";", "\x7d"] ∧
    c.info.fields = []))

/-- Comments and decorators between the parts of a node fill none of its fields. -/
theorem field?_strewn {t : Tree} {ts : List Tree} {f : String} (h : Strewn IsAside ts t.children)
    (hf : f ≠ "decorator") : t.field? f = ts.find? fun c => c.info.fields.contains f := by
  refine h.find?_eq fun c hc => ?_
  rw [← Bool.not_eq_true, List.contains_iff_mem]
  exact fun hmem => hf (hc.2.2 f hmem)

/-! ## The shapes -/

inductive Shape where
  | javaScript
  | typeScript

/-- The name of a class. -/
inductive EncodesName (s : Text) : Shape → Option String → List Tree → Prop
  | absent {shape : Shape} : EncodesName s shape none []
  | identifier {name : String} {n : Tree} : n.isNamed = true → n.kind = "identifier" →
      n.info.fields = ["name"] → s.of n = name → EncodesName s .javaScript (some name) [n]
  | typeIdentifier {name : String} {n : Tree} : n.isNamed = true → n.kind = "type_identifier" →
      n.info.fields = ["name"] → s.of n = name → EncodesName s .typeScript (some name) [n]

/-- Nodes that are read as something else than an expression that a class extends. -/
def notBases : List String :=
  ["comment", "html_comment", "class", "instantiation_expression", "extends_clause",
    "implements_clause"]

inductive EncodesBase (s : Text) : Written.Base → Tree → Prop
  | inline {name : Option String} {n : Tree} : n.isNamed = true → n.kind = "class" →
      (n.field? "name").map s.of = name → EncodesBase s (.inline name) n
  | expression {text : String} {n : Tree} : n.isNamed = true → n.kind ∉ notBases →
      s.of n = text → EncodesBase s (.expression text) n

/-- `extends` and the base, with comments between them. -/
inductive EncodesExtends (s : Text) (fields : List String) : Written.Heritage → List Tree → Prop
  | mk {h : Written.Heritage} {word base : Tree} {gap : List Tree} : IsToken "extends" word →
      (∀ c ∈ gap, IsComment c ∨ IsRemark c) →
      (gap.filter (·.kind == "html_comment")).map s.of = h.remarks →
      base.info.fields = fields → EncodesBase s h.base base →
      EncodesExtends s fields h (word :: (gap ++ [base]))

/-- The heritage of a class holds the base, or a clause with the base in the field `value`. -/
inductive EncodesHeritage (s : Text) : Shape → Option Written.Heritage → List Tree → Prop
  | absent {shape : Shape} : EncodesHeritage s shape none []
  | direct {h : Written.Heritage} {n : Tree} : n.isNamed = true → n.kind = "class_heritage" →
      n.info.fields = [] → EncodesExtends s [] h n.children →
      EncodesHeritage s .javaScript (some h) [n]
  | clause {h : Written.Heritage} {n clause : Tree} : n.isNamed = true →
      n.kind = "class_heritage" → n.info.fields = [] → n.children = [clause] →
      clause.isNamed = true → clause.kind = "extends_clause" →
      EncodesExtends s ["value"] h clause.children → EncodesHeritage s .typeScript (some h) [n]

/-- An identifier, a destructuring pattern or a rest pattern. -/
def IsPattern (fields : List String) (c : Tree) : Prop :=
  c.isNamed = true ∧
    c.kind ∈ ["identifier", "undefined", "object_pattern", "array_pattern", "rest_pattern"] ∧
    c.info.fields = fields

/-- A pattern is a parameter, or is held by one; a default value stands behind it. -/
inductive EncodesSlot (s : Text) : Shape → Written.Slot → Tree → Prop
  | remark {shape : Shape} {text : String} {c : Tree} : IsRemark c → s.of c = text →
      EncodesSlot s shape (.remark text) c
  | bare {text : String} {c : Tree} : IsPattern [] c → s.of c = text →
      EncodesSlot s .javaScript (.plain text) c
  | assignment {text : String} {c pattern equals value : Tree} : c.isNamed = true →
      c.kind = "assignment_pattern" → IsPattern ["left"] pattern → s.of pattern = text →
      IsToken "=" equals → value.info.fields = ["right"] →
      Strewn IsAside [pattern, equals, value] c.children →
      EncodesSlot s .javaScript (.withDefault text) c
  | required {text : String} {c pattern : Tree} : c.isNamed = true →
      c.kind = "required_parameter" → IsPattern ["pattern"] pattern → s.of pattern = text →
      Strewn IsAside [pattern] c.children → EncodesSlot s .typeScript (.plain text) c
  | requiredDefault {text : String} {c pattern equals value : Tree} : c.isNamed = true →
      c.kind = "required_parameter" → IsPattern ["pattern"] pattern → s.of pattern = text →
      IsToken "=" equals → value.info.fields = ["value"] →
      Strewn IsAside [pattern, equals, value] c.children →
      EncodesSlot s .typeScript (.withDefault text) c

/-- The words in front of the name of a method. A line break may join `static` and `get`. -/
inductive EncodesWords : Shape → Written.Modifiers → List String → Prop
  | apart {shape : Shape} {m : Written.Modifiers} : EncodesWords shape m m.words
  | joined : EncodesWords .javaScript ⟨true, false, some .getter⟩ ["static get"]

inductive EncodesMethod (s : Text) (shape : Shape) : Written.Method → Tree → Prop
  | mk {m : Written.Method} {n name params body : Tree} {words : List String}
      {tokens slots : List Tree} : n.isNamed = true → n.kind = "method_definition" →
      EncodesWords shape m.modifiers words → List.Forall₂ IsToken words tokens →
      name.isNamed = true → name.info.fields = ["name"] → s.of name = m.name →
      params.isNamed = true → params.info.fields = ["parameters"] →
      List.Forall₂ (EncodesSlot s shape) m.slots slots →
      Strewn (fun c => IsComment c ∨ IsPunctuation c) slots params.children →
      body.isNamed = true → body.info.fields = ["body"] → outlines body.children = m.body →
      Strewn IsAside (tokens ++ [name, params, body]) n.children → EncodesMethod s shape m n

inductive EncodesMember (s : Text) : Shape → Written.Member → Tree → Prop
  | method {shape : Shape} {m : Written.Method} {n : Tree} : EncodesMethod s shape m n →
      EncodesMember s shape (.method m) n
  | field {n : Tree} : n.isNamed = true → n.kind = "field_definition" →
      EncodesMember s .javaScript .field n
  | publicField {n : Tree} : n.isNamed = true → n.kind = "public_field_definition" →
      EncodesMember s .typeScript .field n
  | staticBlock {shape : Shape} {n : Tree} : n.isNamed = true → n.kind = "class_static_block" →
      EncodesMember s shape .staticBlock n

/-- A tree of a class that is written, in one of the shapes. -/
inductive Encodes (s : Text) (shape : Shape) : Written.Class → Tree → Prop
  | mk {c : Written.Class} {t keyword body : Tree} {name heritage members : List Tree} :
      t.isNamed = true → t.kind ∈ ["class_declaration", "class"] → IsToken "class" keyword →
      EncodesName s shape c.name name → EncodesHeritage s shape c.heritage heritage →
      body.isNamed = true → body.kind = "class_body" → body.info.fields = ["body"] →
      List.Forall₂ (EncodesMember s shape) c.members members →
      Strewn (fun c => IsAside c ∨ IsPunctuation c) members body.children →
      Strewn IsAside (keyword :: (name ++ heritage ++ [body])) t.children → Encodes s shape c t

/-! ## Reading the shapes -/

section Reading

variable {s : Text} {shape : Shape}

theorem EncodesSlot.isPart {a : Written.Slot} {c : Tree} (h : EncodesSlot s shape a c) :
    c.isPart = true := by
  have hpart : ∀ {kind : String}, c.isNamed = true → c.kind = kind → kind ≠ "comment" →
      c.isPart = true := by
    intro kind hnamed hkind hne
    simp [Tree.isPart, hnamed, hkind, hne]
  cases h with
  | remark h _ => exact hpart h.1 h.2.1 (by decide)
  | bare h _ => exact hpart h.1 rfl (ne_of_mem_of_not_mem h.2.1 (by decide))
  | assignment hnamed hkind => exact hpart hnamed hkind (by decide)
  | required hnamed hkind => exact hpart hnamed hkind (by decide)
  | requiredDefault hnamed hkind => exact hpart hnamed hkind (by decide)

theorem parameter_of_required {c pattern : Tree} {rest : List Tree}
    (hkind : c.kind = "required_parameter") (hpattern : IsPattern ["pattern"] pattern)
    (hrest : ∀ a ∈ rest, "type" ∉ a.info.fields)
    (hchildren : Strewn IsAside (pattern :: rest) c.children) :
    s.parameter c = ⟨s.of pattern, none⟩ := by
  have hfield : c.field? "pattern" = some pattern := by
    rw [field?_strewn hchildren (by decide), List.find?_cons_of_pos (by simp [hpattern.2.2])]
  have htype : c.field? "type" = none := by
    rw [field?_strewn hchildren (by decide), List.find?_eq_none]
    simpa [hpattern.2.2] using hrest
  simp [Text.parameter, hkind, hfield, htype]

theorem parameter_of_other {c : Tree} (hrequired : c.kind ≠ "required_parameter")
    (hoptional : c.kind ≠ "optional_parameter") (hassignment : c.kind ≠ "assignment_pattern") :
    s.parameter c = ⟨s.of c, none⟩ := by
  simp [Text.parameter, hrequired, hoptional, hassignment]

/-- A parameter is shown as it is written in either shape. -/
theorem EncodesSlot.parameter {a : Written.Slot} {c : Tree} (h : EncodesSlot s shape a c) :
    s.parameter c = a.shown := by
  cases h with
  | remark h htext =>
    have hne : ∀ {kind : String}, kind ≠ "html_comment" → c.kind ≠ kind :=
      fun hkind => h.2.1.trans_ne hkind.symm
    rw [parameter_of_other (hne (by decide)) (hne (by decide)) (hne (by decide)), htext]
    rfl
  | bare h htext =>
    rw [parameter_of_other (ne_of_mem_of_not_mem h.2.1 (by decide))
      (ne_of_mem_of_not_mem h.2.1 (by decide)) (ne_of_mem_of_not_mem h.2.1 (by decide)), htext]
    rfl
  | @assignment _ _ pattern _ _ _ hkind hpattern htext _ _ hchildren =>
    have hleft : c.field? "left" = some pattern := by
      rw [field?_strewn hchildren (by decide), List.find?_cons_of_pos (by simp [hpattern.2.2])]
    simp [Text.parameter, hkind, hleft, htext, Written.Slot.shown]
  | required _ hkind hpattern htext hchildren =>
    rw [parameter_of_required hkind hpattern (by simp) hchildren, htext]
    rfl
  | requiredDefault _ hkind hpattern htext hequals hvalue hchildren =>
    rw [parameter_of_required hkind hpattern (by simp [hequals.2.2, hvalue]) hchildren, htext]
    rfl

theorem map_parameter {slots : List Written.Slot} {params : Tree} {cs : List Tree}
    (h : List.Forall₂ (EncodesSlot s shape) slots cs)
    (hchildren : Strewn (fun c => IsComment c ∨ IsPunctuation c) cs params.children) :
    params.parts.map s.parameter = slots.map Written.Slot.shown := by
  have hparts : params.parts = cs.filter Tree.isPart := by
    rw [parts_eq, hchildren.filter_eq]
    rintro c (hc | hc)
    · simp [Tree.isPart, hc.2.1]
    · simp [Tree.isPart, hc.1]
  rw [hparts]
  clear hchildren hparts
  induction h with
  | nil => rfl
  | cons hslot _ ih =>
    rw [List.filter_cons_of_pos hslot.isPart, List.map_cons, List.map_cons, hslot.parameter, ih]

/-! ### Methods -/

section Method

variable {m : Written.Method} {n : Tree} {words : List String} {tokens rest : List Tree}

/-- The words in front of the name fill no field of the method. -/
theorem field?_method {f : String} (htokens : List.Forall₂ IsToken words tokens)
    (hchildren : Strewn IsAside (tokens ++ rest) n.children) (hf : f ≠ "decorator") :
    n.field? f = rest.find? fun c => c.info.fields.contains f := by
  rw [field?_strewn hchildren hf, List.find?_append]
  suffices h : (tokens.find? fun c => c.info.fields.contains f) = none by rw [h, Option.none_or]
  clear hchildren
  induction htokens with
  | nil => rfl
  | cons htoken _ ih => rw [List.find?_cons_of_neg (by simp [htoken.2.2]), ih]

/-- The tokens of a method are the words in front of its name. -/
theorem hasToken_method (htokens : List.Forall₂ IsToken words tokens)
    (hrest : ∀ c ∈ rest, c.isNamed = true)
    (hchildren : Strewn IsAside (tokens ++ rest) n.children) (among : List String) :
    n.hasToken among = words.any among.contains := by
  have hnone : rest.any (fun c => !c.isNamed && among.contains c.kind) = false :=
    List.any_eq_false.2 fun c hc => by simp [hrest c hc]
  rw [hasToken, hchildren.any_eq fun c hc => by simp [hc.1], List.any_append, hnone, Bool.or_false]
  clear hrest hnone hchildren
  induction htokens with
  | nil => rfl
  | cons htoken _ ih => rw [List.any_cons, List.any_cons, ih, htoken.1, htoken.2.1]; rfl

theorem EncodesWords.any_async {m : Written.Modifiers} (h : EncodesWords shape m words) :
    words.any ["async"].contains = m.isAsync := by
  cases h with
  | apart => obtain ⟨_ | _, _ | _, _ | _ | _ | _⟩ := m <;> rfl
  | joined => rfl

theorem EncodesWords.any_accessor {m : Written.Modifiers} (h : EncodesWords shape m words) :
    words.any ["get", "set", "static get"].contains = m.isAccessor := by
  cases h with
  | apart => obtain ⟨_ | _, _ | _, _ | _ | _ | _⟩ := m <;> rfl
  | joined => rfl

/-- A method is read as it is written in either shape. -/
theorem EncodesMethod.method_eq (h : EncodesMethod s shape m n) :
    n.kind = "method_definition" ∧ s.isEligible n = m.isListed ∧ s.method n = m.decl := by
  obtain @⟨name, params, body, words, tokens, slots, hnamed, hkind, hwords, htokens, hname,
    hnamefield, hnametext, hparams, hparamsfield, hslots, hparamschildren, hbody, hbodyfield,
    hbodyparts, hchildren⟩ := h
  have hrest : ∀ c ∈ [name, params, body], c.isNamed = true := by simp [hname, hparams, hbody]
  have hmethodName : s.methodName n = m.name := by
    rw [Text.methodName, field?_method htokens hchildren (by decide),
      List.find?_cons_of_pos (by simp [hnamefield])]
    exact hnametext
  have hfieldparams : n.field? "parameters" = some params := by
    rw [field?_method htokens hchildren (by decide)]
    simp [hnamefield, hparamsfield]
  have hfieldbody : n.field? "body" = some body := by
    rw [field?_method htokens hchildren (by decide)]
    simp [hnamefield, hparamsfield, hbodyfield]
  have hfieldreturn : n.field? "return_type" = none := by
    rw [field?_method htokens hchildren (by decide)]
    simp [hnamefield, hparamsfield, hbodyfield]
  have hasync : n.hasToken ["async"] = m.modifiers.isAsync := by
    rw [hasToken_method htokens hrest hchildren, hwords.any_async]
  have haccessor : n.hasToken ["get", "set", "static get"] = m.modifiers.isAccessor := by
    rw [hasToken_method htokens hrest hchildren, hwords.any_accessor]
  refine ⟨hkind, ?_, ?_⟩
  · rw [Text.isEligible, Text.isConstructor, Text.isAccessor, hmethodName, haccessor, hkind, hnamed]
    simp [methodKinds, Written.Method.isListed, bne]
  · have hreturns : s.returnType n = m.returns := by
      rw [Text.returnType, hfieldreturn, hfieldbody, hasync, Written.Method.returns, ← hbodyparts,
        ← returnsValue_eq]
      rfl
    rw [Text.method, hmethodName, hfieldparams, hreturns, Option.map_some, Option.getD_some,
      map_parameter hslots hparamschildren]
    rfl

end Method

/-! ### Members -/

theorem isListed_eq_of_other {body n : Tree} {kind : String} (hkind : n.kind = kind)
    (hother : kind ∉ methodKinds) : s.isListed body n = false := by
  rw [Text.isListed, Text.isEligible, hkind]
  simp [hother]

theorem EncodesMember.listed {a : Written.Member} {n : Tree} (h : EncodesMember s shape a n)
    (body : Tree) :
    (if s.isListed body n then some (s.method n) else none) =
      a.listed?.map Written.Method.decl := by
  cases h with
  | @method _ m _ h =>
    obtain ⟨hkind, heligible, hmethod⟩ := h.method_eq
    have hlisted : s.isListed body n = m.isListed := by
      rw [Text.isListed, heligible, hkind]
      rfl
    rw [hlisted, hmethod, Written.Member.listed?]
    cases m.isListed <;> rfl
  | field _ hkind => rw [isListed_eq_of_other hkind (by decide)]; rfl
  | publicField _ hkind => rw [isListed_eq_of_other hkind (by decide)]; rfl
  | staticBlock _ hkind => rw [isListed_eq_of_other hkind (by decide)]; rfl

theorem map_method_listed {members : List Written.Member} {ns : List Tree}
    (h : List.Forall₂ (EncodesMember s shape) members ns) (body : Tree) :
    (ns.filter (s.isListed body)).map s.method =
      (members.filterMap Written.Member.listed?).map Written.Method.decl := by
  induction h with
  | nil => rfl
  | @cons a n _ _ hmember _ ih =>
    have hlisted := hmember.listed body
    cases hwritten : a.listed? with
    | none =>
      rw [hwritten] at hlisted
      rw [List.filterMap_cons_none hwritten, List.filter_cons_of_neg (by simpa using hlisted), ih]
    | some m =>
      rw [hwritten, Option.map_some, Option.ite_none_right_eq_some, Option.some_inj] at hlisted
      rw [List.filterMap_cons_some hwritten, List.filter_cons_of_pos hlisted.1, List.map_cons,
        List.map_cons, hlisted.2, ih]

/-- What stands between the members of a class is listed as no method. -/
theorem isListed_of_between {body c : Tree} (h : IsAside c ∨ IsPunctuation c) :
    s.isListed body c = false := by
  rcases h with h | h
  · have hother : c.kind ∉ methodKinds := by
      have hkind := h.2.1
      simp only [List.mem_cons, List.not_mem_nil, or_false] at hkind
      rcases hkind with hkind | hkind | hkind <;> rw [hkind] <;> decide
    exact isListed_eq_of_other rfl hother
  · rw [Text.isListed, Text.isEligible, h.1]
    simp

/-! ### Bases -/

/-- The base that a class is shown to extend, by the node taken for it. -/
def shownBase (s : Text) (base : Tree) : String :=
  if base.kind = "class" then displayName ((base.field? "name").map s.of) else s.of base

theorem EncodesBase.shown {b : Written.Base} {base : Tree} (h : EncodesBase s b base) :
    shownBase s base = b.shown := by
  cases h with
  | inline _ hkind hname => rw [shownBase, if_pos hkind, hname, Written.Base.shown]
  | expression _ hkind htext =>
    have hclass : base.kind ≠ "class" := (ne_of_mem_of_not_mem (by decide) hkind).symm
    rw [shownBase, if_neg hclass, htext, Written.Base.shown]

/-- What the first part of a heritage extends. -/
def extended? (first : Tree) : Option Tree :=
  if first.kind == "extends_clause" then first.field? "value"
  else if first.kind == "implements_clause" then none
  else some first

/-- A base without the types it is applied to. -/
def unapplied? (base : Tree) : Option Tree :=
  if base.kind == "instantiation_expression" then base.parts.head? else some base

/-- The node that is taken for the base of a class. -/
def baseNode? (t : Tree) : Option Tree :=
  (t.parts.find? (·.kind == "class_heritage")).bind fun heritage =>
    heritage.parts.head?.bind fun first => (extended? first).bind unapplied?

theorem ite_class_eq_shownBase (base : Tree) :
    (if (base.kind == "class") = true then some (displayName ((base.field? "name").map s.of))
      else some (s.of base)) = some (shownBase s base) := by
  unfold shownBase
  by_cases hkind : base.kind = "class"
  · rw [if_pos (beq_iff_eq.2 hkind), if_pos hkind]
  · rw [if_neg (mt beq_iff_eq.1 hkind), if_neg hkind]

theorem baseName_eq_map_baseNode? (t : Tree) : s.baseName t = (baseNode? t).map (shownBase s) := by
  have hunapplied : ∀ base : Tree, (if (base.kind == "instantiation_expression") = true then
      base.parts.head?.bind fun b => some (shownBase s b) else some (shownBase s base)) =
      (unapplied? base).map (shownBase s) := by
    intro base
    unfold unapplied?
    split
    · cases base.parts.head? <;> rfl
    · rfl
  unfold Text.baseName baseNode?
  simp only [ite_class_eq_shownBase]
  cases t.parts.find? (·.kind == "class_heritage") with
  | none => rfl
  | some heritage =>
    simp only [Option.bind_eq_bind, Option.bind_some]
    cases heritage.parts.head? with
    | none => rfl
    | some first =>
      simp only [Option.bind_some, extended?]
      split
      · cases first.field? "value" with
        | none => rfl
        | some base => exact hunapplied base
      · split
        · rfl
        · exact hunapplied first

theorem baseName_of_direct {t heritage base : Tree}
    (hheritage : t.parts.find? (·.kind == "class_heritage") = some heritage)
    (hfirst : heritage.parts.head? = some base)
    (hkind : base.kind ∉ ["extends_clause", "implements_clause", "instantiation_expression"]) :
    s.baseName t = some (shownBase s base) := by
  simp only [List.mem_cons, List.not_mem_nil, or_false, not_or] at hkind
  obtain ⟨hextends, himplements, hinstantiation⟩ := hkind
  rw [baseName_eq_map_baseNode?, baseNode?, hheritage, Option.bind_some, hfirst]
  simp [extended?, unapplied?, hextends, himplements, hinstantiation]

theorem baseName_of_clause {t heritage clause base : Tree}
    (hheritage : t.parts.find? (·.kind == "class_heritage") = some heritage)
    (hfirst : heritage.parts.head? = some clause) (hclause : clause.kind = "extends_clause")
    (hvalue : clause.field? "value" = some base) (hkind : base.kind ≠ "instantiation_expression") :
    s.baseName t = some (shownBase s base) := by
  rw [baseName_eq_map_baseNode?, baseNode?, hheritage, Option.bind_some, hfirst]
  simp [extended?, unapplied?, hclause, hvalue, hkind]

theorem EncodesBase.not_clause {b : Written.Base} {base : Tree} (h : EncodesBase s b base) :
    base.isPart = true ∧
      base.kind ∉ ["extends_clause", "implements_clause", "instantiation_expression"] := by
  cases h with
  | inline hnamed hkind _ => simp [isPart, hnamed, hkind]
  | expression hnamed hkind _ =>
    simp only [notBases, List.mem_cons, List.not_mem_nil, or_false, not_or] at hkind ⊢
    obtain ⟨hcomment, -, -, hinstantiation, hextends, himplements⟩ := hkind
    exact ⟨by simp [isPart, hnamed, hcomment], hextends, himplements, hinstantiation⟩

/-- In front of the base, HTML-like comments are the only parts. -/
theorem parts_head?_of_extends {n word base : Tree} {gap : List Tree}
    (hchildren : n.children = word :: (gap ++ [base])) (hword : IsToken "extends" word)
    (hgap : ∀ c ∈ gap, IsComment c ∨ IsRemark c) (hbase : base.isPart = true) :
    n.parts.head? = some (((gap.filter (·.kind == "html_comment")).head?).getD base) := by
  have hremarks : gap.filter isPart = gap.filter (·.kind == "html_comment") := by
    refine List.filter_congr fun c hc => ?_
    rcases hgap c hc with h | h
    · simp [isPart, h.2.1]
    · simp [isPart, h.1, h.2.1]
  rw [parts_eq, hchildren, List.filter_cons_of_neg (by simp [isPart, hword.1]),
    List.filter_append, hremarks, List.filter_cons_of_pos hbase, List.filter_nil]
  cases gap.filter (·.kind == "html_comment") <;> rfl

theorem EncodesHeritage.baseName_javaScript {h : Option Written.Heritage} {heritage : List Tree}
    {t : Tree} (hheritage : EncodesHeritage s .javaScript h heritage)
    (hfind : t.parts.find? (·.kind == "class_heritage") = heritage.head?) :
    s.baseName t = h.map fun h => h.remarks.head?.getD h.base.shown := by
  cases hheritage with
  | absent =>
    unfold Text.baseName
    rw [hfind]
    rfl
  | @direct _ n _ _ _ hextends =>
    generalize hchildren : n.children = children at hextends
    obtain @⟨word, base, gap, hword, hgap, hwritten, -, hbase⟩ := hextends
    obtain ⟨hpart, hkind⟩ := hbase.not_clause
    have hfirst := parts_head?_of_extends hchildren hword hgap hpart
    cases hremarks : gap.filter (·.kind == "html_comment") with
    | nil =>
      rw [hremarks] at hfirst hwritten
      have hfirst : n.parts.head? = some base := hfirst
      rw [baseName_of_direct hfind hfirst hkind, hbase.shown, Option.map_some, ← hwritten]
      rfl
    | cons r rs =>
      -- No field tells the base, so that the first part is taken for it.
      rw [hremarks] at hfirst hwritten
      have hr : r.kind = "html_comment" := by
        have hmem : r ∈ gap.filter (·.kind == "html_comment") := hremarks ▸ List.mem_cons_self
        exact eq_of_beq (List.mem_filter.1 hmem).2
      have hfirst : n.parts.head? = some r := hfirst
      rw [baseName_of_direct hfind hfirst (by rw [hr]; decide), shownBase,
        if_neg (by rw [hr]; decide), Option.map_some, ← hwritten]
      rfl

theorem EncodesHeritage.baseName_typeScript {h : Option Written.Heritage} {heritage : List Tree}
    {t : Tree} (hheritage : EncodesHeritage s .typeScript h heritage)
    (hfind : t.parts.find? (·.kind == "class_heritage") = heritage.head?) :
    s.baseName t = h.map (·.base.shown) := by
  cases hheritage with
  | absent =>
    unfold Text.baseName
    rw [hfind]
    rfl
  | @clause _ n clause _ _ _ hchild hnamed hkind hextends =>
    have hfirst : n.parts.head? = some clause := by
      rw [parts_eq, hchild, List.filter_cons_of_pos (by simp [isPart, hnamed, hkind])]
      rfl
    generalize hchildren : clause.children = children at hextends
    obtain @⟨word, base, gap, hword, hgap, -, hfields, hbase⟩ := hextends
    have hvalue : clause.field? "value" = some base := by
      have hnone : gap.find? (fun c => c.info.fields.contains "value") = none := by
        refine List.find?_eq_none.2 fun c hc => ?_
        rcases hgap c hc with hc | hc <;> simp [hc.2.2]
      rw [field?, hchildren, List.find?_cons_of_neg (by simp [hword.2.2]), List.find?_append, hnone]
      simp [hfields]
    have hnot := hbase.not_clause.2
    rw [baseName_of_clause hfind hfirst hkind hvalue fun h => hnot (by rw [h]; decide), hbase.shown]
    rfl

/-! ### Classes -/

section Class

variable {c : Written.Class} {t keyword body : Tree} {name heritage : List Tree}

theorem EncodesName.name_eq {x : Option String} (h : EncodesName s shape x name) :
    name.head?.map s.of = x ∧ ∀ n ∈ name, n.info.fields = ["name"] ∧ n.kind ≠ "class_heritage" := by
  cases h with
  | absent => exact ⟨rfl, by simp⟩
  | identifier _ hkind hfields htext => exact ⟨congrArg some htext, by simp [hkind, hfields]⟩
  | typeIdentifier _ hkind hfields htext => exact ⟨congrArg some htext, by simp [hkind, hfields]⟩

theorem EncodesHeritage.heritage_eq {x : Option Written.Heritage}
    (h : EncodesHeritage s shape x heritage) :
    ∀ n ∈ heritage, n.isNamed = true ∧ n.kind = "class_heritage" ∧ n.info.fields = [] := by
  cases h with
  | absent => simp
  | direct hnamed hkind hfields => simp [hnamed, hkind, hfields]
  | clause hnamed hkind hfields => simp [hnamed, hkind, hfields]

/-- The parts of a class are found whatever stands between them. -/
theorem find?_class {x : Option String} {y : Option Written.Heritage}
    (hkeyword : IsToken "class" keyword) (hname : EncodesName s shape x name)
    (hheritage : EncodesHeritage s shape y heritage) (hkind : body.kind = "class_body")
    (hfields : body.info.fields = ["body"])
    (hchildren : Strewn IsAside (keyword :: (name ++ heritage ++ [body])) t.children) :
    t.field? "name" = name.head? ∧ t.field? "body" = some body ∧
      t.parts.find? (·.kind == "class_heritage") = heritage.head? := by
  have hnames := hname.name_eq.2
  have hheritages := hheritage.heritage_eq
  refine ⟨?_, ?_, ?_⟩
  · have hall : name.filter (fun n => n.info.fields.contains "name") = name :=
      List.filter_eq_self.2 fun n hn => by simp [(hnames n hn).1]
    have hnone : heritage.filter (fun n => n.info.fields.contains "name") = [] :=
      List.filter_eq_nil_iff.2 fun n hn => by simp [(hheritages n hn).2.2]
    rw [field?_strewn hchildren (by decide), List.find?_cons_of_neg (by simp [hkeyword.2.2]),
      ← List.head?_filter, List.filter_append, List.filter_append, hall, hnone]
    simp [hfields]
  · have hnone : (name ++ heritage).find? (fun n => n.info.fields.contains "body") = none := by
      refine List.find?_eq_none.2 fun n hn => ?_
      rcases List.mem_append.1 hn with hn | hn
      · simp [(hnames n hn).1]
      · simp [(hheritages n hn).2.2]
    rw [field?_strewn hchildren (by decide), List.find?_cons_of_neg (by simp [hkeyword.2.2]),
      List.find?_append, hnone]
    simp [hfields]
  · have hnone : name.filter (fun n => n.kind == "class_heritage" && n.isPart) = [] :=
      List.filter_eq_nil_iff.2 fun n hn => by simp [(hnames n hn).2]
    have hall : heritage.filter (fun n => n.kind == "class_heritage" && n.isPart) = heritage :=
      List.filter_eq_self.2 fun n hn => by
        simp [isPart, (hheritages n hn).1, (hheritages n hn).2.1]
    rw [parts_eq, ← List.head?_filter, List.filter_filter, hchildren.filter_eq,
      List.filter_cons_of_neg, List.filter_append, List.filter_append, hnone, hall]
    · simp [hkind]
    · simp [isPart, hkeyword.1]
    · intro c hc
      have hne : c.kind ≠ "class_heritage" := ne_of_mem_of_not_mem hc.2.1 (by decide)
      simp [hne]

/-- A class is read as it is written, its base apart. -/
theorem Encodes.classDecl_eq (h : Encodes s shape c t) :
    s.classDecl t = { c.decl with base := s.baseName t } := by
  obtain @⟨keyword, body, name, heritage, members, -, -, hkeyword, hname, hheritage, -, hkind,
    hfields, hmembers, hbetween, hchildren⟩ := h
  obtain ⟨hfieldname, hfieldbody, -⟩ :=
    find?_class hkeyword hname hheritage hkind hfields hchildren
  have hmethods : (s.methodNodes t).map s.method = c.methods := by
    -- No method here is a signature, so that none is left out for another of its name.
    rw [Text.methodNodes_eq s hfieldbody, hbetween.filter_eq fun c hc => isListed_of_between hc,
      map_method_listed hmembers]
    rfl
  rw [Text.classDecl, hfieldname, hname.name_eq.1, hmethods]
  rfl

theorem Encodes.classDecl_typeScript (h : Encodes s .typeScript c t) : s.classDecl t = c.decl := by
  rw [h.classDecl_eq]
  obtain ⟨-, -, hkeyword, hname, hheritage, -, hkind, hfields, -, -, hchildren⟩ := h
  rw [hheritage.baseName_typeScript
    (find?_class hkeyword hname hheritage hkind hfields hchildren).2.2]
  rfl

theorem Encodes.classDecl_javaScript (h : Encodes s .javaScript c t) :
    s.classDecl t = { c.decl with base := c.unmarkedBase } := by
  rw [h.classDecl_eq]
  obtain ⟨-, -, hkeyword, hname, hheritage, -, hkind, hfields, -, -, hchildren⟩ := h
  rw [hheritage.baseName_javaScript
    (find?_class hkeyword hname hheritage hkind hfields hchildren).2.2]
  rfl

end Class

end Reading

/-- Without HTML-like comments there, the base needs no field. -/
theorem Written.Class.unmarkedBase_eq {c : Written.Class}
    (h : ∀ x ∈ c.heritage, x.remarks = []) : c.unmarkedBase = c.base := by
  rw [unmarkedBase, base]
  cases hheritage : c.heritage with
  | none => rfl
  | some x =>
    rw [Option.map_some, Option.map_some, h x hheritage]
    rfl

/-- **One class in two shapes.** From both trees of a class come its name and its methods as they
are written, with the same signatures in the same order. So does its base from the shape of
TypeScript; from the shape of JavaScript, the first HTML-like comment between `extends` and the base
is shown in its place, if there is one. -/
theorem shapes_agree {s s' : Text} {c : Written.Class} {j t : Tree}
    (hj : Encodes s .javaScript c j) (ht : Encodes s' .typeScript c t) :
    (s.classDecl j).name = (s'.classDecl t).name ∧
    (s.classDecl j).methods.map MethodDecl.signature =
      (s'.classDecl t).methods.map MethodDecl.signature ∧
    ((∀ h ∈ c.heritage, h.remarks = []) → s.classDecl j = s'.classDecl t) ∧
    s'.classDecl t = c.decl ∧ s.classDecl j = { c.decl with base := c.unmarkedBase } := by
  have hscript := hj.classDecl_javaScript
  have htyped := ht.classDecl_typeScript
  refine ⟨?_, ?_, fun hremarks => ?_, htyped, hscript⟩
  · rw [hscript, htyped]
  · rw [hscript, htyped]
  · rw [hscript, htyped, c.unmarkedBase_eq hremarks]
    rfl

/-! ## A class in both shapes -/

def sampleText : Text :=
  ⟨("class A extends /* b */ B \x7b static async m(x, [y] = z, ...r) \x7b return x; \x7d " ++
    "get g() \x7b\x7d \x7d").toList.toArray⟩

def sampleMethod : Written.Method :=
  ⟨⟨true, true, none⟩, "m", [.plain "x", .withDefault "[y]", .plain "...r"],
    [.node "return_statement" [.node "identifier" []]]⟩

def sampleGetter : Written.Method := ⟨⟨false, false, some .getter⟩, "g", [], []⟩

def sampleClass : Written.Class :=
  ⟨some "A", some ⟨[], .expression "B"⟩, [.method sampleMethod, .method sampleGetter]⟩

def sampleName : Shape → Tree
  | .javaScript => branch "identifier" ["name"] 6 7 []
  | .typeScript => branch "type_identifier" ["name"] 6 7 []

/-- `extends /* b */ B`, with the fields of the base. -/
def sampleExtends (fields : List String) : List Tree :=
  [token "extends" 8 15, branch "comment" [] 16 23 [], branch "identifier" fields 24 25 []]

def sampleHeritage : Shape → Tree
  | .javaScript => branch "class_heritage" [] 8 25 (sampleExtends [])
  | .typeScript =>
    branch "class_heritage" [] 8 25 [branch "extends_clause" [] 8 25 (sampleExtends ["value"])]

/-- A pattern as a parameter. -/
def patternSlot (kind : String) (start stop : Nat) : Shape → Tree
  | .javaScript => branch kind [] start stop []
  | .typeScript =>
    branch "required_parameter" [] start stop [branch kind ["pattern"] start stop []]

/-- `[y] = z` -/
def defaultSlot : Shape → Tree
  | .javaScript =>
    branch "assignment_pattern" [] 46 53 [
      branch "array_pattern" ["left"] 46 49 [], token "=" 50 51,
      branch "identifier" ["right"] 52 53 []]
  | .typeScript =>
    branch "required_parameter" [] 46 53 [
      branch "array_pattern" ["pattern"] 46 49 [], token "=" 50 51,
      branch "identifier" ["value"] 52 53 []]

def methodTree (shape : Shape) : Tree :=
  branch "method_definition" [] 28 74 [
    token "static" 28 34, token "async" 35 40, branch "property_identifier" ["name"] 41 42 [],
    branch "formal_parameters" ["parameters"] 42 60 [
      token "(" 42 43, patternSlot "identifier" 43 44 shape, token "," 44 45, defaultSlot shape,
      token "," 53 54, patternSlot "rest_pattern" 55 59 shape, token ")" 59 60],
    branch "statement_block" ["body"] 61 74 [
      token "\x7b" 61 62,
      branch "return_statement" [] 63 72 [
        token "return" 63 69, branch "identifier" [] 70 71 [], token ";" 71 72],
      token "\x7d" 73 74]]

def getterTree : Tree :=
  branch "method_definition" [] 75 85 [
    token "get" 75 78, branch "property_identifier" ["name"] 79 80 [],
    branch "formal_parameters" ["parameters"] 80 82 [token "(" 80 81, token ")" 81 82],
    branch "statement_block" ["body"] 83 85 [token "\x7b" 83 84, token "\x7d" 84 85]]

def sampleTree (shape : Shape) : Tree :=
  branch "class_declaration" [] 0 87 [
    token "class" 0 5, sampleName shape, sampleHeritage shape,
    branch "class_body" ["body"] 26 87 [
      token "\x7b" 26 27, methodTree shape, getterTree, token "\x7d" 86 87]]

/-- What stands at the places that are read. -/
def sampleWords : List (Nat × Nat × String) :=
  [(6, 7, "A"), (24, 25, "B"), (41, 42, "m"), (43, 44, "x"), (46, 49, "[y]"), (55, 59, "...r"),
    (79, 80, "g")]

theorem sampleText_of {t : Tree} {word : String}
    (h : (t.info.start.offset, t.info.stop, word) ∈ sampleWords) : sampleText.of t = word := by
  have hwords : ∀ x ∈ sampleWords,
      String.ofList (sampleText.chars.extract x.1 x.2.1).toList = x.2.2 := by decide +kernel
  rw [Text.of]
  exact hwords _ h

theorem encodes_patternSlot {kind text : String} {start stop : Nat} (shape : Shape)
    (hkind : kind ∈ ["identifier", "undefined", "object_pattern", "array_pattern", "rest_pattern"])
    (htext : sampleText.of (branch kind [] start stop []) = text) :
    EncodesSlot sampleText shape (.plain text) (patternSlot kind start stop shape) := by
  cases shape with
  | javaScript => exact .bare ⟨rfl, hkind, rfl⟩ htext
  | typeScript =>
    have hpattern : IsPattern ["pattern"] (branch kind ["pattern"] start stop []) :=
      ⟨rfl, hkind, rfl⟩
    exact .required rfl rfl hpattern htext (.part .nil)

theorem encodes_defaultSlot (shape : Shape) :
    EncodesSlot sampleText shape (.withDefault "[y]") (defaultSlot shape) := by
  cases shape with
  | javaScript =>
    exact .assignment rfl rfl ⟨rfl, by decide, rfl⟩ (sampleText_of (by decide))
      ⟨rfl, rfl, rfl⟩ rfl (.part (.part (.part .nil)))
  | typeScript =>
    exact .requiredDefault rfl rfl ⟨rfl, by decide, rfl⟩ (sampleText_of (by decide))
      ⟨rfl, rfl, rfl⟩ rfl (.part (.part (.part .nil)))

theorem encodes_methodTree (shape : Shape) :
    EncodesMethod sampleText shape sampleMethod (methodTree shape) := by
  have hslots : List.Forall₂ (EncodesSlot sampleText shape) sampleMethod.slots
      [patternSlot "identifier" 43 44 shape, defaultSlot shape,
        patternSlot "rest_pattern" 55 59 shape] :=
    .cons (encodes_patternSlot shape (by decide) (sampleText_of (by decide)))
      (.cons (encodes_defaultSlot shape)
        (.cons (encodes_patternSlot shape (by decide) (sampleText_of (by decide))) .nil))
  have hwords : List.Forall₂ IsToken ["static", "async"]
      [token "static" 28 34, token "async" 35 40] :=
    .cons ⟨rfl, rfl, rfl⟩ (.cons ⟨rfl, rfl, rfl⟩ .nil)
  exact .mk rfl rfl .apart hwords rfl rfl (sampleText_of (by decide)) rfl rfl hslots
    (.aside (.inr (by decide)) (.part (.aside (.inr (by decide)) (.part
      (.aside (.inr (by decide)) (.part (.aside (.inr (by decide)) .nil)))))))
    rfl rfl rfl (.part (.part (.part (.part (.part .nil)))))

theorem encodes_getterTree (shape : Shape) :
    EncodesMethod sampleText shape sampleGetter getterTree := by
  have hwords : List.Forall₂ IsToken ["get"] [token "get" 75 78] := .cons ⟨rfl, rfl, rfl⟩ .nil
  exact .mk rfl rfl .apart hwords rfl rfl (sampleText_of (by decide)) rfl rfl .nil
    (.aside (.inr (by decide)) (.aside (.inr (by decide)) .nil))
    rfl rfl rfl (.part (.part (.part (.part .nil))))

theorem encodes_sampleName (shape : Shape) :
    EncodesName sampleText shape sampleClass.name [sampleName shape] := by
  cases shape with
  | javaScript => exact .identifier rfl rfl rfl (sampleText_of (by decide))
  | typeScript => exact .typeIdentifier rfl rfl rfl (sampleText_of (by decide))

theorem encodes_sampleExtends (fields : List String) :
    EncodesExtends sampleText fields ⟨[], .expression "B"⟩ (sampleExtends fields) := by
  have hname : "identifier" ∉ notBases := by decide
  have hbase : EncodesBase sampleText (.expression "B") (branch "identifier" fields 24 25 []) :=
    .expression rfl hname (sampleText_of (show (24, 25, "B") ∈ _ by decide))
  have hgap : ∀ c ∈ [branch "comment" [] 16 23 []], IsComment c ∨ IsRemark c := by decide
  exact .mk ⟨rfl, rfl, rfl⟩ hgap rfl rfl hbase

theorem encodes_sampleHeritage (shape : Shape) :
    EncodesHeritage sampleText shape sampleClass.heritage [sampleHeritage shape] := by
  cases shape with
  | javaScript => exact .direct rfl rfl rfl (encodes_sampleExtends [])
  | typeScript => exact .clause rfl rfl rfl rfl rfl rfl (encodes_sampleExtends ["value"])

theorem encodes_sampleTree (shape : Shape) :
    Encodes sampleText shape sampleClass (sampleTree shape) := by
  have hmembers : List.Forall₂ (EncodesMember sampleText shape) sampleClass.members
      [methodTree shape, getterTree] :=
    .cons (.method (encodes_methodTree shape)) (.cons (.method (encodes_getterTree shape)) .nil)
  exact .mk rfl (by decide : "class_declaration" ∈ _) ⟨rfl, rfl, rfl⟩ (encodes_sampleName shape)
    (encodes_sampleHeritage shape) rfl rfl rfl hmembers
    (.aside (.inr (by decide)) (.part (.part (.aside (.inr (by decide)) .nil))))
    (.part (.part (.part (.part .nil))))

theorem shapes_agree_sampleTree :
    Encodes sampleText .javaScript sampleClass (sampleTree .javaScript) ∧
    Encodes sampleText .typeScript sampleClass (sampleTree .typeScript) ∧
    (∀ h ∈ sampleClass.heritage, h.remarks = []) ∧
    sampleText.classDecl (sampleTree .javaScript) = sampleText.classDecl (sampleTree .typeScript) ∧
    sampleText.classDecl (sampleTree .typeScript) = ⟨some "A", some "B",
      [⟨"m", [⟨"x", none⟩, ⟨"[y]", none⟩, ⟨"...r", none⟩], "Promise<any>"⟩]⟩ := by
  have hj := encodes_sampleTree .javaScript
  have ht := encodes_sampleTree .typeScript
  have hremarks : ∀ h ∈ sampleClass.heritage, h.remarks = [] := by
    rintro _ ⟨⟩
    rfl
  obtain ⟨-, -, hequal, hdecl, -⟩ := shapes_agree hj ht
  exact ⟨hj, ht, hremarks, hequal hremarks, hdecl⟩

/-- `class A extends <!-- b` and, on the next line, ` B {}` -/
def remarkText : Text := ⟨"class A extends <!-- b\n B \x7b\x7d".toList.toArray⟩

def remarkHeritage : Shape → List Tree
  | .javaScript =>
    [token "extends" 8 15, branch "html_comment" [] 16 22 [], branch "identifier" [] 24 25 []]
  | .typeScript =>
    [branch "extends_clause" [] 8 25 [
      token "extends" 8 15, branch "html_comment" [] 16 22 [],
      branch "identifier" ["value"] 24 25 []]]

def remarkTree (shape : Shape) : Tree :=
  branch "class_declaration" [] 0 28 [
    token "class" 0 5, sampleName shape, branch "class_heritage" [] 8 25 (remarkHeritage shape),
    branch "class_body" ["body"] 26 28 [token "\x7b" 26 27, token "\x7d" 27 28]]

example : remarkText.baseName (remarkTree .javaScript) = some "<!-- b" ∧
    remarkText.baseName (remarkTree .typeScript) = some "B" := by decide +kernel

end ClassAtlas.Syntax
