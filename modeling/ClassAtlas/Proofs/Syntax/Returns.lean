import ClassAtlas.Syntax.Classes
import ClassAtlas.Proofs.Syntax.Nodes
import Mathlib.Data.List.Perm.Basic

/-!
# What a method without a declared type returns

A body returns a value if some `return` with an operand belongs to it: one that is reached through
its parts without entering a nested function, method or class (`Returns`). The walk over a body says
so (`returnsValue_iff`), in whatever order it takes what is pending: `Search` is a walk that may
take any of it next, and all its runs end with one answer (`Search.eq_any`).

What counts is the `outline` of a body, in which nested scopes have no inside. To replace such a
scope by another leaves the outline as it is (`outline_replace`), and with it the signature of the
method (`signature_congr`).
-/
namespace ClassAtlas.Syntax

namespace Tree

variable {t c n : Tree}

/-! ## What belongs to a body -/

/-- A named node that is no comment. -/
def isPart (c : Tree) : Bool := c.isNamed && c.kind != "comment"

theorem parts_eq (t : Tree) : t.parts = t.children.filter isPart := by
  rw [parts, namedChildren, List.filter_filter]
  exact List.filter_congr fun c _ => Bool.and_comm _ _

theorem mem_parts : c ∈ t.parts ↔ c ∈ t.children ∧ c.isNamed = true ∧ c.kind ≠ "comment" := by
  rw [parts_eq, List.mem_filter, isPart, Bool.and_eq_true, bne_iff_ne]

/-- The kinds of nested functions, arrow functions, generators, methods and classes. -/
def OpensScope (kind : String) : Prop :=
  (kind = "function_declaration" ∨ kind = "function_expression" ∨ kind = "function") ∨
  kind = "arrow_function" ∨
  (kind = "generator_function_declaration" ∨ kind = "generator_function") ∨
  kind = "method_definition" ∨
  (kind = "class_declaration" ∨ kind = "abstract_class_declaration" ∨ kind = "class")

instance (kind : String) : Decidable (OpensScope kind) := by
  unfold OpensScope
  infer_instance

theorem contains_scopeKinds {kind : String} :
    scopeKinds.contains kind = true ↔ OpensScope kind := by
  simp only [scopeKinds, List.contains_iff_mem, List.mem_cons, List.not_mem_nil, or_false,
    OpensScope]
  tauto

/-- A `return` with an operand that is no comment. -/
def IsValued (r : Tree) : Prop :=
  r.kind = "return_statement" ∧ ∃ o ∈ r.children, o.isNamed = true ∧ o.kind ≠ "comment"

/-- A node is reached from another through named nodes that are no comments, none of which opens a
scope of its own on the way. -/
inductive Owns : Tree → Tree → Prop
  | part {t c : Tree} : c ∈ t.children → c.isNamed = true → c.kind ≠ "comment" → Owns t c
  | inside {t c n : Tree} : c ∈ t.children → c.isNamed = true → c.kind ≠ "comment" →
      ¬ OpensScope c.kind → Owns c n → Owns t n

/-- A value is returned from the scope of a body itself. -/
def Returns (body : Tree) : Prop := ∃ r, body.Owns r ∧ r.IsValued

theorem isValued_iff : t.IsValued ↔ t.kind = "return_statement" ∧ t.parts ≠ [] := by
  simp only [IsValued, ne_eq, List.eq_nil_iff_forall_not_mem, not_forall, not_not, mem_parts]

theorem returns_iff : t.Returns ↔
    ∃ c ∈ t.parts, c.IsValued ∨ ¬ OpensScope c.kind ∧ c.Returns := by
  constructor
  · rintro ⟨r, howns, hr⟩
    cases howns with
    | part hc hnamed hkind => exact ⟨r, mem_parts.2 ⟨hc, hnamed, hkind⟩, .inl hr⟩
    | @inside _ c _ hc hnamed hkind hscope hbelow =>
      exact ⟨c, mem_parts.2 ⟨hc, hnamed, hkind⟩, .inr ⟨hscope, r, hbelow, hr⟩⟩
  · rintro ⟨c, hc, hr⟩
    obtain ⟨hc, hnamed, hkind⟩ := mem_parts.1 hc
    rcases hr with hr | ⟨hscope, r, hbelow, hr⟩
    · exact ⟨c, .part hc hnamed hkind, hr⟩
    · exact ⟨r, .inside hc hnamed hkind hscope hbelow, hr⟩

end Tree

/-! ## Outlines -/

/-- What is left of a tree without tokens and comments, without places, and without the inside of
nested scopes. -/
inductive Outline where
  | scope
  | node (kind : String) (parts : List Outline)

namespace Outline

mutual

/-- Whether there is a `return` with an operand. -/
def returns : Outline → Bool
  | scope => false
  | node kind parts => if kind == "return_statement" then !parts.isEmpty else anyReturns parts

def anyReturns : List Outline → Bool
  | [] => false
  | o :: os => o.returns || anyReturns os

end

theorem anyReturns_eq (os : List Outline) : anyReturns os = os.any returns := by
  induction os with
  | nil => rfl
  | cons o os ih => rw [anyReturns, ih, List.any_cons]

end Outline

namespace Tree

variable {t c n : Tree}

mutual

/-- What counts for the returns of a body. -/
def outline : Tree → Outline
  | node info cs => if scopeKinds.contains info.kind then .scope else .node info.kind (outlines cs)

/-- The outlines of the parts among some children. -/
def outlines : List Tree → List Outline
  | [] => []
  | c :: cs => if c.isPart then c.outline :: outlines cs else outlines cs

end

theorem outlines_eq (cs : List Tree) : outlines cs = (cs.filter isPart).map outline := by
  induction cs with
  | nil => rfl
  | cons c cs ih =>
    rw [outlines, ih]
    cases hpart : c.isPart with
    | true => rw [if_pos rfl, List.filter_cons_of_pos hpart, List.map_cons]
    | false => rw [if_neg (by simp), List.filter_cons_of_neg (by simp [hpart])]

theorem outlines_children (t : Tree) : outlines t.children = t.parts.map outline := by
  rw [outlines_eq, parts_eq]

theorem outline_eq (t : Tree) : t.outline =
    if scopeKinds.contains t.kind then .scope else .node t.kind (t.parts.map outline) := by
  rw [← outlines_children]
  cases t
  rfl

theorem outline_congr {t' : Tree} (hkind : t'.kind = t.kind)
    (h : outlines t'.children = outlines t.children) : t'.outline = t.outline := by
  rw [outline_eq, outline_eq, ← outlines_children, ← outlines_children, hkind, h]

theorem returns_outline_of_return (h : t.kind = "return_statement") :
    t.outline.returns = !t.parts.isEmpty := by
  rw [outline_eq, h, if_neg (by decide), Outline.returns, if_pos (by decide), List.isEmpty_map]

theorem returns_outline_of_scope (h : scopeKinds.contains t.kind = true) :
    t.outline.returns = false := by
  rw [outline_eq, if_pos h, Outline.returns]

theorem returns_outline_of_other (h : t.kind ≠ "return_statement")
    (hscope : ¬ scopeKinds.contains t.kind = true) :
    t.outline.returns = (t.parts.map outline).any Outline.returns := by
  rw [outline_eq, if_neg hscope, Outline.returns, if_neg (by simpa using h),
    Outline.anyReturns_eq]

theorem returns_outline_iff (t : Tree) : t.outline.returns = true ↔
    t.IsValued ∨ ¬ OpensScope t.kind ∧ t.Returns := by
  induction t using ofChildren with
  | step info cs ih =>
    have hparts : ∀ c ∈ (node info cs).parts, c.outline.returns = true ↔
        c.IsValued ∨ ¬ OpensScope c.kind ∧ c.Returns := fun c hc => ih c (mem_parts.1 hc).1
    generalize node info cs = t at hparts
    rw [isValued_iff, returns_iff]
    by_cases hreturn : t.kind = "return_statement"
    · rw [returns_outline_of_return hreturn]
      cases hnil : t.parts with
      | nil => simp
      | cons c cs => simp [hreturn]
    · by_cases hscope : OpensScope t.kind
      · simp [returns_outline_of_scope (contains_scopeKinds.2 hscope), hreturn, hscope]
      · rw [returns_outline_of_other hreturn (mt contains_scopeKinds.1 hscope), List.any_map,
          List.any_eq_true]
        simp only [hreturn, hscope, false_and, not_false_eq_true, true_and, false_or]
        exact exists_congr fun c => and_congr_right fun hc => hparts c hc

/-! ## The walk -/

/-- A walk over what is pending that may take any of it next. It ends when a value is found or
nothing is left; a `return` is not entered, nor is a nested scope. -/
inductive Search : List Tree → Bool → Prop
  | nothing : Search [] false
  | value {t : Tree} {pending rest : List Tree} : pending.Perm (t :: rest) →
      t.kind = "return_statement" → t.parts ≠ [] → Search pending true
  | bare {t : Tree} {pending rest : List Tree} {b : Bool} : pending.Perm (t :: rest) →
      t.kind = "return_statement" → t.parts = [] → Search rest b → Search pending b
  | scope {t : Tree} {pending rest : List Tree} {b : Bool} : pending.Perm (t :: rest) →
      t.kind ≠ "return_statement" → scopeKinds.contains t.kind = true → Search rest b →
      Search pending b
  | enter {t : Tree} {pending rest : List Tree} {b : Bool} : pending.Perm (t :: rest) →
      t.kind ≠ "return_statement" → ¬ scopeKinds.contains t.kind = true →
      Search (t.parts ++ rest) b → Search pending b

theorem Search.perm {pending pending' : List Tree} {b : Bool} (h : Search pending' b)
    (hperm : pending.Perm pending') : Search pending b := by
  cases h with
  | nothing => exact hperm.eq_nil ▸ .nothing
  | value hnext hkind hparts => exact .value (hperm.trans hnext) hkind hparts
  | bare hnext hkind hparts hrest => exact .bare (hperm.trans hnext) hkind hparts hrest
  | scope hnext hkind hscope hrest => exact .scope (hperm.trans hnext) hkind hscope hrest
  | enter hnext hkind hscope hrest => exact .enter (hperm.trans hnext) hkind hscope hrest

/-- Every order gives the same answer, which the outlines of what is pending tell. -/
theorem Search.eq_any {pending : List Tree} {b : Bool} (h : Search pending b) :
    b = (pending.map outline).any Outline.returns := by
  have hnext : ∀ {t : Tree} {pending rest : List Tree}, pending.Perm (t :: rest) →
      (pending.map outline).any Outline.returns =
        (t.outline.returns || (rest.map outline).any Outline.returns) := by
    intro t pending rest hperm
    rw [(hperm.map outline).any_eq, List.map_cons, List.any_cons]
  induction h with
  | nothing => rfl
  | value hperm hkind hparts =>
    rw [hnext hperm, returns_outline_of_return hkind, List.isEmpty_eq_false_iff.2 hparts]
    rfl
  | bare hperm hkind hparts _ ih =>
    rw [hnext hperm, returns_outline_of_return hkind, hparts, ih]
    rfl
  | scope hperm _ hscope _ ih =>
    rw [hnext hperm, returns_outline_of_scope hscope, ih, Bool.false_or]
  | enter hperm hkind hscope _ ih =>
    rw [hnext hperm, returns_outline_of_other hkind hscope, ih, List.map_append, List.any_append]

/-- The walk with a stack is one of them. -/
theorem search_returnsValueIn (stack : List Tree) : Search stack (returnsValueIn stack) := by
  fun_induction returnsValueIn stack with
  | case1 => exact .nothing
  | case2 t stack hkind hparts ih =>
    exact .bare (.refl _) (eq_of_beq hkind) (List.isEmpty_iff.1 hparts) ih
  | case3 t stack hkind hparts =>
    exact .value (.refl _) (eq_of_beq hkind) fun h => hparts (List.isEmpty_iff.2 h)
  | case4 t stack hkind hscope ih =>
    exact .scope (.refl _) (fun h => hkind (beq_iff_eq.2 h)) hscope ih
  | case5 t stack hkind hscope ih =>
    refine .enter (.refl _) (fun h => hkind (beq_iff_eq.2 h)) hscope (ih.perm ?_)
    exact (List.reverse_perm _).symm.append_right _

theorem search_returnsValue (body : Tree) : Search body.parts body.returnsValue :=
  (search_returnsValueIn _).perm (List.reverse_perm _).symm

theorem returnsValue_eq (body : Tree) :
    body.returnsValue = (outlines body.children).any Outline.returns := by
  rw [(search_returnsValue body).eq_any, outlines_children]

theorem returnsValue_iff (body : Tree) : body.returnsValue = true ↔ body.Returns := by
  rw [returnsValue_eq, outlines_children, List.any_map, List.any_eq_true, returns_iff]
  exact exists_congr fun c => and_congr_right fun _ => returns_outline_iff c

instance (body : Tree) : Decidable body.Returns :=
  decidable_of_iff ((outlines body.children).any Outline.returns = true)
    (by rw [← returnsValue_eq, returnsValue_iff])

/-! ## Replacing a nested scope -/

/-- A nested function, arrow function, generator, method or class. -/
def IsScope (n : Tree) : Prop := n.isNamed = true ∧ OpensScope n.kind

/-- The tree with another node at an address. -/
def replace : Tree → Address → Tree → Tree
  | _, [], new => new
  | t, i :: a, new => node t.info (t.children.modify i fun c => c.replace a new)

instance (n : Tree) : Decidable n.IsScope :=
  inferInstanceAs (Decidable (n.isNamed = true ∧ OpensScope n.kind))

theorem IsScope.isPart (h : n.IsScope) : n.isPart = true := by
  have hkind : n.kind ≠ "comment" := by
    intro hcomment
    have := h.2
    rw [hcomment] at this
    exact absurd this (by decide)
  simp [Tree.isPart, h.1, hkind]

theorem IsScope.outline_eq (h : n.IsScope) : n.outline = .scope := by
  rw [Tree.outline_eq, if_pos (contains_scopeKinds.2 h.2)]

theorem outlines_modify {cs : List Tree} {i : Nat} {f : Tree → Tree}
    (h : ∀ c, cs[i]? = some c → (f c).isPart = c.isPart ∧ (f c).outline = c.outline) :
    outlines (cs.modify i f) = outlines cs := by
  induction cs generalizing i with
  | nil => rw [List.modify_nil]
  | cons c cs ih =>
    cases i with
    | zero =>
      obtain ⟨hpart, houtline⟩ := h c rfl
      rw [List.modify_zero_cons, outlines, outlines, hpart, houtline]
    | succ i => rw [List.modify_succ_cons, outlines, outlines, ih h]

/-- A scope in the place of another changes no outline. -/
theorem outline_replace {a : Address} {old new : Tree} (hat : t.at? a = some old)
    (hold : old.IsScope) (hnew : new.IsScope) :
    (t.replace a new).isPart = t.isPart ∧ (t.replace a new).outline = t.outline := by
  induction a generalizing t with
  | nil =>
    cases hat
    exact ⟨hnew.isPart.trans hold.isPart.symm, hnew.outline_eq.trans hold.outline_eq.symm⟩
  | cons i a ih =>
    refine ⟨rfl, outline_congr rfl (outlines_modify fun c hc => ?_)⟩
    rw [at?_cons, hc] at hat
    exact ih hat

/-- What is replaced inside a body leaves its parts as they count. -/
theorem outlines_replace {a : Address} {old new : Tree} (ha : a ≠ []) (hat : t.at? a = some old)
    (hold : old.IsScope) (hnew : new.IsScope) :
    (t.replace a new).info = t.info ∧
      outlines (t.replace a new).children = outlines t.children := by
  cases a with
  | nil => exact absurd rfl ha
  | cons i a =>
    refine ⟨rfl, outlines_modify fun c hc => ?_⟩
    rw [at?_cons, hc] at hat
    exact outline_replace hat hold hnew

end Tree

/-! ## Signatures -/

namespace Text

open Syntax.Tree

variable {s s' : Text}

/-- The modifier `async` stands in front of the method. -/
def IsAsync (m : Tree) : Prop := ∃ c ∈ m.children, c.isNamed = false ∧ c.kind = "async"

theorem hasToken_async (m : Tree) : m.hasToken ["async"] = true ↔ IsAsync m := by
  simp [hasToken, IsAsync]

instance (m : Tree) : Decidable (IsAsync m) := decidable_of_iff _ (hasToken_async m)

theorem returnType_unannotated (s : Text) {m body : Tree} (hreturn : m.field? "return_type" = none)
    (hbody : m.field? "body" = some body) :
    s.returnType m =
      if IsAsync m then "Promise<" ++ (if body.Returns then "any" else "void") ++ ">"
      else if body.Returns then "any" else "void" := by
  simp only [returnType, hreturn, hbody, returnsValue_iff, hasToken_async]
  rfl

/-- Two texts have the same at every node of a tree. -/
def Agree (s s' : Text) (t : Tree) : Prop := ∀ n ∈ t.preorder, s'.of n = s.of n

instance (s s' : Text) (t : Tree) : Decidable (Agree s s' t) :=
  inferInstanceAs (Decidable (∀ n ∈ t.preorder, s'.of n = s.of n))

theorem Agree.of_mem {t c : Tree} (h : Agree s s' t) (hc : c ∈ t.children) : Agree s s' c :=
  fun n hn => h n (mem_preorder_of_mem_children hc hn)

theorem Agree.of_eq {t : Tree} (h : Agree s s' t) : s'.of t = s.of t := h t t.self_mem_preorder

theorem annotation_congr {t : Tree} (h : Agree s s' t) : s'.annotation t = s.annotation t := by
  unfold annotation
  cases hparts : t.parts with
  | nil => rw [h.of_eq]
  | cons c cs =>
    have hc : c ∈ t.parts := hparts ▸ List.mem_cons_self
    exact (h.of_mem (mem_parts.1 hc).1).of_eq

/-- What is read off a field agrees if it agrees on every child. -/
theorem map_field_congr {α : Type} {t : Tree} {f f' : Tree → α} (name : String)
    (h : ∀ c ∈ t.children, f' c = f c) : (t.field? name).map f' = (t.field? name).map f := by
  cases hfield : t.field? name with
  | none => rfl
  | some c => rw [Option.map_some, Option.map_some, h c (List.mem_of_find?_eq_some hfield)]

theorem parameter_congr {t : Tree} (h : Agree s s' t) : s'.parameter t = s.parameter t := by
  simp only [parameter, h.of_eq, map_field_congr _ fun c hc => (h.of_mem hc).of_eq,
    map_field_congr _ fun c hc => annotation_congr (h.of_mem hc)]

theorem map_parameter_congr {t : Tree} (h : Agree s s' t) :
    t.parts.map s'.parameter = t.parts.map s.parameter :=
  List.map_congr_left fun _ hp => parameter_congr (h.of_mem (mem_parts.1 hp).1)

section Around

variable {info : Node} {before after : List Tree} {body body' : Tree}

theorem field?_around (hfields : body.info.fields = ["body"]) {name : String}
    (hname : name ≠ "body") : (node info (before ++ body :: after)).field? name =
      (node info (before ++ after)).field? name := by
  simp [field?, children, hfields, hname]

theorem field?_body (hfields : body.info.fields = ["body"]) :
    (node info (before ++ body :: after)).field? "body" =
      ((before.find? fun c => c.info.fields.contains "body").or (some body)) := by
  simp [field?, children, hfields]

theorem hasToken_around (hinfo : body'.info = body.info) (words : List String) :
    (node info (before ++ body' :: after)).hasToken words =
      (node info (before ++ body :: after)).hasToken words := by
  simp only [hasToken, children, List.any_append, List.any_cons, isNamed, kind, hinfo]

/-- A method is shown alike with another body of the same outline. -/
theorem signature_congr (hagree : ∀ c ∈ before ++ after, Agree s s' c)
    (hfields : body.info.fields = ["body"]) (hinfo : body'.info = body.info)
    (houtlines : outlines body'.children = outlines body.children) :
    (s'.method (node info (before ++ body' :: after))).signature =
      (s.method (node info (before ++ body :: after))).signature := by
  have hagree : ∀ c ∈ (node info (before ++ after)).children, Agree s s' c := hagree
  have hfields' : body'.info.fields = ["body"] := hinfo ▸ hfields
  have hvalue : body'.returnsValue = body.returnsValue := by
    rw [returnsValue_eq, returnsValue_eq, houtlines]
  have hname : s'.methodName (node info (before ++ body' :: after)) =
      s.methodName (node info (before ++ body :: after)) := by
    rw [methodName, methodName, field?_around hfields (by decide),
      field?_around hfields' (by decide), map_field_congr _ fun c hc => (hagree c hc).of_eq]
  have hreturn : s'.returnType (node info (before ++ body' :: after)) =
      s.returnType (node info (before ++ body :: after)) := by
    unfold returnType
    rw [field?_around hfields (by decide), field?_around hfields' (by decide),
      field?_body hfields, field?_body hfields', hasToken_around hinfo]
    cases hfield : (node info (before ++ after)).field? "return_type" with
    | some a => exact annotation_congr (hagree a (List.mem_of_find?_eq_some hfield))
    | none =>
      cases before.find? fun c => c.info.fields.contains "body" with
      | some c => rfl
      | none => simp only [Option.none_or, hvalue]
  have hparameters : ((node info (before ++ body' :: after)).field? "parameters").map
        (fun ps => ps.parts.map s'.parameter) =
      ((node info (before ++ body :: after)).field? "parameters").map
        fun ps => ps.parts.map s.parameter := by
    rw [field?_around hfields (by decide), field?_around hfields' (by decide)]
    exact map_field_congr _ fun c hc => map_parameter_congr (hagree c hc)
  rw [method, method, hname, hreturn, hparameters]

end Around

/-- **Inferred returns.** The walk finds a value just if a `return` of the body's own scope has one,
and any other order of the walk would say the same. A method with a body and no declared type is
shown with `any` or `void` accordingly, as a promise of it if the method is `async`. Another nested
function, method or class in the place of one, whatever the text is there, changes no signature. -/
theorem returns_inferred (s : Text) :
    (∀ body : Tree, body.returnsValue = true ↔ body.Returns) ∧
    (∀ body : Tree, Search body.parts body.returnsValue ∧
      ∀ b, Search body.parts b → b = body.returnsValue) ∧
    (∀ m body : Tree, m.field? "return_type" = none → m.field? "body" = some body →
      (s.method m).signature =
        signature (s.methodName m) ((s.method m).params.map fun p => (p.name, p.typeText))
          (if IsAsync m then "Promise<" ++ (if body.Returns then "any" else "void") ++ ">"
            else if body.Returns then "any" else "void")) ∧
    ∀ (s' : Text) (info : Node) (before after : List Tree) (body old new : Tree) (a : Address),
      (∀ c ∈ before ++ after, Agree s s' c) → body.info.fields = ["body"] →
      a ≠ [] → body.at? a = some old → old.IsScope → new.IsScope →
      (s'.method (node info (before ++ body.replace a new :: after))).signature =
        (s.method (node info (before ++ body :: after))).signature := by
  refine ⟨returnsValue_iff, fun body => ⟨search_returnsValue body, ?_⟩, ?_, ?_⟩
  · intro b hb
    rw [hb.eq_any, (search_returnsValue body).eq_any]
  · intro m body hreturn hbody
    rw [MethodDecl.signature, ← returnType_unannotated s hreturn hbody]
    rfl
  · intro s' info before after body old new a hagree hfields ha hat hold hnew
    obtain ⟨hinfo, houtlines⟩ := outlines_replace ha hat hold hnew
    exact signature_congr hagree hfields hinfo houtlines

/-! ## A method whose arrow function is rewritten as a class -/

def arrowText : Text :=
  ⟨("class A \x7b async m() \x7b f(() => \x7b return 1; \x7d); " ++
    "return /* no */; \x7d \x7d").toList.toArray⟩

def classText : Text :=
  ⟨("class A \x7b async m() \x7b f(class \x7b n() \x7b return 1; \x7d \x7d); " ++
    "return /* no */; \x7d \x7d").toList.toArray⟩

/-- `return 1;` -/
def returnOne (start : Nat) : Tree :=
  branch "return_statement" [] start (start + 9) [
    token "return" start (start + 6), branch "number" [] (start + 7) (start + 8) [],
    token ";" (start + 8) (start + 9)]

def parens (fields : List String) (start : Nat) : Tree :=
  branch "formal_parameters" fields start (start + 2) [
    token "(" start (start + 1), token ")" (start + 1) (start + 2)]

def nestedArrow : Tree :=
  branch "arrow_function" [] 24 43 [
    parens ["parameters"] 24, token "=>" 27 29,
    branch "statement_block" ["body"] 30 43 [
      token "\x7b" 30 31, returnOne 32, token "\x7d" 42 43]]

def nestedClass : Tree :=
  branch "class" [] 24 51 [
    token "class" 24 29,
    branch "class_body" ["body"] 30 51 [
      token "\x7b" 30 31,
      branch "method_definition" ["member"] 32 49 [
        branch "property_identifier" ["name"] 32 33 [], parens ["parameters"] 33,
        branch "statement_block" ["body"] 36 49 [
          token "\x7b" 36 37, returnOne 38, token "\x7d" 48 49]],
      token "\x7d" 50 51]]

/-- What stands in front of the body. -/
def methodHead : List Tree :=
  [token "async" 10 15, branch "property_identifier" ["name"] 16 17 [], parens ["parameters"] 17]

def arrowBody : Tree :=
  branch "statement_block" ["body"] 20 64 [
    token "\x7b" 20 21,
    branch "expression_statement" [] 22 45 [
      branch "call_expression" [] 22 44 [
        branch "identifier" ["function"] 22 23 [],
        branch "arguments" ["arguments"] 23 44 [
          token "(" 23 24, nestedArrow, token ")" 43 44]],
      token ";" 44 45],
    branch "return_statement" [] 46 62 [
      token "return" 46 52, branch "comment" [] 53 61 [], token ";" 61 62],
    token "\x7d" 63 64]

/-- The method `m` of `arrowText` with some body. -/
def methodWith (body : Tree) : Tree :=
  branch "method_definition" ["member"] 10 64 (methodHead ++ [body])

theorem signature_methodWith :
    (methodWith arrowBody).field? "return_type" = none ∧
    (methodWith arrowBody).field? "body" = some arrowBody ∧
    (∀ c ∈ methodHead ++ [], Agree arrowText classText c) ∧
    arrowBody.at? [1, 0, 1, 1] = some nestedArrow ∧ nestedArrow.IsScope ∧ nestedClass.IsScope ∧
    (arrowText.method (methodWith arrowBody)).signature = "m(): Promise<void>" ∧
    (classText.method (methodWith (arrowBody.replace [1, 0, 1, 1] nestedClass))).signature =
      "m(): Promise<void>" := by
  have hreturn : (methodWith arrowBody).field? "return_type" = none := rfl
  have hbody : (methodWith arrowBody).field? "body" = some arrowBody := rfl
  have hagree : ∀ c ∈ methodHead ++ [], Agree arrowText classText c := by decide +kernel
  have hat : arrowBody.at? [1, 0, 1, 1] = some nestedArrow := rfl
  have hold : nestedArrow.IsScope := by decide
  have hnew : nestedClass.IsScope := by decide
  obtain ⟨-, -, hsignature, hreplace⟩ := returns_inferred arrowText
  have harrow : (arrowText.method (methodWith arrowBody)).signature = "m(): Promise<void>" := by
    rw [hsignature _ _ hreturn hbody]
    decide +kernel
  refine ⟨hreturn, hbody, hagree, hat, hold, hnew, harrow, ?_⟩
  rw [← harrow]
  exact hreplace classText _ methodHead [] arrowBody nestedArrow nestedClass [1, 0, 1, 1] hagree rfl
    (by decide) hat hold hnew

end Text

end ClassAtlas.Syntax
