import ClassAtlas.Proofs.Syntax.Overloads
import ClassAtlas.Proofs.Syntax.Shapes
import Mathlib.Data.List.Forall2

/-!
# Comments

Comments may be put between the parts of any node without a change to the model, but for the nodes
whose text is itself shown in it. `Commented` relates a tree to one with more comments: nodes are
moved, as the text before them is longer, and comments are strewn between the children of any node
that is not kept. What is kept are the places that `copiedSites` lists for the classes: the text
there is the same in both sources.

Everything that is read off a class is told by places below it (`Text.annotation_eq_match`,
`Text.baseName_eq_map` and their neighbours), and a step down leads in both trees to places that are
related again (`Commented.filter`, `Commented.field`). So both classes are read as one declaration
(`Commented.classDecl_eq`), and the walk meets the same ones in both trees (`Commented.classes_eq`).
-/
namespace ClassAtlas.Syntax

/-- A node that may stand elsewhere in another text, and is the same otherwise. -/
def Node.IsMoved (i i' : Node) : Prop := { i' with start := i.start, stop := i.stop } = i

instance (i i' : Node) : Decidable (i.IsMoved i') :=
  inferInstanceAs (Decidable ({ i' with start := i.start, stop := i.stop } = i))

theorem Node.IsMoved.congr {α : Type} {i i' : Node} (h : i.IsMoved i') (f : Node → α)
    (hf : ∀ (j : Node) start stop, f { j with start, stop } = f j) : f i' = f i := by
  rw [← hf i' i.start i.stop]
  exact congrArg f h

open Syntax.Tree

/-! ## A tree with more comments -/

/-- A piece of source that stands in two texts. -/
inductive Moved (s s' : Text) : Tree → Tree → Prop
  | node {i i' : Node} {cs cs' : List Tree} : i.IsMoved i' →
      s'.of (.node i' cs') = s.of (.node i cs) → List.Forall₂ (Moved s s') cs cs' →
      Moved s s' (.node i cs) (.node i' cs')

/-- A comment that is put into a tree. -/
def IsInserted (c : Tree) : Prop := IsComment c ∧ c.children = [] ∧ c.isFault = false

instance (c : Tree) : Decidable (IsInserted c) :=
  decidable_of_iff (IsComment c ∧ c.children.isEmpty = true ∧ c.isFault = false)
    (by rw [List.isEmpty_iff]; rfl)

/-- A tree, which stood at an address in the tree it was in, and the same with comments put into it.
A node that is kept has none put into it, nor has what is below it. -/
inductive Commented (s s' : Text) (kept : Address → Prop) : Address × Tree → Tree → Prop
  | moved {a : Address} {t t' : Tree} : Moved s s' t t' → Commented s s' kept (a, t) t'
  | entered {a : Address} {i i' : Node} {cs ds cs' : List Tree} : ¬ kept a → i.IsMoved i' →
      List.Forall₂ (Commented s s' kept) (childSites (a, .node i cs)) ds →
      Strewn IsInserted ds cs' → Commented s s' kept (a, .node i cs) (.node i' cs')

/-! ## The places whose text is shown -/

namespace Tree

/-- The named children that are no comments, at their addresses. -/
def partSites (c : Address × Tree) : List (Address × Tree) :=
  (childSites c).filter fun x => x.2.isPart

theorem map_snd_partSites (c : Address × Tree) : (partSites c).map Prod.snd = c.2.parts := by
  rw [parts_eq, ← map_snd_childSites, List.filter_map]
  rfl

theorem map_snd_head?_partSites (c : Address × Tree) :
    (partSites c).head?.map Prod.snd = c.2.parts.head? := by
  rw [← map_snd_partSites, List.head?_map]

theorem map_snd_find?_partSites (c : Address × Tree) (p : Tree → Bool) :
    ((partSites c).find? fun x => p x.2).map Prod.snd = c.2.parts.find? p := by
  rw [← map_snd_partSites, List.find?_map]
  rfl

end Tree

namespace Text

/-- The type in an annotation; an annotation without one is shown itself. -/
def typeSite (c : Address × Tree) : Address × Tree := (partSites c).head?.getD c

/-- The pattern of a parameter and its type. -/
def parameterSites (c : Address × Tree) : List (Address × Tree) :=
  if c.2.kind == "required_parameter" || c.2.kind == "optional_parameter" then
    (fieldSite? c "pattern").getD c :: (fieldSite? c "type").toList.map typeSite
  else if c.2.kind == "assignment_pattern" then [(fieldSite? c "left").getD c]
  else [c]

/-- What is shown of a method but its name. -/
def signatureSites (m : Address × Tree) : List (Address × Tree) :=
  ((fieldSite? m "parameters").toList.flatMap partSites).flatMap parameterSites ++
    (fieldSite? m "return_type").toList.map typeSite

/-- What the first part of a heritage extends: a clause has it in a field. -/
def extendedSite? (first : Address × Tree) : Option (Address × Tree) :=
  if first.2.kind == "extends_clause" then fieldSite? first "value"
  else if first.2.kind == "implements_clause" then none
  else some first

/-- The node that is taken for the base of a class. -/
def baseSite? (c : Address × Tree) : Option (Address × Tree) :=
  ((partSites c).find? (·.2.kind == "class_heritage")).bind fun heritage =>
    (partSites heritage).head?.bind fun first =>
      (extendedSite? first).bind fun base =>
        if base.2.kind == "instantiation_expression" then (partSites base).head? else some base

/-- A class that is extended in place is shown by its name. -/
def shownSites (base : Address × Tree) : List (Address × Tree) :=
  if base.2.kind = "class" then (fieldSite? base "name").toList else [base]

/-- The members of a body whose names are compared: only what is no accessor. -/
def namedMembers (body : Address × Tree) : List (Address × Tree) :=
  (childSites body).filter fun m => methodKinds.contains m.2.kind && !isAccessor m.2

/-- The places of a class whose text is shown: names, bases, patterns of parameters and types. The
names of members count that are not listed, since names decide whether they are. -/
def copiedSites (s : Text) (c : Address × Tree) : List (Address × Tree) :=
  (fieldSite? c "name").toList ++ (baseSite? c).toList.flatMap shownSites ++
    ((fieldSite? c "body").toList.flatMap namedMembers).flatMap
      (fun m => (fieldSite? m "name").toList) ++
    (s.methodSites c).flatMap signatureSites

/-- The addresses of these places for all class nodes of a tree. -/
def Copied (s : Text) (t : Tree) (a : Address) : Prop :=
  ∃ c ∈ t.nodes, classKinds.contains c.2.kind = true ∧ a ∈ (s.copiedSites c).map Prod.fst

instance (s : Text) (t : Tree) (a : Address) : Decidable (s.Copied t a) :=
  inferInstanceAs (Decidable (∃ c ∈ t.nodes, classKinds.contains c.2.kind = true ∧
    a ∈ (s.copiedSites c).map Prod.fst))

end Text

/-! ## What is read, by places -/

/-- A map out of a search that goes on from what was found goes along with both steps. -/
theorem map_bind_eq_bind {α β γ δ : Type} {o : Option α} {o' : Option γ} {f : α → Option β}
    {g : γ → Option δ} {φ : α → γ} {ψ : β → δ} (h : o.map φ = o')
    (hf : ∀ x, (f x).map ψ = g (φ x)) : (o.bind f).map ψ = o'.bind g := by
  cases o with
  | none =>
    rw [← h]
    rfl
  | some x =>
    rw [← h]
    exact hf x

theorem Tree.hasToken_eq_isSome (c : Address × Tree) (words : List String) : c.2.hasToken words =
    ((childSites c).find? fun y => !y.2.isNamed && words.contains y.2.kind).isSome := by
  rw [hasToken, ← map_snd_childSites, List.any_map, List.isSome_find?]
  rfl

namespace Text

variable (s : Text)

theorem annotation_eq_match (c : Address × Tree) : s.annotation c.2 =
    match (partSites c).head? with
    | some y => s.of y.2
    | none => bareAnnotation (s.of c.2) := by
  unfold annotation
  rw [← map_snd_partSites]
  cases partSites c with
  | nil => rfl
  | cons y ys => rfl

theorem returnType_eq_getD (t : Tree) : s.returnType t =
    ((t.field? "return_type").map s.annotation).getD
      (((t.field? "body").map returnsValue).elim implicitType fun returns =>
        let inferred := if returns then implicitType else "void"
        if t.hasToken ["async"] then "Promise<" ++ inferred ++ ">" else inferred) := by
  unfold returnType
  cases t.field? "return_type" with
  | some y => rfl
  | none => cases t.field? "body" <;> rfl

theorem map_methodNodes (t : Tree) : (s.methodNodes t).map s.method =
    ((t.field? "body").map fun body =>
      (body.children.filter (s.isListed body)).map s.method).getD [] := by
  cases hbody : t.field? "body" with
  | none =>
    rw [methodNodes_of_none s hbody]
    rfl
  | some body =>
    rw [methodNodes_eq s hbody]
    rfl

theorem isEligible_eq_and (m : Tree) : s.isEligible m =
    ((methodKinds.contains m.kind && !isAccessor m) &&
      (!s.isConstructor m && m.kind != "comment" && m.isNamed)) := by
  rw [isEligible]
  ac_rfl

theorem map_snd_extendedSite? (first : Address × Tree) :
    (extendedSite? first).map Prod.snd = extended? first.2 := by
  unfold extendedSite? extended?
  split
  · exact map_snd_fieldSite? first "value"
  · split <;> rfl

theorem map_snd_baseSite? (c : Address × Tree) :
    (baseSite? c).map Prod.snd = baseNode? c.2 := by
  have hunapplied : ∀ base : Address × Tree,
      (if (base.2.kind == "instantiation_expression") = true then (partSites base).head?
        else some base).map Prod.snd = unapplied? base.2 := by
    intro base
    unfold unapplied?
    split
    · exact map_snd_head?_partSites base
    · rfl
  have hheritage := map_snd_find?_partSites c (·.kind == "class_heritage")
  refine map_bind_eq_bind hheritage fun heritage => ?_
  refine map_bind_eq_bind (map_snd_head?_partSites heritage) fun first => ?_
  exact map_bind_eq_bind (map_snd_extendedSite? first) hunapplied

/-- The base of a class is told by the node that is taken for it. -/
theorem baseName_eq_map (c : Address × Tree) :
    s.baseName c.2 = (baseSite? c).map fun b => shownBase s b.2 := by
  rw [baseName_eq_map_baseNode?, ← map_snd_baseSite?, Option.map_map]
  rfl

end Text

/-! ## Lists and options of related places -/

section Related

variable {α β γ : Type} {R : α → β → Prop}

theorem map_eq_of_forall₂ {l : List α} {l' : List β} {f : α → γ} {g : β → γ}
    (h : List.Forall₂ R l l') (hR : ∀ x y, R x y → g y = f x) : l'.map g = l.map f := by
  induction h with
  | nil => rfl
  | cons hxy _ ih => rw [List.map_cons, List.map_cons, hR _ _ hxy, ih]

theorem exists_of_mem_right {l : List α} {l' : List β} {y : β} (h : List.Forall₂ R l l')
    (hy : y ∈ l') : ∃ x, R x y := by
  induction h with
  | nil => cases hy
  | cons hxy _ ih =>
    rcases List.mem_cons.1 hy with rfl | hy
    · exact ⟨_, hxy⟩
    · exact ih hy

theorem rel_head? {l : List α} {l' : List β} (h : List.Forall₂ R l l') :
    Option.Rel R l.head? l'.head? := by
  cases h with
  | nil => exact .none
  | cons hxy _ => exact .some hxy

theorem rel_find? {l : List α} {l' : List β} {p : α → Bool} {q : β → Bool}
    (h : List.Forall₂ R l l') (hR : ∀ x y, R x y → q y = p x) :
    Option.Rel R (l.find? p) (l'.find? q) := by
  rw [← List.head?_filter, ← List.head?_filter]
  exact rel_head? (List.rel_filter (fun x y hxy => Bool.eq_iff_iff.1 (hR x y hxy).symm) h)

theorem rel_bind {δ : Type} {S : γ → δ → Prop} {o : Option α} {o' : Option β}
    {f : α → Option γ} {g : β → Option δ} (h : Option.Rel R o o')
    (hR : ∀ x y, R x y → Option.Rel S (f x) (g y)) : Option.Rel S (o.bind f) (o'.bind g) := by
  cases h with
  | none => exact .none
  | some hxy => exact hR _ _ hxy

theorem map_eq_of_rel {o : Option α} {o' : Option β} {f : α → γ} {g : β → γ}
    (h : Option.Rel R o o') (hR : ∀ x ∈ o, ∀ y, R x y → g y = f x) : o'.map g = o.map f := by
  cases h with
  | none => rfl
  | some hxy => exact congrArg some (hR _ rfl _ hxy)

theorem isSome_eq_of_rel {o : Option α} {o' : Option β} (h : Option.Rel R o o') :
    o'.isSome = o.isSome := by
  cases h with
  | none => rfl
  | some _ => rfl

end Related

theorem Strewn.refl {aside : Tree → Prop} (cs : List Tree) : Strewn aside cs cs := by
  induction cs with
  | nil => exact .nil
  | cons c cs ih => exact .part ih

theorem Strewn.mem {aside : Tree → Prop} {ts cs : List Tree} {c : Tree} (h : Strewn aside ts cs)
    (hc : c ∈ cs) : c ∈ ts ∨ aside c := by
  induction h with
  | nil => exact .inl hc
  | part _ ih =>
    rcases List.mem_cons.1 hc with rfl | hc
    · exact .inl List.mem_cons_self
    · exact (ih hc).imp_left (List.mem_cons_of_mem _)
  | aside haside _ ih =>
    rcases List.mem_cons.1 hc with rfl | hc
    · exact .inr haside
    · exact ih hc

theorem Strewn.flatMap_eq {α : Type} {aside : Tree → Prop} {ts cs : List Tree} {f : Tree → List α}
    (h : Strewn aside ts cs) (hf : ∀ c, aside c → f c = []) : cs.flatMap f = ts.flatMap f := by
  induction h with
  | nil => rfl
  | part _ ih => rw [List.flatMap_cons, List.flatMap_cons, ih]
  | aside hc _ ih => rw [List.flatMap_cons, hf _ hc, ih, List.nil_append]

theorem IsInserted.isPart_eq {c : Tree} (h : IsInserted c) : c.isPart = false := by
  simp [isPart, h.1.2.1]

/-! ## A step down -/

namespace Commented

variable {s s' : Text} {kept : Address → Prop} {x x' : Address × Tree}

theorem isMoved (h : Commented s s' kept x x'.2) : x.2.info.IsMoved x'.2.info := by
  generalize x'.2 = t' at h
  cases h with
  | moved h =>
    cases h with
    | node hinfo _ _ => exact hinfo
  | entered _ hinfo _ _ => exact hinfo

theorem kind_eq (h : Commented s s' kept x x'.2) : x'.2.kind = x.2.kind :=
  h.isMoved.congr Node.kind fun _ _ _ => rfl

theorem isNamed_eq (h : Commented s s' kept x x'.2) : x'.2.isNamed = x.2.isNamed :=
  h.isMoved.congr Node.named fun _ _ _ => rfl

theorem fields_eq (h : Commented s s' kept x x'.2) : x'.2.info.fields = x.2.info.fields :=
  h.isMoved.congr Node.fields fun _ _ _ => rfl

theorem isFault_eq (h : Commented s s' kept x x'.2) : x'.2.isFault = x.2.isFault :=
  h.isMoved.congr (fun i => i.isError || i.isMissing) fun _ _ _ => rfl

theorem isPart_eq (h : Commented s s' kept x x'.2) : x'.2.isPart = x.2.isPart := by
  rw [isPart, isPart, h.isNamed_eq, h.kind_eq]

/-- A node that is kept has its text. -/
theorem of_eq (h : Commented s s' kept x x'.2) (hkept : kept x.1) : s'.of x'.2 = s.of x.2 := by
  generalize x'.2 = t' at h
  cases h with
  | moved h =>
    cases h with
    | node _ htext _ => exact htext
  | entered hfree _ _ _ => exact absurd hkept hfree

/-- The children are related one by one, but for the comments that are put between them. -/
theorem children {t' : Tree} (h : Commented s s' kept x t') :
    ∃ ds, List.Forall₂ (fun y d => y ∈ childSites x ∧ Commented s s' kept y d) (childSites x) ds ∧
      Strewn IsInserted ds t'.children := by
  cases h with
  | @moved a t _ h =>
    obtain @⟨i, i', cs, cs', -, -, hchildren⟩ := h
    have hsites := map_snd_childSites (a, Tree.node i cs)
    change _ = cs at hsites
    rw [← hsites, List.forall₂_map_left_iff] at hchildren
    exact ⟨cs', (List.forall₂_and_left _ _).2
      ⟨fun y hy => hy, hchildren.imp fun y d hyd => .moved hyd⟩, Strewn.refl _⟩
  | entered _ _ hchildren hstrewn =>
    exact ⟨_, (List.forall₂_and_left _ _).2 ⟨fun y hy => hy, hchildren⟩, hstrewn⟩

/-- So are the children that are chosen in both trees, if no comment is. -/
theorem filter (p p' : Tree → Bool) (h : Commented s s' kept x x'.2)
    (hp : ∀ y ∈ childSites x, ∀ y' : Address × Tree, Commented s s' kept y y'.2 → p' y'.2 = p y.2)
    (haside : ∀ c, IsInserted c → p' c = false) :
    List.Forall₂ (fun y (y' : Address × Tree) => y ∈ (childSites x).filter (fun y => p y.2) ∧
        Commented s s' kept y y'.2)
      ((childSites x).filter fun y => p y.2) ((childSites x').filter fun y => p' y.2) := by
  obtain ⟨ds, hds, hstrewn⟩ := h.children
  -- the comments move the children behind them, so only the trees on the right are those of `ds`
  have hright : ((childSites x').filter fun y => p' y.2).map Prod.snd = ds.filter p' := by
    rw [← hstrewn.filter_eq haside, ← map_snd_childSites, List.filter_map]
    rfl
  have hchosen : List.Forall₂ (fun y d => y ∈ childSites x ∧ Commented s s' kept y d)
      ((childSites x).filter fun y => p y.2) (ds.filter p') := by
    refine List.rel_filter (fun y d hyd => ?_) hds
    exact (Bool.eq_iff_iff.1 (hp y hyd.1 ([], d) hyd.2)).symm
  rw [← hright, List.forall₂_map_right_iff] at hchosen
  exact (List.forall₂_and_left _ _).2 ⟨fun y hy => hy, hchosen.imp fun y y' hyy' => hyy'.2⟩

theorem parts (h : Commented s s' kept x x'.2) :
    List.Forall₂ (fun y (y' : Address × Tree) => y ∈ partSites x ∧ Commented s s' kept y y'.2)
      (partSites x) (partSites x') :=
  h.filter isPart isPart (fun _ _ _ hyy' => hyy'.isPart_eq) fun _ hc => hc.isPart_eq

/-- What is found in both trees is related. -/
theorem find? (p : Tree → Bool) (h : Commented s s' kept x x'.2)
    (hp : ∀ y y' : Address × Tree, Commented s s' kept y y'.2 → p y'.2 = p y.2)
    (haside : ∀ c, IsInserted c → p c = false) :
    Option.Rel (fun y (y' : Address × Tree) => Commented s s' kept y y'.2)
      ((childSites x).find? fun y => p y.2) ((childSites x').find? fun y => p y.2) := by
  rw [← List.head?_filter, ← List.head?_filter]
  exact rel_head? ((h.filter p p (fun y _ => hp y) haside).imp fun _ _ hyy' => hyy'.2)

theorem field (h : Commented s s' kept x x'.2) (name : String) :
    Option.Rel (fun y (y' : Address × Tree) => Commented s s' kept y y'.2)
      (fieldSite? x name) (fieldSite? x' name) :=
  h.find? (fun c => c.info.fields.contains name) (fun _ _ hyy' => by rw [hyy'.fields_eq])
    fun c hc => by simp [hc.1.2.2]

theorem hasToken_eq (h : Commented s s' kept x x'.2) (words : List String) :
    x'.2.hasToken words = x.2.hasToken words := by
  have hrel := h.find? (fun c => !c.isNamed && words.contains c.kind)
    (fun _ _ hyy' => by rw [hyy'.isNamed_eq, hyy'.kind_eq]) fun c hc => by simp [hc.1.1]
  rw [hasToken_eq_isSome, hasToken_eq_isSome]
  exact isSome_eq_of_rel hrel

/-! ## What is read there -/

theorem map_field_eq {α : Type} {f f' : Tree → α} (h : Commented s s' kept x x'.2) (name : String)
    (hf : ∀ y ∈ fieldSite? x name, ∀ y' : Address × Tree, Commented s s' kept y y'.2 →
      f' y'.2 = f y.2) : (x'.2.field? name).map f' = (x.2.field? name).map f := by
  rw [← map_snd_fieldSite?, ← map_snd_fieldSite?, Option.map_map, Option.map_map]
  exact map_eq_of_rel (h.field name) hf

theorem map_parts_eq {α : Type} {f f' : Tree → α} (h : Commented s s' kept x x'.2)
    (hf : ∀ y ∈ partSites x, ∀ y' : Address × Tree, Commented s s' kept y y'.2 →
      f' y'.2 = f y.2) : x'.2.parts.map f' = x.2.parts.map f := by
  rw [← map_snd_partSites, ← map_snd_partSites, List.map_map, List.map_map]
  exact map_eq_of_forall₂ h.parts fun y y' hyy' => hf y hyy'.1 y' hyy'.2

/-- The text of a field, or of the node itself if nothing fills it. -/
theorem fieldText_eq (h : Commented s s' kept x x'.2) {name : String}
    (hkept : kept ((fieldSite? x name).getD x).1) :
    ((x'.2.field? name).map s'.of).getD (s'.of x'.2) =
      ((x.2.field? name).map s.of).getD (s.of x.2) := by
  have hrel := h.field name
  rw [← map_snd_fieldSite?, ← map_snd_fieldSite?]
  generalize fieldSite? x name = o at hrel hkept
  generalize fieldSite? x' name = o' at hrel
  cases hrel with
  | none => exact h.of_eq hkept
  | some hyy' => exact hyy'.of_eq hkept

theorem annotation_eq (h : Commented s s' kept x x'.2) (hkept : kept (Text.typeSite x).1) :
    s'.annotation x'.2 = s.annotation x.2 := by
  have hrel := rel_head? h.parts
  rw [Text.annotation_eq_match, Text.annotation_eq_match]
  unfold Text.typeSite at hkept
  generalize (partSites x).head? = o at hrel hkept
  generalize (partSites x').head? = o' at hrel
  cases hrel with
  | none => exact congrArg Text.bareAnnotation (h.of_eq hkept)
  | some hyy' => exact hyy'.2.of_eq hkept

theorem methodName_eq (h : Commented s s' kept x x'.2)
    (hkept : ∀ n ∈ fieldSite? x "name", kept n.1) : s'.methodName x'.2 = s.methodName x.2 := by
  rw [Text.methodName, Text.methodName,
    h.map_field_eq "name" fun n hn n' hnn' => hnn'.of_eq (hkept n hn)]

theorem parameter_eq (h : Commented s s' kept x x'.2)
    (hkept : ∀ y ∈ Text.parameterSites x, kept y.1) : s'.parameter x'.2 = s.parameter x.2 := by
  unfold Text.parameterSites at hkept
  unfold Text.parameter
  rw [h.kind_eq]
  split at hkept
  · next hdeclared =>
    obtain ⟨hpattern, htype⟩ := List.forall_mem_cons.1 hkept
    have htypes : (x'.2.field? "type").map s'.annotation = (x.2.field? "type").map s.annotation :=
      h.map_field_eq "type" fun y hy y' hyy' =>
        hyy'.annotation_eq (htype _ (List.mem_map_of_mem (Option.mem_toList.2 hy)))
    rw [if_pos hdeclared, if_pos hdeclared, h.fieldText_eq hpattern, htypes]
  · next hdeclared =>
    rw [if_neg hdeclared, if_neg hdeclared]
    split at hkept
    · next hassignment =>
      rw [if_pos hassignment, if_pos hassignment, h.fieldText_eq (hkept _ List.mem_cons_self)]
    · next hassignment =>
      rw [if_neg hassignment, if_neg hassignment, h.of_eq (hkept _ List.mem_cons_self)]

/-- Comments are no part of an outline. -/
theorem outline_eq (h : Commented s s' kept x x'.2) : x'.2.outline = x.2.outline := by
  obtain ⟨a, t⟩ := x
  induction t using ofChildren generalizing a x' with
  | step info cs ih =>
    have hparts : x'.2.parts.map outline = (Tree.node info cs).parts.map outline := by
      refine h.map_parts_eq fun y hy y' hyy' => ?_
      obtain ⟨i, -, hget⟩ := mem_childSites.1 (List.mem_filter.1 hy).1
      exact ih y.2 (List.mem_of_getElem? hget) y.1 hyy'
    rw [Tree.outline_eq, Tree.outline_eq, h.kind_eq, hparts]

theorem returnsValue_eq (h : Commented s s' kept x x'.2) :
    x'.2.returnsValue = x.2.returnsValue := by
  rw [Tree.returnsValue_eq, Tree.returnsValue_eq, outlines_children, outlines_children,
    h.map_parts_eq fun _ _ _ hyy' => hyy'.outline_eq]

theorem returnType_eq (h : Commented s s' kept x x'.2)
    (hkept : ∀ y ∈ fieldSite? x "return_type", kept (Text.typeSite y).1) :
    s'.returnType x'.2 = s.returnType x.2 := by
  have hreturn := h.map_field_eq "return_type" fun y hy y' hyy' =>
    hyy'.annotation_eq (hkept y hy)
  have hbody := h.map_field_eq "body" fun _ _ _ hyy' => hyy'.returnsValue_eq
  rw [Text.returnType_eq_getD, Text.returnType_eq_getD, hreturn, hbody, h.hasToken_eq]

theorem method_eq (h : Commented s s' kept x x'.2)
    (hname : s'.methodName x'.2 = s.methodName x.2)
    (hkept : ∀ y ∈ Text.signatureSites x, kept y.1) : s'.method x'.2 = s.method x.2 := by
  obtain ⟨hparameters, hreturn⟩ := List.forall_mem_append.1 hkept
  have hparams : (x'.2.field? "parameters").map (fun ps => ps.parts.map s'.parameter) =
      (x.2.field? "parameters").map fun ps => ps.parts.map s.parameter := by
    refine h.map_field_eq "parameters" fun ps hps ps' hpsps' => ?_
    refine hpsps'.map_parts_eq fun p hp p' hpp' => hpp'.parameter_eq fun y hy => ?_
    have hpart : p ∈ (fieldSite? x "parameters").toList.flatMap partSites :=
      List.mem_flatMap_of_mem (Option.mem_toList.2 hps) hp
    exact hparameters y (List.mem_flatMap_of_mem hpart hy)
  have hreturns : s'.returnType x'.2 = s.returnType x.2 :=
    h.returnType_eq fun y hy => hreturn _ (List.mem_map_of_mem (Option.mem_toList.2 hy))
  rw [Text.method, Text.method, hname, hparams, hreturns]

/-! ### Members -/

section Members

/-- The names of the members of a body that are compared are kept. -/
def KeepsNames (kept : Address → Prop) (body : Address × Tree) : Prop :=
  ∀ m ∈ Text.namedMembers body, ∀ n ∈ fieldSite? m "name", kept n.1

variable {body body' : Address × Tree}

/-- Where a name is not kept, nothing is listed. -/
theorem isEligible_eq (hnames : KeepsNames kept body) (hx : x ∈ childSites body)
    (h : Commented s s' kept x x'.2) :
    s'.isEligible x'.2 = s.isEligible x.2 ∧
      (s.isEligible x.2 = true → s'.methodName x'.2 = s.methodName x.2) := by
  have haccessor : Text.isAccessor x'.2 = Text.isAccessor x.2 := h.hasToken_eq _
  cases hmember : methodKinds.contains x.2.kind && !Text.isAccessor x.2 with
  | true =>
    have hname := h.methodName_eq (hnames x (List.mem_filter.2 ⟨hx, hmember⟩))
    refine ⟨?_, fun _ => hname⟩
    rw [Text.isEligible, Text.isEligible, Text.isConstructor, Text.isConstructor, hname,
      haccessor, h.kind_eq, h.isNamed_eq]
  | false =>
    -- the name is not kept, but what is no method or an accessor is not listed under any name
    rw [Text.isEligible_eq_and, Text.isEligible_eq_and, h.kind_eq, haccessor, hmember]
    exact ⟨rfl, fun hcontra => absurd hcontra (by simp)⟩

theorem not_isEligible_of_inserted (s : Text) {c : Tree} (h : IsInserted c) :
    s.isEligible c = false := by
  simp [Text.isEligible, h.1.2.1]

/-- A choice among the eligible members of both bodies. -/
theorem map_eligible_eq {α : Type} (p p' : Tree → Bool) {f f' : Tree → α}
    (hnames : KeepsNames kept body) (h : Commented s s' kept body body'.2)
    (hp : ∀ m m' : Address × Tree, Commented s s' kept m m'.2 →
      s'.methodName m'.2 = s.methodName m.2 → p' m'.2 = p m.2)
    (hf : ∀ m ∈ (childSites body).filter (fun m => p m.2 && s.isEligible m.2),
      ∀ m' : Address × Tree, Commented s s' kept m m'.2 →
      s'.methodName m'.2 = s.methodName m.2 → f' m'.2 = f m.2) :
    (body'.2.children.filter fun m => p' m && s'.isEligible m).map f' =
      (body.2.children.filter fun m => p m && s.isEligible m).map f := by
  have hchosen : ∀ m ∈ childSites body, ∀ m' : Address × Tree, Commented s s' kept m m'.2 →
      (p' m'.2 && s'.isEligible m'.2) = (p m.2 && s.isEligible m.2) := by
    intro m hm m' hmm'
    obtain ⟨heligible, hname⟩ := isEligible_eq hnames hm hmm'
    rw [heligible]
    cases hlisted : s.isEligible m.2 with
    | true => rw [hp m m' hmm' (hname hlisted)]
    | false => rw [Bool.and_false, Bool.and_false]
  have hrel := h.filter (fun m => p m && s.isEligible m) (fun m => p' m && s'.isEligible m)
    hchosen fun c hc => by rw [not_isEligible_of_inserted s' hc, Bool.and_false]
  rw [← map_snd_childSites body, ← map_snd_childSites body', List.filter_map, List.filter_map,
    List.map_map, List.map_map]
  refine map_eq_of_forall₂ hrel fun m m' hmm' => ?_
  obtain ⟨hm, heligible⟩ := List.mem_filter.1 hmm'.1
  have hname := (isEligible_eq hnames hm hmm'.2).2 ((Bool.and_eq_true _ _).mp heligible).2
  exact hf m hmm'.1 m' hmm'.2 hname

theorem implemented_eq (hnames : KeepsNames kept body) (h : Commented s s' kept body body'.2) :
    s'.implemented body'.2 = s.implemented body.2 := by
  rw [Text.implemented, Text.implemented, Text.eligibleMembers_eq, Text.eligibleMembers_eq,
    List.filter_filter, List.filter_filter]
  exact map_eligible_eq (·.kind == "method_definition") (·.kind == "method_definition") hnames h
    (fun m m' hmm' _ => by rw [hmm'.kind_eq]) fun _ _ _ _ hname => hname

theorem methods_eq (h : Commented s s' kept x x'.2)
    (hnames : ∀ body ∈ fieldSite? x "body", KeepsNames kept body)
    (hkept : ∀ m ∈ s.methodSites x, ∀ y ∈ Text.signatureSites m, kept y.1) :
    (s'.methodNodes x'.2).map s'.method = (s.methodNodes x.2).map s.method := by
  rw [Text.map_methodNodes, Text.map_methodNodes,
    h.map_field_eq "body" fun body hbody body' hrel => ?_]
  refine map_eligible_eq
    (fun m => m.kind != "method_signature" ||
      !(s.implemented body.2).contains (s.methodName m))
    (fun m => m.kind != "method_signature" ||
      !(s'.implemented body'.2).contains (s'.methodName m)) (hnames body hbody) hrel ?_ ?_
  · intro m m' hmm' hname
    rw [hmm'.kind_eq, hname, hrel.implemented_eq (hnames body hbody)]
  · intro m hm m' hmm' hname
    have hlisted : m ∈ s.methodSites x := by
      rw [Text.methodSites_of_some hbody]
      exact hm
    exact hmm'.method_eq hname (hkept m hlisted)

end Members

/-! ### Bases -/

theorem base (h : Commented s s' kept x x'.2) :
    Option.Rel (fun y (y' : Address × Tree) => Commented s s' kept y y'.2)
      (Text.baseSite? x) (Text.baseSite? x') := by
  have hfirst : ∀ z z' : Address × Tree, Commented s s' kept z z'.2 →
      Option.Rel (fun y (y' : Address × Tree) => Commented s s' kept y y'.2)
        (partSites z).head? (partSites z').head? :=
    fun z z' hzz' => rel_head? (hzz'.parts.imp fun _ _ hyy' => hyy'.2)
  have hextended : ∀ z z' : Address × Tree, Commented s s' kept z z'.2 →
      Option.Rel (fun y (y' : Address × Tree) => Commented s s' kept y y'.2)
        (Text.extendedSite? z) (Text.extendedSite? z') := by
    intro z z' hzz'
    unfold Text.extendedSite?
    rw [hzz'.kind_eq]
    split
    · exact hzz'.field "value"
    · split
      · exact .none
      · exact .some hzz'
  refine rel_bind (rel_find? (h.parts.imp fun _ _ hyy' => hyy'.2) fun y y' hyy' => ?_)
    fun heritage heritage' hheritage => rel_bind (hfirst _ _ hheritage)
      fun first first' hfirst' => rel_bind (hextended _ _ hfirst') fun base base' hbase => ?_
  · rw [hyy'.kind_eq]
  · rw [hbase.kind_eq]
    split
    · exact hfirst _ _ hbase
    · exact .some hbase

theorem shownBase_eq (h : Commented s s' kept x x'.2)
    (hkept : ∀ y ∈ Text.shownSites x, kept y.1) : shownBase s' x'.2 = shownBase s x.2 := by
  unfold Text.shownSites at hkept
  unfold shownBase
  rw [h.kind_eq]
  split at hkept
  · next hclass =>
    rw [if_pos hclass, if_pos hclass, h.map_field_eq "name" fun n hn n' hnn' =>
      hnn'.of_eq (hkept n (Option.mem_toList.2 hn))]
  · next hclass => rw [if_neg hclass, if_neg hclass, h.of_eq (hkept x List.mem_cons_self)]

theorem baseName_eq (h : Commented s s' kept x x'.2)
    (hkept : ∀ b ∈ Text.baseSite? x, ∀ y ∈ Text.shownSites b, kept y.1) :
    s'.baseName x'.2 = s.baseName x.2 := by
  rw [Text.baseName_eq_map, Text.baseName_eq_map]
  exact map_eq_of_rel h.base fun b hb b' hbb' => hbb'.shownBase_eq (hkept b hb)

/-! ## Classes -/

/-- A class is read as the same declaration if what it shows is kept. -/
theorem classDecl_eq (h : Commented s s' kept x x'.2) (hkept : ∀ y ∈ s.copiedSites x, kept y.1) :
    s'.classDecl x'.2 = s.classDecl x.2 := by
  obtain ⟨⟨⟨hname, hbase⟩, hnames⟩, hsignatures⟩ := by
    simpa only [Text.copiedSites, List.forall_mem_append] using hkept
  have hclassName : (x'.2.field? "name").map s'.of = (x.2.field? "name").map s.of :=
    h.map_field_eq "name" fun n hn n' hnn' => hnn'.of_eq (hname n (Option.mem_toList.2 hn))
  have hbaseName : s'.baseName x'.2 = s.baseName x.2 :=
    h.baseName_eq fun b hb y hy =>
      hbase y (List.mem_flatMap_of_mem (Option.mem_toList.2 hb) hy)
  have hmethods : (s'.methodNodes x'.2).map s'.method = (s.methodNodes x.2).map s.method := by
    refine h.methods_eq (fun body hbody m hm n hn => hnames n ?_)
      fun m hm y hy => hsignatures y (List.mem_flatMap_of_mem hm hy)
    exact List.mem_flatMap_of_mem (List.mem_flatMap_of_mem (Option.mem_toList.2 hbody) hm)
      (Option.mem_toList.2 hn)
  rw [Text.classDecl, Text.classDecl, hclassName, hbaseName, hmethods]

end Commented

namespace Tree

theorem collectClasses_append (l m : List Tree) :
    collectClasses (l ++ m) = collectClasses l ++ collectClasses m := by
  induction l using collectClasses.induct with
  | case1 => rw [collectClasses, List.nil_append, List.nil_append]
  | case2 t l hclass ih =>
    rw [List.cons_append, collectClasses, collectClasses, if_pos hclass, if_pos hclass,
      ← List.append_assoc, ih, List.cons_append]
  | case3 t l hclass ih =>
    rw [List.cons_append, collectClasses, collectClasses, if_neg hclass, if_neg hclass,
      ← List.append_assoc, ih]

theorem collectClasses_eq_flatMap (l : List Tree) : collectClasses l = l.flatMap classes := by
  induction l with
  | nil => rw [collectClasses, List.flatMap_nil]
  | cons t l ih =>
    rw [← List.singleton_append, collectClasses_append, ih, List.flatMap_append,
      List.flatMap_singleton]
    rfl

/-- The classes of a tree: it itself if it is one, and those of its named children. -/
theorem classes_cons (t : Tree) : t.classes =
    (if classKinds.contains t.kind then [t] else []) ++ t.namedChildren.flatMap classes := by
  rw [classes, collectClasses, List.append_nil, collectClasses_eq_flatMap]
  split <;> rfl

/-- The same with what is read off a class, which its tokens have none of. -/
theorem map_classes_cons {α : Type} (f : Tree → α) (t : Tree) : t.classes.map f =
    (if classKinds.contains t.kind then [f t] else []) ++
      t.children.flatMap fun c => if c.isNamed then c.classes.map f else [] := by
  have hnamed : ∀ cs : List Tree, ((cs.filter (·.isNamed)).flatMap classes).map f =
      cs.flatMap fun c => if c.isNamed then c.classes.map f else [] := by
    intro cs
    induction cs with
    | nil => rfl
    | cons c cs ih =>
      rw [List.flatMap_cons, ← ih]
      cases hc : c.isNamed with
      | true => rw [List.filter_cons_of_pos hc, List.flatMap_cons, List.map_append, if_pos rfl]
      | false => rw [List.filter_cons_of_neg (by simp [hc]), if_neg (by simp), List.nil_append]
  rw [classes_cons, List.map_append, namedChildren, hnamed]
  split <;> rfl

end Tree

theorem IsInserted.classes_eq {c : Tree} (h : IsInserted c) : c.classes = [] := by
  rw [classes_cons, namedChildren, h.2.1, h.1.2.1]
  rfl

namespace Commented

variable {s s' : Text} {kept : Address → Prop} {x x' : Address × Tree}

/-- The walk meets the same classes if what each of them shows is kept. -/
theorem classes_eq (h : Commented s s' kept x x'.2)
    (hkept : ∀ b n, x.2.at? b = some n → classKinds.contains n.kind = true →
      ∀ y ∈ s.copiedSites (x.1 ++ b, n), kept y.1) :
    x'.2.classes.map s'.classDecl = x.2.classes.map s.classDecl := by
  obtain ⟨a, t⟩ := x
  -- from the children to the node; what a class below it shows is kept at a longer address
  induction t using ofChildren generalizing a x' with
  | step info cs ih =>
    obtain ⟨ds, hds, hstrewn⟩ := h.children
    have hself : (if classKinds.contains x'.2.kind then [s'.classDecl x'.2] else []) =
        if classKinds.contains (Tree.node info cs).kind then
          [s.classDecl (Tree.node info cs)] else [] := by
      rw [h.kind_eq]
      split
      · next hclass =>
        have hsites := hkept [] _ rfl hclass
        rw [List.append_nil] at hsites
        rw [h.classDecl_eq hsites]
      · rfl
    have hbelow : (ds.map fun d => if d.isNamed then d.classes.map s'.classDecl else []) =
        cs.map fun c => if c.isNamed then c.classes.map s.classDecl else [] := by
      have hchildren : (childSites (a, Tree.node info cs)).map Prod.snd = cs :=
        map_snd_childSites (a, Tree.node info cs)
      refine (map_eq_of_forall₂ hds fun y d hyd => ?_).trans
        ((List.map_map ..).symm.trans (congrArg _ hchildren))
      obtain ⟨hy, hyd⟩ := hyd
      obtain ⟨i, haddress, hget⟩ := mem_childSites.1 hy
      have hyd : Commented s s' kept y (y.1, d).2 := hyd
      have hnamed : d.isNamed = y.2.isNamed := hyd.isNamed_eq
      have hclasses : d.classes.map s'.classDecl = y.2.classes.map s.classDecl := by
        refine ih y.2 (List.mem_of_getElem? hget) y.1 hyd fun b n hn hclass => ?_
        have hat : (Tree.node info cs).at? (i :: b) = some n := by
          rw [at?_cons, hget]
          exact hn
        rw [haddress, List.append_assoc]
        exact hkept (i :: b) n hat hclass
      rw [Function.comp_apply, hnamed, hclasses]
    rw [map_classes_cons, map_classes_cons, hself,
      hstrewn.flatMap_eq fun c hc => by rw [hc.classes_eq, List.map_nil, ite_self]]
    exact congrArg (_ ++ List.flatten ·) hbelow

/-- Comments bring no fault into a tree. -/
theorem sound (h : Commented s s' kept x x'.2) (hsound : ∀ n ∈ x.2.preorder, n.isFault = false) :
    ∀ n ∈ x'.2.preorder, n.isFault = false := by
  obtain ⟨a, t⟩ := x
  induction t using ofChildren generalizing a x' with
  | step info cs ih =>
    obtain ⟨ds, hds, hstrewn⟩ := h.children
    intro n hn
    rw [preorder_eq, List.mem_cons, List.mem_flatMap] at hn
    rcases hn with rfl | ⟨c, hc, hn⟩
    · rw [h.isFault_eq]
      exact hsound _ (self_mem_preorder _)
    · rcases hstrewn.mem hc with hd | hinserted
      · obtain ⟨y, hy, hyc⟩ := exists_of_mem_right hds hd
        obtain ⟨i, -, hget⟩ := mem_childSites.1 hy
        have hchild : y.2 ∈ cs := List.mem_of_getElem? hget
        have hyc : Commented s s' kept y (y.1, c).2 := hyc
        exact ih y.2 hchild y.1 hyc
          (fun m hm => hsound m (mem_preorder_of_mem_children hchild hm)) n hn
      · rw [preorder_eq, hinserted.2.1, List.flatMap_nil, List.mem_singleton] at hn
        rw [hn]
        exact hinserted.2.2

end Commented

/-- **Comments are inert.** Comments that are put into a tree without faults, but not where text is
shown, leave its model as it is: the same classes in their order, each with its name, its base, and
its methods with their parameters and what they return. -/
theorem model_commented {s s' : Text} {t t' : Tree} (hsound : ∀ n ∈ t.preorder, n.isFault = false)
    (h : Commented s s' (s.Copied t) ([], t) t') :
    t'.classes.map s'.classDecl = t.classes.map s.classDecl ∧
      ∃ m, t.model s = .ok m ∧ t'.model s' = .ok m := by
  have h' : Commented s s' (s.Copied t) ([], t) (([] : Address), t').2 := h
  have hclasses : t'.classes.map s'.classDecl = t.classes.map s.classDecl := by
    refine h'.classes_eq fun b n hn hclass y hy => ?_
    exact ⟨(b, n), mem_nodes.2 hn, hclass, List.mem_map_of_mem hy⟩
  have hmodel : ∀ (s : Text) (t : Tree), (∀ n ∈ t.preorder, n.isFault = false) →
      t.model s = .ok (s.model t) := by
    intro s t hsound
    rw [Tree.model, (firstError_eq_none_iff (flagged_of_sound hsound)).2 hsound]
  refine ⟨hclasses, s.model t, hmodel s t hsound, ?_⟩
  rw [hmodel s' t' (h'.sound hsound), Text.model, Text.model, hclasses]

/-! ## A class with comments everywhere -/

def bareText : Text :=
  ⟨"class A extends B \x7b m(x: T) \x7b return; \x7d \x7d".toList.toArray⟩

def notedText : Text :=
  ⟨("class A extends /**/ B \x7b m(/**/ x: /**/ T) " ++
    "\x7b return /**/; \x7d \x7d").toList.toArray⟩

def note (start : Nat) : Tree := branch "comment" [] start (start + 4) []

def bareHeritage : Tree :=
  branch "class_heritage" [] 8 17 [
    branch "extends_clause" [] 8 17 [
      token "extends" 8 15, branch "identifier" ["value"] 16 17 []]]

def notedHeritage : Tree :=
  branch "class_heritage" [] 8 22 [
    branch "extends_clause" [] 8 22 [
      token "extends" 8 15, note 16, branch "identifier" ["value"] 21 22 []]]

def bareParameters : Tree :=
  branch "formal_parameters" ["parameters"] 21 27 [
    token "(" 21 22,
    branch "required_parameter" [] 22 26 [
      branch "identifier" ["pattern"] 22 23 [],
      branch "type_annotation" ["type"] 23 26 [
        token ":" 23 24, branch "type_identifier" [] 25 26 []]],
    token ")" 26 27]

def notedParameters : Tree :=
  branch "formal_parameters" ["parameters"] 26 42 [
    token "(" 26 27,
    note 27,
    branch "required_parameter" [] 32 41 [
      branch "identifier" ["pattern"] 32 33 [],
      branch "type_annotation" ["type"] 33 41 [
        token ":" 33 34, note 35, branch "type_identifier" [] 40 41 []]],
    token ")" 41 42]

def bareBlock : Tree :=
  branch "statement_block" ["body"] 28 39 [
    token "\x7b" 28 29,
    branch "return_statement" [] 30 37 [token "return" 30 36, token ";" 36 37],
    token "\x7d" 38 39]

def notedBlock : Tree :=
  branch "statement_block" ["body"] 43 59 [
    token "\x7b" 43 44,
    branch "return_statement" [] 45 57 [token "return" 45 51, note 52, token ";" 56 57],
    token "\x7d" 58 59]

/-- The tree of `bareText`. -/
def bareTree : Tree :=
  branch "class_declaration" [] 0 41 [
    token "class" 0 5, branch "type_identifier" ["name"] 6 7 [], bareHeritage,
    branch "class_body" ["body"] 18 41 [
      token "\x7b" 18 19,
      branch "method_definition" [] 20 39 [
        branch "property_identifier" ["name"] 20 21 [], bareParameters, bareBlock],
      token "\x7d" 40 41]]

/-- The tree of `notedText`. -/
def notedTree : Tree :=
  branch "class_declaration" [] 0 61 [
    token "class" 0 5, branch "type_identifier" ["name"] 6 7 [], notedHeritage,
    branch "class_body" ["body"] 23 61 [
      token "\x7b" 23 24,
      branch "method_definition" [] 25 59 [
        branch "property_identifier" ["name"] 25 26 [], notedParameters, notedBlock],
      token "\x7d" 60 61]]

/-- The two trees from an address on. -/
abbrev Noted (a : Address) (t t' : Tree) : Prop :=
  Commented bareText notedText (bareText.Copied bareTree) (a, t) t'

/-- Where the leaves stand in the first text, and where in the second. -/
def notedPlaces : List (Nat × Nat × Nat × Nat) :=
  [(0, 5, 0, 5), (6, 7, 6, 7), (8, 15, 8, 15), (16, 17, 21, 22), (18, 19, 23, 24),
    (20, 21, 25, 26), (21, 22, 26, 27), (22, 23, 32, 33), (23, 24, 33, 34), (25, 26, 40, 41),
    (26, 27, 41, 42), (28, 29, 43, 44), (30, 36, 45, 51), (36, 37, 56, 57), (38, 39, 58, 59),
    (40, 41, 60, 61)]

theorem noted_leaf {a : Address} {i i' : Node} (h : i.IsMoved i' ∧
    (i.start.offset, i.stop, i'.start.offset, i'.stop) ∈ notedPlaces) :
    Noted a (.node i []) (.node i' []) := by
  have htexts : ∀ p ∈ notedPlaces, notedText.chars.extract p.2.2.1 p.2.2.2 =
      bareText.chars.extract p.1 p.2.1 := by decide +kernel
  refine .moved (.node h.1 ?_ .nil)
  exact congrArg (fun cs : Array Char => String.ofList cs.toList) (htexts _ h.2)

/-- Its name, its base, the name of the method, the pattern and the type of its parameter. -/
theorem mem_of_copied {a : Address} (h : bareText.Copied bareTree a) :
    a ∈ [[1], [2, 0, 1], [3, 1, 0], [3, 1, 1, 1, 0], [3, 1, 1, 1, 1, 1]] := by
  have hall : ∀ c ∈ bareTree.nodes, classKinds.contains c.2.kind = true →
      ∀ b ∈ (bareText.copiedSites c).map Prod.fst,
        b ∈ [[1], [2, 0, 1], [3, 1, 0], [3, 1, 1, 1, 0], [3, 1, 1, 1, 1, 1]] := by
    decide +kernel
  obtain ⟨c, hc, hclass, ha⟩ := h
  exact hall c hc hclass a ha

theorem not_copied {a : Address}
    (h : a ∉ [[1], [2, 0, 1], [3, 1, 0], [3, 1, 1, 1, 0], [3, 1, 1, 1, 1, 1]]) :
    ¬ bareText.Copied bareTree a :=
  mt mem_of_copied h

theorem noted_heritage : Noted [2] bareHeritage notedHeritage := by
  have hclause : Noted [2, 0]
      (branch "extends_clause" [] 8 17 [
        token "extends" 8 15, branch "identifier" ["value"] 16 17 []])
      (branch "extends_clause" [] 8 22 [
        token "extends" 8 15, note 16, branch "identifier" ["value"] 21 22 []]) :=
    .entered (not_copied (by decide)) rfl
      (.cons (noted_leaf (by decide)) (.cons (noted_leaf (by decide)) .nil))
      (.part (.aside (by decide) (.part .nil)))
  exact .entered (not_copied (by decide)) rfl (.cons hclause .nil) (.part .nil)

theorem noted_parameters : Noted [3, 1, 1] bareParameters notedParameters := by
  have htype : Noted [3, 1, 1, 1, 1]
      (branch "type_annotation" ["type"] 23 26 [
        token ":" 23 24, branch "type_identifier" [] 25 26 []])
      (branch "type_annotation" ["type"] 33 41 [
        token ":" 33 34, note 35, branch "type_identifier" [] 40 41 []]) :=
    .entered (not_copied (by decide)) rfl
      (.cons (noted_leaf (by decide)) (.cons (noted_leaf (by decide)) .nil))
      (.part (.aside (by decide) (.part .nil)))
  have hparameter : Noted [3, 1, 1, 1]
      (branch "required_parameter" [] 22 26 [
        branch "identifier" ["pattern"] 22 23 [],
        branch "type_annotation" ["type"] 23 26 [
          token ":" 23 24, branch "type_identifier" [] 25 26 []]])
      (branch "required_parameter" [] 32 41 [
        branch "identifier" ["pattern"] 32 33 [],
        branch "type_annotation" ["type"] 33 41 [
          token ":" 33 34, note 35, branch "type_identifier" [] 40 41 []]]) :=
    .entered (not_copied (by decide)) rfl
      (.cons (noted_leaf (by decide)) (.cons htype .nil)) (.part (.part .nil))
  exact .entered (not_copied (by decide)) rfl
    (.cons (noted_leaf (by decide))
      (.cons hparameter (.cons (noted_leaf (by decide)) .nil)))
    (.part (.aside (by decide) (.part (.part .nil))))

theorem noted_block : Noted [3, 1, 2] bareBlock notedBlock := by
  have hreturn : Noted [3, 1, 2, 1]
      (branch "return_statement" [] 30 37 [token "return" 30 36, token ";" 36 37])
      (branch "return_statement" [] 45 57 [token "return" 45 51, note 52, token ";" 56 57]) :=
    .entered (not_copied (by decide)) rfl
      (.cons (noted_leaf (by decide)) (.cons (noted_leaf (by decide)) .nil))
      (.part (.aside (by decide) (.part .nil)))
  exact .entered (not_copied (by decide)) rfl
    (.cons (noted_leaf (by decide))
      (.cons hreturn (.cons (noted_leaf (by decide)) .nil)))
    (.part (.part (.part .nil)))

theorem noted_tree : Noted [] bareTree notedTree := by
  have hmethod : Noted [3, 1]
      (branch "method_definition" [] 20 39 [
        branch "property_identifier" ["name"] 20 21 [], bareParameters, bareBlock])
      (branch "method_definition" [] 25 59 [
        branch "property_identifier" ["name"] 25 26 [], notedParameters, notedBlock]) :=
    .entered (not_copied (by decide)) rfl
      (.cons (noted_leaf (by decide)) (.cons noted_parameters (.cons noted_block .nil)))
      (.part (.part (.part .nil)))
  have hbody : Noted [3]
      (branch "class_body" ["body"] 18 41 [
        token "\x7b" 18 19,
        branch "method_definition" [] 20 39 [
          branch "property_identifier" ["name"] 20 21 [], bareParameters, bareBlock],
        token "\x7d" 40 41])
      (branch "class_body" ["body"] 23 61 [
        token "\x7b" 23 24,
        branch "method_definition" [] 25 59 [
          branch "property_identifier" ["name"] 25 26 [], notedParameters, notedBlock],
        token "\x7d" 60 61]) :=
    .entered (not_copied (by decide)) rfl
      (.cons (noted_leaf (by decide))
        (.cons hmethod (.cons (noted_leaf (by decide)) .nil)))
      (.part (.part (.part .nil)))
  exact .entered (not_copied (by decide)) rfl
    (.cons (noted_leaf (by decide)) (.cons (noted_leaf (by decide))
      (.cons noted_heritage (.cons hbody .nil))))
    (.part (.part (.part (.part .nil))))

theorem model_commented_notedTree :
    (∀ n ∈ bareTree.preorder, n.isFault = false) ∧ Noted [] bareTree notedTree ∧
      notedText.classDecl notedTree = ⟨some "A", some "B", [⟨"m", [⟨"x", some "T"⟩], "void"⟩]⟩ ∧
      ∃ m, bareTree.model bareText = .ok m ∧ notedTree.model notedText = .ok m := by
  have hsound : ∀ n ∈ bareTree.preorder, n.isFault = false := by decide +kernel
  have hmodel := (model_commented hsound noted_tree).2
  exact ⟨hsound, noted_tree, by decide +kernel, hmodel⟩

end ClassAtlas.Syntax
