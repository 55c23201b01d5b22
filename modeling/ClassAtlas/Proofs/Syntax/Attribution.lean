import ClassAtlas.Proofs.Syntax.Faults
import Mathlib.Data.List.Nodup

/-!
# Classes and the methods attributed to them

The walk with its own stack finds the class nodes of a tree in pre-order (`collectClasses_eq`). It
goes through named nodes only and so relies on tokens: nothing named stands in one (`WellFormed`).

A class is a node at an address, `classSites` are all of them, and `methodSites` are the members
that are listed for one, at their addresses too. Each of these is a child of the class's own body
(`isMemberOf_of_mem`), two levels below the class, so that its address gives its class away: in the
lists of all classes together no member stands twice (`listed_nodup`). The model has one entry
for each class node, in their order, with the methods at these places (`model_attributed`).
-/
namespace ClassAtlas.Syntax

namespace Tree

variable {t : Tree}

/-- A named node of one of the three kinds of class; the word `class` is no such node. -/
def isClass (n : Tree) : Bool :=
  n.isNamed && (n.kind == "class_declaration" || n.kind == "abstract_class_declaration" ||
    n.kind == "class")

/-- No named node stands in a token. -/
def TokensPlain (t : Tree) : Prop :=
  ∀ n ∈ t.preorder, n.isNamed = false → ∀ m ∈ n.preorder, m.isNamed = false

/-- What a parser hands over: a named node at the root, and tokens with nothing named in them. -/
structure WellFormed (t : Tree) : Prop where
  named : t.isNamed = true
  tokens : t.TokensPlain

instance (t : Tree) : Decidable t.WellFormed :=
  decidable_of_iff (t.isNamed = true ∧
      ∀ n ∈ t.preorder, n.isNamed = false → ∀ m ∈ n.preorder, m.isNamed = false)
    ⟨fun h => ⟨h.1, h.2⟩, fun h => ⟨h.1, h.2⟩⟩

theorem WellFormed.child {c : Tree} (h : t.WellFormed) (hc : c ∈ t.namedChildren) :
    c.WellFormed := by
  obtain ⟨hchild, hnamed⟩ := List.mem_filter.1 hc
  exact ⟨hnamed, fun n hn => h.tokens n (mem_preorder_of_mem_children hchild hn)⟩

/-! ## The walk -/

theorem isClass_eq (h : t.isNamed = true) : t.isClass = classKinds.contains t.kind := by
  simp only [isClass, h, Bool.true_and, classKinds, List.contains_cons, List.contains_nil,
    Bool.or_false, Bool.or_assoc]

/-- There is no class in a token. -/
theorem filter_isClass_of_token (h : t.TokensPlain) (ht : t.isNamed = false) :
    t.preorder.filter isClass = [] := by
  rw [List.filter_eq_nil_iff]
  intro m hm
  simp [isClass, h t t.self_mem_preorder ht m hm]

theorem filter_isClass_flatMap {cs : List Tree} (h : ∀ c ∈ cs, c.TokensPlain) :
    (cs.flatMap preorder).filter isClass =
      ((cs.filter (·.isNamed)).flatMap preorder).filter isClass := by
  induction cs with
  | nil => rfl
  | cons c cs ih =>
    rw [List.flatMap_cons, List.filter_append, ih fun d hd => h d (List.mem_cons_of_mem _ hd)]
    cases hnamed : c.isNamed with
    | true => rw [List.filter_cons_of_pos hnamed, List.flatMap_cons, List.filter_append]
    | false =>
      rw [List.filter_cons_of_neg (by simp [hnamed]),
        filter_isClass_of_token (h c List.mem_cons_self) hnamed, List.nil_append]

theorem filter_isClass_preorder (h : t.TokensPlain) :
    t.preorder.filter isClass =
      [t].filter isClass ++ (t.namedChildren.flatMap preorder).filter isClass := by
  rw [preorder_eq, ← List.singleton_append, List.filter_append, namedChildren,
    filter_isClass_flatMap fun c hc n hn => h n (mem_preorder_of_mem_children hc hn)]

theorem collectClasses_cons {stack : List Tree} (h : t.isNamed = true) :
    collectClasses (t :: stack) =
      [t].filter isClass ++ collectClasses (t.namedChildren ++ stack) := by
  rw [collectClasses, ← isClass_eq h]
  cases hclass : t.isClass with
  | true => rw [List.filter_cons_of_pos hclass, List.filter_nil]; rfl
  | false => rw [List.filter_cons_of_neg (by simp [hclass]), List.filter_nil]; rfl

/-- The stack holds what is still to be listed, in the order in which it will be. -/
theorem collectClasses_eq {stack : List Tree} (h : ∀ t ∈ stack, t.WellFormed) :
    collectClasses stack = (stack.flatMap preorder).filter isClass := by
  have hstep : ∀ (t : Tree) (rest : List Tree), (∀ u ∈ t :: rest, WellFormed u) →
      ((∀ u ∈ t.namedChildren ++ rest, WellFormed u) → collectClasses (t.namedChildren ++ rest) =
        ((t.namedChildren ++ rest).flatMap preorder).filter isClass) →
      collectClasses (t :: rest) = ((t :: rest).flatMap preorder).filter isClass := by
    intro t rest h ih
    obtain ⟨ht, hrest⟩ := List.forall_mem_cons.1 h
    have hnext : ∀ u ∈ t.namedChildren ++ rest, WellFormed u :=
      List.forall_mem_append.2 ⟨fun c hc => ht.child hc, hrest⟩
    rw [collectClasses_cons ht.named, ih hnext, List.flatMap_append, List.filter_append,
      List.flatMap_cons, List.filter_append, filter_isClass_preorder ht.tokens, List.append_assoc]
  induction stack using collectClasses.induct with
  | case1 => rw [collectClasses]; rfl
  | case2 t rest hclass ih => exact hstep t rest h ih
  | case3 t rest hclass ih => exact hstep t rest h ih

theorem classes_eq (h : t.WellFormed) : t.classes = t.preorder.filter isClass := by
  rw [classes, collectClasses_eq fun c hc => List.eq_of_mem_singleton hc ▸ h,
    List.flatMap_singleton]

/-! ## Places -/

/-- The class nodes at their addresses. -/
def classSites (t : Tree) : List (Address × Tree) := t.nodes.filter (·.2.isClass)

theorem map_snd_classSites (t : Tree) : t.classSites.map Prod.snd = t.preorder.filter isClass := by
  rw [classSites, ← map_snd_nodes, List.filter_map]
  rfl

theorem classSites_pairwise (t : Tree) : (t.classSites.map Prod.fst).Pairwise (· < ·) :=
  t.nodes_pairwise.sublist (List.filter_sublist.map _)

theorem mem_classSites {a : Address} {n : Tree} :
    (a, n) ∈ t.classSites ↔ t.at? a = some n ∧ n.isClass = true := by
  rw [classSites, List.mem_filter, mem_nodes]

/-- The children of a node at an address. -/
def childSites (c : Address × Tree) : List (Address × Tree) :=
  c.2.children.zipIdx.map fun x => (c.1 ++ [x.2], x.1)

theorem map_snd_childSites (c : Address × Tree) : (childSites c).map Prod.snd = c.2.children := by
  rw [childSites, List.map_map]
  exact List.zipIdx_map_fst 0 c.2.children

theorem mem_childSites {c x : Address × Tree} :
    x ∈ childSites c ↔ ∃ i, x.1 = c.1 ++ [i] ∧ c.2.children[i]? = some x.2 := by
  rw [childSites, List.mem_map]
  constructor
  · rintro ⟨⟨n, i⟩, hmem, rfl⟩
    exact ⟨i, rfl, List.mem_zipIdx_iff_getElem?.1 hmem⟩
  · obtain ⟨a, n⟩ := x
    rintro ⟨i, rfl, hget⟩
    exact ⟨(n, i), List.mem_zipIdx_iff_getElem?.2 hget, rfl⟩

theorem childSites_nodup (c : Address × Tree) : ((childSites c).map Prod.fst).Nodup := by
  rw [childSites, List.map_map,
    show Prod.fst ∘ (fun x : Tree × Nat => (c.1 ++ [x.2], x.1)) = (c.1 ++ [·]) ∘ Prod.snd from rfl,
    ← List.map_map, List.zipIdx_map_snd]
  exact (List.nodup_range' 1 (by decide)).map fun i j h => by simpa using h

theorem at?_of_mem_childSites {c x : Address × Tree} (hc : t.at? c.1 = some c.2)
    (hx : x ∈ childSites c) : t.at? x.1 = some x.2 := by
  obtain ⟨i, hi, hget⟩ := mem_childSites.1 hx
  rw [hi, at?_append, hc]
  simp [at?_cons, hget]

end Tree

namespace Text

open Syntax.Tree

variable (s : Text)

/-- The names of the methods of a class body that have bodies of their own. -/
def implemented (body : Tree) : List String :=
  ((s.eligibleMembers body).filter (·.kind == "method_definition")).map s.methodName

/-- Whether a child of a class body is a method that the class may list. -/
def isEligible (m : Tree) : Bool :=
  methodKinds.contains m.kind && !s.isConstructor m && !isAccessor m && m.kind != "comment" &&
    m.isNamed

/-- Whether a child of a class body is listed as a method. -/
def isListed (body m : Tree) : Bool :=
  (m.kind != "method_signature" || !(s.implemented body).contains (s.methodName m)) &&
    s.isEligible m

theorem eligibleMembers_eq (body : Tree) :
    s.eligibleMembers body = body.children.filter s.isEligible := by
  rw [eligibleMembers, parts, namedChildren, List.filter_filter, List.filter_filter]
  rfl

theorem methodNodes_eq {c body : Tree} (h : c.field? "body" = some body) :
    s.methodNodes c = body.children.filter (s.isListed body) := by
  simp only [methodNodes, h]
  rw [← implemented, eligibleMembers_eq, List.filter_filter]
  rfl

theorem methodNodes_of_none {c : Tree} (h : c.field? "body" = none) : s.methodNodes c = [] := by
  simp only [methodNodes, h]

/-- The methods listed for the class at an address, at theirs. -/
def methodSites (c : Address × Tree) : List (Address × Tree) :=
  match (childSites c).find? fun x => x.2.info.fields.contains "body" with
  | none => []
  | some body => (childSites body).filter fun m => s.isListed body.2 m.2

/-- What the adapter lists, and the nodes at these places. -/
theorem map_snd_methodSites (c : Address × Tree) :
    (s.methodSites c).map Prod.snd = s.methodNodes c.2 := by
  have hbody : c.2.field? "body" =
      ((childSites c).find? fun x => x.2.info.fields.contains "body").map Prod.snd := by
    rw [field?, ← map_snd_childSites, List.find?_map]
    rfl
  unfold methodSites
  cases hfind : (childSites c).find? fun x => x.2.info.fields.contains "body" with
  | none =>
    rw [hfind] at hbody
    rw [methodNodes_of_none s hbody]
    rfl
  | some body =>
    rw [hfind] at hbody
    rw [methodNodes_eq s hbody, ← map_snd_childSites body, List.filter_map]
    rfl

/-- A member at its place in the body of a class: a named node of one of the three kinds of method,
two levels below the class. -/
structure IsMemberOf (t : Tree) (c m : Address × Tree) : Prop where
  named : m.2.isNamed = true
  kind : m.2.kind = "method_definition" ∨ m.2.kind = "method_signature" ∨
    m.2.kind = "abstract_method_signature"
  /-- It is a child of the class's own body. -/
  place : ∃ i j body, c.2.children[i]? = some body ∧ c.2.field? "body" = some body ∧
    body.children[j]? = some m.2 ∧ m.1 = c.1 ++ [i, j]
  found : t.at? m.1 = some m.2

theorem isMemberOf_of_mem {t : Tree} {c m : Address × Tree} (hc : t.at? c.1 = some c.2)
    (hm : m ∈ s.methodSites c) : IsMemberOf t c m := by
  unfold methodSites at hm
  split at hm
  · cases hm
  · next body hfind =>
    obtain ⟨hm, hlisted⟩ := List.mem_filter.1 hm
    have hbody := List.mem_of_find?_eq_some hfind
    obtain ⟨i, hi, hgeti⟩ := mem_childSites.1 hbody
    obtain ⟨j, hj, hgetj⟩ := mem_childSites.1 hm
    simp only [isListed, isEligible, methodKinds, Bool.and_eq_true, List.contains_cons,
      List.contains_nil, Bool.or_false, Bool.or_eq_true, beq_iff_eq] at hlisted
    obtain ⟨-, ⟨⟨⟨hkind, -⟩, -⟩, -⟩, hnamed⟩ := hlisted
    refine ⟨hnamed, hkind, ⟨i, j, body.2, hgeti, ?_, hgetj, ?_⟩,
      at?_of_mem_childSites (at?_of_mem_childSites hc hbody) hm⟩
    · rw [field?, ← map_snd_childSites, List.find?_map]
      exact congrArg (Option.map Prod.snd) hfind
    · rw [hj, hi, List.append_assoc]
      rfl

theorem methodSites_nodup (c : Address × Tree) : ((s.methodSites c).map Prod.fst).Nodup := by
  unfold methodSites
  split
  · exact List.nodup_nil
  · next body hfind => exact (childSites_nodup body).sublist (List.filter_sublist.map _)

/-- A member's address gives its class away. -/
theorem IsMemberOf.class_eq {t : Tree} {c c' m m' : Address × Tree} (h : IsMemberOf t c m)
    (h' : IsMemberOf t c' m') (heq : m.1 = m'.1) : c.1 = c'.1 := by
  obtain ⟨i, j, -, -, -, -, hm⟩ := h.place
  obtain ⟨i', j', -, -, -, -, hm'⟩ := h'.place
  rw [hm, hm'] at heq
  exact (List.append_inj' heq rfl).1

/-- No member is listed twice, under one class or under two. -/
theorem listed_nodup (t : Tree) : ((t.classSites.flatMap s.methodSites).map Prod.fst).Nodup := by
  rw [List.map_flatMap]
  refine List.pairwise_flatMap.2 ⟨fun c _ => methodSites_nodup s c, ?_⟩
  refine (List.pairwise_map.1 t.classSites_pairwise).imp_of_mem ?_
  rintro c c' hc hc' hlt a ha b hb rfl
  obtain ⟨m, hm, rfl⟩ := List.mem_map.1 ha
  obtain ⟨m', hm', heq⟩ := List.mem_map.1 hb
  have hclass := (isMemberOf_of_mem s (mem_classSites.1 hc).1 hm).class_eq
    (isMemberOf_of_mem s (mem_classSites.1 hc').1 hm') heq.symm
  exact absurd (hclass ▸ hlt) (lt_irrefl _)

theorem classes_model (t : Tree) : (s.model t).classes = t.classes.map fun c =>
    ⟨displayName ((c.field? "name").map s.of),
      (s.methodNodes c).map fun m => (s.method m).signature⟩ := by
  simp only [model, Model.ofClasses, List.map_map]
  refine List.map_congr_left fun c _ => ?_
  simp only [Function.comp_apply, ClassDecl.entry, classDecl, List.map_map]
  rfl

/-- **Classes and their methods.** The class nodes of a tree without faults are found in pre-order,
each once. The model has one entry for each of them, in that order, whose methods are members of
that class's own body; and none of them is listed twice. -/
theorem model_attributed {t : Tree} (ht : t.WellFormed)
    (hsound : ∀ n ∈ t.preorder, n.isFault = false) :
    t.classes = t.preorder.filter isClass ∧ t.classes = t.classSites.map Prod.snd ∧
    (t.classSites.map Prod.fst).Pairwise (· < ·) ∧
    (∀ a n, (a, n) ∈ t.classSites ↔ t.at? a = some n ∧ n.isNamed = true ∧
      (n.kind = "class_declaration" ∨ n.kind = "abstract_class_declaration" ∨
        n.kind = "class")) ∧
    ∃ m, t.model s = .ok m ∧
      m.classes = t.classSites.map (fun c =>
        ⟨displayName ((c.2.field? "name").map s.of),
          (s.methodSites c).map fun k => (s.method k.2).signature⟩) ∧
      (∀ c ∈ t.classSites, ∀ k ∈ s.methodSites c, IsMemberOf t c k) ∧
      ((t.classSites.flatMap s.methodSites).map Prod.fst).Nodup := by
  have hclasses := classes_eq ht
  have hsites : t.classes = t.classSites.map Prod.snd := hclasses.trans t.map_snd_classSites.symm
  refine ⟨hclasses, hsites, t.classSites_pairwise, ?_, s.model t, ?_, ?_, ?_, s.listed_nodup t⟩
  · intro a n
    rw [mem_classSites]
    simp only [isClass, Bool.and_eq_true, Bool.or_eq_true, beq_iff_eq, or_assoc]
  · rw [Tree.model, (firstError_eq_none_iff (flagged_of_sound hsound)).2 hsound]
  · rw [classes_model, hsites, List.map_map]
    refine List.map_congr_left fun c _ => ?_
    rw [Function.comp_apply, ← map_snd_methodSites, List.map_map]
    rfl
  · exact fun c hc k hk => isMemberOf_of_mem s (mem_classSites.1 hc).1 hk

/-! ## A class in a method -/

def nestedText : Text :=
  ⟨("class A \x7b m() \x7b class B \x7b n() \x7b\x7d \x7d " ++
    "return \x7b n() \x7b\x7d \x7d; \x7d \x7d").toList.toArray⟩

/-- The method `n` that begins at an offset, in a class or in an object. -/
def methodAt (start : Nat) (fields : List String) : Tree :=
  branch "method_definition" fields start (start + 6) [
    branch "property_identifier" ["name"] start (start + 1) [],
    branch "formal_parameters" ["parameters"] (start + 1) (start + 3) [
      token "(" (start + 1) (start + 2), token ")" (start + 2) (start + 3)],
    branch "statement_block" ["body"] (start + 4) (start + 6) [
      token "\x7b" (start + 4) (start + 5), token "\x7d" (start + 5) (start + 6)]]

/-- The tree of `nestedText`: the method of `A` holds the class `B` and an object, which both have a
method `n`. -/
def nestedTree : Tree :=
  branch "program" [] 0 57 [
    branch "class_declaration" [] 0 57 [
      token "class" 0 5,
      branch "identifier" ["name"] 6 7 [],
      branch "class_body" ["body"] 8 57 [
        token "\x7b" 8 9,
        branch "method_definition" ["member"] 10 55 [
          branch "property_identifier" ["name"] 10 11 [],
          branch "formal_parameters" ["parameters"] 11 13 [token "(" 11 12, token ")" 12 13],
          branch "statement_block" ["body"] 14 55 [
            token "\x7b" 14 15,
            branch "class_declaration" [] 16 34 [
              token "class" 16 21,
              branch "identifier" ["name"] 22 23 [],
              branch "class_body" ["body"] 24 34 [
                token "\x7b" 24 25, methodAt 26 ["member"], token "\x7d" 33 34]],
            branch "return_statement" [] 35 53 [
              token "return" 35 41,
              branch "object" [] 42 52 [
                token "\x7b" 42 43, methodAt 44 [], token "\x7d" 51 52],
              token ";" 52 53],
            token "\x7d" 54 55]],
        token "\x7d" 56 57]]]

theorem model_nestedTree :
    nestedTree.WellFormed ∧ (∀ n ∈ nestedTree.preorder, n.isFault = false) ∧
      nestedTree.classSites.map Prod.fst = [[0], [0, 2, 1, 2, 1]] ∧
      (nestedTree.classSites.flatMap nestedText.methodSites).map Prod.fst =
        [[0, 2, 1], [0, 2, 1, 2, 1, 2, 1]] ∧
      ∃ m, nestedTree.model nestedText = .ok m ∧
        m.classes.map (fun e => (e.name, e.methods.length)) = [("A", 1), ("B", 1)] := by
  have hformed : nestedTree.WellFormed := by decide +kernel
  have hsound : ∀ n ∈ nestedTree.preorder, n.isFault = false := by decide +kernel
  obtain ⟨-, -, -, -, m, hm, hclasses, -, -⟩ := model_attributed nestedText hformed hsound
  refine ⟨hformed, hsound, by decide +kernel, by decide +kernel, m, hm, ?_⟩
  rw [hclasses]
  decide +kernel

end Text

end ClassAtlas.Syntax
