import ClassAtlas.Proofs.Syntax.Attribution

/-!
# Overloads

A method may stand in a class body several times: as signatures, in front of, behind or between
other members, and once or more with a body of its own. Two filters make the list of methods from
the members. The first leaves accessors and constructors out, so that what is `Eligible` remains.
The second leaves a signature out if an eligible method of its name has a body
(`mem_methodSites_iff`). Since the names are taken after the first filter, an accessor hides no
signature; and since what hides a signature is listed itself, no name is lost (`Collapses.names`).

Members are told apart by their addresses, as two of them may be equal as trees.
-/
namespace ClassAtlas.Syntax

namespace Tree

/-- The first child that fills a field, at its address. -/
def fieldSite? (c : Address × Tree) (name : String) : Option (Address × Tree) :=
  (childSites c).find? fun x => x.2.info.fields.contains name

theorem map_snd_fieldSite? (c : Address × Tree) (name : String) :
    (fieldSite? c name).map Prod.snd = c.2.field? name := by
  rw [field?, ← map_snd_childSites, List.find?_map]
  rfl

end Tree

namespace Text

open Syntax.Tree

variable (s : Text)

/-- A getter, a setter or a constructor. -/
def IsBarred (m : Tree) : Prop :=
  (∃ k ∈ m.children, k.isNamed = false ∧ k.kind ∈ ["get", "set", "static get"]) ∨
    s.methodName m = "constructor"

/-- A member of one of the three kinds of method that is neither an accessor nor a constructor. -/
structure Eligible (m : Tree) : Prop where
  named : m.isNamed = true
  kind : m.kind = "method_definition" ∨ m.kind = "method_signature" ∨
    m.kind = "abstract_method_signature"
  free : ¬ s.IsBarred m

theorem isBarred_iff {m : Tree} :
    s.IsBarred m ↔ isAccessor m = true ∨ s.isConstructor m = true := by
  simp only [IsBarred, isAccessor, hasToken, isConstructor, List.any_eq_true, Bool.and_eq_true,
    Bool.not_eq_true', List.contains_iff_mem, beq_iff_eq]

theorem isEligible_iff {m : Tree} : s.isEligible m = true ↔ s.Eligible m := by
  have hkinds : methodKinds.contains m.kind = true ↔ m.kind = "method_definition" ∨
      m.kind = "method_signature" ∨ m.kind = "abstract_method_signature" := by
    simp only [methodKinds, List.contains_iff_mem, List.mem_cons, List.not_mem_nil, or_false]
  have hfree : ¬ s.IsBarred m ↔ s.isConstructor m = false ∧ isAccessor m = false := by
    rw [isBarred_iff, not_or, Bool.not_eq_true, Bool.not_eq_true, and_comm]
  simp only [isEligible, Bool.and_eq_true, Bool.not_eq_true', bne_iff_ne, hkinds]
  constructor
  · intro h
    obtain ⟨⟨⟨⟨hkind, hconstructor⟩, haccessor⟩, -⟩, hnamed⟩ := h
    exact ⟨hnamed, hkind, hfree.2 ⟨hconstructor, haccessor⟩⟩
  · intro h
    obtain ⟨hconstructor, haccessor⟩ := hfree.1 h.free
    have hcomment : m.kind ≠ "comment" := by
      rcases h.kind with hkind | hkind | hkind <;> rw [hkind] <;> decide
    exact ⟨⟨⟨⟨h.kind, hconstructor⟩, haccessor⟩, hcomment⟩, h.named⟩

instance (m : Tree) : Decidable (s.Eligible m) := decidable_of_iff _ s.isEligible_iff

/-- The members of a class body that may be listed, in the order in which they are declared. -/
def eligibleSites (body : Address × Tree) : List (Address × Tree) :=
  (childSites body).filter fun m => s.Eligible m.2

variable {s} {c body m : Address × Tree}

theorem mem_eligibleSites : m ∈ s.eligibleSites body ↔ m ∈ childSites body ∧ s.Eligible m.2 := by
  rw [eligibleSites, List.mem_filter, decide_eq_true_iff]

theorem eligibleSites_nodup : ((s.eligibleSites body).map Prod.fst).Nodup :=
  (childSites_nodup body).sublist (List.filter_sublist.map _)

/-- A method with a body of its own that may be listed. -/
def Implements (s : Text) (body d : Address × Tree) (name : String) : Prop :=
  d ∈ s.eligibleSites body ∧ d.2.kind = "method_definition" ∧ s.methodName d.2 = name

theorem mem_implemented {name : String} :
    name ∈ s.implemented body.2 ↔ ∃ d, s.Implements body d name := by
  have hmembers : s.eligibleMembers body.2 = (s.eligibleSites body).map Prod.snd := by
    rw [eligibleMembers_eq, ← map_snd_childSites, List.filter_map, eligibleSites]
    refine congrArg (List.map Prod.snd) (List.filter_congr fun m _ => ?_)
    rw [Bool.eq_iff_iff, Function.comp_apply, isEligible_iff, decide_eq_true_iff]
  rw [implemented, hmembers]
  simp only [List.mem_map, List.mem_filter, beq_iff_eq]
  constructor
  · intro h
    obtain ⟨n, ⟨⟨d, hd, rfl⟩, hkind⟩, hname⟩ := h
    exact ⟨d, hd, hkind, hname⟩
  · intro h
    obtain ⟨d, hd, hkind, hname⟩ := h
    exact ⟨d.2, ⟨⟨d, hd, rfl⟩, hkind⟩, hname⟩

theorem methodSites_of_none (h : fieldSite? c "body" = none) : s.methodSites c = [] := by
  unfold fieldSite? at h
  rw [methodSites, h]

theorem methodSites_of_some (h : fieldSite? c "body" = some body) :
    s.methodSites c = (childSites body).filter fun m => s.isListed body.2 m.2 := by
  unfold fieldSite? at h
  rw [methodSites, h]

/-- What is listed: every eligible member but a signature that an eligible method implements. -/
theorem mem_methodSites_iff (h : fieldSite? c "body" = some body) :
    m ∈ s.methodSites c ↔ m ∈ s.eligibleSites body ∧
      (m.2.kind = "method_signature" → ∀ d, ¬ s.Implements body d (s.methodName m.2)) := by
  have hshown : (m.2.kind != "method_signature" ||
      !(s.implemented body.2).contains (s.methodName m.2)) = true ↔
      (m.2.kind = "method_signature" → ∀ d, ¬ s.Implements body d (s.methodName m.2)) := by
    rw [Bool.or_eq_true, bne_iff_ne, Bool.not_eq_true', ← Bool.not_eq_true, List.contains_iff_mem,
      mem_implemented, not_exists, imp_iff_not_or]
  rw [methodSites_of_some h, List.mem_filter, mem_eligibleSites, isListed, Bool.and_eq_true,
    isEligible_iff, hshown, and_assoc, and_comm (b := s.Eligible m.2)]

theorem methodSites_sublist (h : fieldSite? c "body" = some body) :
    (s.methodSites c).Sublist (s.eligibleSites body) := by
  have heligible : (childSites body).filter (fun m => s.isListed body.2 m.2) =
      (s.eligibleSites body).filter fun m => s.isListed body.2 m.2 := by
    rw [eligibleSites, List.filter_filter]
    refine List.filter_congr fun m _ => ?_
    rw [Bool.eq_iff_iff, Bool.and_eq_true, decide_eq_true_iff, ← isEligible_iff]
    refine (and_iff_left_of_imp fun hlisted => ?_).symm
    exact (Bool.and_eq_true _ _ ▸ hlisted : _ ∧ _).2
  rw [methodSites_of_some h, heligible]
  exact List.filter_sublist

theorem count_methodSites (h : m ∈ s.methodSites c) :
    ((s.methodSites c).map Prod.fst).count m.1 = 1 :=
  List.count_eq_one_of_mem (methodSites_nodup s c) (List.mem_map_of_mem h)

/-- How a list of methods comes from the members of a body. -/
structure Collapses (s : Text) (body : Address × Tree) (listed : List (Address × Tree)) :
    Prop where
  /-- The eligible members are members of their own, and those listed keep their order. -/
  distinct : ((s.eligibleSites body).map Prod.fst).Nodup
  order : listed.Sublist (s.eligibleSites body)
  /-- Methods with a body and abstract ones are listed once. -/
  once : ∀ m ∈ s.eligibleSites body, m.2.kind ≠ "method_signature" →
    (listed.map Prod.fst).count m.1 = 1
  /-- A signature is listed once if no eligible method of its name has a body, else not at all. -/
  signature : ∀ m ∈ s.eligibleSites body, m.2.kind = "method_signature" →
    (listed.map Prod.fst).count m.1 =
      if ∃ d ∈ s.eligibleSites body, d.2.kind = "method_definition" ∧
        s.methodName d.2 = s.methodName m.2 then 0 else 1
  names : ∀ m ∈ s.eligibleSites body, ∃ k ∈ listed, s.methodName k.2 = s.methodName m.2
  /-- Accessors and constructors hide no signature. -/
  unhidden : ∀ m ∈ s.eligibleSites body,
    (∀ d ∈ childSites body, d.2.kind = "method_definition" →
      s.methodName d.2 = s.methodName m.2 → s.IsBarred d.2) →
    (listed.map Prod.fst).count m.1 = 1
  /-- A method with the name of a modifier is no accessor for it. -/
  modifierNames : ∀ m ∈ childSites body, m.2.isNamed = true → m.2.kind = "method_definition" →
    s.methodName m.2 ∈ ["get", "set", "async"] →
    (∀ k ∈ m.2.children, k.isNamed = false → k.kind ∉ ["get", "set", "static get"]) →
    (listed.map Prod.fst).count m.1 = 1

theorem collapses_methodSites (h : fieldSite? c "body" = some body) :
    Collapses s body (s.methodSites c) where
  distinct := eligibleSites_nodup
  order := methodSites_sublist h
  once m hm hkind :=
    count_methodSites ((mem_methodSites_iff h).2 ⟨hm, fun hsignature => absurd hsignature hkind⟩)
  signature m hm hkind := by
    split
    · next himplemented =>
      obtain ⟨d, hd⟩ := himplemented
      rw [List.count_eq_zero]
      intro hmem
      obtain ⟨k, hk, heq⟩ := List.mem_map.1 hmem
      have hsame : k = m :=
        List.inj_on_of_nodup_map eligibleSites_nodup ((methodSites_sublist h).mem hk) hm heq
      exact ((mem_methodSites_iff h).1 (hsame ▸ hk)).2 hkind d hd
    · next himplemented =>
      exact count_methodSites ((mem_methodSites_iff h).2
        ⟨hm, fun _ d hd => himplemented ⟨d, hd⟩⟩)
  names m hm := by
    by_cases himplemented : ∃ d, s.Implements body d (s.methodName m.2)
    · -- what hides a signature is listed under its name
      obtain ⟨d, hd, hkind, hname⟩ := himplemented
      refine ⟨d, (mem_methodSites_iff h).2 ⟨hd, fun hsignature => ?_⟩, hname⟩
      rw [hkind] at hsignature
      exact absurd hsignature (by decide)
    · exact ⟨m, (mem_methodSites_iff h).2 ⟨hm, fun _ d hd => himplemented ⟨d, hd⟩⟩, rfl⟩
  unhidden m hm hbarred := by
    refine count_methodSites ((mem_methodSites_iff h).2 ⟨hm, fun _ d hd => ?_⟩)
    obtain ⟨hd, hkind, hname⟩ := hd
    obtain ⟨hchild, heligible⟩ := mem_eligibleSites.1 hd
    exact heligible.free (hbarred d hchild hkind hname)
  modifierNames m hm hnamed hkind hname hunmarked := by
    have hfree : ¬ s.IsBarred m.2 := by
      intro hbarred
      rcases hbarred with ⟨k, hk, htoken, hword⟩ | hconstructor
      · exact hunmarked k hk htoken hword
      · rw [hconstructor] at hname
        exact absurd hname (by decide)
    have heligible : m ∈ s.eligibleSites body :=
      mem_eligibleSites.2 ⟨hm, hnamed, .inl hkind, hfree⟩
    refine count_methodSites ((mem_methodSites_iff h).2 ⟨heligible, fun hsignature => ?_⟩)
    rw [hkind] at hsignature
    exact absurd hsignature (by decide)

/-- **Overloads are listed through their implementation.** The methods of a class are those of the
members of its body that are neither accessors nor constructors, in their order, without the
signatures that one of them implements. -/
theorem methods_collapsed (s : Text) (c : Address × Tree) :
    (s.classDecl c.2).methods = (s.methodSites c).map (fun m => s.method m.2) ∧
    match fieldSite? c "body" with
    | none => s.methodSites c = []
    | some body => Collapses s body (s.methodSites c) := by
  constructor
  · rw [classDecl, ← map_snd_methodSites, List.map_map]
    rfl
  · cases hbody : fieldSite? c "body" with
    | none => exact methodSites_of_none hbody
    | some body => exact collapses_methodSites hbody

/-! ## A class with overloads -/

def overloadText : Text :=
  ⟨("abstract class P \x7b get(); get(k) \x7b\x7d size(); get size() \x7b\x7d " ++
    "abstract run(); run(); constructor(); \x7d").toList.toArray⟩

def noParameters (start : Nat) : Tree :=
  branch "formal_parameters" ["parameters"] start (start + 2) [
    token "(" start (start + 1), token ")" (start + 1) (start + 2)]

def emptyBlock (start : Nat) : Tree :=
  branch "statement_block" ["body"] start (start + 2) [
    token "\x7b" start (start + 1), token "\x7d" (start + 1) (start + 2)]

def signatureAt (start stop : Nat) : Tree :=
  branch "method_signature" [] start (stop + 2) [
    branch "property_identifier" ["name"] start stop [], noParameters stop]

/-- The method named `get`. -/
def getMethod : Tree :=
  branch "method_definition" [] 26 35 [
    branch "property_identifier" ["name"] 26 29 [],
    branch "formal_parameters" ["parameters"] 29 32 [
      token "(" 29 30,
      branch "required_parameter" [] 30 31 [branch "identifier" ["pattern"] 30 31 []],
      token ")" 31 32],
    emptyBlock 33]

/-- The body of `overloadText`: a method named `get` with a signature, a signature with the name of
a getter, and one with the name of an abstract method. -/
def overloadBody : Tree :=
  branch "class_body" ["body"] 17 97 [
    token "\x7b" 17 18,
    signatureAt 19 22, token ";" 24 25,
    getMethod,
    signatureAt 36 40, token ";" 42 43,
    branch "method_definition" [] 44 57 [
      token "get" 44 47, branch "property_identifier" ["name"] 48 52 [], noParameters 52,
      emptyBlock 55],
    branch "abstract_method_signature" [] 58 72 [
      token "abstract" 58 66, branch "property_identifier" ["name"] 67 70 [], noParameters 70],
    token ";" 72 73,
    signatureAt 74 77, token ";" 79 80,
    signatureAt 81 92, token ";" 94 95,
    token "\x7d" 96 97]

def overloadClass : Tree :=
  branch "abstract_class_declaration" [] 0 97 [
    token "abstract" 0 8, token "class" 9 14, branch "type_identifier" ["name"] 15 16 [],
    overloadBody]

theorem methods_collapsed_overloadClass :
    (overloadText.eligibleSites ([0, 3], overloadBody)).map (fun m => overloadText.methodName m.2) =
      ["get", "get", "size", "run", "run"] ∧
    (overloadText.classDecl overloadClass).methods.map MethodDecl.signature =
      ["get(k: any): void", "size(): any", "run(): any", "run(): any"] ∧
    ((overloadText.methodSites ([0], overloadClass)).map Prod.fst).count [0, 3, 1] = 0 ∧
    ((overloadText.methodSites ([0], overloadClass)).map Prod.fst).count [0, 3, 3] = 1 := by
  obtain ⟨hmethods, hcollapses⟩ := methods_collapsed overloadText ([0], overloadClass)
  change Collapses overloadText ([0, 3], overloadBody) _ at hcollapses
  have hsignature : ([0, 3, 1], signatureAt 19 22) ∈
      overloadText.eligibleSites ([0, 3], overloadBody) :=
    mem_eligibleSites.2 ⟨mem_childSites.2 ⟨1, rfl, rfl⟩, by decide +kernel⟩
  have hmethod : ([0, 3, 3], getMethod) ∈ overloadText.eligibleSites ([0, 3], overloadBody) :=
    mem_eligibleSites.2 ⟨mem_childSites.2 ⟨3, rfl, rfl⟩, by decide +kernel⟩
  have hname : overloadText.methodName getMethod = overloadText.methodName (signatureAt 19 22) := by
    decide +kernel
  refine ⟨by decide +kernel, ?_, ?_, ?_⟩
  · rw [hmethods]
    decide +kernel
  · exact (hcollapses.signature _ hsignature rfl).trans (if_pos ⟨_, hmethod, rfl, hname⟩)
  · exact hcollapses.modifierNames _ (mem_eligibleSites.1 hmethod).1 rfl rfl (by decide +kernel)
      (by decide)

end Text

end ClassAtlas.Syntax
