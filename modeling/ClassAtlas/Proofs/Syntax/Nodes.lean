import ClassAtlas.Syntax.Tree

/-!
# The nodes of a syntax tree

`preorder` lists the nodes of a tree, each before those below it and siblings in their order. Two
nodes of a tree may be equal as trees, so `nodes` tells them apart by their addresses: an address
names the child to take at each level, and the node there is `at?` (`mem_nodes`). In the order of
the addresses a node comes before those below it and those behind it, so the list is in strict
order (`nodes_pairwise`).
-/
namespace ClassAtlas.Syntax

/-- The child to take at each level, from the root down. -/
abbrev Address := List Nat

namespace Tree

/-- A token on the first line. -/
def token (kind : String) (start stop : Nat) : Tree :=
  .node ⟨kind, false, [], ⟨start, 0, start⟩, stop, false, false, false⟩ []

/-- A named node on the first line, with the fields it fills. -/
def branch (kind : String) (fields : List String) (start stop : Nat) (children : List Tree) :
    Tree :=
  .node ⟨kind, true, fields, ⟨start, 0, start⟩, stop, false, false, false⟩ children

/-- Induction from the children of a node to the node. -/
@[elab_as_elim]
theorem ofChildren {motive : Tree → Prop}
    (step : ∀ info cs, (∀ c ∈ cs, motive c) → motive (.node info cs)) : ∀ t, motive t
  | .node info cs => step info cs fun c hc =>
    have := List.sizeOf_lt_of_mem hc
    ofChildren step c
termination_by t => sizeOf t
decreasing_by
  simp only [node.sizeOf_spec]
  omega

/-- The node at an address. -/
def at? : Tree → Address → Option Tree
  | t, [] => some t
  | t, i :: a => t.children[i]?.bind fun c => c.at? a

@[simp] theorem at?_nil (t : Tree) : t.at? [] = some t := rfl

theorem at?_cons (t : Tree) (i : Nat) (a : Address) :
    t.at? (i :: a) = t.children[i]?.bind (·.at? a) := rfl

theorem at?_append (t : Tree) (a b : Address) : t.at? (a ++ b) = (t.at? a).bind (·.at? b) := by
  induction a generalizing t with
  | nil => rfl
  | cons i a ih =>
    rw [List.cons_append, at?_cons, at?_cons]
    cases t.children[i]? with
    | none => rfl
    | some c => exact ih c

mutual

/-- The nodes of a tree, each before those below it. -/
def preorder : Tree → List Tree
  | node info cs => node info cs :: preorderAll cs

def preorderAll : List Tree → List Tree
  | [] => []
  | c :: cs => c.preorder ++ preorderAll cs

end

theorem preorderAll_eq (cs : List Tree) : preorderAll cs = cs.flatMap preorder := by
  induction cs with
  | nil => rfl
  | cons c cs ih => rw [preorderAll, ih, List.flatMap_cons]

theorem preorder_eq (t : Tree) : t.preorder = t :: t.children.flatMap preorder := by
  cases t
  rw [preorder, preorderAll_eq]
  rfl

theorem self_mem_preorder (t : Tree) : t ∈ t.preorder := by
  rw [preorder_eq]
  exact List.mem_cons_self

theorem mem_preorder_of_mem_children {t c n : Tree} (hc : c ∈ t.children) (hn : n ∈ c.preorder) :
    n ∈ t.preorder := by
  rw [preorder_eq]
  exact List.mem_cons_of_mem _ (List.mem_flatMap_of_mem hc hn)

mutual

/-- The nodes of a tree with their addresses, each before those below it. -/
def nodes : Tree → List (Address × Tree)
  | node info cs => ([], node info cs) :: nodesFrom 0 cs

/-- The nodes of the children from the one with number `k` on. -/
def nodesFrom : Nat → List Tree → List (Address × Tree)
  | _, [] => []
  | k, c :: cs => c.nodes.map (fun n => (k :: n.1, n.2)) ++ nodesFrom (k + 1) cs

end

theorem nodes_eq (t : Tree) : t.nodes = ([], t) :: nodesFrom 0 t.children := by
  cases t
  rfl

theorem mem_nodesFrom {k : Nat} {cs : List Tree} {a : Address} {n : Tree} :
    (a, n) ∈ nodesFrom k cs ↔ ∃ i c b, cs[i]? = some c ∧ a = (k + i) :: b ∧ (b, n) ∈ c.nodes := by
  induction cs generalizing k with
  | nil => simp [nodesFrom]
  | cons c cs ih =>
    rw [nodesFrom, List.mem_append, List.mem_map, ih]
    constructor
    · rintro (⟨⟨b, m⟩, hm, heq⟩ | ⟨i, d, b, hd, ha, hb⟩)
      · cases heq
        exact ⟨0, c, b, rfl, rfl, hm⟩
      · exact ⟨i + 1, d, b, hd, by rw [ha, Nat.add_assoc, Nat.add_comm 1 i], hb⟩
    · rintro ⟨i, d, b, hd, ha, hb⟩
      cases i with
      | zero =>
        cases hd
        exact .inl ⟨(b, n), hb, by rw [ha]; rfl⟩
      | succ i =>
        exact .inr ⟨i, d, b, hd, by rw [ha, Nat.add_assoc, Nat.add_comm 1 i], hb⟩

/-- The nodes are what stands at the addresses. -/
theorem mem_nodes {t : Tree} {a : Address} {n : Tree} : (a, n) ∈ t.nodes ↔ t.at? a = some n := by
  induction a generalizing t with
  | nil =>
    rw [nodes_eq, List.mem_cons, mem_nodesFrom, at?_nil, Option.some.injEq]
    constructor
    · rintro (h | ⟨i, c, b, -, h, -⟩)
      · exact (Prod.mk.inj h).2.symm
      · cases h
    · rintro rfl
      exact .inl rfl
  | cons i a ih =>
    rw [nodes_eq, List.mem_cons, mem_nodesFrom, at?_cons, Option.bind_eq_some_iff]
    constructor
    · rintro (h | ⟨j, c, b, hc, h, hb⟩)
      · cases h
      · rw [Nat.zero_add] at h
        cases h
        exact ⟨c, hc, ih.1 hb⟩
    · rintro ⟨c, hc, ha⟩
      exact .inr ⟨i, c, a, hc, by rw [Nat.zero_add], ih.2 ha⟩

theorem map_snd_nodesFrom {k : Nat} {cs : List Tree}
    (h : ∀ c ∈ cs, c.nodes.map Prod.snd = c.preorder) :
    (nodesFrom k cs).map Prod.snd = preorderAll cs := by
  induction cs generalizing k with
  | nil => rfl
  | cons c cs ih =>
    rw [nodesFrom, List.map_append, List.map_map, preorderAll,
      ih fun d hd => h d (List.mem_cons_of_mem _ hd), ← h c List.mem_cons_self]
    rfl

theorem map_snd_nodes (t : Tree) : t.nodes.map Prod.snd = t.preorder := by
  induction t using ofChildren with
  | step info cs ih => rw [nodes, preorder, List.map_cons, map_snd_nodesFrom ih]

theorem mem_preorder {t n : Tree} : n ∈ t.preorder ↔ ∃ a, t.at? a = some n := by
  rw [← map_snd_nodes, List.mem_map]
  constructor
  · rintro ⟨⟨a, m⟩, hm, rfl⟩
    exact ⟨a, mem_nodes.1 hm⟩
  · rintro ⟨a, ha⟩
    exact ⟨(a, n), mem_nodes.2 ha, rfl⟩

theorem nodesFrom_pairwise {k : Nat} {cs : List Tree}
    (h : ∀ c ∈ cs, (c.nodes.map Prod.fst).Pairwise (· < ·)) :
    ((nodesFrom k cs).map Prod.fst).Pairwise (· < ·) := by
  induction cs generalizing k with
  | nil => exact List.Pairwise.nil
  | cons c cs ih =>
    rw [nodesFrom, List.map_append, List.map_map, List.pairwise_append]
    refine ⟨?_, ih fun d hd => h d (List.mem_cons_of_mem _ hd), ?_⟩
    · have hc := h c List.mem_cons_self
      rw [List.pairwise_map] at hc ⊢
      exact hc.imp fun hlt => List.cons_lt_cons_self.2 hlt
    · -- what stands in a later child has a later number in front
      intro a ha b hb
      obtain ⟨_, -, rfl⟩ := List.mem_map.1 ha
      obtain ⟨n, hn, rfl⟩ := List.mem_map.1 hb
      obtain ⟨i, d, b, -, hnumber, -⟩ := mem_nodesFrom.1 hn
      rw [hnumber]
      exact List.Lex.rel (by omega)

/-- The addresses of the nodes are in strict order. -/
theorem nodes_pairwise (t : Tree) : (t.nodes.map Prod.fst).Pairwise (· < ·) := by
  induction t using ofChildren with
  | step info cs ih =>
    rw [nodes, List.map_cons, List.pairwise_cons]
    refine ⟨?_, nodesFrom_pairwise ih⟩
    intro a ha
    obtain ⟨n, hn, rfl⟩ := List.mem_map.1 ha
    obtain ⟨i, d, b, -, hnumber, -⟩ := mem_nodesFrom.1 hn
    rw [hnumber]
    exact List.Lex.nil

end Tree
end ClassAtlas.Syntax
