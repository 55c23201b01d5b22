import ClassAtlas.Files.Walk
import ClassAtlas.Proofs.Path
import Mathlib.Data.List.Induction
import Mathlib.Data.List.Sort
import Mathlib.Data.String.Basic

/-!
# What a walk meets

On a disk whose entries form a tree a walk meets exactly the regular files below its start that have
no hidden name and no skipped directory above them (`mem_filesBelow`): not to enter a directory
never hides a file that is wanted. It gives them in the order of their names, component by component
(`filesBelow_pairwise`).

A list in strict order is determined by its members, so what a walk gives does not depend on the
order in which the disk keeps its entries (`walkFrom_reorder`).
-/
namespace ClassAtlas.Files.Disk

/-- The entries of a disk form a tree: no two stand at one location, each stands in a directory, and
each has a name of its own there. -/
structure IsTree (d : Disk) : Prop where
  distinct : (d.nodes.map (·.1)).Nodup
  rooted : ∀ e ∈ d.nodes, d.isDirectoryAt e.1.dropLast = true
  named : ∀ e ∈ d.nodes, ∀ name ∈ e.1, IsName name

instance (d : Disk) : Decidable d.IsTree :=
  decidable_of_iff ((d.nodes.map (·.1)).Nodup ∧
      (∀ e ∈ d.nodes, d.isDirectoryAt e.1.dropLast = true) ∧
      ∀ e ∈ d.nodes, ∀ name ∈ e.1, IsName name)
    ⟨fun h => ⟨h.1, h.2.1, h.2.2⟩, fun h => ⟨h.1, h.2, h.3⟩⟩

variable {d d' : Disk} {skipped : List String} {at_ below : Location}

/-! ## Look-ups -/

theorem node?_eq_some_iff (h : (d.nodes.map (·.1)).Nodup) {l : Location} (hl : l ≠ [])
    {n : Node} : d.node? l = some n ↔ (l, n) ∈ d.nodes := by
  constructor
  · intro hn
    exact (mem_nodes_of_node? hn).resolve_left fun he => hl he.1
  · intro hmem
    obtain ⟨m, hm⟩ : ∃ m, d.node? l = some m := by
      unfold node?
      rw [if_neg (by simpa using hl), ← Option.isSome_iff_exists, Option.isSome_map,
        List.find?_isSome]
      exact ⟨(l, n), hmem, beq_self_eq_true l⟩
    have hmem' : (l, m) ∈ d.nodes := (mem_nodes_of_node? hm).resolve_left fun he => hl he.1
    have heq : (l, m) = (l, n) := List.inj_on_of_nodup_map h hmem' hmem rfl
    rw [hm, (Prod.mk.inj heq).2]

theorem isDirectoryAt_iff {l : Location} :
    d.isDirectoryAt l = true ↔ d.node? l = some .directory := by
  unfold isDirectoryAt
  cases d.node? l with
  | none => simp
  | some n => cases n <;> simp [Node.isDirectory]

/-- What stands above an entry is a directory. -/
theorem directory_of_above (h : d.IsTree) {l m : Location} {n : Node} (hm : m ≠ [])
    (hn : (l ++ m, n) ∈ d.nodes) : d.node? l = some .directory := by
  induction m using List.reverseRecOn generalizing n with
  | nil => exact absurd rfl hm
  | append_singleton m name ih =>
    rw [← List.append_assoc] at hn
    have hdir := isDirectoryAt_iff.1 (h.rooted _ hn)
    rw [List.dropLast_concat] at hdir
    by_cases hm : m = []
    · rwa [hm, List.append_nil] at hdir
    · have hne : l ++ m ≠ [] := by simp [hm]
      exact ih hm ((node?_eq_some_iff h.distinct hne).1 hdir)

/-! ## Which files are met -/

/-- What a walk gives for an entry of a directory. -/
def filesOf (d : Disk) (skipped : List String) (at_ : Location) (e : String × Node) :
    List Location :=
  if isHiddenName e.1 then []
  else
    match e.2 with
    | .file _ => [[e.1]]
    | .link _ => []
    | .directory =>
      if skipped.contains e.1 then []
      else (d.filesBelow skipped (at_ ++ [e.1])).map (e.1 :: ·)

theorem filesBelow_eq (d : Disk) (skipped : List String) (at_ : Location) :
    d.filesBelow skipped at_ = (d.sortedEntries at_).flatMap (d.filesOf skipped at_) := by
  rw [filesBelow]
  refine (List.flatMap_subtype (g := d.filesOf skipped at_) ?_).trans ?_
  · rintro ⟨name, n⟩ h
    cases n <;> rfl
  · rw [List.unattach_attach]

theorem mem_filesOf {e : String × Node} : below ∈ d.filesOf skipped at_ e ↔
    isHiddenName e.1 = false ∧ ((∃ content, e.2 = .file content ∧ below = [e.1]) ∨
      e.2 = .directory ∧ e.1 ∉ skipped ∧
        ∃ rest ∈ d.filesBelow skipped (at_ ++ [e.1]), below = e.1 :: rest) := by
  obtain ⟨name, n⟩ := e
  unfold filesOf
  cases hname : isHiddenName name with
  | true => simp
  | false =>
    cases n with
    | file content => simp
    | link target => simp
    | directory =>
      by_cases hs : name ∈ skipped
      · simp [hs]
      · simp [hs, eq_comm]

theorem exists_of_mem_filesOf {e : String × Node} (h : below ∈ d.filesOf skipped at_ e) :
    ∃ rest, below = e.1 :: rest := by
  obtain ⟨-, ⟨content, -, hbelow⟩ | ⟨-, -, rest, -, hbelow⟩⟩ := mem_filesOf.1 h
  · exact ⟨[], hbelow⟩
  · exact ⟨rest, hbelow⟩

/-- A walk meets the regular files with no hidden name and no skipped directory above them. -/
theorem mem_filesBelow (h : d.IsTree) : below ∈ d.filesBelow skipped at_ ↔
    below ≠ [] ∧ (∃ content, (at_ ++ below, .file content) ∈ d.nodes) ∧
      (∀ name ∈ below, isHiddenName name = false) ∧ ∀ name ∈ below.dropLast, name ∉ skipped := by
  induction below generalizing at_ with
  | nil =>
    simp only [ne_eq, not_true_eq_false, false_and, iff_false]
    rw [filesBelow_eq, List.mem_flatMap]
    rintro ⟨e, -, he⟩
    obtain ⟨rest, hbelow⟩ := exists_of_mem_filesOf he
    cases hbelow
  | cons name rest ih =>
    rw [filesBelow_eq, List.mem_flatMap]
    constructor
    · rintro ⟨⟨s, n⟩, hmem, he⟩
      obtain ⟨hs, ⟨content, hn, hbelow⟩ | ⟨hn, hskip, rest', hrest, hbelow⟩⟩ := mem_filesOf.1 he
      · cases hbelow
        cases hn
        exact ⟨List.cons_ne_nil _ _, ⟨content, mem_sortedEntries.1 hmem⟩, by simpa using hs,
          by simp⟩
      · cases hbelow
        obtain ⟨hne, hfile, hhidden, hskipped⟩ := ih.1 hrest
        refine ⟨List.cons_ne_nil _ _, ?_, ?_, ?_⟩
        · simpa using hfile
        · simpa [hs] using hhidden
        · rw [List.dropLast_cons_of_ne_nil hne]
          simpa [hskip] using hskipped
    · rintro ⟨-, ⟨content, hfile⟩, hhidden, hskipped⟩
      have hs : isHiddenName name = false := hhidden name List.mem_cons_self
      by_cases hrest : rest = []
      · subst hrest
        exact ⟨(name, .file content), mem_sortedEntries.2 hfile,
          mem_filesOf.2 ⟨hs, Or.inl ⟨content, rfl, rfl⟩⟩⟩
      · -- the walk comes to the file by way of a directory that it enters
        have hsplit : at_ ++ name :: rest = at_ ++ [name] ++ rest := by simp
        rw [hsplit] at hfile
        have hdir : (at_ ++ [name], Node.directory) ∈ d.nodes :=
          (node?_eq_some_iff h.distinct (by simp)).1 (directory_of_above h hrest hfile)
        rw [List.dropLast_cons_of_ne_nil hrest] at hskipped
        refine ⟨(name, .directory), mem_sortedEntries.2 hdir, mem_filesOf.2
          ⟨hs, Or.inr ⟨rfl, hskipped name List.mem_cons_self, rest, ih.2 ?_, rfl⟩⟩⟩
        exact ⟨hrest, ⟨content, hfile⟩, fun s hs => hhidden s (List.mem_cons_of_mem _ hs),
          fun s hs => hskipped s (List.mem_cons_of_mem _ hs)⟩

/-! ## In which order -/

theorem entries_nodup (h : d.IsTree) (at_ : Location) : ((d.entries at_).map (·.1)).Nodup := by
  refine List.pairwise_map.2 (List.pairwise_filterMap.2 ((List.pairwise_map.1 h.distinct).imp ?_))
  rintro ⟨l, m⟩ ⟨l', m'⟩ hne ⟨name, n⟩ hn ⟨name', n'⟩ hn' rfl
  exact hne ((entryIn?_eq_some_iff.1 hn).1.trans (entryIn?_eq_some_iff.1 hn').1.symm)

theorem sortedEntries_pairwise (h : d.IsTree) (at_ : Location) :
    (d.sortedEntries at_).Pairwise fun a b => a.1 < b.1 := by
  have hle : (d.sortedEntries at_).Pairwise fun a b => a.1 ≤ b.1 := by
    refine (List.pairwise_mergeSort ?_ ?_ (d.entries at_)).imp fun hab => of_decide_eq_true hab
    · intro a b c hab hbc
      exact decide_eq_true ((of_decide_eq_true hab).trans (of_decide_eq_true hbc))
    · intro a b
      simpa using le_total a.1 b.1
  have hne : ((d.sortedEntries at_).map (·.1)).Nodup :=
    ((List.mergeSort_perm _ _).map _).nodup_iff.2 (entries_nodup h at_)
  exact (hle.and (List.pairwise_map.1 hne)).imp fun hab => lt_of_le_of_ne hab.1 hab.2

/-- The files come in strict order, name by name. -/
theorem filesBelow_pairwise (h : d.IsTree) (skipped : List String) (at_ : Location) :
    (d.filesBelow skipped at_).Pairwise (· < ·) := by
  induction hk : d.height - at_.length using Nat.strong_induction_on generalizing at_ with
  | _ k ih =>
    rw [filesBelow_eq, List.pairwise_flatMap]
    refine ⟨?_, (sortedEntries_pairwise h at_).imp ?_⟩
    · rintro ⟨name, n⟩ hmem
      have hlength : (at_ ++ [name]).length ≤ d.height :=
        length_le_height (mem_sortedEntries.1 hmem)
      rw [List.length_append, List.length_singleton] at hlength
      have hbelow := ih (d.height - (at_ ++ [name]).length) (by simp; omega) (at_ ++ [name]) rfl
      unfold filesOf
      split
      · exact List.Pairwise.nil
      · cases n with
        | file content => exact List.pairwise_singleton _ _
        | link target => exact List.Pairwise.nil
        | directory =>
          simp only
          split
          · exact List.Pairwise.nil
          · refine List.pairwise_map.2 (hbelow.imp fun hlt => ?_)
            exact List.cons_lt_cons_iff.2 (Or.inr ⟨rfl, hlt⟩)
    · intro a b hab x hx y hy
      obtain ⟨xs, rfl⟩ := exists_of_mem_filesOf hx
      obtain ⟨ys, rfl⟩ := exists_of_mem_filesOf hy
      exact List.cons_lt_cons_iff.2 (Or.inl hab)

/-! ## From a path -/

section

variable {root : FilePath}

theorem mem_walkFrom (h : d.IsTree) : below ∈ d.walkFrom root skipped ↔
    root.isStandardInput = false ∧ below ≠ [] ∧
      (∃ top content, d.locate root true = .ok top ∧
        d.node? (top ++ below) = some (.file content)) ∧
      (∀ name ∈ below, isHiddenName name = false) ∧ ∀ name ∈ below.dropLast, name ∉ skipped := by
  cases hinput : root.isStandardInput with
  | true => simp [walkFrom_of_isStandardInput d hinput]
  | false =>
    rw [eq_self, true_and, walkFrom, if_neg (by simp [hinput])]
    cases hroot : d.locate root true with
    | error f => simp
    | ok top =>
      by_cases hbelow : below = []
      · have hnil : [] ∉ d.filesBelow skipped top := fun hmem => ((mem_filesBelow h).1 hmem).1 rfl
        subst hbelow
        simp only [ne_eq, not_true_eq_false, false_and, iff_false]
        split
        · exact hnil
        · exact List.not_mem_nil
      · have hne : top ++ below ≠ [] := by simp [hbelow]
        simp only [Except.ok.injEq, exists_and_left, exists_eq_left',
          node?_eq_some_iff h.distinct hne]
        rw [← mem_filesBelow h]
        constructor
        · intro hmem
          split at hmem
          · exact hmem
          · cases hmem
        · intro hmem
          obtain ⟨-, ⟨content, hfile⟩, -⟩ := (mem_filesBelow h).1 hmem
          have hdir := isDirectoryAt_iff.2 (directory_of_above h hbelow hfile)
          rwa [if_pos hdir]

theorem walkFrom_pairwise (h : d.IsTree) (root : FilePath) (skipped : List String) :
    (d.walkFrom root skipped).Pairwise (· < ·) := by
  unfold walkFrom
  split
  · exact List.Pairwise.nil
  · split
    · split
      · exact filesBelow_pairwise h skipped _
      · exact List.Pairwise.nil
    · exact List.Pairwise.nil

theorem isName_of_mem_walkFrom (h : d.IsTree) (hmem : below ∈ d.walkFrom root skipped) :
    ∀ name ∈ below, IsName name := by
  obtain ⟨-, hne, ⟨top, content, -, hfile⟩, -⟩ := (mem_walkFrom h).1 hmem
  have hnode := (node?_eq_some_iff h.distinct (by simp [hne])).1 hfile
  exact fun name hname => h.named _ hnode name (List.mem_append_right _ hname)

end

/-! ## Whatever order the disk keeps -/

/-- Two disks with the same entries in some other order. -/
structure Reordered (d d' : Disk) : Prop where
  nodes : d.nodes.Perm d'.nodes
  cwd : d.cwd = d'.cwd

namespace Reordered

theorem node?_eq (hp : Reordered d d') (h : (d.nodes.map (·.1)).Nodup) (l : Location) :
    d'.node? l = d.node? l := by
  by_cases hl : l = []
  · rw [hl]
    rfl
  · ext n
    rw [node?_eq_some_iff h hl, node?_eq_some_iff ((hp.nodes.map _).nodup_iff.1 h) hl,
      hp.nodes.mem_iff]

theorem isDirectoryAt_eq (hp : Reordered d d') (h : (d.nodes.map (·.1)).Nodup) (l : Location) :
    d'.isDirectoryAt l = d.isDirectoryAt l := by
  unfold isDirectoryAt
  rw [hp.node?_eq h]

theorem isTree (hp : Reordered d d') (h : d.IsTree) : d'.IsTree where
  distinct := (hp.nodes.map _).nodup_iff.1 h.distinct
  rooted e he := (hp.isDirectoryAt_eq h.distinct _).trans (h.rooted e (hp.nodes.mem_iff.2 he))
  named e he := h.named e (hp.nodes.mem_iff.2 he)

theorem walk_eq (hp : Reordered d d') (h : d.IsTree) (follow : Bool) (links : Nat) (at_ : Location)
    (segments : List String) :
    d'.walk follow links at_ segments = d.walk follow links at_ segments := by
  have hnode := hp.node?_eq h.distinct
  have hdir := hp.isDirectoryAt_eq h.distinct
  fun_induction walk d follow links at_ segments <;> rw [walk] <;> simp +zetaDelta [*]
  case case9 ih => exact ih

theorem locate_eq (hp : Reordered d d') (h : d.IsTree) (p : FilePath) (follow : Bool) :
    d'.locate p follow = d.locate p follow := by
  unfold locate startOf
  rw [hp.cwd]
  split
  · rfl
  · exact hp.walk_eq h _ _ _ _

theorem readText_eq (hp : Reordered d d') (h : d.IsTree) (p : FilePath) :
    d'.readText p = d.readText p := by
  unfold readText read find
  rw [hp.locate_eq h]
  simp only [hp.node?_eq h.distinct]

theorem filesBelow_eq (hp : Reordered d d') (h : d.IsTree) (skipped : List String)
    (at_ : Location) : d'.filesBelow skipped at_ = d.filesBelow skipped at_ := by
  refine (filesBelow_pairwise (hp.isTree h) skipped at_).eq_of_mem_iff
    (filesBelow_pairwise h skipped at_) fun below => ?_
  rw [mem_filesBelow h, mem_filesBelow (hp.isTree h)]
  simp only [hp.nodes.mem_iff]

theorem walkFrom_eq (hp : Reordered d d') (h : d.IsTree) (root : FilePath)
    (skipped : List String) : d'.walkFrom root skipped = d.walkFrom root skipped := by
  unfold walkFrom
  rw [hp.locate_eq h]
  simp only [hp.isDirectoryAt_eq h.distinct, hp.filesBelow_eq h]

end Reordered

end ClassAtlas.Files.Disk
