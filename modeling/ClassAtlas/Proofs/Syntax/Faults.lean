import ClassAtlas.Extraction.Extract
import ClassAtlas.Proofs.Syntax.Nodes
import Mathlib.Data.List.Lex

/-!
# The first fault of a tree

An error node or a missing node is a fault. The search for the first one enters a tree only if the
tree's flag is set, so it relies on the flags: a node that is no fault itself has the flag if there
is a fault below it (`Flagged`). Then it gives the first fault of all in pre-order
(`firstError_eq`), and none only where there is none.

A file therefore has one of three outcomes: its bytes are no text, its tree has a fault and the
place of the first one is told, or there is no fault and a model comes of it (`extractBy_exact`).
The reading of the text is a parameter of `extractBy`; `Dialect.extract` reads by its own grammar.
-/
namespace ClassAtlas.Syntax

/-- In a list in strict order, what is found first is the least of what could be found. -/
theorem find?_eq_some_iff_of_pairwise {α : Type} {R : α → α → Prop} {p : α → Bool} {l : List α}
    {x : α} (hasymm : ∀ a b, R a b → ¬ R b a) (h : l.Pairwise R) :
    l.find? p = some x ↔ x ∈ l ∧ p x = true ∧ ∀ y ∈ l, R y x → p y = false := by
  induction l with
  | nil => simp
  | cons a l ih =>
    obtain ⟨ha, hl⟩ := List.pairwise_cons.1 h
    cases hp : p a with
    | true =>
      rw [List.find?_cons_of_pos hp, Option.some.injEq]
      constructor
      · rintro rfl
        refine ⟨List.mem_cons_self, hp, ?_⟩
        intro y hy hlt
        rcases List.mem_cons.1 hy with rfl | hy
        · exact absurd hlt (hasymm _ _ hlt)
        · exact absurd hlt (hasymm _ _ (ha y hy))
      · rintro ⟨hx, -, hbefore⟩
        rcases List.mem_cons.1 hx with rfl | hx
        · rfl
        · have := hbefore a List.mem_cons_self (ha x hx)
          rw [hp] at this
          cases this
    | false =>
      rw [List.find?_cons_of_neg (by simp [hp]), ih hl]
      constructor
      · rintro ⟨hx, hpx, hbefore⟩
        exact ⟨List.mem_cons_of_mem _ hx, hpx, List.forall_mem_cons.2 ⟨fun _ => hp, hbefore⟩⟩
      · rintro ⟨hx, hpx, hbefore⟩
        refine ⟨(List.mem_cons.1 hx).resolve_left ?_, hpx, (List.forall_mem_cons.1 hbefore).2⟩
        rintro rfl
        rw [hp] at hpx
        cases hpx

namespace Tree

/-- A stretch that could not be read, or a token that is not there. -/
def isFault (n : Tree) : Bool := n.info.isError || n.info.isMissing

/-- The flags lead to every fault. -/
def Flagged (t : Tree) : Prop :=
  ∀ n ∈ t.preorder, n.isFault = false → (∃ f ∈ n.preorder, f.isFault = true) →
    n.info.hasError = true

/-- The flags say exactly where faults are. -/
def FlagsExact (t : Tree) : Prop :=
  ∀ n ∈ t.preorder, n.info.hasError = true ↔ ∃ f ∈ n.preorder, f.isFault = true

instance (t : Tree) : Decidable t.Flagged :=
  inferInstanceAs (Decidable (∀ n ∈ t.preorder, n.isFault = false →
    (∃ f ∈ n.preorder, f.isFault = true) → n.info.hasError = true))

instance (t : Tree) : Decidable t.FlagsExact :=
  inferInstanceAs (Decidable (∀ n ∈ t.preorder,
    n.info.hasError = true ↔ ∃ f ∈ n.preorder, f.isFault = true))

theorem FlagsExact.flagged {t : Tree} (h : t.FlagsExact) : t.Flagged :=
  fun n hn _ hf => (h n hn).2 hf

theorem Flagged.child {t c : Tree} (h : t.Flagged) (hc : c ∈ t.children) : c.Flagged :=
  fun n hn => h n (mem_preorder_of_mem_children hc hn)

/-- The fault at an address, all before which is sound. -/
def FirstFault (t : Tree) (a : Address) (n : Tree) : Prop :=
  t.at? a = some n ∧ n.isFault = true ∧ ∀ b m, t.at? b = some m → b < a → m.isFault = false

theorem find?_preorder_of_isFault {t : Tree} (h : t.isFault = true) :
    t.preorder.find? isFault = some t := by
  rw [preorder_eq, List.find?_cons, h]

theorem find?_preorder_of_sound {t : Tree} (h : t.isFault = false) :
    t.preorder.find? isFault = (t.children.flatMap preorder).find? isFault := by
  rw [preorder_eq, List.find?_cons, h]

/-- Leaving out the trees without the flag passes over no fault. -/
theorem firstErrorIn_eq {stack : List Tree} (h : ∀ t ∈ stack, t.Flagged) :
    firstErrorIn stack = (stack.flatMap preorder).find? isFault := by
  fun_induction firstErrorIn stack with
  | case1 => rfl
  | case2 t stack hfault =>
    rw [List.flatMap_cons, List.find?_append, find?_preorder_of_isFault hfault]
    rfl
  | case3 t stack hfault hflag ih =>
    have hsound : t.isFault = false := by simpa [isFault] using hfault
    rw [ih ?_, List.flatMap_append, List.flatMap_cons, List.find?_append, List.find?_append,
      find?_preorder_of_sound hsound]
    intro c hc
    rcases List.mem_append.1 hc with hc | hc
    · exact (h t List.mem_cons_self).child hc
    · exact h c (List.mem_cons_of_mem _ hc)
  | case4 t stack hfault hflag ih =>
    have hsound : t.isFault = false := by simpa [isFault] using hfault
    have hnone : t.preorder.find? isFault = none := by
      rw [List.find?_eq_none]
      intro f hf hfault
      exact hflag (h t List.mem_cons_self t t.self_mem_preorder hsound ⟨f, hf, hfault⟩)
    rw [ih fun c hc => h c (List.mem_cons_of_mem _ hc), List.flatMap_cons, List.find?_append,
      hnone, Option.none_or]

theorem firstError_eq {t : Tree} (h : t.Flagged) : t.firstError = t.preorder.find? isFault := by
  rw [firstError, firstErrorIn_eq fun c hc => List.eq_of_mem_singleton hc ▸ h,
    List.flatMap_singleton]

/-- Where nothing is a fault no flag matters. -/
theorem flagged_of_sound {t : Tree} (h : ∀ n ∈ t.preorder, n.isFault = false) : t.Flagged := by
  rintro n hn - ⟨f, hf, hfault⟩
  obtain ⟨a, ha⟩ := mem_preorder.1 hn
  obtain ⟨b, hb⟩ := mem_preorder.1 hf
  have hmem : f ∈ t.preorder := mem_preorder.2 ⟨a ++ b, by rw [at?_append, ha]; exact hb⟩
  rw [h f hmem] at hfault
  cases hfault

theorem firstError_eq_none_iff {t : Tree} (h : t.Flagged) :
    t.firstError = none ↔ ∀ n ∈ t.preorder, n.isFault = false := by
  rw [firstError_eq h, List.find?_eq_none]
  simp only [Bool.not_eq_true]

/-- The first fault in pre-order is the one with the least address. -/
theorem find?_preorder_eq_some_iff {t n : Tree} :
    t.preorder.find? isFault = some n ↔ ∃ a, t.FirstFault a n := by
  have hfind := fun x => find?_eq_some_iff_of_pairwise (x := x) (p := isFault ∘ Prod.snd)
    (fun _ _ => lt_asymm) (List.pairwise_map.1 t.nodes_pairwise)
  rw [← map_snd_nodes, List.find?_map, Option.map_eq_some_iff]
  constructor
  · rintro ⟨⟨a, m⟩, h, rfl⟩
    obtain ⟨hmem, hfault, hbefore⟩ := (hfind _).1 h
    exact ⟨a, mem_nodes.1 hmem, hfault, fun b k hk hlt => hbefore (b, k) (mem_nodes.2 hk) hlt⟩
  · rintro ⟨a, hat, hfault, hbefore⟩
    refine ⟨(a, n), (hfind _).2 ⟨mem_nodes.2 hat, hfault, ?_⟩, rfl⟩
    rintro ⟨b, k⟩ hk hlt
    exact hbefore b k (mem_nodes.1 hk) hlt

end Tree
end ClassAtlas.Syntax

namespace ClassAtlas

open Syntax

/-! ## The outcome of a file -/

/-- The model of a file's bytes, its text read by `read`. -/
def extractBy (read : String → Tree) (content : ByteArray) : Except ExtractError Model :=
  match String.fromUTF8? content with
  | none => .error .notText
  | some text => (read text).model ⟨text.toList.toArray⟩

theorem Dialect.extract_eq (d : Dialect) (content : ByteArray) :
    d.extract content = extractBy d.tree content := rfl

theorem fromUTF8?_toUTF8 (text : String) : String.fromUTF8? text.toUTF8 = some text := by
  rw [String.toUTF8_eq_toByteArray, String.fromUTF8?, dif_pos text.isValidUTF8]
  rfl

theorem fromUTF8?_eq_none_iff {content : ByteArray} :
    String.fromUTF8? content = none ↔ ¬ ∃ text : String, text.toUTF8 = content := by
  constructor
  · rintro h ⟨text, rfl⟩
    rw [fromUTF8?_toUTF8] at h
    cases h
  · intro h
    unfold String.fromUTF8?
    split
    · next hvalid => exact absurd ⟨String.fromUTF8 content hvalid, rfl⟩ h
    · rfl

theorem extractBy_toUTF8 (read : String → Tree) (text : String) :
    extractBy read text.toUTF8 = (read text).model ⟨text.toList.toArray⟩ := by
  rw [extractBy, fromUTF8?_toUTF8]

theorem extractBy_eq_notText_iff {read : String → Tree} {content : ByteArray} :
    extractBy read content = .error .notText ↔ ¬ ∃ text : String, text.toUTF8 = content := by
  rw [← fromUTF8?_eq_none_iff, extractBy]
  cases String.fromUTF8? content with
  | none => simp
  | some text =>
    simp only [Tree.model, reduceCtorEq, iff_false]
    cases (read text).firstError <;> simp

/-- **Where a file is at fault.** The search finds the first fault of a tree in pre-order, and none
only if there is none. Bytes that are no text are told as such; of a text whose tree has a fault the
place of the first one is told, lines and columns counted from one; every other text has a model. -/
theorem extractBy_exact {read : String → Tree} {content : ByteArray}
    (hread : ∀ text : String, text.toUTF8 = content → (read text).Flagged) :
    (∀ d : Dialect, d.extract content = extractBy d.tree content) ∧
    (extractBy read content = .error .notText ↔ ¬ ∃ text : String, text.toUTF8 = content) ∧
    ∀ text : String, text.toUTF8 = content →
      (read text).firstError = (read text).preorder.find? Tree.isFault ∧
      ((∃ a n, (read text).FirstFault a n ∧ (read text).firstError = some n ∧
          extractBy read content =
            .error (.malformed (n.info.start.row + 1) (n.info.start.column + 1))) ∨
        (∀ n ∈ (read text).preorder, n.isFault = false) ∧ (read text).firstError = none ∧
          extractBy read content = .ok (Text.model ⟨text.toList.toArray⟩ (read text))) := by
  refine ⟨fun d => d.extract_eq content, extractBy_eq_notText_iff, ?_⟩
  rintro text rfl
  have hflagged := hread text rfl
  refine ⟨Tree.firstError_eq hflagged, ?_⟩
  rw [extractBy_toUTF8, Tree.model]
  cases herror : (read text).firstError with
  | none => exact .inr ⟨(Tree.firstError_eq_none_iff hflagged).1 herror, rfl, rfl⟩
  | some n =>
    rw [Tree.firstError_eq hflagged] at herror
    obtain ⟨a, ha⟩ := Tree.find?_preorder_eq_some_iff.1 herror
    exact .inl ⟨a, n, ha, rfl, rfl⟩

/-! ## A file with stray characters -/

def strayText : String := "a;\n #) b ("

/-- The stretch that could not be read. The character that belongs to no token is a fault of its own
in it, and has no flag. -/
def strayError : Tree :=
  .node ⟨"ERROR", true, [], ⟨4, 1, 1⟩, 10, true, false, true⟩ [
    .node ⟨"ERROR", true, [], ⟨4, 1, 1⟩, 5, true, false, false⟩ [],
    .node ⟨")", false, [], ⟨5, 1, 2⟩, 6, false, false, false⟩ [],
    .node ⟨"identifier", true, [], ⟨7, 1, 4⟩, 8, false, false, false⟩ [],
    .node ⟨"(", false, [], ⟨9, 1, 6⟩, 10, false, false, false⟩ []]

/-- The tree of `strayText`. -/
def strayTree : Tree :=
  .node ⟨"program", true, [], ⟨0, 0, 0⟩, 10, false, false, true⟩ [
    .node ⟨"expression_statement", true, [], ⟨0, 0, 0⟩, 2, false, false, false⟩ [
      .node ⟨"identifier", true, [], ⟨0, 0, 0⟩, 1, false, false, false⟩ [],
      .node ⟨";", false, [], ⟨1, 0, 1⟩, 2, false, false, false⟩ []],
    strayError]

/-- The flags lead to the faults, though they are not exact. -/
example : strayTree.Flagged ∧ ¬ strayTree.FlagsExact := by decide

theorem extractBy_strayText :
    (∀ text : String, text.toUTF8 = strayText.toUTF8 → strayTree.Flagged) ∧
      extractBy (fun _ => strayTree) strayText.toUTF8 = .error (.malformed 2 2) := by
  have hflagged : ∀ text : String, text.toUTF8 = strayText.toUTF8 → strayTree.Flagged :=
    fun _ _ => by decide
  refine ⟨hflagged, ?_⟩
  obtain ⟨-, -, hread⟩ := @extractBy_exact (fun _ => strayTree) _ hflagged
  obtain ⟨hfirst, ⟨a, n, -, hn, herror⟩ | ⟨hsound, -⟩⟩ := hread strayText rfl
  · have hfound : strayTree.preorder.find? Tree.isFault = some strayError := rfl
    have heq : n = strayError := Option.some.inj (hn.symm.trans (hfirst.trans hfound))
    rw [herror, heq]
    rfl
  · have hmem : strayError ∈ strayTree.preorder := by
      simp [strayTree, Tree.preorder, Tree.preorderAll, strayError]
    exact absurd (hsound strayError hmem) (by decide)

end ClassAtlas
