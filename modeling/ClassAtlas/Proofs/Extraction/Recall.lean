import ClassAtlas.Proofs.Extraction.Entries
import ClassAtlas.Proofs.Path.Spellings
import Mathlib.Data.Set.Card

/-!
# A cache by the history of its operations

A history is the list of what was asked of a cache that was empty at first. What the cache must
answer then is told by the history alone: `Op.Affects` is about one operation and one path, in
whatever spelling it stands there, and `last?` is the last operation of the history that affected a
path. Nothing is looked up in the entries.

One operation makes the entry of a path what it inserted there, if it affects the path, and leaves
it if it does not (`mem_entries_perform`); so after any history the entries are what was inserted
last (`mem_entries_run`). `Keyed` lets them be counted by paths.

`recalls_last` puts this together with the count of the look-ups that were answered, and with what
it is for two spellings to be of one path.
-/
namespace ClassAtlas.Cache

/-- What can be asked of a cache. -/
inductive Op where
  | insert (p : FilePath) (d : Digest) (m : Model)
  | get (p : FilePath) (d : Digest)
  | remove (p : FilePath)
  | retain (ps : List FilePath)
deriving DecidableEq, Repr, Inhabited

namespace Op

/-- The operation sets or drops the entry of a path: it names the path, in some spelling, or keeps
the entries of other paths alone. -/
def Affects (p : FilePath) : Op → Prop
  | .insert q _ _ | .remove q => q.key = p.key
  | .get _ _ => False
  | .retain qs => ∀ q ∈ qs, q.key ≠ p.key

instance (p : FilePath) : DecidablePred (Affects p)
  | .insert q _ _ | .remove q => inferInstanceAs (Decidable (q.key = p.key))
  | .get _ _ => inferInstanceAs (Decidable False)
  | .retain qs => inferInstanceAs (Decidable (∀ q ∈ qs, q.key ≠ p.key))

end Op

/-- What a cache answers, and the cache after it. Only a look-up answers anything. -/
def perform (c : Cache) : Op → Option Model × Cache
  | .insert p d m => (none, c.insert p d m)
  | .get p d => c.get p d
  | .remove p => (none, c.remove p)
  | .retain ps => (none, c.retain ps)

/-- The cache after a history. -/
def run (ops : List Op) : Cache := ops.foldl (fun c op => (c.perform op).2) empty

/-- What a cache answers to one operation after the other. -/
def replies (c : Cache) : List Op → List (Option Model)
  | [] => []
  | op :: ops => (c.perform op).1 :: replies (c.perform op).2 ops

/-- The last operation of a history that affects a path. -/
def last? (ops : List Op) (p : FilePath) : Option Op := ops.reverse.find? fun op => op.Affects p

theorem run_snoc (ops : List Op) (op : Op) : run (ops ++ [op]) = ((run ops).perform op).2 := by
  simp [run]

theorem last?_snoc (ops : List Op) (op : Op) (p : FilePath) :
    last? (ops ++ [op]) p = if op.Affects p then some op else last? ops p := by
  unfold last?
  rw [List.reverse_concat, List.find?_cons]
  by_cases h : op.Affects p <;> simp [h]

variable {c : Cache}

/-! ## The entries -/

theorem mem_entries_perform (op : Op) (p : FilePath) (d : Digest) (m : Model) :
    ⟨p.key, d, m⟩ ∈ (c.perform op).2.entries ↔
      if op.Affects p then ∃ q, op = .insert q d m else ⟨p.key, d, m⟩ ∈ c.entries := by
  cases op with
  | insert q d' m' =>
    by_cases hq : q.key = p.key
    · simp [perform, mem_insert, Op.Affects, hq, eq_comm]
    · simp [perform, mem_insert, Op.Affects, hq, Ne.symm hq]
  | get q d' => simp [perform, get_entries, Op.Affects]
  | remove q =>
    by_cases hq : q.key = p.key
    · simp [perform, mem_remove, Op.Affects, hq]
    · simp [perform, mem_remove, Op.Affects, hq, Ne.symm hq]
  | retain qs =>
    have haffects : (Op.retain qs).Affects p ↔ p.key ∉ qs.map (·.key) := by simp [Op.Affects]
    by_cases h : (Op.retain qs).Affects p
    · simp [perform, mem_retain, h, haffects.1 h]
    · have hmem : p.key ∈ qs.map (·.key) := not_not.1 fun hnot => h (haffects.2 hnot)
      rw [if_neg h, perform, mem_retain, and_iff_left hmem]

/-- A path has the entry that was inserted last, unless it was dropped since. -/
theorem mem_entries_run {ops : List Op} {p : FilePath} {d : Digest} {m : Model} :
    ⟨p.key, d, m⟩ ∈ (run ops).entries ↔ ∃ q, last? ops p = some (.insert q d m) := by
  induction ops using List.reverseRecOn with
  | nil => simp [run, empty, last?]
  | append_singleton ops op ih =>
    rw [run_snoc, mem_entries_perform, last?_snoc]
    by_cases h : op.Affects p
    · simp [h]
    · simp [h, ih]

/-- Every entry is that of some path, and no path has two. -/
structure Keyed (c : Cache) : Prop where
  distinct : c.Distinct
  spelled : ∀ e ∈ c.entries, ∃ p : FilePath, p.key = e.key

theorem keyed_empty : empty.Keyed := ⟨distinct_empty, fun _ he => absurd he List.not_mem_nil⟩

theorem Keyed.perform (h : c.Keyed) (op : Op) : (c.perform op).2.Keyed := by
  cases op with
  | insert p d m =>
    refine ⟨h.distinct.insert p d m, fun e he => ?_⟩
    rcases mem_insert.1 he with rfl | ⟨he, -⟩
    · exact ⟨p, rfl⟩
    · exact h.spelled e he
  | get p d =>
    have hentries : (c.perform (.get p d)).2.entries = c.entries := get_entries c p d
    refine ⟨?_, ?_⟩
    · unfold Distinct
      rw [hentries]
      exact h.distinct
    · rw [hentries]
      exact h.spelled
  | remove p => exact ⟨h.distinct.remove p, fun e he => h.spelled e (mem_remove.1 he).1⟩
  | retain ps => exact ⟨h.distinct.retain ps, fun e he => h.spelled e (mem_retain.1 he).1⟩

theorem keyed_run (ops : List Op) : (run ops).Keyed := by
  induction ops using List.reverseRecOn with
  | nil => exact keyed_empty
  | append_singleton ops op ih =>
    rw [run_snoc]
    exact ih.perform op

/-- There are as many entries as paths that have one, all spellings of a path being one. -/
theorem Keyed.encard_eq_size (h : c.Keyed) :
    (FilePath.key '' {p | ∃ d m, ⟨p.key, d, m⟩ ∈ c.entries}).encard = c.size := by
  have hkeys : FilePath.key '' {p | ∃ d m, ⟨p.key, d, m⟩ ∈ c.entries} =
      ((c.entries.map (·.key)).toFinset : Set (List Component)) := by
    ext k
    simp only [Set.mem_image, Set.mem_ofPred_eq, List.coe_toFinset, List.mem_map]
    constructor
    · rintro ⟨p, ⟨d, m, he⟩, rfl⟩
      exact ⟨_, he, rfl⟩
    · rintro ⟨e, he, rfl⟩
      obtain ⟨p, hp⟩ := h.spelled e he
      exact ⟨p, ⟨e.digest, e.model, hp ▸ he⟩, hp⟩
  rw [hkeys, Set.encard_coe_eq_coe_finsetCard, List.toFinset_card_of_nodup h.distinct,
    List.length_map, size]

/-! ## Look-ups -/

/-- With another digest a look-up finds nothing, and changes nothing. -/
theorem get_of_ne (h : c.Distinct) {p : FilePath} {d d' : Digest} {m : Model}
    (he : ⟨p.key, d, m⟩ ∈ c.entries) (hd : d' ≠ d) : c.get p d' = (none, c) := by
  have hnone : c.lookup? p d' = none := by
    refine Option.eq_none_iff_forall_ne_some.2 fun m' hm' => hd ?_
    have he' := h.lookup?_eq_some_iff.1 hm'
    exact congrArg CacheEntry.digest (h.eq_of_key he' he rfl)
  unfold get
  rw [hnone]

theorem hits_get (p : FilePath) (d : Digest) :
    (c.get p d).2.hits = c.hits + if (c.get p d).1.isSome then 1 else 0 := by
  unfold get
  cases c.lookup? p d <;> simp

theorem hits_perform (op : Op) :
    (c.perform op).2.hits = c.hits + if (c.perform op).1.isSome then 1 else 0 := by
  cases op with
  | insert p d m => rfl
  | get p d => exact hits_get p d
  | remove p => rfl
  | retain ps => rfl

theorem hits_foldl (ops : List Op) (c : Cache) :
    (ops.foldl (fun c op => (c.perform op).2) c).hits =
      c.hits + (c.replies ops).countP (·.isSome) := by
  induction ops generalizing c with
  | nil => rfl
  | cons op ops ih =>
    rw [List.foldl_cons, ih, hits_perform, replies, List.countP_cons]
    omega

/-- **A cache is a map from paths to what was inserted last.** After any history a look-up answers
the model of a path and a digest exactly if the last operation that affected the path inserted just
these; there are as many entries as different paths for which that operation was an insertion; and
the hits are the look-ups that were answered. A look-up with another digest leaves the cache as it
is. Paths are the same here exactly if they are spellings of each other, and `./` in front makes a
different path, unless a `.` stands in front already. -/
theorem recalls_last (ops : List Op) :
    (∀ p d m, ((run ops).get p d).1 = some m ↔ ∃ q, last? ops p = some (.insert q d m)) ∧
    (FilePath.key '' {p | ∃ q d m, last? ops p = some (.insert q d m)}).encard = (run ops).size ∧
    (run ops).hits = (empty.replies ops).countP (·.isSome) ∧
    (∀ p q d d' m, last? ops p = some (.insert q d m) → d' ≠ d →
      (run ops).get p d' = (none, run ops)) ∧
    (∀ p q : FilePath, p.key = q.key ↔ p.Respelled q) ∧
    ∀ s, (⟨"./" ++ s⟩ : FilePath).key = (⟨s⟩ : FilePath).key ↔ s = "." ∨ ∃ t, s = "./" ++ t := by
  have hkeyed := keyed_run ops
  refine ⟨?_, ?_, ?_, ?_, fun p q => FilePath.key_eq_iff_respelled, FilePath.key_here_append_iff⟩
  · intro p d m
    rw [get_fst, hkeyed.distinct.lookup?_eq_some_iff, mem_entries_run]
  · have hstored : {p : FilePath | ∃ q d m, last? ops p = some (.insert q d m)} =
        {p | ∃ d m, ⟨p.key, d, m⟩ ∈ (run ops).entries} := by
      ext p
      simp only [Set.mem_ofPred_eq, mem_entries_run]
      exact ⟨fun ⟨q, d, m, h⟩ => ⟨d, m, q, h⟩, fun ⟨d, m, q, h⟩ => ⟨q, d, m, h⟩⟩
    rw [hstored, hkeyed.encard_eq_size]
  · exact (hits_foldl ops empty).trans (Nat.zero_add _)
  · intro p q d d' m h hd
    exact get_of_ne hkeyed.distinct (mem_entries_run.2 ⟨q, h⟩) hd

/-- A class in a file. -/
def sampleModel : Model := ⟨[⟨"A", []⟩], []⟩

/-- A path in several spellings, and another one with a `.` in front of it, which is dropped. -/
def sampleOps : List Op :=
  [.insert ⟨"src//a.ts"⟩ (.ofBytes Workbench.oldClass) sampleModel,
    .insert ⟨"./src/a.ts"⟩ (.ofBytes Workbench.newClass) .empty,
    .get ⟨"src/./a.ts"⟩ (.ofBytes Workbench.newClass),
    .retain [⟨"src/a.ts/"⟩, ⟨"b.ts"⟩],
    .get ⟨"src/a.ts/."⟩ (.ofBytes Workbench.oldClass)]

/-- The sample has an entry left, which a look-up with another digest leaves in its place. -/
theorem recalls_last_sampleOps :
    last? sampleOps ⟨"src/a.ts"⟩ =
      some (.insert ⟨"src//a.ts"⟩ (.ofBytes Workbench.oldClass) sampleModel) ∧
    Digest.ofBytes Workbench.newClass ≠ .ofBytes Workbench.oldClass ∧
    (run sampleOps).get ⟨"src/a.ts"⟩ (.ofBytes Workbench.newClass) = (none, run sampleOps) ∧
    ((run sampleOps).get ⟨"src/a.ts"⟩ (.ofBytes Workbench.oldClass)).1 = some sampleModel := by
  have hlast : last? sampleOps ⟨"src/a.ts"⟩ =
      some (.insert ⟨"src//a.ts"⟩ (.ofBytes Workbench.oldClass) sampleModel) := rfl
  have hne : Digest.ofBytes Workbench.newClass ≠ .ofBytes Workbench.oldClass := by decide +kernel
  obtain ⟨hget, -, -, hmiss, -⟩ := recalls_last sampleOps
  exact ⟨hlast, hne, hmiss _ _ _ _ _ hlast hne, (hget _ _ _).2 ⟨_, hlast⟩⟩

end ClassAtlas.Cache
