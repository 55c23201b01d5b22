import ClassAtlas.Proofs.Extraction.Locality
import ClassAtlas.Proofs.Pipeline.Accounting

/-!
# What exactly a cache holds

`Worked` lists what can come of a file and of the cache when a pass works on it; everything below is
derived from it. Working on a file touches the entry of that file alone and leaves one exactly if a
model came of it (`mem_entries_extractFile`), so, as no file stands twice in a project, a pass
leaves what its files leave and nothing else (`mem_entries_extractFiles`), and it is the entries
from before the pass that decide which files are served (`served_eq_filter`).

`Workbench.cache_exact`: take any history of edits and passes. The cache holds what the last pass
that found a project left: one entry for each file that gave a model, with the digest of what was
read. The next pass serves the files that have such an entry with the digest of what is read now,
and counts them. A pass that finds no project changes neither the entries nor the count.

The entries themselves depend on no assumption about digests. That the model of an entry is the one
of the contents read needs `Digest.Separates`, as for a pass after a history.
-/
namespace ClassAtlas

/-! ## Entries -/

namespace Cache

/-- No path has two entries. -/
def Distinct (c : Cache) : Prop := (c.entries.map (·.key)).Nodup

variable {c : Cache}

theorem distinct_empty : empty.Distinct := List.nodup_nil

theorem Distinct.filter (h : c.Distinct) (keep : CacheEntry → Bool) :
    ((c.entries.filter keep).map (·.key)).Nodup :=
  h.sublist (List.filter_sublist.map _)

theorem Distinct.remove (h : c.Distinct) (p : FilePath) : (c.remove p).Distinct := h.filter _

theorem Distinct.retain (h : c.Distinct) (ps : List FilePath) : (c.retain ps).Distinct := h.filter _

theorem mem_remove {p : FilePath} {e : CacheEntry} :
    e ∈ (c.remove p).entries ↔ e ∈ c.entries ∧ e.key ≠ p.key := by
  simp [remove]

theorem mem_insert {p : FilePath} {d : Digest} {m : Model} {e : CacheEntry} :
    e ∈ (c.insert p d m).entries ↔ e = ⟨p.key, d, m⟩ ∨ e ∈ c.entries ∧ e.key ≠ p.key := by
  simp [insert, mem_remove]

theorem mem_retain {ps : List FilePath} {e : CacheEntry} :
    e ∈ (c.retain ps).entries ↔ e ∈ c.entries ∧ e.key ∈ ps.map (·.key) := by
  simp [retain]

theorem Distinct.insert (h : c.Distinct) (p : FilePath) (d : Digest) (m : Model) :
    (c.insert p d m).Distinct := by
  refine List.nodup_cons.2 ⟨?_, h.remove p⟩
  intro hmem
  obtain ⟨e, he, hkey⟩ := List.mem_map.1 hmem
  exact (mem_remove.1 he).2 hkey

/-- The entry of a path is the only one. -/
theorem Distinct.eq_of_key (h : c.Distinct) {e e' : CacheEntry} (he : e ∈ c.entries)
    (he' : e' ∈ c.entries) (hkey : e.key = e'.key) : e = e' :=
  List.inj_on_of_nodup_map h he he' hkey

theorem Distinct.find?_of_mem (h : c.Distinct) {p : FilePath} {e : CacheEntry}
    (he : e ∈ c.entries) (hkey : e.key = p.key) : c.find? p = some e := by
  have hsome : (c.find? p).isSome = true :=
    List.find?_isSome.2 ⟨e, he, beq_iff_eq.2 hkey⟩
  obtain ⟨e', he'⟩ := Option.isSome_iff_exists.1 hsome
  have hkey' : e'.key = p.key := by simpa using List.find?_some he'
  rw [he', h.eq_of_key (List.mem_of_find?_eq_some he') he (hkey'.trans hkey.symm)]

/-- What a look-up answers stands in an entry. -/
theorem Distinct.lookup?_eq_some_iff (h : c.Distinct) {p : FilePath} {d : Digest} {m : Model} :
    c.lookup? p d = some m ↔ ⟨p.key, d, m⟩ ∈ c.entries := by
  constructor
  · intro hl
    obtain ⟨e, he, hkey, hd, hm⟩ := exists_entry_of_lookup? hl
    obtain ⟨key, d', m'⟩ := e
    cases hkey
    cases hd
    cases hm
    exact he
  · intro he
    unfold lookup?
    rw [h.find?_of_mem he rfl]
    exact if_pos (beq_self_eq_true d)

/-- Whether a cache has the model of a file as it stands on a disk. -/
def answers (c : Cache) (disk : Files.Disk) (p : FilePath) : Bool :=
  match disk.read p with
  | .ok content => (c.lookup? p (Digest.ofBytes content)).isSome
  | .error _ => false

theorem Distinct.answers_iff (h : c.Distinct) {disk : Files.Disk} {p : FilePath} :
    c.answers disk p = true ↔
      ∃ content m, disk.read p = .ok content ∧ ⟨p.key, Digest.ofBytes content, m⟩ ∈ c.entries := by
  unfold answers
  cases disk.read p with
  | error f => simp
  | ok content => simp [Option.isSome_iff_exists, h.lookup?_eq_some_iff]

end Cache

namespace Coordinator

variable {disk : Files.Disk} {cache : Cache}

/-! ## Working on a file -/

/-- What can come of a file and of the cache. -/
inductive Worked (disk : Files.Disk) (cache : Cache) (p : FilePath) :
    Except ExtractError Model → Cache → Prop where
  | unreadable {f : Files.Fault} (hread : disk.read p = .error f) :
    Worked disk cache p (.error (.unreadable f)) (cache.remove p)
  | served {content : ByteArray} {m : Model} (hread : disk.read p = .ok content)
      (hlookup : cache.lookup? p (Digest.ofBytes content) = some m) :
    Worked disk cache p (.ok m) { cache with hits := cache.hits + 1 }
  | extracted {content : ByteArray} {m : Model} (hread : disk.read p = .ok content)
      (hlookup : cache.lookup? p (Digest.ofBytes content) = none)
      (hm : extract p content = .ok m) :
    Worked disk cache p (.ok m) (cache.insert p (Digest.ofBytes content) m)
  | malformed {content : ByteArray} {e : ExtractError} (hread : disk.read p = .ok content)
      (hlookup : cache.lookup? p (Digest.ofBytes content) = none)
      (he : extract p content = .error e) :
    Worked disk cache p (.error e) (cache.remove p)

theorem worked_extractFile (disk : Files.Disk) (cache : Cache) (p : FilePath) :
    Worked disk cache p (extractFile disk cache p).1 (extractFile disk cache p).2 := by
  unfold extractFile
  cases hread : disk.read p with
  | error f => exact .unreadable hread
  | ok content =>
    simp only [Cache.get]
    cases hlookup : cache.lookup? p (Digest.ofBytes content) with
    | some m => exact .served hread hlookup
    | none =>
      cases hextract : extract p content with
      | ok m => exact .extracted hread hlookup hextract
      | error e => exact .malformed hread hlookup hextract

theorem Worked.exists_read {p : FilePath} {m : Model} {cache' : Cache}
    (h : Worked disk cache p (.ok m) cache') : ∃ content, disk.read p = .ok content := by
  cases h with
  | served hread _ => exact ⟨_, hread⟩
  | extracted hread _ _ => exact ⟨_, hread⟩

/-- What came of a file left an entry in the cache: it is a model, and the entry has the digest of
what was read. -/
def Leaves (disk : Files.Disk) (r : FilePath × Except ExtractError Model) (e : CacheEntry) : Prop :=
  ∃ content m, disk.read r.1 = .ok content ∧ r.2 = .ok m ∧
    e = ⟨r.1.key, Digest.ofBytes content, m⟩

theorem Leaves.key {r : FilePath × Except ExtractError Model} {e : CacheEntry}
    (h : Leaves disk r e) : e.key = r.1.key := by
  obtain ⟨_, _, _, _, rfl⟩ := h
  rfl

theorem not_leaves_error {p : FilePath} {error : ExtractError} {e : CacheEntry} :
    ¬ Leaves disk (p, .error error) e := by
  rintro ⟨_, _, _, hm, _⟩
  cases hm

theorem leaves_ok_iff {p : FilePath} {content : ByteArray} (hread : disk.read p = .ok content)
    {m : Model} {e : CacheEntry} :
    Leaves disk (p, .ok m) e ↔ e = ⟨p.key, Digest.ofBytes content, m⟩ := by
  constructor
  · rintro ⟨content', m', hread', hm, rfl⟩
    cases hread.symm.trans hread'
    cases hm
    rfl
  · rintro rfl
    exact ⟨content, m, hread, rfl, rfl⟩

/-- A file takes the place of its entry, and no other entry changes. -/
theorem mem_entries_extractFile (hc : cache.Distinct) {p : FilePath} {e : CacheEntry} :
    e ∈ (extractFile disk cache p).2.entries ↔
      e ∈ cache.entries ∧ e.key ≠ p.key ∨ Leaves disk (p, (extractFile disk cache p).1) e := by
  have hworked := worked_extractFile disk cache p
  generalize (extractFile disk cache p).1 = result at hworked ⊢
  generalize (extractFile disk cache p).2 = cache' at hworked ⊢
  cases hworked with
  | unreadable hread => simp [Cache.mem_remove, not_leaves_error]
  | malformed hread hlookup he => simp [Cache.mem_remove, not_leaves_error]
  | extracted hread hlookup hm => rw [Cache.mem_insert, leaves_ok_iff hread, or_comm]
  | @served content m hread hlookup =>
    have hold : ⟨p.key, Digest.ofBytes content, m⟩ ∈ cache.entries :=
      hc.lookup?_eq_some_iff.1 hlookup
    rw [leaves_ok_iff hread]
    constructor
    · intro he
      by_cases hkey : e.key = p.key
      · exact Or.inr (hc.eq_of_key he hold hkey)
      · exact Or.inl ⟨he, hkey⟩
    · rintro (⟨he, -⟩ | rfl)
      · exact he
      · exact hold

theorem distinct_extractFile (hc : cache.Distinct) (p : FilePath) :
    (extractFile disk cache p).2.Distinct := by
  have hworked := worked_extractFile disk cache p
  generalize (extractFile disk cache p).1 = result at hworked
  generalize (extractFile disk cache p).2 = cache' at hworked ⊢
  cases hworked with
  | unreadable hread => exact hc.remove p
  | malformed hread hlookup he => exact hc.remove p
  | extracted hread hlookup hm => exact hc.insert p _ _
  | served hread hlookup => exact hc

theorem hits_extractFile (p : FilePath) :
    (extractFile disk cache p).2.hits = cache.hits + if cache.answers disk p then 1 else 0 := by
  have hworked := worked_extractFile disk cache p
  generalize (extractFile disk cache p).1 = result at hworked
  generalize (extractFile disk cache p).2 = cache' at hworked ⊢
  cases hworked with
  | unreadable hread => simp [Cache.answers, hread, Cache.remove]
  | malformed hread hlookup he => simp [Cache.answers, hread, hlookup, Cache.remove]
  | extracted hread hlookup hm => simp [Cache.answers, hread, hlookup, Cache.insert, Cache.remove]
  | served hread hlookup => simp [Cache.answers, hread, hlookup]

/-- Whether another file is served stays as it was. -/
theorem answers_extractFile (hc : cache.Distinct) {p q : FilePath} (h : q.key ≠ p.key) :
    (extractFile disk cache p).2.answers disk q = cache.answers disk q := by
  refine Bool.eq_iff_iff.2 ?_
  rw [(distinct_extractFile hc p).answers_iff, hc.answers_iff]
  refine exists_congr fun content => exists_congr fun m => and_congr_right fun _ => ?_
  rw [mem_entries_extractFile hc]
  constructor
  · rintro (⟨he, -⟩ | hleft)
    · exact he
    · exact absurd hleft.key h
  · exact fun he => Or.inl ⟨he, h⟩

/-! ## Working through files -/

/-- The files that are served on the way through a list. -/
def served (disk : Files.Disk) : Cache → List FilePath → List FilePath
  | _, [] => []
  | cache, p :: ps =>
    let rest := served disk (extractFile disk cache p).2 ps
    if cache.answers disk p then p :: rest else rest

theorem served_eq_filter {ps : List FilePath} (hc : cache.Distinct)
    (hn : (ps.map (·.key)).Nodup) : served disk cache ps = ps.filter (cache.answers disk) := by
  induction ps generalizing cache with
  | nil => rfl
  | cons p ps ih =>
    obtain ⟨hp, hn⟩ := List.nodup_cons.1 hn
    have hsame : ps.filter ((extractFile disk cache p).2.answers disk) =
        ps.filter (cache.answers disk) := by
      refine List.filter_congr fun q hq => answers_extractFile hc ?_
      intro hkey
      exact hp (List.mem_map.2 ⟨q, hq, hkey⟩)
    rw [served, ih (distinct_extractFile hc p) hn, hsame, List.filter_cons]

theorem hits_extractFiles (ps : List FilePath) (x : Extraction) :
    (extractFiles disk (x, cache) ps).2.hits = cache.hits + (served disk cache ps).length := by
  induction ps generalizing cache x with
  | nil => rfl
  | cons p ps ih =>
    rw [extractFiles, served, ih, hits_extractFile]
    split
    · rw [List.length_cons, Nat.add_assoc, Nat.add_comm 1]
    · rfl

theorem distinct_extractFiles {ps : List FilePath} (x : Extraction) (hc : cache.Distinct) :
    (extractFiles disk (x, cache) ps).2.Distinct := by
  induction ps generalizing cache x with
  | nil => exact hc
  | cons p ps ih => exact ih _ (distinct_extractFile hc p)

/-- Distinct files take the places of their entries, and no other entry changes. -/
theorem mem_entries_extractFiles {ps : List FilePath} (x : Extraction) (hc : cache.Distinct)
    (hn : (ps.map (·.key)).Nodup) {e : CacheEntry} :
    e ∈ (extractFiles disk (x, cache) ps).2.entries ↔
      e ∈ cache.entries ∧ e.key ∉ ps.map (·.key) ∨
      ∃ r ∈ results disk cache ps, Leaves disk r e := by
  induction ps generalizing cache x with
  | nil => simp [extractFiles, results]
  | cons p ps ih =>
    obtain ⟨hp, hn⟩ := List.nodup_cons.1 hn
    have hfirst : Leaves disk (p, (extractFile disk cache p).1) e → e.key ∉ ps.map (·.key) :=
      fun hleft => hleft.key ▸ hp
    rw [extractFiles, results, ih _ (distinct_extractFile hc p) hn, mem_entries_extractFile hc,
      List.map_cons, List.mem_cons, List.exists_mem_cons_iff, not_or, or_and_right, and_assoc,
      and_iff_left_of_imp hfirst, or_assoc]

theorem results_eq {S : ByteArray → Prop} (hS : Digest.Separates S) {ps : List FilePath}
    (hc : cache.Faithful S) (hr : ∀ p ∈ ps, ∀ content, disk.read p = .ok content → S content) :
    results disk cache ps = ps.map fun p => (p, Extraction.fileModel disk p) := by
  induction ps generalizing cache with
  | nil => rfl
  | cons p ps ih =>
    have hp := hr p List.mem_cons_self
    have htail := ih (extractFile_faithful hc hp) fun q hq => hr q (List.mem_cons_of_mem p hq)
    simp only [results, List.map_cons, extractFile_fst hS hc hp, htail]

/-- The files that fail in a pass are those that have no model on the disk. -/
theorem failed_eq {S : ByteArray → Prop} (hS : Digest.Separates S) {c : Coordinator}
    (hc : c.cache.Faithful S) {project : Project}
    (hr : ∀ p ∈ project.files, ∀ content, disk.read p = .ok content → S content) :
    c.failed disk project = (Extraction.reference disk project.files).failures := by
  unfold failed Extraction.reference Extraction.missing
  rw [results_eq hS (hc.retain project.files) hr, List.filterMap_map]
  refine List.filterMap_congr fun p _ => ?_
  show FileFailure.ofResult? (p, Extraction.fileModel disk p) = _
  cases Extraction.fileModel disk p with
  | ok m => rfl
  | error e => rfl

/-- Only what can be read gives a model. -/
theorem exists_read_of_mem_results {ps : List FilePath} {p : FilePath} {m : Model}
    (h : (p, .ok m) ∈ results disk cache ps) : ∃ content, disk.read p = .ok content := by
  induction ps generalizing cache with
  | nil => cases h
  | cons q ps ih =>
    rcases List.mem_cons.1 h with h | h
    · obtain ⟨hp, hm⟩ : p = q ∧ .ok m = (extractFile disk cache q).1 := Prod.mk.inj h
      have hworked := worked_extractFile disk cache p
      rw [hp, ← hm, ← hp] at hworked
      exact hworked.exists_read
    · exact ih h

/-- Every file gives a model or is a failure. -/
theorem length_models_add_failures (rs : List (FilePath × Except ExtractError Model)) :
    (rs.filter fun r => r.2.isOk).length + (rs.filterMap FileFailure.ofResult?).length =
      rs.length := by
  induction rs with
  | nil => rfl
  | cons r rs ih =>
    obtain ⟨p, _ | m⟩ := r
    · simp [FileFailure.ofResult?, Except.isOk, Except.toBool, ← ih, Nat.add_assoc]
    · rw [List.filterMap_cons_none rfl, List.filter_cons_of_pos rfl, List.length_cons,
        List.length_cons, ← ih, Nat.add_right_comm]

/-! ## A pass -/

theorem run_eq_of_ok {c : Coordinator} {project : Project}
    (hl : Project.load disk c.descriptor = .ok project) :
    c.run disk =
      let (x, cache) :=
        extractFiles disk (Extraction.empty, c.cache.retain project.files) project.files
      (.ok x, { c with cache }) := by
  unfold run
  rw [hl]

/-- The files that a pass serves from the entries of the pass before it. -/
def servedBy (c : Coordinator) (disk : Files.Disk) (project : Project) : List FilePath :=
  served disk (c.cache.retain project.files) project.files

variable {c : Coordinator} {project : Project}

theorem hits_run (hl : Project.load disk c.descriptor = .ok project) :
    (c.run disk).2.cache.hits = c.cache.hits + (c.servedBy disk project).length := by
  rw [run_eq_of_ok hl]
  exact hits_extractFiles project.files Extraction.empty

theorem distinct_run (hc : c.cache.Distinct) (disk : Files.Disk) :
    (c.run disk).2.cache.Distinct := by
  unfold run
  split
  · exact hc
  · exact distinct_extractFiles _ (hc.retain _)

/-- A pass leaves what its files leave: the entries of other files are gone. -/
theorem mem_entries_run (hc : c.cache.Distinct)
    (hl : Project.load disk c.descriptor = .ok project) {e : CacheEntry} :
    e ∈ (c.run disk).2.cache.entries ↔
      ∃ r ∈ results disk (c.cache.retain project.files) project.files, Leaves disk r e := by
  rw [run_eq_of_ok hl]
  refine (mem_entries_extractFiles _ (hc.retain _) (Project.load_nodup hl)).trans
    (or_iff_right ?_)
  rintro ⟨he, hkey⟩
  exact hkey (Cache.mem_retain.1 he).2

/-- A file of a project is served if there is an entry with the digest of what is read. -/
theorem mem_servedBy (hc : c.cache.Distinct) (hl : Project.load disk c.descriptor = .ok project)
    {p : FilePath} :
    p ∈ c.servedBy disk project ↔ p ∈ project.files ∧
      ∃ content m, disk.read p = .ok content ∧
        ⟨p.key, Digest.ofBytes content, m⟩ ∈ c.cache.entries := by
  rw [servedBy, served_eq_filter (hc.retain _) (Project.load_nodup hl), List.mem_filter,
    (hc.retain _).answers_iff]
  refine and_congr_right fun hp => exists_congr fun content => exists_congr fun m =>
    and_congr_right fun _ => Cache.mem_retain.trans (and_iff_left ?_)
  exact List.mem_map_of_mem hp

/-- No file is counted twice. -/
theorem servedBy_sublist (hc : c.cache.Distinct)
    (hl : Project.load disk c.descriptor = .ok project) :
    (c.servedBy disk project).Sublist project.files := by
  rw [servedBy, served_eq_filter (hc.retain _) (Project.load_nodup hl)]
  exact List.filter_sublist

end Coordinator

namespace Workbench

/-! ## Passes of a history -/

/-- A pass that finds its project: the bench as it is before, and the project. -/
structure Pass where
  bench : Workbench
  project : Project
deriving Inhabited

namespace Pass

/-- What comes of the files, in their order. -/
def results (P : Pass) : List (FilePath × Except ExtractError Model) :=
  Coordinator.results P.bench.disk (P.bench.coordinator.cache.retain P.project.files)
    P.project.files

/-- What the pass gives: the models of the files that have one, and the other files. -/
def extraction (P : Pass) : Extraction :=
  P.results.foldl (fun x r => x.add r.1 r.2) Extraction.empty

end Pass

/-- The pass that an event is, if it is one that finds its project. -/
def pass? (w : Workbench) : Event → Option Pass
  | .pass => (Project.load w.disk w.coordinator.descriptor).toOption.map (Pass.mk w)
  | _ => none

/-- The passes of a history that found their projects, in order. -/
def passes (w : Workbench) : List Event → List Pass
  | [] => []
  | e :: es => (w.pass? e).toList ++ (w.step e).passes es

variable {w : Workbench} {es : List Event} {P : Pass}

theorem pass?_eq_some_iff {e : Event} : w.pass? e = some P ↔ e = .pass ∧ P.bench = w ∧
    Project.load w.disk w.coordinator.descriptor = .ok P.project := by
  obtain ⟨bench, project⟩ := P
  cases e with
  | edit e => simp [pass?]
  | become disk => simp [pass?]
  | pass =>
    cases hl : Project.load w.disk w.coordinator.descriptor with
    | error error => simp [pass?, hl, Except.toOption]
    | ok found => simp [pass?, hl, Except.toOption, eq_comm]

/-- An event that is no such pass leaves the coordinator as it is. -/
theorem step_of_pass?_none {e : Event} (h : w.pass? e = none) :
    (w.step e).coordinator = w.coordinator := by
  cases e with
  | edit e => rfl
  | become disk => rfl
  | pass =>
    cases hl : Project.load w.disk w.coordinator.descriptor with
    | error error => exact congrArg Prod.snd (Coordinator.run_of_error hl)
    | ok found => simp [pass?, hl, Except.toOption] at h

theorem replay_snoc (w : Workbench) (es : List Event) (e : Event) :
    w.replay (es ++ [e]) = (w.replay es).step e := by
  simp [replay]

theorem passes_snoc (w : Workbench) (es : List Event) (e : Event) :
    w.passes (es ++ [e]) = w.passes es ++ ((w.replay es).pass? e).toList := by
  induction es generalizing w with
  | nil => simp [passes, replay]
  | cons e' es ih => simp [passes, ih, replay]

/-- A pass of a history works on the bench that the events before it leave. -/
theorem exists_of_mem_passes (h : P ∈ w.passes es) :
    ∃ before after, es = before ++ .pass :: after ∧ P.bench = w.replay before ∧
      Project.load P.bench.disk P.bench.coordinator.descriptor = .ok P.project := by
  induction es generalizing w with
  | nil => cases h
  | cons e es ih =>
    rcases List.mem_append.1 h with h | h
    · obtain ⟨rfl, hbench, hl⟩ := pass?_eq_some_iff.1 (Option.mem_toList.1 h)
      exact ⟨[], es, rfl, hbench, hbench ▸ hl⟩
    · obtain ⟨before, after, rfl, hrest⟩ := ih h
      exact ⟨e :: before, after, rfl, hrest⟩

/-- What is seen by the pass after the beginning of a history is seen. -/
theorem seen_of_before {before after : List Event} {content : ByteArray}
    (h : w.Seen before content) : w.Seen (before ++ .pass :: after) content := by
  induction before generalizing w with
  | nil => exact Or.inl h
  | cons e before ih =>
    cases e with
    | edit e => exact ih h
    | become disk => exact ih h
    | pass => exact h.imp_right ih

theorem isReached_of_mem_passes {descriptor : FilePath} {disk : Files.Disk}
    (hd : Digest.Separates ((new descriptor disk).Seen es))
    (h : P ∈ (new descriptor disk).passes es) : P.bench.IsReached := by
  obtain ⟨before, after, rfl, hbench, -⟩ := exists_of_mem_passes h
  exact ⟨descriptor, disk, before, hbench, hd.mono fun _ => seen_of_before⟩

/-! ## What a pass leaves -/

namespace Pass

/-- The pass leaves an entry: a file gave a model, and the entry has it, with the digest of what was
read. -/
def Leaves (P : Pass) (e : CacheEntry) : Prop :=
  ∃ p content m, (p, .ok m) ∈ P.results ∧ P.bench.disk.read p = .ok content ∧
    e = ⟨p.key, Digest.ofBytes content, m⟩

theorem leaves_iff {e : CacheEntry} :
    P.Leaves e ↔ ∃ r ∈ P.results, Coordinator.Leaves P.bench.disk r e := by
  constructor
  · rintro ⟨p, content, m, hmem, hread, he⟩
    exact ⟨(p, .ok m), hmem, content, m, hread, rfl, he⟩
  · rintro ⟨⟨p, r⟩, hmem, content, m, hread, rfl, he⟩
    exact ⟨p, content, m, hmem, hread, he⟩

theorem run_eq (hl : Project.load P.bench.disk P.bench.coordinator.descriptor = .ok P.project) :
    (P.bench.coordinator.run P.bench.disk).1 = .ok P.extraction := by
  rw [Coordinator.run_eq_of_ok hl]
  exact congrArg Except.ok (Coordinator.extractFiles_eq_foldl _ _ _ _)

end Pass

/-- Where digests tell the contents seen apart, every model is the one of the contents read. -/
theorem IsReached.results_eq (h : P.bench.IsReached)
    (hl : Project.load P.bench.disk P.bench.coordinator.descriptor = .ok P.project) :
    P.results = P.project.files.map fun p => (p, Extraction.fileModel P.bench.disk p) := by
  obtain ⟨S, hS, hfaithful, hreads⟩ := h.exists_faithful
  exact Coordinator.results_eq hS (hfaithful.retain _)
    fun p hp content hread => hreads content ⟨P.project, hl, p, hp, hread⟩

theorem distinct_replay (descriptor : FilePath) (disk : Files.Disk) (es : List Event) :
    ((new descriptor disk).replay es).coordinator.cache.Distinct := by
  induction es using List.reverseRecOn with
  | nil => exact Cache.distinct_empty
  | append_singleton es e ih =>
    rw [replay_snoc]
    cases e with
    | edit e => exact ih
    | become disk => exact ih
    | pass => exact Coordinator.distinct_run ih _

/-- The entries are what the last pass left that found its project. -/
theorem mem_entries_replay (descriptor : FilePath) (disk : Files.Disk) (es : List Event)
    (e : CacheEntry) : e ∈ ((new descriptor disk).replay es).coordinator.cache.entries ↔
      ∃ P, ((new descriptor disk).passes es).getLast? = some P ∧ P.Leaves e := by
  induction es using List.reverseRecOn with
  | nil => simp [replay, new, Coordinator.new, Cache.empty, passes]
  | append_singleton es event ih =>
    rw [replay_snoc, passes_snoc]
    cases hpass : ((new descriptor disk).replay es).pass? event with
    | none => rw [step_of_pass?_none hpass, Option.toList_none, List.append_nil, ih]
    | some P =>
      obtain ⟨rfl, hbench, hl⟩ := pass?_eq_some_iff.1 hpass
      have hentries := Coordinator.mem_entries_run (distinct_replay descriptor disk es) hl (e := e)
      rw [Option.toList_some, List.getLast?_concat]
      simp only [Option.some.injEq, exists_eq_left', Pass.leaves_iff, Pass.results, hbench]
      exact hentries

/-- As many entries as there are files that did not fail. -/
theorem Pass.size_add_failures {P : Pass}
    (hl : Project.load P.bench.disk P.bench.coordinator.descriptor = .ok P.project)
    {c : Cache} (hc : c.Distinct) (hentries : ∀ e, e ∈ c.entries ↔ P.Leaves e) :
    c.size + P.extraction.failures.length = P.project.files.length := by
  have hfiles : P.results.map (·.1) = P.project.files := Coordinator.results_map_fst _ _ _
  -- entries and models belong to the same paths, and neither list has a path twice
  have hperm : (c.entries.map (·.key)).Perm
      ((P.results.filter fun r => r.2.isOk).map (·.1.key)) := by
    have hkeys : (P.results.map (·.1.key)).Nodup := by
      have hmap : P.results.map (·.1.key) = P.project.files.map (·.key) := by
        rw [← hfiles, List.map_map]
        rfl
      exact hmap ▸ Project.load_nodup hl
    refine (List.perm_ext_iff_of_nodup hc (hkeys.sublist (List.filter_sublist.map _))).2 fun k => ?_
    rw [List.mem_map, List.mem_map]
    constructor
    · rintro ⟨e, he, rfl⟩
      obtain ⟨p, content, m, hmem, -, rfl⟩ := (hentries e).1 he
      exact ⟨(p, .ok m), List.mem_filter.2 ⟨hmem, rfl⟩, rfl⟩
    · rintro ⟨⟨p, r⟩, hr, rfl⟩
      obtain ⟨hmem, hok⟩ := List.mem_filter.1 hr
      cases r with
      | error e => cases hok
      | ok m =>
        obtain ⟨content, hread⟩ := Coordinator.exists_read_of_mem_results hmem
        exact ⟨_, (hentries _).2 ⟨p, content, m, hmem, hread, rfl⟩, rfl⟩
  have hsize : c.size = (P.results.filter fun r => r.2.isOk).length := by
    simpa [Cache.size] using hperm.length_eq
  have hfailures : P.extraction.failures = P.results.filterMap FileFailure.ofResult? :=
    Coordinator.failures_foldl_add _ _
  rw [hsize, hfailures, Coordinator.length_models_add_failures, ← hfiles, List.length_map]

/-- **The cache is exact.** After any history it holds what the last pass left that found its
project, and the next pass serves from it what has not changed since. -/
theorem cache_exact (descriptor : FilePath) (disk : Files.Disk) (es : List Event) :
    let start := new descriptor disk
    let w := start.replay es
    let cache := w.coordinator.cache
    let last := (start.passes es).getLast?
    -- what it holds
    (cache.entries.map (·.key)).Nodup ∧
    (∀ e, e ∈ cache.entries ↔ ∃ P, last = some P ∧ P.Leaves e) ∧
    (∀ P, last = some P → (P.bench.coordinator.run P.bench.disk).1 = .ok P.extraction ∧
      cache.size + P.extraction.failures.length = P.project.files.length ∧
      (Digest.Separates (start.Seen es) → ∀ p content m, (p, .ok m) ∈ P.results →
        P.bench.disk.read p = .ok content → extract p content = .ok m)) ∧
    -- what the next pass makes of it
    (∀ error, Project.load w.disk descriptor = .error error →
      (w.step .pass).coordinator.cache = cache) ∧
    ∀ project, Project.load w.disk descriptor = .ok project →
      let served := w.coordinator.servedBy w.disk project
      (∀ p, p ∈ served ↔ p ∈ project.files ∧
        ∃ P, last = some P ∧ ∃ q old m content, (q, .ok m) ∈ P.results ∧ q.key = p.key ∧
          P.bench.disk.read q = .ok old ∧ w.disk.read p = .ok content ∧
          Digest.ofBytes content = Digest.ofBytes old) ∧
      served.Sublist project.files ∧
      (w.step .pass).coordinator.cache.hits = cache.hits + served.length := by
  intro start w cache last
  have hdistinct : cache.Distinct := distinct_replay descriptor disk es
  have hentries := mem_entries_replay descriptor disk es
  have hdesc : w.coordinator.descriptor = descriptor := replay_descriptor es _
  refine ⟨hdistinct, hentries, fun P hP => ?_, fun error he => ?_, fun project hl => ?_⟩
  · have hmem : P ∈ start.passes es := List.mem_of_getLast? hP
    obtain ⟨-, -, -, -, hl⟩ := exists_of_mem_passes hmem
    refine ⟨P.run_eq hl, P.size_add_failures hl hdistinct fun e => ?_,
      fun hd p content m hr hread => ?_⟩
    · refine (hentries e).trans ⟨?_, fun hleft => ⟨P, hP, hleft⟩⟩
      rintro ⟨P', hP', hleft⟩
      cases hP.symm.trans hP'
      exact hleft
    · rw [(isReached_of_mem_passes hd hmem).results_eq hl] at hr
      obtain ⟨q, -, hq⟩ := List.mem_map.1 hr
      obtain ⟨rfl, hm⟩ := Prod.mk.inj hq
      simpa [Extraction.fileModel, hread] using hm
  · rw [← hdesc] at he
    exact congrArg (fun r => r.2.cache) (Coordinator.run_of_error he)
  · rw [← hdesc] at hl
    refine ⟨fun p => ?_, Coordinator.servedBy_sublist hdistinct hl, Coordinator.hits_run hl⟩
    rw [Coordinator.mem_servedBy hdistinct hl]
    refine and_congr_right fun _ => ?_
    constructor
    · rintro ⟨content, m, hread, he⟩
      obtain ⟨P, hP, q, old, m', hr, hold, heq⟩ := (hentries _).1 he
      obtain ⟨hkey, hdigest, -⟩ := CacheEntry.mk.inj heq
      exact ⟨P, hP, q, old, m', content, hr, hkey.symm, hold, hread, hdigest⟩
    · rintro ⟨P, hP, q, old, m, content, hr, hkey, hold, hread, hdigest⟩
      refine ⟨content, m, hread, (hentries _).2 ⟨P, hP, q, old, m, hr, hold, ?_⟩⟩
      rw [hkey, hdigest]

/-! ## A history with a pass that finds no project -/

theorem load_brokenDisk : ∃ error, Project.load brokenDisk ⟨"p.json"⟩ = .error error := by
  have hread : brokenDisk.read ⟨"p.json"⟩ = .ok brokenDescriptor :=
    read_of_node? (by decide) (by decide +kernel) (by decide) rfl rfl
  have htext : String.fromUTF8? brokenDescriptor = some "\x7b broken" := by decide +kernel
  have hparsed : (Descriptor.ofText "\x7b broken").toOption = none := by decide +kernel
  have hreadText : brokenDisk.readText ⟨"p.json"⟩ = .ok "\x7b broken" := by
    unfold Files.Disk.readText
    rw [hread]
    simp [bind, Except.bind, htext]
  unfold Project.load
  rw [hreadText]
  cases hd : Descriptor.ofText "\x7b broken" with
  | ok d => simp [hd, Except.toOption] at hparsed
  | error reason => exact ⟨_, rfl⟩

theorem disk_replay_become (w : Workbench) (es : List Event) (disk : Files.Disk) :
    (w.replay (es ++ [.become disk])).disk = disk := by
  rw [replay_snoc]
  rfl

/-- The last pass of the sample that finds its project is the one after the edit. -/
theorem getLast?_passes_sampleHistory {project : Project}
    (hl : Project.load changedDisk ⟨"p.json"⟩ = .ok project) :
    ((new ⟨"p.json"⟩ sampleDisk).passes sampleHistory).getLast? =
      some ⟨(new ⟨"p.json"⟩ sampleDisk).replay [.pass, .edit changeClass], project⟩ := by
  have hsplit : sampleHistory = [.pass, .edit changeClass] ++ [.pass] ++ [.become brokenDisk] ++
    [.pass] ++ [.become sampleDisk] := rfl
  obtain ⟨error, herror⟩ := load_brokenDisk
  have hchanged : ((new ⟨"p.json"⟩ sampleDisk).replay [.pass, .edit changeClass]).disk =
      changedDisk := by
    rw [← edited_sampleDisk]
    rfl
  rw [hsplit]
  have hdesc : (new ⟨"p.json"⟩ sampleDisk).coordinator.descriptor = ⟨"p.json"⟩ := rfl
  simp only [passes_snoc, pass?, disk_replay_become, replay_descriptor, hchanged, hdesc, hl, herror,
    Except.toOption, Option.map_some, Option.map_none, Option.toList_some, Option.toList_none,
    List.append_nil, List.getLast?_concat]

/-- Between the passes of the sample the descriptor is broken, and the entries that the last one
leaves are still those of the pass before. -/
theorem cache_exact_sampleHistory :
    let start := new ⟨"p.json"⟩ sampleDisk
    let broken := start.replay ([.pass, .edit changeClass, .pass] ++ [.become brokenDisk])
    let w := start.replay sampleHistory
    (broken.step .pass).coordinator.cache = broken.coordinator.cache ∧
    Digest.Separates (start.Seen sampleHistory) ∧
    (∃ P, (start.passes sampleHistory).getLast? = some P ∧
      w.coordinator.cache.size + P.extraction.failures.length = 2 ∧
      ∀ p content m, (p, .ok m) ∈ P.results → P.bench.disk.read p = .ok content →
        extract p content = .ok m) ∧
    ∃ project, Project.load w.disk ⟨"p.json"⟩ = .ok project ∧
      (w.step .pass).coordinator.cache.hits =
        w.coordinator.cache.hits + (w.coordinator.servedBy w.disk project).length := by
  obtain ⟨error, herror⟩ := load_brokenDisk
  obtain ⟨project, hl, hfiles⟩ := load_sampleDescriptor changedDisk rfl rfl
  obtain ⟨project', hl', -⟩ := load_sampleDescriptor sampleDisk rfl rfl
  have hP := getLast?_passes_sampleHistory hl
  have hdisk : ((new ⟨"p.json"⟩ sampleDisk).replay sampleHistory).disk = sampleDisk :=
    disk_replay_become _ [.pass, .edit changeClass, .pass, .become brokenDisk, .pass] sampleDisk
  obtain ⟨-, -, hlast, -, hnext⟩ := cache_exact ⟨"p.json"⟩ sampleDisk sampleHistory
  obtain ⟨-, -, -, hkept, -⟩ := cache_exact ⟨"p.json"⟩ sampleDisk
    ([.pass, .edit changeClass, .pass] ++ [.become brokenDisk])
  obtain ⟨-, hsize, hmodels⟩ := hlast _ hP
  rw [hfiles] at hsize
  rw [disk_replay_become] at hkept
  rw [← hdisk] at hl'
  exact ⟨hkept error herror, sample_separates, ⟨_, hP, hsize, hmodels sample_separates⟩,
    project', hl', (hnext project' hl').2.2⟩

end Workbench
end ClassAtlas
