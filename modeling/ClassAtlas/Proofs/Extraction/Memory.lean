import ClassAtlas.Extraction.Coordinator
import ClassAtlas.Proofs.Project.Distinct

/-!
# What a cache remembers

An entry of a cache is worth something only as long as it holds the model that its file would give
now. `Cache.Faithful` says so without looking at a disk: every entry holds what some bytes met
before (`S`) give under the path of the entry, next to their digest. No step of a pass breaks it
(`extractFile_faithful`), whatever disk the step reads.

Where no two contents met have the same digest (`Digest.Separates`), a faithful cache cannot be told
from none: `extractFile_fst` for one file, `extractFiles_fst` for many, and `run_eq_ofDisk`,
`run_faithful` for a pass. A coordinator that has made no pass needs no such condition
(`new_run_eq_ofDisk`), because no file stands twice in a project. `Extraction.reference` says what a
pass gives without any cache (`ofDisk_eq`): the models of the files that have one, in their order,
and the other files with what stands in their way.
-/
namespace ClassAtlas

/-! ## A model depends on the components of its path -/

theorem FilePath.extension?_congr {p q : FilePath} (h : p.key = q.key) :
    p.extension? = q.extension? := by
  unfold extension? fileName?
  rw [show p.components = q.components from h]

/-- Two spellings of a path give the same model. -/
theorem extract_congr {p q : FilePath} (h : p.key = q.key) (content : ByteArray) :
    extract p content = extract q content := by
  unfold extract Dialect.ofPath?
  rw [FilePath.extension?_congr h]

/-! ## Digests that tell contents apart -/

/-- No two of some contents have the same digest. -/
def Digest.Separates (S : ByteArray → Prop) : Prop :=
  ∀ a b, S a → S b → Digest.ofBytes a = Digest.ofBytes b → a = b

theorem Digest.Separates.mono {S T : ByteArray → Prop} (h : Separates T) (hST : ∀ c, S c → T c) :
    Separates S := fun a b ha hb => h a b (hST a ha) (hST b hb)

theorem Digest.separates_of_nodup {cs : List ByteArray} (h : (cs.map Digest.ofBytes).Nodup) :
    Separates (· ∈ cs) := fun _ _ ha hb => List.inj_on_of_nodup_map h ha hb

/-- The files of a disk hold nothing but some contents. -/
def Files.Disk.Within (contents : List ByteArray) (disk : Files.Disk) : Prop :=
  ∀ e ∈ disk.nodes, ∀ content, e.2 = .file content → content ∈ contents

theorem Files.Disk.Within.mem_of_read {contents : List ByteArray} {disk : Files.Disk}
    (h : disk.Within contents) {p : FilePath} {content : ByteArray}
    (hread : disk.read p = .ok content) : content ∈ contents := by
  obtain ⟨at_, hat⟩ := Files.Disk.exists_mem_of_read hread
  exact h _ hat content rfl

/-! ## Faithful caches -/

namespace Cache

/-- Every entry holds the model of some contents of `S`, and their digest. -/
def Faithful (S : ByteArray → Prop) (c : Cache) : Prop :=
  ∀ e ∈ c.entries, ∃ content, S content ∧ Digest.ofBytes content = e.digest ∧
    ∀ p : FilePath, p.key = e.key → extract p content = .ok e.model

variable {S T : ByteArray → Prop} {c c' : Cache}

theorem faithful_empty : empty.Faithful S := fun _ he => absurd he List.not_mem_nil

theorem Faithful.mono (h : c.Faithful S) (hST : ∀ b, S b → T b) : c.Faithful T := by
  intro e he
  obtain ⟨content, hs, hrest⟩ := h e he
  exact ⟨content, hST content hs, hrest⟩

theorem Faithful.of_subset (h : c.Faithful S) (hsub : c'.entries ⊆ c.entries) : c'.Faithful S :=
  fun e he => h e (hsub he)

theorem Faithful.remove (h : c.Faithful S) (p : FilePath) : (c.remove p).Faithful S :=
  fun e he => h e (List.mem_filter.1 he).1

theorem Faithful.retain (h : c.Faithful S) (ps : List FilePath) : (c.retain ps).Faithful S :=
  fun e he => h e (List.mem_filter.1 he).1

theorem Faithful.insert (h : c.Faithful S) {p : FilePath} {content : ByteArray} {m : Model}
    (hs : S content) (hm : extract p content = .ok m) :
    (c.insert p (Digest.ofBytes content) m).Faithful S := by
  intro e he
  rcases List.mem_cons.1 he with rfl | he
  · exact ⟨content, hs, rfl, fun q hq => (extract_congr hq content).trans hm⟩
  · exact h.remove p e he

theorem get_fst (c : Cache) (p : FilePath) (d : Digest) : (c.get p d).1 = c.lookup? p d := by
  unfold get
  split <;> simp_all

theorem get_entries (c : Cache) (p : FilePath) (d : Digest) :
    (c.get p d).2.entries = c.entries := by
  unfold get
  split <;> rfl

/-- What answers a look-up is an entry of the path with the digest asked for. -/
theorem exists_entry_of_lookup? {p : FilePath} {d : Digest} {m : Model}
    (h : c.lookup? p d = some m) : ∃ e ∈ c.entries, e.key = p.key ∧ e.digest = d ∧ e.model = m := by
  unfold lookup? find? at h
  split at h
  · rename_i e hf
    split at h
    · rename_i hd
      have hk : e.key = p.key := by simpa using List.find?_some hf
      exact ⟨e, List.mem_of_find?_eq_some hf, hk, eq_of_beq hd, Option.some.inj h⟩
    · cases h
  · cases h

/-- A faithful cache answers with the model of the contents asked for. -/
theorem Faithful.extract_of_lookup? (h : c.Faithful S) (hS : Digest.Separates S) {p : FilePath}
    {content : ByteArray} {m : Model} (hs : S content)
    (hl : c.lookup? p (Digest.ofBytes content) = some m) : extract p content = .ok m := by
  obtain ⟨e, he, hk, hd, rfl⟩ := exists_entry_of_lookup? hl
  obtain ⟨old, hold, hdig, hmodel⟩ := h e he
  have : old = content := hS old content hold hs (hdig.trans hd)
  exact this ▸ hmodel p hk.symm

end Cache

/-! ## What a pass gives without a cache -/

namespace Extraction

/-- The files that give a model, each with its own. -/
def contributions (disk : Files.Disk) (ps : List FilePath) : List (FilePath × Model) :=
  ps.filterMap fun p =>
    match fileModel disk p with
    | .ok m => some (p, m)
    | .error _ => none

/-- The files that give none, each with what stands in its way. -/
def missing (disk : Files.Disk) (ps : List FilePath) : List FileFailure :=
  ps.filterMap fun p =>
    match fileModel disk p with
    | .ok _ => none
    | .error e => some ⟨p, e⟩

/-- The models of the files one behind the other, and the files that have none. -/
def reference (disk : Files.Disk) (ps : List FilePath) : Extraction :=
  let ms := (contributions disk ps).map (·.2)
  ⟨⟨ms.flatMap (·.classes), ms.flatMap (·.relationships)⟩, missing disk ps⟩

theorem reference_nil (disk : Files.Disk) : reference disk [] = empty := rfl

theorem reference_cons (disk : Files.Disk) (p : FilePath) (ps : List FilePath) :
    reference disk (p :: ps) =
      match fileModel disk p with
      | .ok m => ⟨m ++ (reference disk ps).model, (reference disk ps).failures⟩
      | .error e => ⟨(reference disk ps).model, ⟨p, e⟩ :: (reference disk ps).failures⟩ := by
  unfold reference contributions missing
  simp only [List.filterMap_cons]
  cases fileModel disk p with
  | ok m => rfl
  | error e => rfl

theorem foldl_add (disk : Files.Disk) (ps : List FilePath) (e : Extraction) :
    ps.foldl (fun e p => e.add p (fileModel disk p)) e =
      ⟨e.model ++ (reference disk ps).model, e.failures ++ (reference disk ps).failures⟩ := by
  induction ps generalizing e with
  | nil => simp [reference_nil, empty]
  | cons p ps ih =>
    rw [List.foldl_cons, ih, reference_cons]
    cases fileModel disk p with
    | ok m => simp [add, Model.append_assoc]
    | error err => simp [add]

theorem ofFiles_eq_reference (disk : Files.Disk) (ps : List FilePath) :
    ofFiles disk ps = reference disk ps := by
  unfold ofFiles
  rw [foldl_add]
  rfl

theorem ofDisk_eq (disk : Files.Disk) (descriptor : FilePath) :
    ofDisk disk descriptor =
      match Project.load disk descriptor with
      | .error e => .error e
      | .ok project => .ok (reference disk project.files) := by
  unfold ofDisk
  cases Project.load disk descriptor with
  | error e => rfl
  | ok project => exact congrArg Except.ok (ofFiles_eq_reference disk project.files)

theorem mem_contributions {disk : Files.Disk} {ps : List FilePath} {p : FilePath} :
    p ∈ (contributions disk ps).map (·.1) ↔ p ∈ ps ∧ ∃ m, fileModel disk p = .ok m := by
  constructor
  · intro h
    obtain ⟨⟨q, m⟩, hq, rfl⟩ := List.mem_map.1 h
    obtain ⟨q', hq', hm⟩ := List.mem_filterMap.1 hq
    split at hm
    · rename_i m' hf
      cases hm
      exact ⟨hq', m, hf⟩
    · cases hm
  · rintro ⟨hp, m, hm⟩
    exact List.mem_map.2 ⟨(p, m), List.mem_filterMap.2 ⟨p, hp, by simp [hm]⟩, rfl⟩

theorem mem_missing {disk : Files.Disk} {ps : List FilePath} {f : FileFailure} :
    f ∈ missing disk ps ↔ f.path ∈ ps ∧ fileModel disk f.path = .error f.error := by
  constructor
  · intro h
    obtain ⟨q, hq, hm⟩ := List.mem_filterMap.1 h
    split at hm
    · cases hm
    · rename_i e hf
      cases hm
      exact ⟨hq, hf⟩
  · rintro ⟨hp, he⟩
    exact List.mem_filterMap.2 ⟨f.path, hp, by simp [he]⟩

/-- A file gives a model or is missing, and not both. -/
theorem xor_mem {disk : Files.Disk} {ps : List FilePath} {p : FilePath} (hp : p ∈ ps) :
    Xor (p ∈ (contributions disk ps).map (·.1)) (p ∈ (missing disk ps).map (·.path)) := by
  rw [mem_contributions]
  cases h : fileModel disk p with
  | ok m =>
    refine Or.inl ⟨⟨hp, m, rfl⟩, ?_⟩
    intro hmem
    obtain ⟨f, hf, rfl⟩ := List.mem_map.1 hmem
    rw [(mem_missing.1 hf).2] at h
    cases h
  | error e =>
    refine Or.inr ⟨List.mem_map.2 ⟨⟨p, e⟩, mem_missing.2 ⟨hp, h⟩, rfl⟩, ?_⟩
    rintro ⟨-, m, hm⟩
    cases hm

end Extraction

/-! ## Passes that remember -/

namespace Coordinator

variable {S : ByteArray → Prop} {disk : Files.Disk} {cache : Cache}

/-- What a file gives is remembered as long as its contents are among those of `S`. -/
theorem extractFile_faithful (hc : cache.Faithful S) {p : FilePath}
    (hr : ∀ content, disk.read p = .ok content → S content) :
    (extractFile disk cache p).2.Faithful S := by
  unfold extractFile
  split
  · exact hc.remove p
  · rename_i content hread
    have hget := cache.get_entries p (Digest.ofBytes content)
    simp only
    split
    · rename_i m c' hg
      rw [hg] at hget
      exact hc.of_subset (hget ▸ List.Subset.refl _)
    · rename_i c' hg
      rw [hg] at hget
      have hc' : c'.Faithful S := hc.of_subset (hget ▸ List.Subset.refl _)
      split
      · rename_i m hm
        exact hc'.insert (hr content hread) hm
      · exact hc'.remove p

/-- By way of a faithful cache a file gives what it gives without one. -/
theorem extractFile_fst (hS : Digest.Separates S) (hc : cache.Faithful S) {p : FilePath}
    (hr : ∀ content, disk.read p = .ok content → S content) :
    (extractFile disk cache p).1 = Extraction.fileModel disk p := by
  unfold extractFile Extraction.fileModel
  cases hread : disk.read p with
  | error f => rfl
  | ok content =>
    have hget := cache.get_fst p (Digest.ofBytes content)
    simp only
    split
    · rename_i m c' hg
      rw [hg] at hget
      exact (hc.extract_of_lookup? hS (hr content hread) hget.symm).symm
    · split
      · rename_i m hm
        exact hm.symm
      · rename_i e he
        exact he.symm

theorem extractFiles_faithful (ps : List FilePath) (e : Extraction) (hc : cache.Faithful S)
    (hr : ∀ p ∈ ps, ∀ content, disk.read p = .ok content → S content) :
    (extractFiles disk (e, cache) ps).2.Faithful S := by
  induction ps generalizing e cache with
  | nil => exact hc
  | cons p ps ih =>
    simp only [extractFiles]
    exact ih _ (extractFile_faithful hc (hr p List.mem_cons_self))
      fun q hq => hr q (List.mem_cons_of_mem p hq)

theorem extractFiles_fst (hS : Digest.Separates S) (ps : List FilePath) (e : Extraction)
    (hc : cache.Faithful S) (hr : ∀ p ∈ ps, ∀ content, disk.read p = .ok content → S content) :
    (extractFiles disk (e, cache) ps).1 =
      ps.foldl (fun e p => e.add p (Extraction.fileModel disk p)) e := by
  induction ps generalizing e cache with
  | nil => rfl
  | cons p ps ih =>
    have hp := hr p List.mem_cons_self
    simp only [extractFiles, List.foldl_cons]
    rw [ih _ (extractFile_faithful hc hp) fun q hq => hr q (List.mem_cons_of_mem p hq),
      extractFile_fst hS hc hp]

/-- The contents that a pass of a descriptor reads on a disk. -/
def Reads (disk : Files.Disk) (descriptor : FilePath) (content : ByteArray) : Prop :=
  ∃ project, Project.load disk descriptor = .ok project ∧
    ∃ p ∈ project.files, disk.read p = .ok content

@[simp] theorem run_descriptor (c : Coordinator) (disk : Files.Disk) :
    (c.run disk).2.descriptor = c.descriptor := by
  unfold run
  split <;> rfl

theorem run_faithful {c : Coordinator} (hc : c.cache.Faithful S)
    (hr : ∀ content, Reads disk c.descriptor content → S content) :
    (c.run disk).2.cache.Faithful S := by
  unfold run
  split
  · exact hc
  · rename_i project hl
    exact extractFiles_faithful _ _ (hc.retain project.files)
      fun p hp content hread => hr content ⟨project, hl, p, hp, hread⟩

/-- A pass agrees with the pass that has no cache. -/
theorem run_eq_ofDisk (hS : Digest.Separates S) {c : Coordinator} (hc : c.cache.Faithful S)
    (hr : ∀ content, Reads disk c.descriptor content → S content) :
    (c.run disk).1 = Extraction.ofDisk disk c.descriptor := by
  unfold run Extraction.ofDisk
  cases hl : Project.load disk c.descriptor with
  | error e => rfl
  | ok project =>
    have hreads : ∀ p ∈ project.files, ∀ content, disk.read p = .ok content → S content :=
      fun p hp content hread => hr content ⟨project, hl, p, hp, hread⟩
    exact congrArg Except.ok
      (extractFiles_fst hS project.files Extraction.empty (hc.retain project.files) hreads)

/-- A pass gives what it would give without a cache. -/
theorem run_fst (hS : Digest.Separates S) {c : Coordinator} (hc : c.cache.Faithful S)
    (hr : ∀ content, Reads disk c.descriptor content → S content) :
    (c.run disk).1 =
      match Project.load disk c.descriptor with
      | .error e => .error e
      | .ok project => .ok (Extraction.reference disk project.files) :=
  (run_eq_ofDisk hS hc hr).trans (Extraction.ofDisk_eq disk c.descriptor)

/-! ## The first pass -/

/-- A file without an entry gives what it gives without a cache. -/
theorem extractFile_fst_of_absent {p : FilePath} (h : ∀ e ∈ cache.entries, e.key ≠ p.key) :
    (extractFile disk cache p).1 = Extraction.fileModel disk p := by
  unfold extractFile Extraction.fileModel
  cases disk.read p with
  | error f => rfl
  | ok content =>
    have hget := cache.get_fst p (Digest.ofBytes content)
    simp only
    split
    · rename_i m c' hg
      rw [hg] at hget
      obtain ⟨e, he, hk, -⟩ := Cache.exists_entry_of_lookup? hget.symm
      exact absurd hk (h e he)
    · split
      · rename_i m hm
        exact hm.symm
      · rename_i e he
        exact he.symm

/-- Working on a file makes entries for no other. -/
theorem mem_entries_of_extractFile {p : FilePath} {e : CacheEntry}
    (h : e ∈ (extractFile disk cache p).2.entries) : e ∈ cache.entries ∨ e.key = p.key := by
  unfold extractFile at h
  split at h
  · exact Or.inl (List.mem_filter.1 h).1
  · rename_i content hread
    have hget := cache.get_entries p (Digest.ofBytes content)
    simp only at h
    split at h
    · rename_i m c' hg
      rw [hg] at hget
      exact Or.inl (hget ▸ h)
    · rename_i c' hg
      rw [hg] at hget
      split at h
      · rcases List.mem_cons.1 h with rfl | h
        · exact Or.inr rfl
        · exact Or.inl (hget ▸ (List.mem_filter.1 h).1)
      · exact Or.inl (hget ▸ (List.mem_filter.1 h).1)

theorem extractFiles_fst_of_absent (ps : List FilePath) (e : Extraction)
    (hn : (ps.map (·.key)).Nodup) (h : ∀ p ∈ ps, ∀ e ∈ cache.entries, e.key ≠ p.key) :
    (extractFiles disk (e, cache) ps).1 =
      ps.foldl (fun e p => e.add p (Extraction.fileModel disk p)) e := by
  induction ps generalizing e cache with
  | nil => rfl
  | cons p ps ih =>
    obtain ⟨hp, hn⟩ := List.nodup_cons.1 hn
    simp only [extractFiles, List.foldl_cons]
    rw [ih _ hn, extractFile_fst_of_absent (h p List.mem_cons_self)]
    intro q hq x hx hxq
    rcases mem_entries_of_extractFile hx with hx | hx
    · exact h q (List.mem_cons_of_mem p hq) x hx hxq
    · exact hp (List.mem_map.2 ⟨q, hq, hxq.symm.trans hx⟩)

/-- The first pass of a coordinator agrees with the pass that has no cache. -/
theorem new_run_eq_ofDisk (disk : Files.Disk) (descriptor : FilePath) :
    ((new descriptor).run disk).1 = Extraction.ofDisk disk descriptor := by
  show ((new descriptor).run disk).1 = Extraction.ofDisk disk (new descriptor).descriptor
  unfold run Extraction.ofDisk
  cases hl : Project.load disk (new descriptor).descriptor with
  | error e => rfl
  | ok project =>
    have habsent : ∀ p ∈ project.files, ∀ e ∈ (Cache.empty.retain project.files).entries,
        e.key ≠ p.key := fun _ _ _ he => absurd he List.not_mem_nil
    exact congrArg Except.ok
      (extractFiles_fst_of_absent project.files Extraction.empty (Project.load_nodup hl) habsent)

/-- The first pass of a coordinator gives what the disk gives without a cache. -/
theorem new_run_fst (disk : Files.Disk) (descriptor : FilePath) :
    ((new descriptor).run disk).1 =
      match Project.load disk descriptor with
      | .error e => .error e
      | .ok project => .ok (Extraction.reference disk project.files) :=
  (new_run_eq_ofDisk disk descriptor).trans (Extraction.ofDisk_eq disk descriptor)

end Coordinator
end ClassAtlas
