import ClassAtlas.Proofs.Files.Lookup
import ClassAtlas.Proofs.Project.Distinct
import Mathlib

/-!
# Which files a project has

The files of a project are those its descriptor lists, in that order and each once, and behind them
the files below its directory that its patterns select, in strict order of their components
(`load_selects`). `Selects` says which these are without a word of how they are found.

A directory that is written `-` is not walked, so nothing is selected below it, whatever stands
there.
-/
namespace ClassAtlas

/-! ## Paths that were not seen before -/

theorem firstOnly_eq (seen : List (List Component)) (ps : List FilePath) :
    firstOnly seen ps =
      (ps.filter fun p => !seen.contains p.key).eraseDupsBy fun p q => p.key == q.key := by
  induction ps generalizing seen with
  | nil => rfl
  | cons p ps ih =>
    unfold firstOnly
    by_cases hp : seen.contains p.key = true
    · rw [if_pos hp, ih, List.filter_cons_of_neg (by simpa using hp)]
    · rw [if_neg hp, ih, List.filter_cons_of_pos (by simpa using hp), List.eraseDupsBy_cons,
        List.filter_filter]
      congr 3
      funext q
      simp [Bool.not_or]

theorem eraseDupsBy_of_nodup {ps : List FilePath} (h : (ps.map (·.key)).Nodup) :
    (ps.eraseDupsBy fun p q => p.key == q.key) = ps := by
  induction ps with
  | nil => rfl
  | cons p ps ih =>
    obtain ⟨hp, hps⟩ := List.nodup_cons.1 h
    have hkeep : (ps.filter fun q => decide ((q.key == p.key) = false)) = ps := by
      refine List.filter_eq_self.2 fun q hq => ?_
      have hne : q.key ≠ p.key := fun heq => hp (List.mem_map.2 ⟨q, hq, heq⟩)
      simpa using hne
    rw [List.eraseDupsBy_cons, hkeep, ih hps]

theorem firstOnly_of_nodup (seen : List (List Component)) {ps : List FilePath}
    (h : (ps.map (·.key)).Nodup) :
    firstOnly seen ps = ps.filter fun p => !seen.contains p.key := by
  rw [firstOnly_eq, eraseDupsBy_of_nodup (h.sublist (List.filter_sublist.map _))]

/-! ## Patterns -/

/-- Whether a path matches what a pattern of a descriptor stands for. -/
def PatternMatches (allowJs : Bool) (pattern path : String) : Prop :=
  ∃ glob, Glob.Pattern.parse (expandPattern allowJs pattern) = .ok glob ∧ glob.matches path = true

instance (allowJs : Bool) (pattern path : String) :
    Decidable (PatternMatches allowJs pattern path) :=
  match h : Glob.Pattern.parse (expandPattern allowJs pattern) with
  | .error _ => isFalse fun hm => by simp [PatternMatches, h] at hm
  | .ok glob => decidable_of_iff (glob.matches path = true) (by simp [PatternMatches, h])

theorem exists_of_isOk {ε α : Type} {x : Except ε α} (h : x.isOk = true) : ∃ a, x = .ok a := by
  cases x with
  | error e => cases h
  | ok a => exact ⟨a, rfl⟩

theorem compilePatterns_spec (descriptor : FilePath) {allowJs : Bool} {patterns : List String}
    (h : ∀ pattern ∈ patterns, (Glob.Pattern.parse (expandPattern allowJs pattern)).isOk = true) :
    ∃ globs, compilePatterns descriptor allowJs patterns = .ok globs ∧
      ∀ path, matchesAny globs path = true ↔
        ∃ pattern ∈ patterns, PatternMatches allowJs pattern path := by
  induction patterns with
  | nil => exact ⟨[], rfl, by simp [matchesAny]⟩
  | cons pattern rest ih =>
    obtain ⟨glob, hglob⟩ := exists_of_isOk (h pattern List.mem_cons_self)
    obtain ⟨globs, hglobs, hmatches⟩ := ih fun p hp => h p (List.mem_cons_of_mem _ hp)
    refine ⟨glob :: globs, ?_, ?_⟩
    · simp [compilePatterns, hglob, hglobs, bind, Except.bind]
    · intro path
      have hhead : glob.matches path = true ↔ PatternMatches allowJs pattern path := by
        simp [PatternMatches, hglob]
      rw [List.exists_mem_cons_iff, ← hmatches, ← hhead]
      simp [matchesAny]

namespace Project

/-! ## Files below the root -/

/-- Whether names below the root of a project lead to a file that its patterns select. -/
structure Selects (disk : Files.Disk) (root : FilePath) (d : Descriptor) (below : Files.Location) :
    Prop where
  /-- The file stands below the root, and it is no link. -/
  below_root : below ≠ []
  regular : ∃ top content, disk.locate root true = .ok top ∧
    disk.node? (top ++ below) = some (.file content)
  plain : ∀ name ∈ below, isHiddenName name = false
  entered : ∀ name ∈ below.dropLast, name ∉ skippedDirectories
  source : isSourceFile d.options.allowJs ⟨relativeText below⟩ = true
  included : ∃ pattern ∈ d.includes.getD ["**/*"],
    PatternMatches d.options.allowJs pattern (relativeText below)
  kept : ∀ pattern ∈ d.excludes.getD (skippedDirectories ++ d.options.outDir.toList),
    ¬ PatternMatches d.options.allowJs pattern (relativeText below)

/-- Whether a descriptor asks for no files beside those it lists. -/
def ListsAll (d : Descriptor) : Prop :=
  d.includes = some [] ∨ d.includes = none ∧ d.files ≠ none

/-- The files a descriptor lists, each where it stands first. -/
def listed (root : FilePath) (d : Descriptor) : List FilePath :=
  let shown := (d.files.getD []).filter fun f => !FilePath.isHidden ⟨f⟩
  (shown.map fun f => root.join ⟨f⟩).eraseDupsBy fun p q => p.key == q.key

theorem listedFiles_eq (root : FilePath) (d : Descriptor) : listedFiles root d = listed root d := by
  unfold listedFiles addNew
  rw [firstOnly_eq]
  simp [listed]

theorem includePatterns_eq_nil_iff {d : Descriptor} : d.includePatterns = [] ↔ ListsAll d := by
  unfold Descriptor.includePatterns ListsAll
  cases d.includes with
  | none => cases d.files <;> simp
  | some ps => simp

theorem includePatterns_of_not_listsAll {d : Descriptor} (h : ¬ ListsAll d) :
    d.includePatterns = d.includes.getD ["**/*"] := by
  unfold ListsAll at h
  unfold Descriptor.includePatterns
  cases hi : d.includes with
  | none => cases hf : d.files <;> simp_all
  | some ps => rfl

theorem excludePatterns_eq (d : Descriptor) :
    d.excludePatterns = d.excludes.getD (skippedDirectories ++ d.options.outDir.toList) := by
  unfold Descriptor.excludePatterns
  cases d.excludes <;> rfl

variable {disk : Files.Disk} {root : FilePath} {allowJs : Bool}
  {includes excludes : List Glob.Pattern}

theorem matchedFiles_of_isStandardInput (hinput : root.isStandardInput = true) (disk : Files.Disk)
    (allowJs : Bool) (includes excludes : List Glob.Pattern) :
    matchedFiles disk root allowJs includes excludes = [] := by
  unfold matchedFiles
  rw [Files.Disk.walkFrom_of_isStandardInput disk hinput]
  rfl

theorem mem_matchedFiles (h : disk.IsTree) (hinput : root.isStandardInput = false) {d : Descriptor}
    (hin : ∀ path, matchesAny includes path = true ↔
      ∃ pattern ∈ d.includes.getD ["**/*"], PatternMatches d.options.allowJs pattern path)
    (hout : ∀ path, matchesAny excludes path = true ↔
      ∃ pattern ∈ d.excludes.getD (skippedDirectories ++ d.options.outDir.toList),
        PatternMatches d.options.allowJs pattern path) {p : FilePath} :
    p ∈ matchedFiles disk root d.options.allowJs includes excludes ↔
      ∃ below, Selects disk root d below ∧ p = root.join ⟨relativeText below⟩ := by
  have hnone : ∀ path, matchesAny excludes path = false ↔
      ∀ pattern ∈ d.excludes.getD (skippedDirectories ++ d.options.outDir.toList),
        ¬ PatternMatches d.options.allowJs pattern path := by
    intro path
    rw [← Bool.not_eq_true, hout]
    simp
  simp only [matchedFiles, List.mem_map, List.mem_filter, Bool.and_eq_true, Bool.not_eq_true',
    hin, hnone, Files.Disk.mem_walkFrom h, hinput, true_and]
  constructor
  · rintro ⟨below, ⟨⟨hne, hregular, hplain, hentered⟩, ⟨hsource, hin⟩, hout⟩, rfl⟩
    exact ⟨below, ⟨hne, hregular, hplain, hentered, hsource, hin, hout⟩, rfl⟩
  · rintro ⟨below, hs, rfl⟩
    exact ⟨below, ⟨⟨hs.below_root, hs.regular, hs.plain, hs.entered⟩, ⟨hs.source, hs.included⟩,
      hs.kept⟩, rfl⟩

/-- The files below the root come in strict order of their components. -/
theorem matchedFiles_pairwise (h : disk.IsTree) (hroot : root.text ≠ "") :
    (matchedFiles disk root allowJs includes excludes).Pairwise fun p q => p.key < q.key := by
  refine List.pairwise_map.2 (List.Pairwise.sublist List.filter_sublist
    ((Files.Disk.walkFrom_pairwise h root skippedDirectories).imp_of_mem ?_))
  intro below below' hmem hmem' hlt
  exact FilePath.key_join_names_lt hroot ((Files.Disk.mem_walkFrom h).1 hmem).2.1
    ((Files.Disk.mem_walkFrom h).1 hmem').2.1 (Files.Disk.isName_of_mem_walkFrom h hmem)
    (Files.Disk.isName_of_mem_walkFrom h hmem') hlt

theorem matchedFiles_nodup (h : disk.IsTree) (hroot : root.text ≠ "") :
    ((matchedFiles disk root allowJs includes excludes).map (·.key)).Nodup :=
  List.pairwise_map.2 ((matchedFiles_pairwise h hroot).imp fun {p q} hlt (heq : p.key = q.key) =>
    List.lt_irrefl q.key (heq ▸ hlt))

/-! ## The whole list -/

theorem matchedFiles_reordered {disk' : Files.Disk} (hp : disk.Reordered disk') (h : disk.IsTree) :
    matchedFiles disk' root allowJs includes excludes =
      matchedFiles disk root allowJs includes excludes := by
  unfold matchedFiles
  rw [hp.walkFrom_eq h]

/-- Loading a project does not depend on the order in which the disk keeps its entries. -/
theorem load_reordered {disk' : Files.Disk} (hp : disk.Reordered disk') (h : disk.IsTree)
    (descriptor : FilePath) : load disk' descriptor = load disk descriptor := by
  unfold load select
  simp only [hp.readText_eq h, matchedFiles_reordered hp h]

theorem select_of_listsAll {d : Descriptor} (hd : ListsAll d) (disk : Files.Disk)
    (root descriptor : FilePath) : select disk root descriptor d = .ok (listed root d) := by
  unfold select
  rw [includePatterns_eq_nil_iff.2 hd, listedFiles_eq]
  rfl

theorem select_of_compiled {d : Descriptor} (hd : ¬ ListsAll d) {descriptor : FilePath}
    (hincludes : compilePatterns descriptor d.options.allowJs d.includePatterns = .ok includes)
    (hexcludes : compilePatterns descriptor d.options.allowJs d.excludePatterns = .ok excludes)
    (disk : Files.Disk) (root : FilePath) :
    select disk root descriptor d = .ok (addNew (listed root d)
      (matchedFiles disk root d.options.allowJs includes excludes)) := by
  have hsome : d.includePatterns.isEmpty = false := by
    rw [Bool.eq_false_iff, ne_eq, List.isEmpty_iff, includePatterns_eq_nil_iff]
    exact hd
  unfold select
  simp only [hsome, hincludes, hexcludes, listedFiles_eq]
  rfl

theorem load_of_select {descriptor : FilePath} {text : String} {d : Descriptor}
    {files : List FilePath} (htext : disk.readText descriptor = .ok text)
    (hd : Descriptor.ofText text = .ok d)
    (hfiles : select disk (rootOf descriptor) descriptor d = .ok files) :
    load disk descriptor = .ok ⟨rootOf descriptor, descriptor, d.options.allowJs, files⟩ := by
  unfold load
  simp only [htext, hd, hfiles, Except.mapError, bind, Except.bind]

/-- A descriptor that lists all files of its project gives these and no others. -/
theorem load_of_listsAll {descriptor : FilePath} {text : String} {d : Descriptor}
    (htext : disk.readText descriptor = .ok text) (hd : Descriptor.ofText text = .ok d)
    (hall : ListsAll d) :
    load disk descriptor =
      .ok ⟨rootOf descriptor, descriptor, d.options.allowJs, listed (rootOf descriptor) d⟩ :=
  load_of_select htext hd (select_of_listsAll hall disk (rootOf descriptor) descriptor)

/-- A descriptor that lists nothing has a project, and what it selects is in it. -/
theorem exists_load_of_selects {descriptor : FilePath} {text : String} {d : Descriptor}
    {below : Files.Location} (h : disk.IsTree) (hroot : (rootOf descriptor).text ≠ "")
    (hinput : (rootOf descriptor).isStandardInput = false)
    (htext : disk.readText descriptor = .ok text) (hd : Descriptor.ofText text = .ok d)
    (hfiles : d.files = none)
    (hpatterns : ∀ pattern ∈ d.includePatterns ++ d.excludePatterns,
      (Glob.Pattern.parse (expandPattern d.options.allowJs pattern)).isOk = true)
    (hbelow : Selects disk (rootOf descriptor) d below) :
    ∃ project, load disk descriptor = .ok project ∧ project.root = rootOf descriptor ∧
      project.allowJs = d.options.allowJs ∧
      (rootOf descriptor).join ⟨relativeText below⟩ ∈ project.files := by
  have hall : ¬ ListsAll d := by
    rintro (hnone | ⟨-, hsome⟩)
    · obtain ⟨pattern, hpattern, -⟩ := hbelow.included
      rw [hnone] at hpattern
      cases hpattern
    · exact hsome hfiles
  obtain ⟨includes, hincludes, hin⟩ := compilePatterns_spec descriptor fun pattern hp =>
    hpatterns pattern (List.mem_append_left _ hp)
  obtain ⟨excludes, hexcludes, hout⟩ := compilePatterns_spec descriptor fun pattern hp =>
    hpatterns pattern (List.mem_append_right _ hp)
  rw [includePatterns_of_not_listsAll hall] at hin
  rw [excludePatterns_eq] at hout
  have hload := load_of_select htext hd
    (select_of_compiled hall hincludes hexcludes disk (rootOf descriptor))
  refine ⟨_, hload, rfl, rfl, List.mem_append_right _ ?_⟩
  have hlisted : listed (rootOf descriptor) d = [] := by simp [listed, hfiles]
  rw [firstOnly_of_nodup _ (matchedFiles_nodup h hroot), List.mem_filter, hlisted]
  exact ⟨(mem_matchedFiles h hinput hin hout).2 ⟨below, hbelow, rfl⟩, rfl⟩

/-- The files of a project are the listed ones and behind them, in order, those that its patterns
select and that are not listed; but none of these if the directory is taken for the standard
input. -/
theorem load_selects {descriptor : FilePath} {text : String} {d : Descriptor} (h : disk.IsTree)
    (hroot : (rootOf descriptor).text ≠ "") (htext : disk.readText descriptor = .ok text)
    (hd : Descriptor.ofText text = .ok d)
    (hpatterns : ∀ pattern ∈ d.includePatterns ++ d.excludePatterns,
      (Glob.Pattern.parse (expandPattern d.options.allowJs pattern)).isOk = true) :
    let root := rootOf descriptor
    ∃ selected,
      load disk descriptor =
        .ok ⟨root, descriptor, d.options.allowJs, listed root d ++ selected⟩ ∧
      (ListsAll d ∨ root.isStandardInput = true → selected = []) ∧
      (¬ ListsAll d → root.isStandardInput = false → ∀ p, p ∈ selected ↔
        (∃ below, Selects disk root d below ∧ p = root.join ⟨relativeText below⟩) ∧
          ∀ q ∈ listed root d, q.key ≠ p.key) ∧
      selected.Pairwise (fun p q => p.key < q.key) ∧
      ((listed root d ++ selected).map (·.key)).Nodup ∧
      ∀ disk', disk.Reordered disk' → load disk' descriptor = load disk descriptor := by
  intro root
  have hreordered : ∀ disk', disk.Reordered disk' → load disk' descriptor = load disk descriptor :=
    fun disk' hp => load_reordered hp h descriptor
  by_cases hall : ListsAll d
  · have hload := load_of_listsAll htext hd hall
    have hnodup := load_nodup hload
    refine ⟨[], ?_, fun _ => rfl, fun hnot => absurd hall hnot, List.Pairwise.nil, ?_, hreordered⟩
    · rw [List.append_nil]
      exact hload
    · rw [List.append_nil]
      exact hnodup
  · obtain ⟨includes, hincludes, hin⟩ := compilePatterns_spec descriptor fun pattern hp =>
      hpatterns pattern (List.mem_append_left _ hp)
    obtain ⟨excludes, hexcludes, hout⟩ := compilePatterns_spec descriptor fun pattern hp =>
      hpatterns pattern (List.mem_append_right _ hp)
    have hload := load_of_select htext hd (select_of_compiled hall hincludes hexcludes disk root)
    have hnodup := load_nodup hload
    rw [includePatterns_of_not_listsAll hall] at hin
    rw [excludePatterns_eq] at hout
    have hselected : firstOnly ((listed root d).map (·.key))
          (matchedFiles disk root d.options.allowJs includes excludes) =
        (matchedFiles disk root d.options.allowJs includes excludes).filter fun p =>
          !((listed root d).map (·.key)).contains p.key :=
      firstOnly_of_nodup _ (matchedFiles_nodup h hroot)
    refine ⟨_, hload, fun hnone => ?_, fun _ hinput p => ?_, ?_, hnodup, hreordered⟩
    · rw [hselected, matchedFiles_of_isStandardInput (hnone.resolve_left hall), List.filter_nil]
    · rw [hselected, List.mem_filter, mem_matchedFiles h hinput hin hout]
      simp
    · rw [hselected]
      exact (matchedFiles_pairwise h hroot).sublist List.filter_sublist

/-! ## A tree to select from -/

/-- The tree holds a file in a selected directory and one in a directory that is not entered; the
descriptor lists a file that is not there. -/
def sampleTree : Files.Disk :=
  ⟨[(["w"], .directory), (["w", "src"], .directory), (["w", "src", "b.ts"], .file .empty),
    (["w", "node_modules"], .directory), (["w", "node_modules", "c.ts"], .file .empty),
    (["w", "p.json"], .file "\x7b\"include\":[\"src\"],\"files\":[\"z.ts\"]\x7d".toUTF8)], []⟩

def sampleDescriptor : Descriptor := ⟨some ["z.ts"], some ["src"], none, ⟨false, none⟩⟩

/-- A file beside a descriptor that selects all files, in a directory with the name of the standard
input. -/
def dashTree : Files.Disk :=
  ⟨[(["-"], .directory), (["-", "a.ts"], .file .empty),
    (["-", "tsconfig.json"], .file "\x7b\x7d".toUTF8)], []⟩

def bareDescriptor : Descriptor := ⟨none, none, none, ⟨false, none⟩⟩

theorem ofText_bareDescriptor : Descriptor.ofText "\x7b\x7d" = .ok bareDescriptor := rfl

theorem readText_dashTree : dashTree.readText ⟨"-/tsconfig.json"⟩ = .ok "\x7b\x7d" := by
  have hlocate : dashTree.locate ⟨"-/tsconfig.json"⟩ true = .ok ["-", "tsconfig.json"] :=
    Files.Disk.locate_of_segments rfl (Files.Disk.startOf_of_relative rfl)
      (show _ = ["-", "tsconfig.json"] from rfl) (by cbv)
  exact Files.Disk.readText_of_locate hlocate rfl (by cbv)

theorem readText_sampleTree : sampleTree.readText ⟨"/w/p.json"⟩ =
    .ok "\x7b\"include\":[\"src\"],\"files\":[\"z.ts\"]\x7d" := by
  have hlocate : sampleTree.locate ⟨"/w/p.json"⟩ true = .ok ["w", "p.json"] :=
    Files.Disk.locate_of_segments rfl (Files.Disk.startOf_of_isAbsolute rfl)
      (show _ = ["", "w", "p.json"] from rfl) (by cbv)
  exact Files.Disk.readText_of_locate hlocate rfl (by cbv)

theorem selects_sampleTree : Selects sampleTree ⟨"/w"⟩ sampleDescriptor ["src", "b.ts"] where
  below_root := by decide
  regular := ⟨["w"], .empty, Files.Disk.locate_of_segments rfl
    (Files.Disk.startOf_of_isAbsolute rfl) (show _ = ["", "w"] from rfl) (by cbv), rfl⟩
  plain := by decide
  entered := by decide
  source := rfl
  included := by decide +kernel
  kept := by decide +kernel

/-- The listed file comes first, and a file of the selected directory is found; but not the one in
the directory that is written `-`. -/
theorem load_sampleTree :
    (∃ selected, load sampleTree ⟨"/w/p.json"⟩ =
        .ok ⟨⟨"/w"⟩, ⟨"/w/p.json"⟩, false, ⟨"/w/z.ts"⟩ :: selected⟩ ∧
      ⟨"/w/src/b.ts"⟩ ∈ selected ∧ selected.Pairwise (fun p q => p.key < q.key)) ∧
    load dashTree ⟨"-/tsconfig.json"⟩ = .ok ⟨⟨"-"⟩, ⟨"-/tsconfig.json"⟩, false, []⟩ := by
  have hd : Descriptor.ofText "\x7b\"include\":[\"src\"],\"files\":[\"z.ts\"]\x7d" =
    .ok sampleDescriptor := by decide +kernel
  have hroot : rootOf ⟨"/w/p.json"⟩ = ⟨"/w"⟩ := rfl
  have hlisted : listed ⟨"/w"⟩ sampleDescriptor = [⟨"/w/z.ts"⟩] := by decide +kernel
  have htree : sampleTree.IsTree := by decide
  obtain ⟨selected, hload, -, hmem, hsorted, -⟩ := load_selects htree
    (by rw [hroot]; decide) readText_sampleTree hd (by decide +kernel)
  rw [hroot, hlisted] at hload hmem
  refine ⟨⟨selected, hload, ?_, hsorted⟩, ?_⟩
  · refine (hmem (by simp [ListsAll, sampleDescriptor]) (by decide +kernel) _).2
      ⟨⟨["src", "b.ts"], selects_sampleTree, ?_⟩, ?_⟩
    · decide +kernel
    · decide +kernel
  · have hdash : rootOf ⟨"-/tsconfig.json"⟩ = ⟨"-"⟩ := by decide +kernel
    obtain ⟨selected, hload, hnone, -⟩ := load_selects (by decide) (by rw [hdash]; decide)
      readText_dashTree ofText_bareDescriptor (by decide +kernel)
    rw [hdash] at hload hnone
    rw [hload, hnone (Or.inr (by decide +kernel))]
    rfl

end Project
end ClassAtlas
