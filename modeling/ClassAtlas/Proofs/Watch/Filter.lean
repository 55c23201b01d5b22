import ClassAtlas.Proofs.Files.Canonical
import ClassAtlas.Proofs.Project.Spelling
import ClassAtlas.Watch.Filter

/-!
# Watching and loading agree

The filter of a watched root and the walk of a project both leave out what is hidden, each by paths
of its own making. `forwards_exactly`: an event is forwarded for the files that lie below the root
with no hidden name on the way, in the form that was given or in the canonical form, whichever form
a path has. That the filter tries the given form first makes no difference, since the canonical
form of a root is never properly below it.

So a file that a project of that directory has found by walking is never lost to the filter, and
nothing is forwarded that is hidden below the root. The names above the root do not count.
-/
namespace ClassAtlas

namespace Project

/-- The files of a project that are not listed were met by walking from its root. -/
theorem walked_of_load {disk : Files.Disk} {descriptor q : FilePath} {text : String}
    {d : Descriptor} {project : Project} (htext : disk.readText descriptor = .ok text)
    (hd : Descriptor.ofText text = .ok d) (hload : load disk descriptor = .ok project)
    (hq : q ∈ project.files) (hlisted : q ∉ listedFiles project.root d) :
    ∃ below ∈ disk.walkFrom project.root skippedDirectories,
      q = project.root.join ⟨relativeText below⟩ := by
  rw [load_eq, htext] at hload
  simp only [hd] at hload
  cases hselect : select disk (rootOf descriptor) descriptor d with
  | error e => simp [hselect, Except.map] at hload
  | ok files =>
    rw [hselect] at hload
    obtain rfl := Except.ok.inj hload
    simp only at hq hlisted ⊢
    rcases select_cases d with ⟨e, he⟩ | hall | ⟨includes, excludes, hmatched⟩
    · rw [he] at hselect
      cases hselect
    · rw [hall] at hselect
      rw [← Except.ok.inj hselect] at hq
      exact absurd hq hlisted
    · rw [hmatched] at hselect
      rw [← Except.ok.inj hselect, addNew] at hq
      have hfound := mem_of_mem_firstOnly ((List.mem_append.1 hq).resolve_left hlisted)
      obtain ⟨below, hbelow, rfl⟩ := List.mem_map.1 hfound
      exact ⟨below, (List.mem_filter.1 hbelow).1, rfl⟩

end Project

namespace Watch

/-! ## Events -/

/-- An event of this kind tells of a write: a file comes into being, or something other than its
attributes changes. -/
def Writes (k : EventKind) : Prop :=
  k = .create .file ∨ k = .create .any ∨ ∃ m, k = .modify m ∧ m ≠ .metadata

theorem isWrite_iff {k : EventKind} : k.isWrite = true ↔ Writes k := by
  unfold Writes EventKind.isWrite
  cases k with
  | create c => cases c <;> simp
  | modify m => cases m <;> simp
  | any | access | remove | other => simp

/-! ## Paths below a root -/

/-- A path lies below another one, and no name on the way from there is hidden. -/
def LiesOpen (base p : FilePath) : Prop :=
  base.key <+: p.key ∧ ∀ c ∈ p.key.drop base.key.length, c.isHidden = false

instance (base p : FilePath) : Decidable (LiesOpen base p) := inferInstanceAs (Decidable (_ ∧ _))

theorem liesOpen_iff {base p : FilePath} : LiesOpen base p ↔
    ∃ below, p.key = base.key ++ below ∧ ∀ c ∈ below, c.isHidden = false := by
  constructor
  · rintro ⟨⟨below, hbelow⟩, hopen⟩
    refine ⟨below, hbelow.symm, ?_⟩
    rwa [← hbelow, List.drop_left] at hopen
  · rintro ⟨below, hbelow, hopen⟩
    refine ⟨⟨below, hbelow.symm⟩, ?_⟩
    rwa [hbelow, List.drop_left]

/-- What lies open below a path lies open below every path on the way. -/
theorem LiesOpen.of_between {base mid p : FilePath} (h : LiesOpen base p)
    (hmid : base.key <+: mid.key) (hp : mid.key <+: p.key) : LiesOpen mid p := by
  obtain ⟨below, hbelow, hopen⟩ := liesOpen_iff.1 h
  obtain ⟨above, habove⟩ := hmid
  obtain ⟨rest, hrest⟩ := hp
  refine liesOpen_iff.2 ⟨rest, hrest.symm, fun c hc => hopen c ?_⟩
  have hsplit : below = above ++ rest := by
    rw [← hrest, ← habove, List.append_assoc] at hbelow
    exact (List.append_cancel_left hbelow).symm
  exact hsplit ▸ List.mem_append_right _ hc

theorem below?_eq (base p : FilePath) : base.below? p =
    if base.key <+: p.key then some (p.key.drop base.key.length) else none := by
  unfold FilePath.below?
  simp only [List.isPrefixOf_iff_prefix]

namespace Filter

/-- The forms of the watched root. -/
def forms (f : Filter) : List FilePath := f.root :: f.canonicalRoot?.toList

/-- The path is one of a regular file that lies open below the root. -/
def Counts (f : Filter) (disk : Files.Disk) (p : FilePath) : Prop :=
  (∃ form ∈ f.forms, LiesOpen form p) ∧ disk.isFile p = true

instance (f : Filter) (disk : Files.Disk) (p : FilePath) : Decidable (f.Counts disk p) :=
  inferInstanceAs (Decidable (_ ∧ _))

/-- What lies open below the canonical form, and below the given one at all, lies open there: the
canonical form is not properly below the given one. -/
theorem liesOpen_root {f : Filter}
    (h : ∀ c ∈ f.canonicalRoot?, f.root.key <+: c.key → f.root.key = c.key) {form p : FilePath}
    (hform : form ∈ f.forms) (hopen : LiesOpen form p) (hroot : f.root.key <+: p.key) :
    LiesOpen f.root p := by
  rcases List.mem_cons.1 hform with rfl | hcanonical
  · exact hopen
  · rcases List.prefix_or_prefix_of_prefix hroot hopen.1 with habove | hbelow
    · have hkey := h form (Option.mem_toList.1 hcanonical) habove
      unfold LiesOpen
      rwa [hkey]
    · exact hopen.of_between hbelow hroot

theorem accepts_iff {f : Filter}
    (h : ∀ c ∈ f.canonicalRoot?, f.root.key <+: c.key → f.root.key = c.key)
    (disk : Files.Disk) (p : FilePath) : f.accepts disk p = true ↔ f.Counts disk p := by
  have hbelow : ∀ form : FilePath, form.key <+: p.key → f.relative? p = form.below? p →
      (f.accepts disk p = true ↔ LiesOpen form p ∧ disk.isFile p = true) := by
    intro form hform hrelative
    unfold accepts LiesOpen
    rw [hrelative, below?_eq, if_pos hform]
    simp [hform]
  unfold Counts
  by_cases hroot : f.root.key <+: p.key
  · have hrelative : f.relative? p = f.root.below? p := by
      unfold relative?
      rw [below?_eq, if_pos hroot]
      rfl
    rw [hbelow f.root hroot hrelative]
    refine and_congr_left fun _ => ⟨fun hopen => ⟨f.root, List.mem_cons_self, hopen⟩, ?_⟩
    rintro ⟨form, hform, hopen⟩
    exact liesOpen_root h hform hopen hroot
  · have hrelative : f.relative? p = f.canonicalRoot?.bind (·.below? p) := by
      unfold relative?
      rw [below?_eq f.root, if_neg hroot]
      rfl
    have hforms : (∃ form ∈ f.forms, LiesOpen form p) ↔
        ∃ c, f.canonicalRoot? = some c ∧ LiesOpen c p := by
      unfold forms
      simp only [List.mem_cons, exists_eq_or_imp, Option.mem_toList]
      refine or_iff_right fun hopen => hroot hopen.1
    rw [hforms]
    cases hcanonical : f.canonicalRoot? with
    | none =>
      unfold accepts
      rw [hrelative, hcanonical]
      simp
    | some c =>
      rw [hcanonical, Option.bind_some] at hrelative
      simp only [Option.some.injEq, exists_eq_left']
      by_cases hc : c.key <+: p.key
      · exact hbelow c hc hrelative
      · unfold accepts
        rw [hrelative, below?_eq, if_neg hc]
        simp [LiesOpen, hc]

theorem changed_eq {f : Filter}
    (h : ∀ c ∈ f.canonicalRoot?, f.root.key <+: c.key → f.root.key = c.key)
    (disk : Files.Disk) (e : Event) :
    (Writes e.kind → f.changed disk e = e.paths.filter fun p => decide (f.Counts disk p)) ∧
    (¬ Writes e.kind → f.changed disk e = []) := by
  unfold changed
  rw [← isWrite_iff]
  refine ⟨fun hwrites => ?_, fun hwrites => if_neg hwrites⟩
  rw [if_pos hwrites]
  exact List.filter_congr fun p _ => by rw [Bool.eq_iff_iff, accepts_iff h, decide_eq_true_iff]

/-- The canonical form of a root that is written is not properly below it. -/
theorem new_apart {disk : Files.Disk} (h : disk.IsTree) {root : FilePath} (hroot : root.text ≠ "") :
    ∀ c ∈ (new disk root).canonicalRoot?, (new disk root).root.key <+: c.key →
      (new disk root).root.key = c.key :=
  fun _ hc hbelow => Files.Disk.eq_of_canonical?_below h hroot hc hbelow

theorem text_ne_of_mem_forms {disk : Files.Disk} {root : FilePath} (hroot : root.text ≠ "")
    {form : FilePath} (hform : form ∈ (new disk root).forms) : form.text ≠ "" := by
  rcases List.mem_cons.1 hform with rfl | hcanonical
  · exact hroot
  · obtain ⟨l, -, rfl⟩ := Files.Disk.exists_of_canonical? (Option.mem_toList.1 hcanonical)
    simp [Files.Disk.topPath]

/-- What a walk meets lies open behind every path. -/
theorem liesOpen_of_walked {disk : Files.Disk} (h : disk.IsTree) {root form p : FilePath}
    (hform : form.text ≠ "") {names : Files.Location}
    (hnames : names ∈ disk.walkFrom root skippedDirectories)
    (hp : p.key = (form.join ⟨Project.relativeText names⟩).key) : LiesOpen form p := by
  obtain ⟨-, hne, -, hopen, -⟩ := (Files.Disk.mem_walkFrom h).1 hnames
  have hvalid := Files.Disk.isName_of_mem_walkFrom h hnames
  refine liesOpen_iff.2 ⟨names.map .name, hp.trans (FilePath.key_join_names hform hne hvalid), ?_⟩
  intro c hc
  obtain ⟨name, hname, rfl⟩ := List.mem_map.1 hc
  exact hopen name hname

/-- What a walk meets is a regular file, by every path that leads where the walk began. -/
theorem isFile_of_walked {disk : Files.Disk} (h : disk.IsTree) {root form : FilePath}
    (hsame : disk.locate form true = disk.locate root true) {names : Files.Location}
    (hnames : names ∈ disk.walkFrom root skippedDirectories)
    (husable : Files.Disk.Usable (form.join ⟨Project.relativeText names⟩)) :
    disk.isFile (form.join ⟨Project.relativeText names⟩) = true := by
  obtain ⟨-, hne, ⟨top, content, htop, hfile⟩, -⟩ := (Files.Disk.mem_walkFrom h).1 hnames
  have hlocate := Files.Disk.locate_join h (hsame.trans htop) hne ⟨_, hfile, nofun⟩ husable
  have hfind : disk.find (form.join ⟨Project.relativeText names⟩) = .ok (.file content) :=
    Files.Disk.find_eq_ok_iff.2 ⟨_, hlocate, hfile⟩
  unfold Files.Disk.isFile
  rw [hfind]

/-- **What is forwarded.** Of an event that tells of a write, in its order, the paths of regular
files that lie open below the root in either form, and of other events nothing.

So of every file that a project has found by walking a write is forwarded, by all paths that lie as
far below either form of the root as the file lies below the root of the project. These do name the
file if the form leads to the root of the project, as the canonical form does when the watch begins;
only a path that the system does not take names none. And nothing is forwarded that lies below the
root and is hidden there. -/
theorem forwards_exactly (start : Files.Disk) (h : start.IsTree) (root : FilePath)
    (hroot : root.text ≠ "") :
    let f := new start root
    (∀ disk e,
      (Writes e.kind → f.changed disk e = e.paths.filter fun p => decide (f.Counts disk p)) ∧
      (¬ Writes e.kind → f.changed disk e = [])) ∧
    (∀ disk descriptor text d project, disk.IsTree →
      disk.readText descriptor = .ok text → Descriptor.ofText text = .ok d →
      Project.load disk descriptor = .ok project →
      ∀ q ∈ project.files, q ∉ Project.listedFiles project.root d →
      ∃ names ∈ disk.walkFrom project.root skippedDirectories,
        let below : FilePath := ⟨Project.relativeText names⟩
        q = project.root.join below ∧ ∀ form ∈ f.forms,
          (∀ p, p.key = (form.join below).key → disk.isFile p = true →
            ∀ e, Writes e.kind → p ∈ e.paths → p ∈ f.changed disk e) ∧
          (disk.locate form true = disk.locate project.root true →
            Files.Disk.Usable (form.join below) → disk.isFile (form.join below) = true)) ∧
    (∀ canonical ∈ f.canonicalRoot?, Files.Disk.Usable canonical →
      start.locate canonical true = start.locate root true) ∧
    ∀ form ∈ f.forms, ∀ p, form.key <+: p.key → ¬ LiesOpen form p →
      form = root ∨ ¬ root.key <+: p.key → ∀ disk e, p ∉ f.changed disk e := by
  intro f
  have happart := new_apart h hroot
  have hchanged : ∀ disk e, _ := fun disk e => changed_eq happart disk e
  refine ⟨hchanged, ?_, fun canonical hc => Files.Disk.locate_canonical? h hc, ?_⟩
  · intro disk descriptor text d project htree htext hd hload q hq hlisted
    obtain ⟨names, hnames, hjoin⟩ := Project.walked_of_load htext hd hload hq hlisted
    refine ⟨names, hnames, hjoin, fun form hform => ⟨?_, ?_⟩⟩
    · intro p hp hfile e hwrites hmem
      have hopen := liesOpen_of_walked htree (text_ne_of_mem_forms hroot hform) hnames hp
      rw [(hchanged disk e).1 hwrites, List.mem_filter, decide_eq_true_iff]
      exact ⟨hmem, ⟨form, hform, hopen⟩, hfile⟩
    · intro hsame husable
      exact isFile_of_walked htree hsame hnames husable
  · intro form hform p hbelow hhidden hfirst disk e hmem
    have hwrites : Writes e.kind := by
      by_contra hwrites
      rw [(hchanged disk e).2 hwrites] at hmem
      cases hmem
    rw [(hchanged disk e).1 hwrites, List.mem_filter, decide_eq_true_iff] at hmem
    obtain ⟨form', hform', hopen⟩ := hmem.2.1
    rcases hfirst with rfl | hapart
    · exact hhidden (liesOpen_root happart hform' hopen hbelow)
    · -- then both are the canonical form
      have hcanonical : ∀ form ∈ f.forms, form.key <+: p.key → form ∈ f.canonicalRoot? := by
        intro form hform hbelow
        rcases List.mem_cons.1 hform with rfl | hmem
        · exact absurd hbelow hapart
        · exact Option.mem_toList.1 hmem
      obtain rfl := Option.mem_unique (hcanonical form hform hbelow)
        (hcanonical form' hform' hopen.1)
      exact hhidden hopen

/-! ## A root below a hidden name -/

/-- The working directory is hidden, and it has a hidden directory. -/
def hiddenHome : Files.Disk :=
  ⟨[([".w"], .directory), ([".w", "a.ts"], .file .empty), ([".w", ".git"], .directory),
    ([".w", ".git", "b.ts"], .file .empty),
    ([".w", "tsconfig.json"], .file "\x7b\x7d".toUTF8)], [".w"]⟩

theorem locate_hiddenHome : hiddenHome.locate ⟨"."⟩ true = .ok [".w"] :=
  Files.Disk.locate_of_segments rfl (Files.Disk.startOf_of_relative rfl)
    (show _ = ["."] from rfl) (by cbv)

theorem readText_hiddenHome : hiddenHome.readText ⟨"./tsconfig.json"⟩ = .ok "\x7b\x7d" := by
  have hlocate : hiddenHome.locate ⟨"./tsconfig.json"⟩ true = .ok [".w", "tsconfig.json"] :=
    Files.Disk.locate_of_segments rfl (Files.Disk.startOf_of_relative rfl)
      (show _ = [".", "tsconfig.json"] from rfl) (by cbv)
  exact Files.Disk.readText_of_locate hlocate rfl (by cbv)

theorem selects_hiddenHome :
    Project.Selects hiddenHome ⟨"."⟩ Project.bareDescriptor ["a.ts"] where
  below_root := by decide
  regular := ⟨[".w"], .empty, locate_hiddenHome, rfl⟩
  plain := by decide
  entered := by decide
  source := rfl
  included := by decide +kernel
  kept := by decide +kernel

/-- The names above the root do not count, and its canonical form does. -/
theorem forwards_exactly_hiddenHome :
    hiddenHome.IsTree ∧
    (∃ project, Project.load hiddenHome ⟨"./tsconfig.json"⟩ = .ok project ∧
      ⟨"./a.ts"⟩ ∈ project.files) ∧
    ∀ e, Writes e.kind →
      (⟨"/.w/a.ts"⟩ ∈ e.paths → ⟨"/.w/a.ts"⟩ ∈ (new hiddenHome ⟨"."⟩).changed hiddenHome e) ∧
      ⟨"./.git/b.ts"⟩ ∉ (new hiddenHome ⟨"."⟩).changed hiddenHome e := by
  have htree : hiddenHome.IsTree := by decide
  have hroot : Project.rootOf ⟨"./tsconfig.json"⟩ = ⟨"."⟩ := rfl
  have hcanonical : hiddenHome.canonical? ⟨"."⟩ = some ⟨"/.w"⟩ := by
    rw [Files.Disk.canonical?, locate_hiddenHome]
    decide +kernel
  obtain ⟨project, hload, hplace, -, hmem⟩ := Project.exists_load_of_selects htree
    (by decide +kernel) (by decide +kernel) readText_hiddenHome Project.ofText_bareDescriptor rfl
    (by decide +kernel) (hroot ▸ selects_hiddenHome)
  rw [hroot] at hplace hmem
  obtain ⟨-, hwalked, hsame, hhidden⟩ := forwards_exactly hiddenHome htree ⟨"."⟩ (by decide)
  refine ⟨htree, ⟨project, hload, hmem⟩, fun e hwrites => ⟨fun he => ?_, ?_⟩⟩
  · obtain ⟨names, hnames, hjoin, hforms⟩ := hwalked _ _ _ _ project htree readText_hiddenHome
      Project.ofText_bareDescriptor hload _ hmem (by rw [hplace]; decide +kernel)
    have hvalid := Files.Disk.isName_of_mem_walkFrom htree hnames
    obtain ⟨-, hne, -⟩ := (Files.Disk.mem_walkFrom htree).1 hnames
    obtain rfl : names = ["a.ts"] := by
      rw [hplace] at hjoin
      have hkey := congrArg FilePath.key hjoin
      unfold Project.relativeText at hkey
      rw [FilePath.key_join_names (by decide) (by decide) (by decide),
        FilePath.key_join_names (by decide) hne hvalid, List.append_cancel_left_eq] at hkey
      exact (List.map_injective_iff.2 (fun _ _ => Component.name.inj) hkey).symm
    have hform : (⟨"/.w"⟩ : FilePath) ∈ (new hiddenHome ⟨"."⟩).forms :=
      List.mem_cons_of_mem _ (Option.mem_toList.2 hcanonical)
    have hlocate := hsame _ hcanonical (by decide +kernel)
    rw [← hplace] at hlocate
    have hfile := (hforms _ hform).2 hlocate (by decide +kernel)
    exact (hforms _ hform).1 _ rfl hfile e hwrites he
  · exact hhidden ⟨"."⟩ List.mem_cons_self ⟨"./.git/b.ts"⟩ (by decide +kernel) (by decide +kernel)
      (Or.inl rfl) hiddenHome e

end Filter

end Watch
end ClassAtlas
