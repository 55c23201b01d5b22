import ClassAtlas.Proofs.Extraction.Edges
import ClassAtlas.Proofs.Project.Spelling
import ClassAtlas.Text.Search

/-!
# Where JavaScript comes from

Two tables know the extensions of JavaScript: the one that files are selected by, which asks for
`allowJs`, and the one of the dialects, which does not. They agree (`ofPath?_eq_javaScript_iff`), so
a file below the directory of a project that is read as JavaScript was selected by the first table.

Files that a descriptor lists go past it. Without `allowJs` the JavaScript of a project is therefore
what its descriptor lists, and nothing else (`scripts_of_load`), and a cache changes nothing about
that: whatever earlier passes have left in it, a pass adds models of the files of its own project
alone, each made of contents with the digest of what is read there. `scripts_listed`: after any
history, every model in the result that is of a JavaScript file is of one that is listed; and with
digests that tell contents apart, the result is what these files hold at the time of the pass.

A class has its name from the text of its file (`occursIn_of_extract`), so a name that no file of
the project holds is not in the result.
-/
namespace ClassAtlas

/-! ## Extensions behind a directory -/

namespace FilePath

/-- A relative path has the components that it adds behind another one, but for a dot in front. -/
theorem key_of_relative {p : FilePath} (h : p.isAbsolute = false) :
    p.key = p.behind ∨ p.key = .here :: p.behind := by
  have hbehind : p.behind = p.segments.filterMap innerComponent? := by
    rw [behind, if_neg (by simp [h])]
  rw [hbehind, key_eq, h]
  cases p.segments with
  | nil => exact Or.inl rfl
  | cons s rest =>
    by_cases hs : s = "."
    · exact Or.inr (by simp [componentsOf, firstComponent?, innerComponent?, hs])
    · refine Or.inl ?_
      cases hinner : innerComponent? s <;> simp [componentsOf, firstComponent?, hs, hinner]

/-- A name at the end of a path is there behind a directory too. -/
theorem fileName?_join (p : FilePath) {q : FilePath} {name : String} (h : q.fileName? = some name) :
    (p.join q).fileName? = some name := by
  have hlast : q.key.getLast? = some (.name name) := by
    unfold fileName? at h
    split at h
    · rename_i s hs
      rw [← Option.some.inj h]
      exact hs
    · cases h
  cases hq : q.isAbsolute with
  | true => rwa [join, if_pos hq]
  | false =>
    by_cases hp : p.text = ""
    · have hjoin : p.join q = q := by
        rw [join, if_neg (by simp [hq]), if_pos (by simp [hp]), hp, String.empty_append]
      rwa [hjoin]
    · have hbehind : q.behind.getLast? = some (.name name) := by
        rcases key_of_relative hq with hkey | hkey
        · rwa [← hkey]
        · rw [hkey] at hlast
          cases hb : q.behind with
          | nil => simp [hb] at hlast
          | cons c cs => rwa [hb, List.getLast?_cons_cons] at hlast
      unfold fileName?
      rw [show (p.join q).components = p.key ++ q.behind from key_join hp hq,
        List.getLast?_append, hbehind]
      rfl

theorem extension?_join (p : FilePath) {q : FilePath} {e : String} (h : q.extension? = some e) :
    (p.join q).extension? = some e := by
  obtain ⟨name, hname, he⟩ := Option.bind_eq_some_iff.1 h
  exact Option.bind_eq_some_iff.2 ⟨name, fileName?_join p hname, he⟩

/-- Whether a path has an extension of JavaScript. -/
def isScript (p : FilePath) : Bool := (p.extension?.map plainExtensions.contains).getD false

theorem isScript_iff {p : FilePath} :
    p.isScript = true ↔ ∃ e ∈ plainExtensions, p.extension? = some e := by
  unfold isScript
  cases p.extension? with
  | none => simp
  | some e => simp

end FilePath

/-- The dialects know the same extensions of JavaScript as the projects do. -/
theorem Dialect.ofPath?_eq_javaScript_iff {p : FilePath} :
    Dialect.ofPath? p = some .javaScript ↔ p.isScript = true := by
  rw [FilePath.isScript_iff]
  unfold Dialect.ofPath? Dialect.ofExtension?
  cases p.extension? with
  | none => simp
  | some e =>
    simp only [Option.bind_some, Option.some.injEq, exists_eq_right']
    constructor
    · intro h
      split at h
      · cases h
      · split at h
        · cases h
        · split at h
          · rename_i hplain
            exact List.contains_iff_mem.1 hplain
          · cases h
    · intro h
      simp only [plainExtensions, List.mem_cons, List.not_mem_nil, or_false] at h
      rcases h with rfl | rfl | rfl | rfl <;> decide

/-! ## Projects -/

namespace Project

variable {disk : Files.Disk} {root descriptor p : FilePath} {d : Descriptor}
  {files : List FilePath}

/-- Without `allowJs` no JavaScript is found below the root. -/
theorem not_isScript_of_mem_matchedFiles {includes excludes : List Glob.Pattern}
    (h : p ∈ matchedFiles disk root false includes excludes) : p.isScript = false := by
  obtain ⟨below, hbelow, rfl⟩ := List.mem_map.1 h
  have hsource : isSourceFile false ⟨relativeText below⟩ = true := by
    have hkept := (List.mem_filter.1 hbelow).2
    simp only [Bool.and_eq_true] at hkept
    exact hkept.1.1
  unfold isSourceFile at hsource
  cases he : FilePath.extension? ⟨relativeText below⟩ with
  | none => simp [he] at hsource
  | some e =>
    have htyped : e ∈ typedExtensions := by simpa [he, isSourceExtension] using hsource
    rw [Bool.eq_false_iff, ne_eq, FilePath.isScript_iff, FilePath.extension?_join root he]
    rintro ⟨e', hplain, heq⟩
    cases heq
    simp only [typedExtensions, List.mem_cons, List.not_mem_nil, or_false] at htyped
    rcases htyped with rfl | rfl | rfl | rfl <;> exact absurd hplain (by decide)

/-- Without `allowJs` the JavaScript of a project is what its descriptor lists. -/
theorem scripts_of_select (hjs : d.options.allowJs = false)
    (h : select disk root descriptor d = .ok files) :
    files.filter FilePath.isScript = (listed root d).filter FilePath.isScript := by
  rcases select_cases d with ⟨e, he⟩ | hall | ⟨includes, excludes, hselect⟩
  · rw [he] at h
    cases h
  · rw [hall] at h
    rw [← Except.ok.inj h, listedFiles_eq]
  · rw [hselect, hjs] at h
    have hfound : ∀ p ∈ firstOnly ((listedFiles root d).map (·.key))
        (matchedFiles disk root false includes excludes), ¬ p.isScript = true := by
      intro p hp
      simpa using not_isScript_of_mem_matchedFiles (mem_of_mem_firstOnly hp)
    rw [← Except.ok.inj h, addNew, List.filter_append, List.filter_eq_nil_iff.2 hfound,
      List.append_nil, listedFiles_eq]

theorem scripts_of_load {text : String} {project : Project}
    (htext : disk.readText descriptor = .ok text) (hd : Descriptor.ofText text = .ok d)
    (hjs : d.options.allowJs = false) (h : load disk descriptor = .ok project) :
    project.files.filter FilePath.isScript =
      (listed (rootOf descriptor) d).filter FilePath.isScript := by
  rw [load_eq, htext] at h
  simp only [hd] at h
  cases hselect : select disk (rootOf descriptor) descriptor d with
  | error e => simp [hselect, Except.map] at h
  | ok files =>
    rw [hselect] at h
    rw [← Except.ok.inj h]
    exact scripts_of_select hjs hselect

end Project

/-! ## Names from the text -/

theorem Syntax.Text.occursIn_of (s : Syntax.Text) (t : Syntax.Tree) :
    ClassAtlas.Text.occursIn (s.of t).toList s.chars.toList = true := by
  let upTo := s.chars.toList.take t.info.stop
  have hof : (s.of t).toList = upTo.drop t.info.start.offset := by
    simp [upTo, Syntax.Text.of, List.extract_eq_take_drop, List.drop_take]
  refine ClassAtlas.Text.occursIn_iff.2
    ⟨upTo.take t.info.start.offset, s.chars.toList.drop t.info.stop, ?_⟩
  rw [hof, List.take_append_drop, List.take_append_drop]

theorem displayName_eq_or (name : Option String) :
    displayName name = unnamedClass ∨ name = some (displayName name) := by
  cases name with
  | none => exact Or.inl rfl
  | some n =>
    by_cases h : n.isEmpty = true
    · exact Or.inl (if_pos h)
    · exact Or.inr (congrArg some (if_neg h).symm)

/-- A class is shown by a name that occurs in the text of its file, or as one without a name. -/
theorem occursIn_of_extract {path : FilePath} {content : ByteArray} {m : Model}
    (h : extract path content = .ok m) :
    ∃ text, String.fromUTF8? content = some text ∧ ∀ c ∈ m.classes,
      c.name = unnamedClass ∨ Text.occursIn c.name.toList text.toList = true := by
  obtain ⟨d, text, -, htext, -, rfl⟩ := exists_tree_of_extract h
  refine ⟨text, htext, fun c hc => ?_⟩
  obtain ⟨decl, hdecl, rfl⟩ := List.mem_map.1 hc
  obtain ⟨t, -, rfl⟩ := List.mem_map.1 hdecl
  have hname : (Syntax.Text.classDecl ⟨text.toList.toArray⟩ t).entry.name =
    displayName ((t.field? "name").map (Syntax.Text.of ⟨text.toList.toArray⟩)) := rfl
  rw [hname]
  rcases displayName_eq_or ((t.field? "name").map (Syntax.Text.of ⟨text.toList.toArray⟩)) with h | h
  · exact Or.inl h
  · obtain ⟨name, -, hof⟩ := Option.map_eq_some_iff.1 h
    rw [← hof]
    have hoccurs := Syntax.Text.occursIn_of ⟨text.toList.toArray⟩ name
    rw [List.toList_toArray] at hoccurs
    exact Or.inr hoccurs

namespace Workbench

/-- **JavaScript without `allowJs`.** Whatever passes and edits came before, the JavaScript in the
result of a pass is of files that the descriptor lists. No file is taken for it that only patterns
select, and none from a cache that a descriptor with `allowJs` has filled. -/
theorem scripts_listed (descriptor : FilePath) (disk : Files.Disk) (es : List Event) :
    let start := new descriptor disk
    let w := start.replay es
    (∀ p, Dialect.ofPath? p = some .javaScript ↔ p.isScript = true) ∧
    ∀ text d, w.disk.readText descriptor = .ok text → Descriptor.ofText text = .ok d →
      d.options.allowJs = false → ∀ x, (w.coordinator.run w.disk).1 = .ok x →
      ∃ (project : Project) (ms : List (FilePath × Model)),
        Project.load w.disk descriptor = .ok project ∧
        project.files.filter FilePath.isScript =
          (Project.listed (Project.rootOf descriptor) d).filter FilePath.isScript ∧
        (ms.map Prod.fst).Sublist project.files ∧
        (∀ y ∈ ms, Coordinator.IsModelOf w.disk (start.Seen es) y.1 y.2) ∧
        (Digest.Separates (start.Seen es) →
          ms = Extraction.contributions w.disk project.files) ∧
        x.model = Model.joined (ms.map Prod.snd) ∧
        ∀ y ∈ ms, y.1.isScript = true → y.1 ∈ Project.listed (Project.rootOf descriptor) d := by
  intro start w
  refine ⟨fun p => Dialect.ofPath?_eq_javaScript_iff, fun text d htext hd hjs x hx => ?_⟩
  have hdescriptor : w.coordinator.descriptor = descriptor := replay_descriptor es _
  obtain ⟨project, ms, hload, hfiles, hmodels, hseparate, hmodel⟩ :=
    Coordinator.run_joined (replay_new_faithful descriptor disk es) seen_of_reads_replay hx
  rw [hdescriptor] at hload
  have hscripts := Project.scripts_of_load htext hd hjs hload
  refine ⟨project, ms, hload, hscripts, hfiles, hmodels, hseparate, hmodel,
    fun y hy hscript => ?_⟩
  have hmem : y.1 ∈ project.files.filter FilePath.isScript :=
    List.mem_filter.2 ⟨hfiles.subset (List.mem_map_of_mem hy), hscript⟩
  rw [hscripts] at hmem
  exact (List.mem_filter.1 hmem).1

/-! ## A descriptor that loses the option -/

def withOption : String :=
  "\x7b\"include\":[\"src\"],\"compilerOptions\":\x7b\"allowJs\":true\x7d\x7d"

def withoutOption : String := "\x7b\"files\":[\"a.js\"],\"include\":[\"src\"]\x7d"

def optionDescriptor : Descriptor := ⟨none, some ["src"], none, ⟨true, none⟩⟩

def scriptDescriptor : Descriptor := ⟨some ["a.js"], some ["src"], none, ⟨false, none⟩⟩

def otherClass : ByteArray := "class B \x7b\x7d".toUTF8

/-- Two files of JavaScript, each with a class: one that is listed in the end, and one that only a
pattern selects. -/
def scriptTree (descriptor : String) : Files.Disk :=
  ⟨[(["w"], .directory), (["w", "a.js"], .file oldClass), (["w", "src"], .directory),
    (["w", "src", "b.js"], .file otherClass), (["w", "p.json"], .file descriptor.toUTF8)], []⟩

def scriptHistory : List Event := [.pass, .become (scriptTree withoutOption)]

theorem read_listed (descriptor : String) :
    (scriptTree descriptor).read ⟨"/w/a.js"⟩ = .ok oldClass := by
  have hlocate : (scriptTree descriptor).locate ⟨"/w/a.js"⟩ true = .ok ["w", "a.js"] :=
    Files.Disk.locate_of_segments rfl (Files.Disk.startOf_of_isAbsolute rfl)
      (show _ = ["", "w", "a.js"] from rfl) (by cbv)
  exact Files.Disk.read_eq_ok_iff.2 (Files.Disk.find_eq_ok_iff.2 ⟨_, hlocate, rfl⟩)

theorem locate_scriptTree (descriptor : String) :
    (scriptTree descriptor).locate ⟨"/w/p.json"⟩ true = .ok ["w", "p.json"] :=
  Files.Disk.locate_of_segments rfl (Files.Disk.startOf_of_isAbsolute rfl)
    (show _ = ["", "w", "p.json"] from rfl) (by cbv)

theorem readText_withOption :
    (scriptTree withOption).readText ⟨"/w/p.json"⟩ = .ok withOption :=
  Files.Disk.readText_of_locate (locate_scriptTree _) rfl (by cbv)

theorem readText_withoutOption :
    (scriptTree withoutOption).readText ⟨"/w/p.json"⟩ = .ok withoutOption :=
  Files.Disk.readText_of_locate (locate_scriptTree _) rfl (by cbv)

theorem selects_scriptTree :
    Project.Selects (scriptTree withOption) ⟨"/w"⟩ optionDescriptor ["src", "b.js"] where
  below_root := by decide
  regular := ⟨["w"], otherClass, Files.Disk.locate_of_segments rfl
    (Files.Disk.startOf_of_isAbsolute rfl) (show _ = ["", "w"] from rfl) (by cbv), rfl⟩
  plain := by decide
  entered := by decide
  source := rfl
  included := by decide +kernel
  kept := by decide +kernel

/-- Under the option the second file is in the project. -/
theorem exists_load_withOption :
    ∃ project, Project.load (scriptTree withOption) ⟨"/w/p.json"⟩ = .ok project ∧
      ⟨"/w/src/b.js"⟩ ∈ project.files := by
  have hroot : Project.rootOf ⟨"/w/p.json"⟩ = ⟨"/w"⟩ := rfl
  have hd : Descriptor.ofText withOption = .ok optionDescriptor := by decide +kernel
  obtain ⟨project, hload, -, -, hmem⟩ :=
    Project.exists_load_of_selects (by decide) (by rw [hroot]; decide)
      (by decide +kernel) readText_withOption hd rfl (by decide +kernel) selects_scriptTree
  exact ⟨project, hload, hmem⟩

theorem walkFrom_scriptTree : (scriptTree withoutOption).walkFrom ⟨"/w"⟩ skippedDirectories =
    [["a.js"], ["p.json"], ["src", "b.js"]] := by
  have hlocate : (scriptTree withoutOption).locate ⟨"/w"⟩ true = .ok ["w"] := by cbv
  have htop : (scriptTree withoutOption).sortedEntries ["w"] =
      [("a.js", .file oldClass), ("p.json", .file withoutOption.toUTF8), ("src", .directory)] := by
    cbv
  have hsrc : (scriptTree withoutOption).sortedEntries ["w", "src"] =
      [("b.js", .file otherClass)] := by
    cbv
  unfold Files.Disk.walkFrom
  rw [hlocate, if_neg (by decide +kernel)]
  simp [show (scriptTree withoutOption).isDirectoryAt ["w"] = true from rfl,
    Files.Disk.filesBelow_eq, Files.Disk.filesOf, htop, hsrc, isHiddenName, skippedDirectories]

/-- Without the option only the listed file is. -/
def listedProject : Project := ⟨⟨"/w"⟩, ⟨"/w/p.json"⟩, false, [⟨"/w/a.js"⟩]⟩

theorem load_withoutOption :
    Project.load (scriptTree withoutOption) ⟨"/w/p.json"⟩ = .ok listedProject := by
  have hroot : Project.rootOf ⟨"/w/p.json"⟩ = ⟨"/w"⟩ := rfl
  have hd : Descriptor.ofText withoutOption = .ok scriptDescriptor := by decide +kernel
  have hselect : Project.select (scriptTree withoutOption) ⟨"/w"⟩ ⟨"/w/p.json"⟩ scriptDescriptor =
      .ok [⟨"/w/a.js"⟩] := by
    unfold Project.select Project.matchedFiles
    rw [walkFrom_scriptTree]
    decide +kernel
  exact Project.load_of_select readText_withoutOption hd (hroot ▸ hselect)

theorem script_separates :
    Digest.Separates ((new ⟨"/w/p.json"⟩ (scriptTree withOption)).Seen scriptHistory) := by
  have hnodup : ([oldClass, otherClass, withOption.toUTF8, withoutOption.toUTF8].map
      Digest.ofBytes).Nodup := by decide +kernel
  refine (Digest.separates_of_nodup hnodup).mono ?_
  rintro content (h | h)
  · refine mem_of_reads ?_ h
    show (scriptTree withOption).Within _
    simp [Files.Disk.Within, scriptTree]
  · refine mem_of_reads ?_ h
    show (scriptTree withoutOption).Within _
    simp [Files.Disk.Within, scriptTree]

/-- All that the project has on its disk is the class of the listed file. -/
theorem extract_of_mem_contributions {y : FilePath × Model}
    (h : y ∈ Extraction.contributions (scriptTree withoutOption) listedProject.files) :
    y.1 = ⟨"/w/a.js"⟩ ∧ extract y.1 oldClass = .ok y.2 := by
  rw [← Coordinator.modelsOf_map_fileModel] at h
  obtain ⟨p, hp, hresult⟩ := List.mem_map.1 (Coordinator.mem_modelsOf.1 h)
  obtain ⟨rfl, hm⟩ := Prod.mk.inj hresult
  have hpath : y.1 = ⟨"/w/a.js"⟩ := List.mem_singleton.1 hp
  refine ⟨hpath, ?_⟩
  rw [← hm, hpath, Extraction.fileModel, read_listed]

/-- No class of the listed file bears the name of the other one. -/
theorem name_ne_of_extract {path : FilePath} {m : Model} (h : extract path oldClass = .ok m) :
    ∀ c ∈ m.classes, c.name ≠ "B" := by
  intro c hc hname
  obtain ⟨text, htext, hnames⟩ := occursIn_of_extract h
  obtain rfl : "class A \x7b\x7d" = text :=
    Option.some.inj ((show String.fromUTF8? oldClass = _ by cbv).symm.trans htext)
  have hoccurs := hnames c hc
  rw [hname] at hoccurs
  exact absurd hoccurs (by decide)

/-- A pass with `allowJs` comes first, whose project has both files. The pass after it, whose
descriptor lacks the option, gives the model of the listed file, and the class of the other one does
not appear. -/
theorem scripts_listed_scriptTree :
    let start := new ⟨"/w/p.json"⟩ (scriptTree withOption)
    let w := start.replay scriptHistory
    (∃ project, Project.load start.disk ⟨"/w/p.json"⟩ = .ok project ∧
      ⟨"/w/src/b.js"⟩ ∈ project.files) ∧
    w.disk.readText ⟨"/w/p.json"⟩ = .ok withoutOption ∧
    Digest.Separates (start.Seen scriptHistory) ∧
    ∃ (x : Extraction) (ms : List (FilePath × Model)),
      (w.coordinator.run w.disk).1 = .ok x ∧
      x.model = Model.joined (ms.map Prod.snd) ∧
      (∀ y ∈ ms, y.1 = ⟨"/w/a.js"⟩ ∧ extract y.1 oldClass = .ok y.2) ∧
      ∀ c ∈ x.model.classes, c.name ≠ "B" := by
  intro start w
  have hdisk : w.disk = scriptTree withoutOption := disk_replay_become start [.pass] _
  have hdescriptor : w.coordinator.descriptor = ⟨"/w/p.json"⟩ := replay_descriptor _ _
  have hd : Descriptor.ofText withoutOption = .ok scriptDescriptor := by decide +kernel
  have hload : Project.load w.disk ⟨"/w/p.json"⟩ = .ok listedProject := by
    rw [hdisk]
    exact load_withoutOption
  have htext : w.disk.readText ⟨"/w/p.json"⟩ = .ok withoutOption := by
    rw [hdisk]
    exact readText_withoutOption
  obtain ⟨x, hx, -⟩ := Coordinator.run_of_ok
    (show Project.load w.disk w.coordinator.descriptor = _ by rw [hdescriptor]; exact hload)
  obtain ⟨project, ms, hproject, -, -, -, hseparate, hmodel, -⟩ :=
    (scripts_listed ⟨"/w/p.json"⟩ (scriptTree withOption) scriptHistory).2 _ _ htext hd rfl x hx
  obtain rfl := Except.ok.inj (hproject.symm.trans hload)
  have hmodels : ∀ y ∈ ms, y.1 = ⟨"/w/a.js"⟩ ∧ extract y.1 oldClass = .ok y.2 := by
    intro y hy
    rw [hseparate script_separates, hdisk] at hy
    exact extract_of_mem_contributions hy
  refine ⟨exists_load_withOption, htext, script_separates, x, ms, hx, hmodel, hmodels,
    fun c hc => ?_⟩
  rw [hmodel] at hc
  obtain ⟨m, hm, hc⟩ := List.mem_flatMap.1 hc
  obtain ⟨y, hy, rfl⟩ := List.mem_map.1 hm
  exact name_ne_of_extract (hmodels y hy).2 c hc

end Workbench
end ClassAtlas
