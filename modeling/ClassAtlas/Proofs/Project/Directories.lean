import ClassAtlas.Proofs.Glob.Directory
import ClassAtlas.Proofs.Project.Selection

/-!
# Patterns that name a directory

The path of a directory, in each of its spellings, is a pattern for all that lies below it: to
include it selects the files below it, and to exclude it leaves all others (`select_directory`).

**Where it matters.**
* A pattern is read as a glob, so the names must be free of the characters that globs read in a way
  of their own.
* The directory of the project itself is not such a path: `.` and `./` stand for no file at all.
-/
namespace ClassAtlas

/-- A descriptor that lists no files and has these patterns. -/
def Descriptor.selecting (options : CompilerOptions) (includes excludes : List String) :
    Descriptor :=
  ⟨none, some includes, some excludes, options⟩

/-- The ways to write the directory that names lead to. -/
def directorySpellings (names : List String) : List String :=
  let text := Project.relativeText names
  [text, text ++ "/", "./" ++ text, "./" ++ text ++ "/"]

/-- Whether a pattern that consists of names is one for a directory. -/
structure NamesDirectory (allowJs : Bool) (names : List String) : Prop where
  isName : ∀ name ∈ names, IsName name
  /-- Each name stands for itself in a glob. -/
  literal : ∀ name ∈ names, ∀ c ∈ name.toList, c ∉ Glob.specials
  /-- It is not taken for the name of a file. -/
  no_source : ∃ last, names.getLast? = some last ∧ isSourceFile allowJs ⟨last⟩ = false

namespace NamesDirectory

variable {allowJs : Bool} {names : List String}

theorem exists_concat (h : NamesDirectory allowJs names) :
    ∃ above last, names = above ++ [last] ∧ isSourceFile allowJs ⟨last⟩ = false := by
  obtain ⟨last, hlast, hsource⟩ := h.no_source
  obtain ⟨above, habove⟩ := List.getLast?_eq_some_iff.1 hlast
  exact ⟨above, last, habove, hsource⟩

theorem ne_nil (h : NamesDirectory allowJs names) : names ≠ [] := by
  obtain ⟨above, last, rfl, -⟩ := h.exists_concat
  simp

/-- A path of names ends in the last of them. -/
theorem exists_text (h : NamesDirectory allowJs names) :
    ∃ before last, (Project.relativeText names).toList = before ++ last.toList ∧
      last ∈ names ∧ isSourceFile allowJs ⟨last⟩ = false ∧
      before.reverse.takeWhile (· != '/') = [] := by
  obtain ⟨above, last, rfl, hsource⟩ := h.exists_concat
  have hmem : last ∈ above ++ [last] := by simp
  by_cases habove : above = []
  · subst habove
    exact ⟨[], last, by simp [Project.relativeText], hmem, hsource, rfl⟩
  · refine ⟨(Project.relativeText above).toList ++ ['/'], last, ?_, hmem, hsource, by simp⟩
    unfold Project.relativeText
    rw [String.intercalate_append_of_ne_nil habove (by simp), String.intercalate_singleton]
    simp

theorem text_literal (h : NamesDirectory allowJs names) :
    ∀ c ∈ (Project.relativeText names).toList, c ∉ Glob.specials := by
  have hjoined : ∀ names : List String, (∀ name ∈ names, ∀ c ∈ name.toList, c ∉ Glob.specials) →
      ∀ c ∈ (String.intercalate "/" names).toList, c ∉ Glob.specials := by
    intro names hnames
    induction names with
    | nil => simp
    | cons name rest ih =>
      rw [List.forall_mem_cons] at hnames
      cases rest with
      | nil => simpa using hnames.1
      | cons next rest =>
        rw [String.intercalate_cons_cons]
        intro c hc
        simp only [String.toList_append, List.mem_append] at hc
        rcases hc with (hc | hc) | hc
        · exact hnames.1 c hc
        · obtain rfl : c = '/' := by simpa using hc
          decide
        · exact ih hnames.2 c hc
  exact hjoined names h.literal

end NamesDirectory

/-! ## The pattern of a directory -/

theorem dropHere_of_segments {text : String} {first : String} {rest : List String}
    (h : FilePath.segments ⟨text⟩ = first :: rest) (hfirst : first ≠ ".") :
    dropHere text.toList = text.toList := by
  unfold dropHere
  split
  · rename_i cs hcs
    have htext : text = "." ++ "/" ++ String.ofList cs := by
      rw [← String.toList_inj, hcs]
      simp
    rw [htext, FilePath.segments_append] at h
    exact absurd (List.cons.inj h).1.symm hfirst
  · rfl

theorem NamesDirectory.dropHere_spelled {allowJs : Bool} {names : List String}
    (h : NamesDirectory allowJs names) {pattern : String}
    (hp : pattern ∈ directorySpellings names) :
    ∃ tail : List Char, (∀ c ∈ tail, c = '/') ∧
      dropHere pattern.toList = (Project.relativeText names).toList ++ tail := by
  have hsegments : FilePath.segments ⟨Project.relativeText names⟩ = names :=
    FilePath.segments_names h.ne_nil h.isName
  obtain ⟨first, rest, hnames⟩ := List.exists_cons_of_ne_nil h.ne_nil
  have hfirst : first ≠ "." := (h.isName first (hnames ▸ List.mem_cons_self)).ne_here
  have hbare : dropHere (Project.relativeText names).toList = (Project.relativeText names).toList :=
    dropHere_of_segments (hsegments.trans hnames) hfirst
  have hclosed : dropHere (Project.relativeText names ++ "/").toList =
      (Project.relativeText names ++ "/").toList := by
    have hmore : FilePath.segments ⟨Project.relativeText names ++ "/"⟩ =
        first :: (rest ++ [""]) := by
      rw [FilePath.segments_append_separator, hsegments, hnames, List.cons_append]
    exact dropHere_of_segments hmore hfirst
  have hhere : ∀ text : String, dropHere ("./" ++ text).toList = dropHere text.toList := by
    intro text
    rw [String.toList_append]
    rfl
  simp only [directorySpellings, List.mem_cons, List.not_mem_nil, or_false] at hp
  rcases hp with rfl | rfl | rfl | rfl
  · exact ⟨[], by simp, by rw [hbare, List.append_nil]⟩
  · exact ⟨['/'], by simp, by rw [hclosed, String.toList_append]; rfl⟩
  · exact ⟨[], by simp, by rw [hhere, hbare, List.append_nil]⟩
  · exact ⟨['/'], by simp, by rw [String.append_assoc, hhere, hclosed, String.toList_append]; rfl⟩

/-- Each spelling stands for all that is below the directory. -/
theorem NamesDirectory.expandPattern_eq {allowJs : Bool} {names : List String}
    (h : NamesDirectory allowJs names) {pattern : String}
    (hp : pattern ∈ directorySpellings names) :
    expandPattern allowJs pattern = Project.relativeText names ++ "/**/*" := by
  obtain ⟨before, last, htext, hmem, hsource, hbefore⟩ := h.exists_text
  obtain ⟨tail, htail, hdrop⟩ := h.dropHere_spelled hp
  have hname := h.isName last hmem
  have hlast : ∀ c ∈ last.toList.reverse, c ≠ '/' := by
    rintro c hc rfl
    exact hname.no_separator (List.mem_reverse.1 hc)
  have htrimmed : ((dropHere pattern.toList).reverse.dropWhile (· == '/')).reverse =
      (Project.relativeText names).toList := by
    obtain ⟨c, cs, hcs⟩ := List.exists_cons_of_ne_nil (l := last.toList.reverse)
      (by simpa using hname.ne_empty)
    have hc : c ≠ '/' := hlast c (hcs ▸ List.mem_cons_self)
    rw [hdrop, List.reverse_append, List.dropWhile_append_of_pos (by simpa using htail), htext,
      List.reverse_append, hcs, List.cons_append, List.dropWhile_cons_of_neg (by simpa using hc),
      ← List.cons_append, ← hcs]
    simp
  have hsegment : ((Project.relativeText names).toList.reverse.takeWhile (· != '/')).reverse =
      last.toList := by
    rw [htext, List.reverse_append, List.takeWhile_append_of_pos (by simpa using hlast), hbefore]
    simp
  have hplain : last.toList.any (fun c => c == '*' || c == '?') = false := by
    refine List.any_eq_false.2 fun c hc => ?_
    have hliteral := h.literal last hmem c hc
    simp only [Glob.specials, List.mem_cons, not_or] at hliteral
    simp [hliteral.1, hliteral.2.1]
  unfold expandPattern
  simp only [htrimmed, hsegment, hplain, String.ofList_toList, hsource]
  simp

/-! ## What it matches -/

/-- A path of names ends in the last of them. -/
theorem FilePath.fileName?_names {above : List String} {last : String}
    (h : ∀ name ∈ above ++ [last], IsName name) :
    fileName? ⟨String.intercalate "/" (above ++ [last])⟩ = some last := by
  have hlast : IsName last := h last (by simp)
  have hinner : innerComponent? last = some (.name last) := by
    simp [innerComponent?, hlast.ne_empty, hlast.ne_here, hlast.ne_up]
  have hkey : (FilePath.mk (String.intercalate "/" (above ++ [last]))).components.getLast? =
      some (.name last) := by
    rw [show FilePath.components _ = componentsOf _ _ from rfl, isAbsolute_names (by simp) h,
      segments_names (by simp) h]
    cases above with
    | nil => simp [componentsOf, firstComponent?, hlast.ne_here, hinner]
    | cons first rest =>
      rw [componentsOf_append _ (List.cons_ne_nil _ _), List.filterMap_cons_some hinner,
        List.filterMap_nil, List.getLast?_concat]
  unfold fileName?
  rw [hkey]

theorem NamesDirectory.not_source {allowJs : Bool} {names : List String}
    (h : NamesDirectory allowJs names) :
    isSourceFile allowJs ⟨Project.relativeText names⟩ = false := by
  obtain ⟨above, last, rfl, hsource⟩ := h.exists_concat
  have hname := FilePath.fileName?_names h.isName
  have hlast : FilePath.fileName? ⟨last⟩ = some last := by
    have halone : FilePath.fileName? ⟨String.intercalate "/" ([] ++ [last])⟩ = some last :=
      FilePath.fileName?_names fun name hn => h.isName name (List.mem_append_right above hn)
    rwa [List.nil_append, String.intercalate_singleton] at halone
  rw [← hsource]
  unfold isSourceFile FilePath.extension? Project.relativeText
  rw [hname, hlast]

namespace Project

theorem patternMatches_everything (allowJs : Bool) (path : String) :
    PatternMatches allowJs "**/*" path := by
  obtain ⟨glob, hglob, hmatches⟩ := Glob.Pattern.matches_everything
  have hexpand : expandPattern allowJs "**/*" = "**/*" := by cases allowJs <;> rfl
  exact ⟨glob, by rw [hexpand, hglob], hmatches path⟩

theorem isOk_everything (allowJs : Bool) :
    (Glob.Pattern.parse (expandPattern allowJs "**/*")).isOk = true := by
  obtain ⟨glob, hglob, -⟩ := patternMatches_everything allowJs ""
  rw [hglob]
  rfl

section

variable {allowJs : Bool} {pattern text : String}

theorem isOk_of_expandPattern (hexpand : expandPattern allowJs pattern = text ++ "/**/*")
    (htext : ∀ c ∈ text.toList, c ∉ Glob.specials) :
    (Glob.Pattern.parse (expandPattern allowJs pattern)).isOk = true := by
  obtain ⟨glob, hglob, -⟩ := Glob.Pattern.matches_below htext
  rw [hexpand, hglob]
  rfl

theorem patternMatches_iff (hexpand : expandPattern allowJs pattern = text ++ "/**/*")
    (htext : ∀ c ∈ text.toList, c ∉ Glob.specials) (path : String) :
    PatternMatches allowJs pattern path ↔ ∃ rest, path = text ++ "/" ++ rest := by
  obtain ⟨glob, hglob, hmatches⟩ := Glob.Pattern.matches_below htext
  unfold PatternMatches
  rw [hexpand, hglob]
  simp [hmatches]

/-- What matches has the segments of the directory and more. -/
theorem segments_of_patternMatches (hexpand : expandPattern allowJs pattern = text ++ "/**/*")
    (htext : ∀ c ∈ text.toList, c ∉ Glob.specials) {below : Files.Location} (hne : below ≠ [])
    (hbelow : ∀ name ∈ below, IsName name)
    (h : PatternMatches allowJs pattern (relativeText below)) :
    FilePath.segments ⟨text⟩ <+: below := by
  obtain ⟨rest, hrest⟩ := (patternMatches_iff hexpand htext _).1 h
  have hsegments := FilePath.segments_names hne hbelow
  rw [show String.intercalate "/" below = text ++ "/" ++ rest from hrest,
    FilePath.segments_append] at hsegments
  exact ⟨_, hsegments⟩

end

section

variable {allowJs : Bool} {names : List String} {pattern : String}

theorem patternMatches_directory (h : NamesDirectory allowJs names)
    (hp : pattern ∈ directorySpellings names) {below : Files.Location} (hne : below ≠ [])
    (hbelow : ∀ name ∈ below, IsName name)
    (hsource : isSourceFile allowJs ⟨relativeText below⟩ = true) :
    PatternMatches allowJs pattern (relativeText below) ↔ names <+: below := by
  have hexpand := h.expandPattern_eq hp
  constructor
  · intro hm
    have hsegments := segments_of_patternMatches hexpand h.text_literal hne hbelow hm
    rwa [relativeText, FilePath.segments_names h.ne_nil h.isName] at hsegments
  · rintro ⟨rest, rfl⟩
    have hrest : rest ≠ [] := by
      rintro rfl
      rw [List.append_nil, h.not_source] at hsource
      cases hsource
    refine (patternMatches_iff hexpand h.text_literal _).2 ⟨relativeText rest, ?_⟩
    exact String.intercalate_append_of_ne_nil h.ne_nil hrest

/-- Of the directory of the project, written as a pattern, there is left what names nothing. -/
theorem exists_expandPattern_here (allowJs : Bool) (hp : pattern ∈ [".", "./"]) :
    ∃ text, (text = "." ∨ text = "") ∧ (∀ c ∈ text.toList, c ∉ Glob.specials) ∧
      expandPattern allowJs pattern = text ++ "/**/*" := by
  simp only [List.mem_cons, List.not_mem_nil, or_false] at hp
  rcases hp with rfl | rfl
  · exact ⟨".", Or.inl rfl, by simp [Glob.specials], by cases allowJs <;> rfl⟩
  · exact ⟨"", Or.inr rfl, by simp, by cases allowJs <;> rfl⟩

theorem not_patternMatches_here (hp : pattern ∈ [".", "./"]) {below : Files.Location}
    (hne : below ≠ []) (hbelow : ∀ name ∈ below, IsName name) :
    ¬ PatternMatches allowJs pattern (relativeText below) := by
  obtain ⟨text, htext, hliteral, hexpand⟩ := exists_expandPattern_here allowJs hp
  intro hm
  have hsegments := segments_of_patternMatches hexpand hliteral hne hbelow hm
  rcases htext with rfl | rfl
  · have hmem : "." ∈ FilePath.segments ⟨"."⟩ := by simp [FilePath.segments, Text.split]
    exact (hbelow "." (hsegments.subset hmem)).ne_here rfl
  · have hmem : "" ∈ FilePath.segments ⟨""⟩ := by simp [FilePath.segments, Text.split]
    exact (hbelow "" (hsegments.subset hmem)).ne_empty rfl

end

/-! ## What is selected -/

section

variable {disk : Files.Disk} {root descriptor : FilePath} {options : CompilerOptions}

/-- The files below the root that patterns can select, by the names that lead to them. -/
def sourcesBelow (disk : Files.Disk) (root : FilePath) (allowJs : Bool) : List Files.Location :=
  (disk.walkFrom root skippedDirectories).filter fun below =>
    isSourceFile allowJs ⟨relativeText below⟩

theorem matchedFiles_keys_nodup (h : disk.IsTree) (root : FilePath) (allowJs : Bool)
    (includes excludes : List Glob.Pattern) :
    ((matchedFiles disk root allowJs includes excludes).map (·.key)).Nodup := by
  by_cases hroot : root.text = ""
  · unfold matchedFiles
    rw [Files.Disk.walkFrom_of_empty disk hroot]
    exact List.nodup_nil
  · exact matchedFiles_nodup h hroot

/-- What is known of a file below the root. -/
structure IsSourceBelow (root : FilePath) (allowJs : Bool) (below : Files.Location) : Prop where
  root_text : root.text ≠ ""
  ne_nil : below ≠ []
  isName : ∀ name ∈ below, IsName name
  source : isSourceFile allowJs ⟨relativeText below⟩ = true

theorem isSourceBelow (h : disk.IsTree) {allowJs : Bool} {below : Files.Location}
    (hmem : below ∈ sourcesBelow disk root allowJs) : IsSourceBelow root allowJs below := by
  obtain ⟨hwalk, hsource⟩ := List.mem_filter.1 hmem
  refine ⟨fun hroot => ?_, ((Files.Disk.mem_walkFrom h).1 hwalk).2.1,
    Files.Disk.isName_of_mem_walkFrom h hwalk, hsource⟩
  rw [Files.Disk.walkFrom_of_empty disk hroot] at hwalk
  cases hwalk

theorem select_selecting (h : disk.IsTree) {includes excludes : List String}
    (hne : includes ≠ []) (hok : ∀ pattern ∈ includes ++ excludes,
      (Glob.Pattern.parse (expandPattern options.allowJs pattern)).isOk = true) :
    select disk root descriptor (.selecting options includes excludes) =
      .ok (((sourcesBelow disk root options.allowJs).filter fun below =>
        (∃ pattern ∈ includes, PatternMatches options.allowJs pattern (relativeText below)) ∧
          ¬ ∃ pattern ∈ excludes, PatternMatches options.allowJs pattern (relativeText below)).map
        fun below => root.join ⟨relativeText below⟩) := by
  have hall : ¬ ListsAll (.selecting options includes excludes) := by
    simp [ListsAll, Descriptor.selecting, hne]
  obtain ⟨ins, hins, hin⟩ := compilePatterns_spec descriptor fun pattern hp =>
    hok pattern (List.mem_append_left excludes hp)
  obtain ⟨outs, houts, hout⟩ := compilePatterns_spec descriptor fun pattern hp =>
    hok pattern (List.mem_append_right includes hp)
  rw [select_of_compiled hall hins houts, addNew,
    firstOnly_of_nodup _ (matchedFiles_keys_nodup h _ _ _ _)]
  have hlisted : listed root (.selecting options includes excludes) = [] := rfl
  rw [hlisted, List.nil_append, List.filter_eq_self.2 (by simp)]
  unfold matchedFiles sourcesBelow
  rw [List.filter_filter]
  congr 2
  refine List.filter_congr fun below _ => ?_
  rw [Bool.eq_iff_iff]
  simp only [Bool.and_eq_true, Bool.not_eq_true', decide_eq_true_eq, ← hin, ← hout,
    Bool.not_eq_true, Descriptor.selecting]
  tauto

/-- Which of the files that any patterns select these patterns select. -/
theorem select_filter (h : disk.IsTree) {includes excludes : List String} (hne : includes ≠ [])
    (hok : ∀ pattern ∈ includes ++ excludes,
      (Glob.Pattern.parse (expandPattern options.allowJs pattern)).isOk = true)
    (kept : FilePath → Bool)
    (hkept : ∀ below, IsSourceBelow root options.allowJs below →
      (kept (root.join ⟨relativeText below⟩) = true ↔
        (∃ pattern ∈ includes, PatternMatches options.allowJs pattern (relativeText below)) ∧
          ¬ ∃ pattern ∈ excludes,
            PatternMatches options.allowJs pattern (relativeText below))) :
    select disk root descriptor (.selecting options includes excludes) =
      .ok (((sourcesBelow disk root options.allowJs).map fun below =>
        root.join ⟨relativeText below⟩).filter kept) := by
  rw [select_selecting h hne hok, List.filter_map]
  congr 2
  refine List.filter_congr fun below hmem => ?_
  rw [Bool.eq_iff_iff, decide_eq_true_eq]
  exact (hkept below (isSourceBelow h hmem)).symm

theorem select_everything (h : disk.IsTree) (root descriptor : FilePath)
    (options : CompilerOptions) :
    select disk root descriptor (.selecting options ["**/*"] []) =
      .ok ((sourcesBelow disk root options.allowJs).map fun below =>
        root.join ⟨relativeText below⟩) := by
  have hok := isOk_everything options.allowJs
  rw [select_filter h (by simp) (by simpa using hok) fun _ => true]
  · simp
  · simpa using fun below _ => patternMatches_everything options.allowJs (relativeText below)

theorem liesIn_iff {names below : List String} (hroot : root.text ≠ "") (hne : names ≠ [])
    (hnames : ∀ name ∈ names, IsName name) (hbne : below ≠ [])
    (hbelow : ∀ name ∈ below, IsName name) :
    (root.join ⟨relativeText names⟩).key <+: (root.join ⟨relativeText below⟩).key ↔
      names <+: below := by
  unfold relativeText
  rw [FilePath.key_join_names hroot hne hnames, FilePath.key_join_names hroot hbne hbelow,
    List.prefix_append_right_inj,
    List.prefix_map_iff_of_injective fun _ _ => Component.name.inj]

/-- The path of a directory, in each of its spellings, is a pattern for what lies below it. -/
theorem select_directory (h : disk.IsTree) (root descriptor : FilePath)
    (options : CompilerOptions) :
    ∃ candidates,
      select disk root descriptor (.selecting options ["**/*"] []) = .ok candidates ∧
      (∀ names, NamesDirectory options.allowJs names → ∀ pattern ∈ directorySpellings names,
        select disk root descriptor (.selecting options [pattern] []) =
          .ok (candidates.filter fun p => (root.join ⟨relativeText names⟩).key <+: p.key) ∧
        select disk root descriptor (.selecting options ["**/*"] [pattern]) =
          .ok (candidates.filter fun p => ¬ (root.join ⟨relativeText names⟩).key <+: p.key)) ∧
      ∀ pattern ∈ [".", "./"],
        select disk root descriptor (.selecting options [pattern] []) = .ok [] ∧
        select disk root descriptor (.selecting options ["**/*"] [pattern]) = .ok candidates := by
  have hall := patternMatches_everything options.allowJs
  have hallOk := isOk_everything options.allowJs
  refine ⟨_, select_everything h root descriptor options, ?_, ?_⟩
  · intro names hnames pattern hp
    have hok := isOk_of_expandPattern (hnames.expandPattern_eq hp) hnames.text_literal
    have hmatches : ∀ below, IsSourceBelow root options.allowJs below →
        ((root.join ⟨relativeText names⟩).key <+: (root.join ⟨relativeText below⟩).key ↔
          PatternMatches options.allowJs pattern (relativeText below)) := by
      intro below hb
      rw [liesIn_iff hb.root_text hnames.ne_nil hnames.isName hb.ne_nil hb.isName,
        patternMatches_directory hnames hp hb.ne_nil hb.isName hb.source]
    constructor
    · refine select_filter h (by simp) (by simpa using hok) _ fun below hb => ?_
      simpa using hmatches below hb
    · refine select_filter h (by simp) (by simpa using ⟨hallOk, hok⟩) _ fun below hb => ?_
      simpa [hall] using not_congr (hmatches below hb)
  · intro pattern hp
    obtain ⟨text, -, hliteral, hexpand⟩ := exists_expandPattern_here options.allowJs hp
    have hok := isOk_of_expandPattern hexpand hliteral
    have hnone : ∀ below, IsSourceBelow root options.allowJs below →
        ¬ PatternMatches options.allowJs pattern (relativeText below) :=
      fun below hb => not_patternMatches_here hp hb.ne_nil hb.isName
    constructor
    · rw [select_filter h (by simp) (by simpa using hok) fun _ => false]
      · simp
      · simpa using fun below hb => hnone below hb
    · rw [select_filter h (by simp) (by simpa using ⟨hallOk, hok⟩) fun _ => true]
      · simp
      · simpa [hall] using fun below hb => hnone below hb

end

/-- A name that does not stand for itself. -/
example : PatternMatches false "[id]" "i/a.ts" ∧ ¬ PatternMatches false "[id]" "[id]/a.ts" := by
  decide +kernel

/-! ## A tree with directories -/

/-- The names of two directories begin alike. -/
def nestedTree : Files.Disk :=
  ⟨[(["w"], .directory), (["w", "src"], .directory), (["w", "src", "a.ts"], .file .empty),
    (["w", "src", "deep"], .directory), (["w", "src", "deep", "b.ts"], .file .empty),
    (["w", "srcs"], .directory), (["w", "srcs", "c.ts"], .file .empty)], []⟩

theorem walkFrom_nestedTree : nestedTree.walkFrom ⟨"/w"⟩ skippedDirectories =
    [["src", "a.ts"], ["src", "deep", "b.ts"], ["srcs", "c.ts"]] := by
  have hlocate : nestedTree.locate ⟨"/w"⟩ true = .ok ["w"] := by cbv
  have htop : nestedTree.sortedEntries ["w"] = [("src", .directory), ("srcs", .directory)] := by
    cbv
  have hsrc : nestedTree.sortedEntries ["w", "src"] =
      [("a.ts", .file .empty), ("deep", .directory)] := by
    cbv
  have hdeep : nestedTree.sortedEntries ["w", "src", "deep"] = [("b.ts", .file .empty)] := by cbv
  have hsrcs : nestedTree.sortedEntries ["w", "srcs"] = [("c.ts", .file .empty)] := by cbv
  unfold Files.Disk.walkFrom
  rw [hlocate, if_neg (by decide +kernel)]
  simp [show nestedTree.isDirectoryAt ["w"] = true from rfl, Files.Disk.filesBelow_eq,
    Files.Disk.filesOf, htop, hsrc, hdeep, hsrcs, isHiddenName, skippedDirectories]

theorem select_directory_nestedTree :
    select nestedTree ⟨"/w"⟩ ⟨"/w/p.json"⟩ (.selecting ⟨false, none⟩ ["./src/"] []) =
        .ok [⟨"/w/src/a.ts"⟩, ⟨"/w/src/deep/b.ts"⟩] ∧
      select nestedTree ⟨"/w"⟩ ⟨"/w/p.json"⟩ (.selecting ⟨false, none⟩ ["**/*"] ["./src/"]) =
        .ok [⟨"/w/srcs/c.ts"⟩] ∧
      select nestedTree ⟨"/w"⟩ ⟨"/w/p.json"⟩ (.selecting ⟨false, none⟩ ["."] []) = .ok [] := by
  have htree : nestedTree.IsTree := by decide
  have hnames : NamesDirectory false ["src"] :=
    ⟨by simpa using (by decide : IsName "src"), by simp [Glob.specials], "src", rfl, rfl⟩
  obtain ⟨candidates, hcandidates, hdirectories, hhere⟩ :=
    select_directory htree ⟨"/w"⟩ ⟨"/w/p.json"⟩ ⟨false, none⟩
  obtain ⟨hin, hout⟩ := hdirectories ["src"] hnames "./src/" (by decide)
  have hfiles : select nestedTree ⟨"/w"⟩ ⟨"/w/p.json"⟩ (.selecting ⟨false, none⟩ ["**/*"] []) =
      .ok [⟨"/w/src/a.ts"⟩, ⟨"/w/src/deep/b.ts"⟩, ⟨"/w/srcs/c.ts"⟩] := by
    rw [select_everything htree, sourcesBelow, walkFrom_nestedTree]
    decide +kernel
  obtain rfl := Except.ok.inj (hcandidates.symm.trans hfiles)
  refine ⟨hin.trans ?_, hout.trans ?_, (hhere "." (by decide)).1⟩
  · decide +kernel
  · decide +kernel

end Project

end ClassAtlas
