import ClassAtlas.Diagram.Render
import ClassAtlas.Proofs.Extraction.History
import ClassAtlas.Proofs.Project.Selection

/-!
# What a change of one file changes

The diagram of a project shows the classes of all files first and their relationships after them,
each part in the order of the files. So the lines of one file stand in two places, and the diagram
is cut around them into five pieces (`Cut`, `Extraction.cutAround`, `lines_reference`).

`edit_locality`: take two passes over the same files, by two coordinators of whatever histories, and
let the files but one read the same in both. Their diagrams differ in the lines of that file at
most, and their failures in its entry at most.

**Hypothesis.** As for a single pass after a history, no two contents that a coordinator has read or
reads now have the same digest (`Workbench.IsReached`); the two coordinators need not agree on that.
-/
namespace ClassAtlas

namespace Diagram

/-- The lines of a diagram, cut around those of one file. -/
structure Cut where
  /-- The header and the classes of the files before it. -/
  head : List String
  /-- Its classes. -/
  classes : List String
  /-- The classes of the files after it and the relationships of those before it. -/
  middle : List String
  /-- Its relationships. -/
  edges : List String
  /-- The relationships of the files after it and the trailer. -/
  tail : List String
deriving DecidableEq, Repr, Inhabited

def Cut.lines (c : Cut) : List String := c.head ++ c.classes ++ c.middle ++ c.edges ++ c.tail

def classLinesOf (m : Model) : List String := m.classes.flatMap blockLines

def edgeLinesOf (m : Model) : List String := m.relationships.map edgeLine

/-- The lines of three models, cut around those of the second. -/
def cut (before m after : Model) : Cut where
  head := header :: classLinesOf before
  classes := classLinesOf m
  middle := classLinesOf after ++ edgeLinesOf before
  edges := edgeLinesOf m
  tail := edgeLinesOf after ++ [trailer]

theorem lines_append (before m after : Model) :
    lines (before ++ (m ++ after)) = (cut before m after).lines := by
  simp [lines, cut, Cut.lines, classLinesOf, edgeLinesOf]

end Diagram

namespace Extraction

/-! ## Files side by side -/

theorem contributions_append (disk : Files.Disk) (ps qs : List FilePath) :
    contributions disk (ps ++ qs) = contributions disk ps ++ contributions disk qs :=
  List.filterMap_append

theorem reference_append (disk : Files.Disk) (ps qs : List FilePath) :
    reference disk (ps ++ qs) =
      ⟨(reference disk ps).model ++ (reference disk qs).model,
        (reference disk ps).failures ++ (reference disk qs).failures⟩ := by
  simp [reference, contributions_append, missing]
  rfl

/-- A file gives what its bytes give. -/
theorem fileModel_congr {d₁ d₂ : Files.Disk} {p : FilePath} (h : d₁.read p = d₂.read p) :
    fileModel d₁ p = fileModel d₂ p := by
  unfold fileModel
  rw [h]

theorem reference_congr {d₁ d₂ : Files.Disk} {ps : List FilePath}
    (h : ∀ p ∈ ps, d₁.read p = d₂.read p) : reference d₁ ps = reference d₂ ps := by
  induction ps with
  | nil => rfl
  | cons p ps ih =>
    rw [reference_cons, reference_cons, fileModel_congr (h p List.mem_cons_self),
      ih fun q hq => h q (List.mem_cons_of_mem p hq)]

/-! ## One file -/

/-- The model of a file, an empty one if it gives none. -/
def modelOf (disk : Files.Disk) (f : FilePath) : Model :=
  match fileModel disk f with
  | .ok m => m
  | .error _ => Model.empty

/-- The failure of a file, if it gives no model. -/
def failureOf (disk : Files.Disk) (f : FilePath) : List FileFailure :=
  match fileModel disk f with
  | .ok _ => []
  | .error e => [⟨f, e⟩]

theorem reference_singleton (disk : Files.Disk) (f : FilePath) :
    reference disk [f] = ⟨modelOf disk f, failureOf disk f⟩ := by
  rw [reference_cons, reference_nil, modelOf, failureOf]
  cases fileModel disk f with
  | ok m => exact congrArg (Extraction.mk · []) (Model.append_empty m)
  | error e => rfl

/-- The lines of some files, cut around those of one of them. -/
def cutAround (disk : Files.Disk) (before : List FilePath) (f : FilePath) (after : List FilePath) :
    Diagram.Cut :=
  Diagram.cut (reference disk before).model (modelOf disk f) (reference disk after).model

theorem cutAround_of_error {disk : Files.Disk} {f : FilePath} {e : ExtractError}
    (h : fileModel disk f = .error e) (before after : List FilePath) :
    (cutAround disk before f after).classes = [] ∧ (cutAround disk before f after).edges = [] := by
  unfold cutAround modelOf
  rw [h]
  exact ⟨rfl, rfl⟩

/-- The part of a file stands between the parts of the others. -/
theorem reference_around (disk : Files.Disk) (before : List FilePath) (f : FilePath)
    (after : List FilePath) :
    let x := reference disk (before ++ f :: after)
    Diagram.lines x.model = (cutAround disk before f after).lines ∧
      x.failures = (reference disk before).failures ++ failureOf disk f ++
        (reference disk after).failures := by
  intro x
  have hx : x = reference disk (before ++ ([f] ++ after)) := rfl
  rw [hx, reference_append, reference_append, reference_singleton, List.append_assoc]
  exact ⟨Diagram.lines_append _ _ _, rfl⟩

end Extraction

namespace Workbench

/-- A history has led to the bench, and no two contents that its passes and the next one read have
the same digest. -/
def IsReached (w : Workbench) : Prop :=
  ∃ descriptor disk es, w = (new descriptor disk).replay es ∧
    Digest.Separates ((new descriptor disk).Seen es)

/-- Its cache is faithful to contents that digests tell apart, and a pass reads no others. -/
theorem IsReached.exists_faithful {w : Workbench} (h : w.IsReached) :
    ∃ S, Digest.Separates S ∧ w.coordinator.cache.Faithful S ∧
      ∀ content, Coordinator.Reads w.disk w.coordinator.descriptor content → S content := by
  obtain ⟨descriptor, disk, es, rfl, hd⟩ := h
  exact ⟨_, hd, replay_new_faithful descriptor disk es, seen_of_reads_replay⟩

/-- A pass gives what its files give one by one. -/
theorem IsReached.run_eq {w : Workbench} (h : w.IsReached) {project : Project}
    (hl : Project.load w.disk w.coordinator.descriptor = .ok project) :
    (w.coordinator.run w.disk).1 = .ok (Extraction.reference w.disk project.files) := by
  obtain ⟨S, hS, hfaithful, hreads⟩ := h.exists_faithful
  have hrun := Coordinator.run_fst hS hfaithful hreads
  rwa [hl] at hrun

/-- **Edit locality.** Two passes find the same files and read all of them alike but for one. Then
their diagrams agree in what stands before, between and behind the lines of that file, which are
none if it gave no model, and their failures agree but for its own. -/
theorem edit_locality {w₁ w₂ : Workbench} (h₁ : w₁.IsReached) (h₂ : w₂.IsReached)
    {project₁ project₂ : Project}
    (hl₁ : Project.load w₁.disk w₁.coordinator.descriptor = .ok project₁)
    (hl₂ : Project.load w₂.disk w₂.coordinator.descriptor = .ok project₂)
    {before after : List FilePath} {f : FilePath}
    (hf₁ : project₁.files = before ++ f :: after) (hf₂ : project₂.files = before ++ f :: after)
    (hsame : ∀ p ∈ before ++ after, w₁.disk.read p = w₂.disk.read p) :
    ∃ x₁ x₂, (w₁.coordinator.run w₁.disk).1 = .ok x₁ ∧ (w₂.coordinator.run w₂.disk).1 = .ok x₂ ∧
      let c₁ := Extraction.cutAround w₁.disk before f after
      let c₂ := Extraction.cutAround w₂.disk before f after
      Diagram.render x₁.model = String.intercalate "\n" c₁.lines ∧
      Diagram.render x₂.model = String.intercalate "\n" c₂.lines ∧
      c₁.head = c₂.head ∧ c₁.middle = c₂.middle ∧ c₁.tail = c₂.tail ∧
      (∀ e, Extraction.fileModel w₁.disk f = .error e → c₁.classes = [] ∧ c₁.edges = []) ∧
      (∀ e, Extraction.fileModel w₂.disk f = .error e → c₂.classes = [] ∧ c₂.edges = []) ∧
      ∃ earlier later,
        x₁.failures = earlier ++ Extraction.failureOf w₁.disk f ++ later ∧
        x₂.failures = earlier ++ Extraction.failureOf w₂.disk f ++ later := by
  -- what the other files give is equal as a model, and so in both of its places in the diagram
  have hbefore : Extraction.reference w₁.disk before = Extraction.reference w₂.disk before :=
    Extraction.reference_congr fun p hp => hsame p (List.mem_append_left _ hp)
  have hafter : Extraction.reference w₁.disk after = Extraction.reference w₂.disk after :=
    Extraction.reference_congr fun p hp => hsame p (List.mem_append_right _ hp)
  obtain ⟨hlines₁, hfailures₁⟩ := Extraction.reference_around w₁.disk before f after
  obtain ⟨hlines₂, hfailures₂⟩ := Extraction.reference_around w₂.disk before f after
  refine ⟨_, _, hf₁ ▸ h₁.run_eq hl₁, hf₂ ▸ h₂.run_eq hl₂, congrArg _ hlines₁, congrArg _ hlines₂,
    ?_, ?_, ?_, fun e he => Extraction.cutAround_of_error he before after,
    fun e he => Extraction.cutAround_of_error he before after,
    (Extraction.reference w₁.disk before).failures, (Extraction.reference w₁.disk after).failures,
    hfailures₁, ?_⟩
  · simp [Extraction.cutAround, Diagram.cut, hbefore]
  · simp [Extraction.cutAround, Diagram.cut, hbefore, hafter]
  · simp [Extraction.cutAround, Diagram.cut, hafter]
  · rw [hfailures₂, hbefore, hafter]

/-! ## Two passes that meet the hypotheses -/

/-- A file at the working directory is read by its name. -/
theorem read_of_node? {disk : Files.Disk} {name : String} {content : ByteArray}
    (hname : IsName name) (htext : Files.Disk.textFault? ⟨name⟩ = none)
    (hsize : ¬ Files.Disk.maxNameBytes < name.utf8ByteSize) (hcwd : disk.cwd = [])
    (hnode : disk.node? [name] = some (.file content)) : disk.read ⟨name⟩ = .ok content := by
  have hstart : disk.startOf ⟨name⟩ = [] := by simp [Files.Disk.startOf, hcwd]
  have htop : disk.isDirectoryAt [] = true := rfl
  have hwalk : disk.walk true Files.Disk.maxLinks [] [name] = .ok [name] := by
    rw [Files.Disk.walk]
    simp [htop, hname.ne_empty, hname.ne_here, hname.ne_up, hsize, hnode, Files.Disk.walk]
  refine Files.Disk.read_eq_ok_iff.2 (Files.Disk.find_eq_ok_iff.2 ⟨[name], ?_, hnode⟩)
  unfold Files.Disk.locate
  rw [htext, hstart, FilePath.segments_of_isName hname]
  exact hwalk

/-- Any disk with the sample's descriptor holds the project of its two files. -/
theorem load_sampleDescriptor (disk : Files.Disk) (hcwd : disk.cwd = [])
    (hnode : disk.node? ["p.json"] = some (.file sampleDescriptor)) :
    ∃ project, Project.load disk ⟨"p.json"⟩ = .ok project ∧
      project.files = [⟨"a.ts"⟩, ⟨"b.ts"⟩] := by
  have hread : disk.read ⟨"p.json"⟩ = .ok sampleDescriptor :=
    read_of_node? (by decide) (by decide +kernel) (by decide) hcwd hnode
  have htext : String.fromUTF8? sampleDescriptor =
      some "\x7b\"files\":[\"a.ts\",\"b.ts\"]\x7d" := by decide +kernel
  have hreadText : disk.readText ⟨"p.json"⟩ =
      .ok "\x7b\"files\":[\"a.ts\",\"b.ts\"]\x7d" := by
    unfold Files.Disk.readText
    rw [hread]
    simp [bind, Except.bind, htext]
  have hparsed : Descriptor.ofText "\x7b\"files\":[\"a.ts\",\"b.ts\"]\x7d" =
      .ok ⟨some ["a.ts", "b.ts"], none, none, ⟨false, none⟩⟩ := by decide +kernel
  refine ⟨_, Project.load_of_listsAll hreadText hparsed (Or.inr ⟨rfl, by simp⟩), ?_⟩
  decide +kernel

/-- One of two files changes after a pass; the next pass has the other one in its cache. -/
theorem edit_locality_changeClass :
    let w₁ := new ⟨"p.json"⟩ sampleDisk
    let w₂ := w₁.replay [.pass, .edit changeClass]
    w₁.IsReached ∧ w₂.IsReached ∧ w₁.disk.read ⟨"b.ts"⟩ = w₂.disk.read ⟨"b.ts"⟩ ∧
    ∃ x₁ x₂, (w₁.coordinator.run w₁.disk).1 = .ok x₁ ∧ (w₂.coordinator.run w₂.disk).1 = .ok x₂ ∧
      Diagram.render x₁.model = String.intercalate "\n"
        (Extraction.cutAround w₁.disk [] ⟨"a.ts"⟩ [⟨"b.ts"⟩]).lines ∧
      Diagram.render x₂.model = String.intercalate "\n"
        (Extraction.cutAround w₂.disk [] ⟨"a.ts"⟩ [⟨"b.ts"⟩]).lines := by
  intro w₁ w₂
  have hw₁ : w₁.IsReached :=
    ⟨⟨"p.json"⟩, sampleDisk, [], rfl, sample_separates.mono fun _ h => Or.inl h⟩
  have hw₂ : w₂.IsReached := by
    refine ⟨⟨"p.json"⟩, sampleDisk, [.pass, .edit changeClass], rfl, ?_⟩
    exact sample_separates.mono fun _ h => h.imp_right Or.inl
  have hdesc : w₂.coordinator.descriptor = ⟨"p.json"⟩ := replay_descriptor _ w₁
  have hdisk : w₂.disk = changedDisk := edited_sampleDisk
  have hother : ∀ disk : Files.Disk, disk.cwd = [] → disk.node? ["b.ts"] = some (.file oldClass) →
      disk.read ⟨"b.ts"⟩ = .ok oldClass :=
    fun _ => read_of_node? (by decide) (by decide +kernel) (by decide)
  have hread : w₁.disk.read ⟨"b.ts"⟩ = w₂.disk.read ⟨"b.ts"⟩ := by
    rw [hdisk, hother changedDisk rfl rfl]
    exact hother sampleDisk rfl rfl
  obtain ⟨project₁, hl₁, hf₁⟩ := load_sampleDescriptor w₁.disk rfl rfl
  obtain ⟨project₂, hl₂, hf₂⟩ := load_sampleDescriptor changedDisk rfl rfl
  rw [← hdisk, ← hdesc] at hl₂
  have hsame : ∀ p ∈ ([] : List FilePath) ++ [⟨"b.ts"⟩], w₁.disk.read p = w₂.disk.read p := by
    simpa using hread
  obtain ⟨x₁, x₂, hx₁, hx₂, hr₁, hr₂, -⟩ := edit_locality hw₁ hw₂ hl₁ hl₂ hf₁ hf₂ hsame
  exact ⟨hw₁, hw₂, hread, x₁, x₂, hx₁, hx₂, hr₁, hr₂⟩

end Workbench
end ClassAtlas
