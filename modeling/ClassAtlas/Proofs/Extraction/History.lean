import ClassAtlas.Files.Edit
import ClassAtlas.Proofs.Extraction.Memory
import Mathlib

/-!
# Passes after a history

A `Workbench` is a disk with one coordinator that works on it. A history is a list of events: edits,
of the descriptor as well as of any file, changes of the disk that no edit makes, and passes. The
disk changes between passes as it likes, so a file may be malformed in one pass, unreadable in the
next, out of the project in a third and back in a fourth.

**Hypothesis.** `Digest.Separates` of the contents `Seen`: no two contents that some pass of the
history or the pass after it reads have the same digest.

**Results.**
* `replay_faithful`: after any history the cache is faithful to the contents seen.
* `run_after_history`: the pass after any history gives exactly what the disk gives without a cache,
  the error of a project that cannot be loaded, or else the models of its files in their order and
  the files that have none, each file on exactly one side.
-/
namespace ClassAtlas

/-- A disk, and a coordinator that works on it. -/
structure Workbench where
  disk : Files.Disk
  coordinator : Coordinator
deriving Inhabited

namespace Workbench

inductive Event where
  /-- One that fails changes nothing. -/
  | edit (e : Files.Edit)
  /-- Any other change of the disk. -/
  | become (disk : Files.Disk)
  | pass
deriving Inhabited

def new (descriptor : FilePath) (disk : Files.Disk) : Workbench :=
  ⟨disk, Coordinator.new descriptor⟩

/-- A disk after an edit. -/
def edited (disk : Files.Disk) (e : Files.Edit) : Files.Disk := (disk.apply e).toOption.getD disk

def step (w : Workbench) : Event → Workbench
  | .edit e => { w with disk := edited w.disk e }
  | .become disk => { w with disk }
  | .pass => { w with coordinator := (w.coordinator.run w.disk).2 }

/-- The bench after a history. -/
def replay (w : Workbench) (es : List Event) : Workbench := es.foldl step w

/-- The contents that the passes of a history read, and the pass after it. -/
def Seen (w : Workbench) : List Event → ByteArray → Prop
  | [], content => Coordinator.Reads w.disk w.coordinator.descriptor content
  | .pass :: es, content =>
    Coordinator.Reads w.disk w.coordinator.descriptor content ∨ Seen (w.step .pass) es content
  | e :: es, content => Seen (w.step e) es content

theorem step_descriptor (w : Workbench) (e : Event) :
    (w.step e).coordinator.descriptor = w.coordinator.descriptor := by
  cases e with
  | edit e => rfl
  | become d => rfl
  | pass => exact Coordinator.run_descriptor _ _

theorem replay_descriptor (es : List Event) (w : Workbench) :
    (w.replay es).coordinator.descriptor = w.coordinator.descriptor := by
  induction es generalizing w with
  | nil => rfl
  | cons e es ih => exact (ih (w.step e)).trans (step_descriptor w e)

/-- What is seen after the first event is seen. -/
theorem seen_of_step {w : Workbench} {e : Event} {es : List Event} {content : ByteArray}
    (h : (w.step e).Seen es content) : w.Seen (e :: es) content := by
  cases e with
  | edit e => exact h
  | become d => exact h
  | pass => exact Or.inr h

/-- What the pass after a history reads is seen. -/
theorem seen_of_reads {es : List Event} {w : Workbench} {content : ByteArray}
    (h : Coordinator.Reads (w.replay es).disk w.coordinator.descriptor content) :
    w.Seen es content := by
  induction es generalizing w with
  | nil => exact h
  | cons e es ih =>
    refine seen_of_step (ih ?_)
    rw [step_descriptor]
    exact h

theorem step_faithful {w : Workbench} {S : ByteArray → Prop} (h : w.coordinator.cache.Faithful S)
    {e : Event} {es : List Event} (hS : ∀ content, w.Seen (e :: es) content → S content) :
    (w.step e).coordinator.cache.Faithful S := by
  cases e with
  | edit e => exact h
  | become d => exact h
  | pass => exact Coordinator.run_faithful h fun content hr => hS content (Or.inl hr)

/-- After any history a cache is faithful to what was seen. -/
theorem replay_faithful {es : List Event} {w : Workbench} {S : ByteArray → Prop}
    (h : w.coordinator.cache.Faithful S) (hS : ∀ content, w.Seen es content → S content) :
    (w.replay es).coordinator.cache.Faithful S := by
  induction es generalizing w with
  | nil => exact h
  | cons e es ih => exact ih (step_faithful h hS) fun content hc => hS content (seen_of_step hc)

theorem replay_new_faithful (descriptor : FilePath) (disk : Files.Disk) (es : List Event) :
    ((new descriptor disk).replay es).coordinator.cache.Faithful ((new descriptor disk).Seen es) :=
  replay_faithful Cache.faithful_empty fun _ h => h

theorem seen_of_reads_replay {w : Workbench} {es : List Event} (content : ByteArray)
    (h : Coordinator.Reads (w.replay es).disk (w.replay es).coordinator.descriptor content) :
    w.Seen es content := by
  rw [replay_descriptor] at h
  exact seen_of_reads h

/-- **Incremental is from scratch.** After any history a pass gives what the disk alone gives. -/
theorem run_after_history (descriptor : FilePath) (disk : Files.Disk) (es : List Event)
    (hd : Digest.Separates ((new descriptor disk).Seen es)) :
    let w := (new descriptor disk).replay es
    ((w.coordinator.run w.disk).1 =
      match Project.load w.disk descriptor with
      | .error e => .error e
      | .ok project => .ok (Extraction.reference w.disk project.files)) ∧
    ∀ project, Project.load w.disk descriptor = .ok project → ∀ p ∈ project.files,
      Xor (p ∈ (Extraction.contributions w.disk project.files).map (·.1))
        (p ∈ (Extraction.reference w.disk project.files).failures.map (·.path)) := by
  intro w
  have hdesc : w.coordinator.descriptor = descriptor := replay_descriptor es _
  have hrun := Coordinator.run_fst hd (replay_new_faithful descriptor disk es) seen_of_reads_replay
  rw [hdesc] at hrun
  exact ⟨hrun, fun project _ p hp => Extraction.xor_mem hp⟩

/-! ## A history that meets the hypothesis -/

theorem mem_of_reads {contents : List ByteArray} {disk : Files.Disk} (hw : disk.Within contents)
    {descriptor : FilePath} {content : ByteArray} (h : Coordinator.Reads disk descriptor content) :
    content ∈ contents := by
  obtain ⟨-, -, p, -, hread⟩ := h
  exact hw.mem_of_read hread

/-- A descriptor that lists two files. -/
def sampleDescriptor : ByteArray := "\x7b\"files\":[\"a.ts\",\"b.ts\"]\x7d".toUTF8

def brokenDescriptor : ByteArray := "\x7b broken".toUTF8

def oldClass : ByteArray := "class A \x7b\x7d".toUTF8

def newClass : ByteArray := "class A \x7b run() \x7b\x7d \x7d".toUTF8

def sampleContents : List ByteArray := [sampleDescriptor, brokenDescriptor, oldClass, newClass]

/-- Two files with the same contents. -/
def sampleDisk : Files.Disk :=
  ⟨[(["p.json"], .file sampleDescriptor), (["a.ts"], .file oldClass),
    (["b.ts"], .file oldClass)], []⟩

def changedDisk : Files.Disk :=
  ⟨[(["a.ts"], .file newClass), (["p.json"], .file sampleDescriptor),
    (["b.ts"], .file oldClass)], []⟩

def brokenDisk : Files.Disk :=
  ⟨[(["p.json"], .file brokenDescriptor), (["a.ts"], .file newClass),
    (["b.ts"], .file oldClass)], []⟩

def changeClass : Files.Edit := .write ⟨"a.ts"⟩ (.bytes newClass)

theorem edited_sampleDisk : edited sampleDisk changeClass = changedDisk := by cbv

/-- A file changes between two passes; then the descriptor is broken for a pass, and all is as it
was at first. -/
def sampleHistory : List Event :=
  [.pass, .edit changeClass, .pass, .become brokenDisk, .pass, .become sampleDisk]

theorem sample_separates :
    Digest.Separates ((new ⟨"p.json"⟩ sampleDisk).Seen sampleHistory) := by
  have hnodup : (sampleContents.map Digest.ofBytes).Nodup := by decide +kernel
  refine (Digest.separates_of_nodup hnodup).mono ?_
  have hsample : sampleDisk.Within sampleContents := by
    simp [Files.Disk.Within, sampleDisk, sampleContents]
  rintro content (h | h | h | h)
  · exact mem_of_reads hsample h
  · refine mem_of_reads ?_ h
    show (edited sampleDisk changeClass).Within sampleContents
    simp [edited_sampleDisk, Files.Disk.Within, changedDisk, sampleContents]
  · refine mem_of_reads ?_ h
    show brokenDisk.Within sampleContents
    simp [Files.Disk.Within, brokenDisk, sampleContents]
  · exact mem_of_reads hsample h

/-- The sample meets the hypothesis, and the pass after it agrees with a pass from scratch. -/
theorem run_after_sampleHistory :
    Digest.Separates ((new ⟨"p.json"⟩ sampleDisk).Seen sampleHistory) ∧
    let w := (new ⟨"p.json"⟩ sampleDisk).replay sampleHistory
    ((w.coordinator.run w.disk).1 =
      match Project.load w.disk ⟨"p.json"⟩ with
      | .error e => .error e
      | .ok project => .ok (Extraction.reference w.disk project.files)) :=
  ⟨sample_separates, (run_after_history _ _ _ sample_separates).1⟩

end Workbench
end ClassAtlas
