import ClassAtlas.Proofs.Extraction.Memory
import ClassAtlas.Proofs.Pipeline.Scene
import Mathlib.Data.List.Induction

/-!
# What a pipeline has read and published

`Sound` is kept along any run of a `Scene`: the caches, that of the coordinator and that of a pass
under way, are faithful to the contents read so far, the current snapshot is what the last
successful pass published, and a pass is under way only while the consumer makes one.

`published` says what the passes so far come to: the diagram of the last that succeeded, with as
many revisions as there were of these, and the initial snapshot if there was none.
-/
namespace ClassAtlas.Scene

/-- What is published after some passes. -/
def published (outcomes : List (Except ProjectError Extraction)) : Diagram.Snapshot :=
  let done := outcomes.filterMap Except.toOption
  ⟨(done.getLast?.map fun e => Diagram.render e.model).getD "", done.length⟩

theorem published_error (outcomes : List (Except ProjectError Extraction)) (e : ProjectError) :
    published (outcomes ++ [.error e]) = published outcomes := by
  simp [published, Except.toOption]

theorem published_ok (outcomes : List (Except ProjectError Extraction)) (x : Extraction) :
    published (outcomes ++ [.ok x]) =
      ⟨Diagram.render x.model, (published outcomes).revision + 1⟩ := by
  simp [published, Except.toOption]

theorem mem_contents {disk : Files.Disk} {ps : List FilePath} {content : ByteArray} :
    content ∈ contents disk ps ↔ ∃ p ∈ ps, disk.read p = .ok content := by
  unfold contents
  rw [List.mem_filterMap]
  constructor
  · rintro ⟨p, hp, h⟩
    cases hr : disk.read p with
    | error f => simp [hr, Except.toOption] at h
    | ok c =>
      simp only [hr, Except.toOption, Option.some.injEq] at h
      exact ⟨p, hp, h ▸ hr⟩
  · rintro ⟨p, hp, h⟩
    exact ⟨p, hp, by simp [h, Except.toOption]⟩

/-! ## What was read and published -/

structure Sound (descriptor : FilePath) (config : PipelineConfig) (s : Scene) : Prop where
  descriptor_eq : s.coordinator.descriptor = descriptor
  config_eq : s.pipeline.config = config
  running : s.pipeline.phase ≠ .stopped
  faithful : s.coordinator.cache.Faithful (· ∈ s.seen)
  current_eq : s.current = published s.outcomes
  reading : ∀ r, s.reading = some r →
    (∃ batch, s.pipeline.phase = .passing batch) ∧ r.cache.Faithful (· ∈ s.seen)

variable {descriptor : FilePath} {config : PipelineConfig} {s : Scene}

theorem sound_start (descriptor : FilePath) (config : PipelineConfig) (disk : Files.Disk) :
    Sound descriptor config (start descriptor config disk) where
  descriptor_eq := by
    show ((Publisher.new descriptor).pass disk).2.coordinator.descriptor = descriptor
    rw [Publisher.pass_coordinator, Coordinator.run_descriptor]
    rfl
  config_eq := rfl
  running := by
    intro hp
    cases hp
  faithful := by
    show ((Publisher.new descriptor).pass disk).2.coordinator.cache.Faithful _
    rw [Publisher.pass_coordinator]
    refine Coordinator.run_faithful Cache.faithful_empty ?_
    rintro content ⟨project, hl, p, hp, hread⟩
    simp only [start, show Project.load disk descriptor = .ok project from hl]
    exact mem_contents.2 ⟨p, hp, hread⟩
  current_eq := by
    show ((Publisher.new descriptor).pass disk).2.cell.current =
      published ([] ++ [((Coordinator.new descriptor).run disk).1])
    have hnew : (Publisher.new descriptor).coordinator = Coordinator.new descriptor := rfl
    rw [Publisher.pass_cell, hnew]
    cases ((Coordinator.new descriptor).run disk).1 with
    | error e => rw [published_error]; rfl
    | ok x => rw [published_ok]; rfl
  reading := by
    intro r hr
    cases hr

theorem sound_of_accept (h : Sound descriptor config s) (t : Trigger) :
    Sound descriptor config (s.act (.accept t)) := by
  obtain ⟨h1, h2, hrun, h3, h4, h5⟩ := h
  refine ⟨?_, ?_, ?_, ?_, ?_, ?_⟩
  · simpa only [act, coordinator, Pipeline.accept_publisher] using h1
  · simpa only [act, Pipeline.accept_config] using h2
  · simpa only [act, Pipeline.accept_phase] using hrun
  · simpa only [act, coordinator, Pipeline.accept_publisher] using h3
  · simpa only [act, current, Pipeline.current, Pipeline.accept_publisher] using h4
  · simpa only [act, Pipeline.accept_phase] using h5

theorem sound_of_run (h : Sound descriptor config s) : Sound descriptor config (s.act .run) := by
  obtain ⟨h1, h2, hrun, h3, h4, h5⟩ := h
  refine ⟨?_, ?_, ?_, ?_, ?_, ?_⟩
  · simpa only [act, coordinator, Pipeline.run_publisher] using h1
  · simpa only [act, Pipeline.run_config] using h2
  · exact Pipeline.run_running hrun
  · simpa only [act, coordinator, Pipeline.run_publisher] using h3
  · simpa only [act, current, Pipeline.current, Pipeline.run_publisher] using h4
  · intro r hr
    obtain ⟨⟨batch, hb⟩, hc⟩ := h5 r hr
    have hready : s.pipeline.phase ≠ .ready := by rw [hb]; intro he; cases he
    exact ⟨⟨batch, (Pipeline.run_phase _ hready).trans hb⟩, hc⟩

theorem sound_of_begin (h : Sound descriptor config s) {batch : List Trigger}
    (hp : s.pipeline.phase = .passing batch) (hr : s.reading = none) :
    Sound descriptor config s.begin := by
  obtain ⟨h1, h2, hrun, h3, h4, h5⟩ := h
  cases hl : Project.load s.disk s.coordinator.descriptor with
  | error e =>
    rw [begin_error hl]
    refine ⟨h1, h2, by simp, h3, ?_, ?_⟩
    · rw [published_error]
      exact h4
    · intro r hr'
      rw [hr] at hr'
      cases hr'
  | ok project =>
    rw [begin_ok hl]
    refine ⟨h1, h2, hrun, h3, h4, ?_⟩
    intro r hr'
    cases hr'
    exact ⟨⟨batch, hp⟩, h3.retain project.files⟩

theorem sound_of_readFile (h : Sound descriptor config s) {r : Reading} (hr : s.reading = some r)
    (p : FilePath) (ps : List FilePath) : Sound descriptor config (s.readFile r p ps) := by
  obtain ⟨h1, h2, hrun, h3, h4, h5⟩ := h
  obtain ⟨hp, hc⟩ := h5 r hr
  have hold : ∀ content, content ∈ s.seen → content ∈ s.seen ++ contents s.disk [p] :=
    fun content hs => List.mem_append_left _ hs
  refine ⟨h1, h2, hrun, h3.mono hold, h4, ?_⟩
  intro r' hr'
  cases hr'
  refine ⟨hp, Coordinator.extractFile_faithful (hc.mono hold) ?_⟩
  intro content hread
  exact List.mem_append_right _ (mem_contents.2 ⟨p, List.mem_singleton_self p, hread⟩)

theorem sound_of_publish (h : Sound descriptor config s) {r : Reading} (hr : s.reading = some r) :
    Sound descriptor config (s.publish r) := by
  obtain ⟨h1, h2, hrun, h3, h4, h5⟩ := h
  refine ⟨h1, h2, by simp [publish], (h5 r hr).2, ?_, ?_⟩
  · show (s.pipeline.publisher.cell.publish (Diagram.render r.extraction.model)).current =
      published (s.outcomes ++ [.ok r.extraction])
    rw [published_ok, ← h4]
    rfl
  · intro r' hr'
    cases hr'

theorem sound_of_consume (h : Sound descriptor config s) : Sound descriptor config s.consume := by
  by_cases hp : ∃ batch, s.pipeline.phase = .passing batch
  · obtain ⟨batch, hp⟩ := hp
    cases hr : s.reading with
    | none =>
      rw [consume_begin hp hr]
      exact sound_of_begin h hp hr
    | some r =>
      cases hl : r.left with
      | nil =>
        rw [consume_publish hp hr hl]
        exact sound_of_publish h hr
      | cons p ps =>
        rw [consume_readFile hp hr hl]
        exact sound_of_readFile h hr p ps
  · have hn : ∀ batch, s.pipeline.phase ≠ .passing batch := fun batch hb => hp ⟨batch, hb⟩
    rw [consume_step hn]
    cases hs : s.pipeline.step s.disk with
    | none => exact h
    | some x =>
      obtain ⟨h1, h2, hrun, h3, h4, h5⟩ := h
      obtain ⟨hpub, hconf⟩ := Pipeline.step_frame hs hn
      refine ⟨?_, hconf.trans h2, Pipeline.step_running hs, ?_, ?_, ?_⟩
      · simpa [coordinator, hpub] using h1
      · simpa [coordinator, hpub] using h3
      · simpa [current, Pipeline.current, hpub] using h4
      · intro r hr
        exact absurd (h5 r hr).1 hp

theorem sound_of_act (h : Sound descriptor config s) (a : Action) :
    Sound descriptor config (s.act a) := by
  cases a with
  | become disk =>
    obtain ⟨h1, h2, hrun, h3, h4, h5⟩ := h
    exact ⟨h1, h2, hrun, h3, h4, h5⟩
  | accept t => exact sound_of_accept h t
  | run => exact sound_of_run h
  | consume => exact sound_of_consume h

theorem sound_replay (descriptor : FilePath) (config : PipelineConfig) (disk : Files.Disk)
    (actions : List Action) : Sound descriptor config (replay descriptor config disk actions) := by
  induction actions using List.reverseRecOn with
  | nil => exact sound_start descriptor config disk
  | append_singleton actions a ih =>
    rw [replay_snoc]
    exact sound_of_act ih a

end ClassAtlas.Scene
