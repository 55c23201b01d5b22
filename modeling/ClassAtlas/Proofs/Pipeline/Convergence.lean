import ClassAtlas.Proofs.Pipeline.Soundness
import Mathlib

/-!
# A pipeline at rest shows the disk as it is

`Level` is kept along any run of a `Scene` in which every change of the disk is followed by a
trigger that wants a pass (`Followed`): the current snapshot is that of the present disk (`Fresh`),
or a pass is under way that has read nothing but the present disk (`Exact`), or a trigger that wants
a pass has been accepted and no pass has begun since (`Wanted`).

A change of the disk may come at any time and leaves none of these. Only a trigger that comes after
it makes one true again; that trigger is then `Wanted`, and stays so until a pass begins after it.
At rest there is no trigger left and no pass under way, so the snapshot is `Fresh`
(`current_at_rest`).

**Hypothesis.** `Digest.Separates`: no two contents that were read have the same digest.
-/
namespace ClassAtlas.Scene

/-- Every change of the disk is followed by a trigger that wants a pass. -/
def Followed (config : PipelineConfig) (actions : List Action) : Prop :=
  ∀ before disk after, actions = before ++ .become disk :: after →
    ∃ t, .accept t ∈ after ∧ config.wants t = true

theorem not_followed_become (config : PipelineConfig) (actions : List Action) (disk : Files.Disk) :
    ¬ Followed config (actions ++ [.become disk]) := by
  intro h
  obtain ⟨t, ht, -⟩ := h actions disk [] rfl
  exact absurd ht List.not_mem_nil

theorem followed_cons {config : PipelineConfig} {actions : List Action} {a : Action} :
    Followed config (a :: actions) ↔
      (∀ disk, a = .become disk → ∃ t, .accept t ∈ actions ∧ config.wants t = true) ∧
        Followed config actions := by
  constructor
  · intro h
    refine ⟨fun disk ha => h [] disk actions (by rw [ha]; rfl), ?_⟩
    intro before disk after heq
    exact h (a :: before) disk after (by rw [heq]; rfl)
  · rintro ⟨ha, h⟩ before disk after heq
    cases before with
    | nil =>
      obtain ⟨rfl, rfl⟩ := List.cons.inj heq
      exact ha disk rfl
    | cons b before =>
      obtain ⟨rfl, rfl⟩ := List.cons.inj heq
      exact h before disk after rfl

theorem followed_of_snoc {config : PipelineConfig} {actions : List Action} {a : Action}
    (h : Followed config (actions ++ [a])) (ha : ∀ t, a = .accept t → config.wants t = false) :
    Followed config actions := by
  intro before disk after heq
  obtain ⟨t, ht, hw⟩ := h before disk (after ++ [a]) (by rw [heq]; simp)
  rcases List.mem_append.1 ht with ht | ht
  · exact ⟨t, ht, hw⟩
  · have hat : a = .accept t := (List.mem_singleton.1 ht).symm
    rw [ha t hat] at hw
    cases hw

variable {descriptor : FilePath} {config : PipelineConfig} {s : Scene}

/-! ## Level with the disk -/

/-- No pass is under way, and the current snapshot is that of the present disk. -/
def Fresh (s : Scene) : Prop :=
  s.reading = none ∧
    ∀ project, Project.load s.disk s.coordinator.descriptor = .ok project →
      s.current.text = Diagram.render (Extraction.reference s.disk project.files).model

/-- A pass is under way that has read nothing but the present disk. -/
def Exact (s : Scene) : Prop :=
  ∃ r project before, s.reading = some r ∧
    Project.load s.disk s.coordinator.descriptor = .ok project ∧
    project.files = before ++ r.left ∧ r.extraction = Extraction.ofFiles s.disk before

/-- A trigger that wants a pass waits for one to begin. -/
def Wanted (s : Scene) : Prop :=
  ∃ t, s.pipeline.config.wants t = true ∧
    (t ∈ s.pipeline.queue ∨ s.reading = none ∧ t ∈ s.pipeline.phase.batch)

def Level (s : Scene) : Prop := Fresh s ∨ Exact s ∨ Wanted s

/-- A new coordinator would publish just what the initial pass has published. -/
theorem fresh_start (descriptor : FilePath) (config : PipelineConfig) (disk : Files.Disk) :
    Fresh (start descriptor config disk) := by
  refine ⟨rfl, ?_⟩
  intro project hl
  have hs := sound_start descriptor config disk
  rw [hs.descriptor_eq] at hl
  have hl' : Project.load disk descriptor = .ok project := hl
  rw [hs.current_eq]
  show (published ([] ++ [((Coordinator.new descriptor).run disk).1])).text = _
  rw [Coordinator.new_run_fst, hl', published_ok]
  rfl

theorem level_of_accept (h : Level s) (hp : s.pipeline.phase ≠ .stopped) (t : Trigger) :
    Level (s.act (.accept t)) := by
  rcases h with ⟨hr, hf⟩ | ⟨r, project, before, hr, hl, hb, he⟩ | ⟨u, hu, hq⟩
  · refine Or.inl ⟨hr, ?_⟩
    simpa [act, coordinator, current, Pipeline.current] using hf
  · refine Or.inr (Or.inl ⟨r, project, before, hr, ?_, hb, he⟩)
    simpa [act, coordinator] using hl
  · refine Or.inr (Or.inr ⟨u, ?_, ?_⟩)
    · simpa [act] using hu
    · rcases hq with hq | hq
      · exact Or.inl (by simp [act, Pipeline.accept_queue hp, hq])
      · exact Or.inr (by simpa [act] using hq)

/-- A trigger that wants a pass is enough. -/
theorem level_of_wanted (hp : s.pipeline.phase ≠ .stopped) {t : Trigger}
    (ht : s.pipeline.config.wants t = true) : Level (s.act (.accept t)) := by
  refine Or.inr (Or.inr ⟨t, ?_, Or.inl ?_⟩)
  · simpa [act] using ht
  · simp [act, Pipeline.accept_queue hp]

theorem level_of_run (h : Level s) : Level (s.act .run) := by
  rcases h with ⟨hr, hf⟩ | ⟨r, project, before, hr, hl, hb, he⟩ | ⟨u, hu, hq⟩
  · refine Or.inl ⟨hr, ?_⟩
    simpa [act, coordinator, current, Pipeline.current] using hf
  · refine Or.inr (Or.inl ⟨r, project, before, hr, ?_, hb, he⟩)
    simpa [act, coordinator] using hl
  · refine Or.inr (Or.inr ⟨u, ?_, ?_⟩)
    · simpa [act] using hu
    · simpa [act] using hq

/-- However a pass begins, the disk is as it was found. -/
theorem level_of_begin (hr : s.reading = none) : Level s.begin := by
  cases hl : Project.load s.disk s.coordinator.descriptor with
  | error e =>
    rw [begin_error hl]
    refine Or.inl ⟨hr, ?_⟩
    intro project hl'
    have hl' : Project.load s.disk s.coordinator.descriptor = .ok project := hl'
    rw [hl] at hl'
    cases hl'
  | ok project =>
    rw [begin_ok hl]
    exact Or.inr (Or.inl ⟨_, project, [], rfl, hl, rfl, rfl⟩)

theorem level_of_readFile (h : Level s) (hs : Sound descriptor config s) {r : Reading}
    (hr : s.reading = some r) {p : FilePath} {ps : List FilePath} (hleft : r.left = p :: ps)
    (hd : Digest.Separates (· ∈ (s.readFile r p ps).seen)) : Level (s.readFile r p ps) := by
  rcases h with ⟨hnone, -⟩ | ⟨r', project, before, hr', hl, hb, he⟩ | ⟨u, hu, hq⟩
  · rw [hr] at hnone
    cases hnone
  · rw [hr] at hr'
    cases hr'
    have hc : r.cache.Faithful (· ∈ (s.readFile r p ps).seen) :=
      (hs.reading r hr).2.mono fun content h => List.mem_append_left _ h
    have hread : ∀ content, s.disk.read p = .ok content → content ∈ (s.readFile r p ps).seen :=
      fun content h =>
        List.mem_append_right _ (mem_contents.2 ⟨p, List.mem_singleton_self p, h⟩)
    refine Or.inr (Or.inl ⟨_, project, before ++ [p], rfl, hl, ?_, ?_⟩)
    · rw [hb, hleft]
      simp
    · show r.extraction.add p (Coordinator.extractFile s.disk r.cache p).1 =
        Extraction.ofFiles s.disk (before ++ [p])
      rw [Coordinator.extractFile_fst hd hc hread, he]
      simp [Extraction.ofFiles]
  · refine Or.inr (Or.inr ⟨u, hu, ?_⟩)
    rcases hq with hq | ⟨hnone, -⟩
    · exact Or.inl hq
    · rw [hr] at hnone
      cases hnone

theorem level_of_publish (h : Level s) {r : Reading} (hr : s.reading = some r)
    (hleft : r.left = []) : Level (s.publish r) := by
  rcases h with ⟨hnone, -⟩ | ⟨r', project, before, hr', hl, hb, he⟩ | ⟨u, hu, hq⟩
  · rw [hr] at hnone
    cases hnone
  · rw [hr] at hr'
    cases hr'
    refine Or.inl ⟨rfl, ?_⟩
    intro project' hl'
    have hl' : Project.load s.disk s.coordinator.descriptor = .ok project' := hl'
    rw [hl] at hl'
    cases hl'
    show Diagram.render r.extraction.model = _
    rw [he, hb, hleft, List.append_nil, Extraction.ofFiles_eq_reference]
    rfl
  · refine Or.inr (Or.inr ⟨u, hu, ?_⟩)
    rcases hq with hq | ⟨hnone, -⟩
    · exact Or.inl hq
    · rw [hr] at hnone
      cases hnone

/-- A step that makes no pass moves triggers towards one. -/
theorem wanted_of_step {q : Pipeline} {reports : List Report}
    (h : s.pipeline.step s.disk = some (reports, q))
    (hp : ∀ batch, s.pipeline.phase ≠ .passing batch) (hw : Wanted s) (hr : s.reading = none) :
    Wanted { s with pipeline := q } := by
  obtain ⟨u, hu, hq⟩ := hw
  have hq : u ∈ s.pipeline.queue ∨ u ∈ s.pipeline.phase.batch := hq.imp_right And.right
  refine ⟨u, ?_, ?_⟩
  · rw [show q.config = s.pipeline.config from (Pipeline.step_frame h hp).2]
    exact hu
  rcases Pipeline.step_cases h with ⟨t, rest, hph, hqu, -, rfl⟩ | ⟨batch, hph, -, rfl⟩ |
    ⟨batch, t, rest, hph, hqu, -, rfl⟩ | ⟨batch, hph, hqu, -, rfl⟩ | ⟨batch, hph, -⟩
  · rw [hqu, hph] at hq
    rcases hq with hq | hq
    · rcases List.mem_cons.1 hq with rfl | hq
      · refine Or.inr ⟨hr, ?_⟩
        cases hc : s.pipeline.config.pausesAfter u <;> simp [Phase.batch]
      · exact Or.inl hq
    · exact absurd hq List.not_mem_nil
  · rw [hph] at hq
    exact hq.imp_right fun hb => ⟨hr, hb⟩
  · rw [hqu, hph] at hq
    rcases hq with hq | hq
    · rcases List.mem_cons.1 hq with rfl | hq
      · exact Or.inr ⟨hr, by simp [Phase.batch]⟩
      · exact Or.inl hq
    · exact Or.inr ⟨hr, List.mem_append_left _ hq⟩
  · rw [hqu, hph] at hq
    rcases hq with hq | hq
    · exact absurd hq List.not_mem_nil
    · have hany : batch.any s.pipeline.config.wants = true := List.any_eq_true.2 ⟨u, hq, hu⟩
      refine Or.inr ⟨hr, ?_⟩
      simp only [hany, if_true]
      exact hq
  · exact absurd hph (hp batch)

theorem level_of_step (h : Level s) (hs : Sound descriptor config s)
    (hp : ∀ batch, s.pipeline.phase ≠ .passing batch) : Level s.consume := by
  have hr : s.reading = none := by
    cases hr : s.reading with
    | none => rfl
    | some r =>
      obtain ⟨⟨batch, hb⟩, -⟩ := hs.reading r hr
      exact absurd hb (hp batch)
  rw [consume_step hp]
  cases hstep : s.pipeline.step s.disk with
  | none => exact h
  | some x =>
    obtain ⟨reports, q⟩ := x
    obtain ⟨hpub, -⟩ := Pipeline.step_frame hstep hp
    rcases h with ⟨-, hf⟩ | ⟨r, -, -, hr', -⟩ | hw
    · refine Or.inl ⟨hr, ?_⟩
      simpa [coordinator, current, Pipeline.current, hpub] using hf
    · rw [hr] at hr'
      cases hr'
    · exact Or.inr (Or.inr (wanted_of_step hstep hp hw hr))

theorem level_of_consume (h : Level s) (hs : Sound descriptor config s)
    (hd : Digest.Separates (· ∈ s.consume.seen)) : Level s.consume := by
  by_cases hp : ∃ batch, s.pipeline.phase = .passing batch
  · obtain ⟨batch, hp⟩ := hp
    cases hr : s.reading with
    | none =>
      rw [consume_begin hp hr]
      exact level_of_begin hr
    | some r =>
      cases hl : r.left with
      | nil =>
        rw [consume_publish hp hr hl]
        exact level_of_publish h hr hl
      | cons p ps =>
        rw [consume_readFile hp hr hl] at hd ⊢
        exact level_of_readFile h hs hr hl hd
  · exact level_of_step h hs fun batch hb => hp ⟨batch, hb⟩

/-! ## Runs -/

/-- What was read stays read. -/
theorem mem_seen_act (a : Action) {content : ByteArray} (h : content ∈ s.seen) :
    content ∈ (s.act a).seen := by
  cases a with
  | become disk => exact h
  | accept t => exact h
  | run => exact h
  | consume =>
    show content ∈ s.consume.seen
    unfold consume
    split
    · unfold begin
      split <;> exact h
    · split
      · exact h
      · exact List.mem_append_left _ h
    · split <;> exact h

theorem level_replay (descriptor : FilePath) (config : PipelineConfig) (disk : Files.Disk)
    (actions : List Action)
    (hd : Digest.Separates (· ∈ (replay descriptor config disk actions).seen))
    (hf : Followed config actions) : Level (replay descriptor config disk actions) := by
  induction actions using List.reverseRecOn with
  | nil => exact Or.inl (fresh_start descriptor config disk)
  | append_singleton actions a ih =>
    have hs := sound_replay descriptor config disk actions
    rw [replay_snoc] at hd ⊢
    have hd' := hd.mono fun content h => mem_seen_act a h
    cases a with
    | become disk => exact absurd hf (not_followed_become config actions disk)
    | accept t =>
      cases hw : config.wants t with
      | true =>
        rw [← hs.config_eq] at hw
        exact level_of_wanted hs.running hw
      | false =>
        have hf' := followed_of_snoc hf fun u hu => by cases hu; exact hw
        exact level_of_accept (ih hd' hf') hs.running t
    | run =>
      have hf' := followed_of_snoc hf fun u hu => by cases hu
      exact level_of_run (ih hd' hf')
    | consume =>
      have hf' := followed_of_snoc hf fun u hu => by cases hu
      exact level_of_consume (ih hd' hf') hs hd

/-- At rest there is nothing that waits for a pass, and none under way. -/
theorem Level.fresh_of_rest (h : Level s) (hs : Sound descriptor config s)
    (hq : s.pipeline.queue = []) (hp : s.pipeline.phase = .waiting) : Fresh s := by
  rcases h with hf | ⟨r, -, -, hr, -⟩ | ⟨t, -, ht⟩
  · exact hf
  · obtain ⟨⟨batch, hb⟩, -⟩ := hs.reading r hr
    rw [hp] at hb
    cases hb
  · rw [hq, hp] at ht
    rcases ht with ht | ⟨-, ht⟩
    · exact absurd ht List.not_mem_nil
    · exact absurd ht List.not_mem_nil

/-- **Convergence.** In every state in which the queue is empty and the consumer waits, if every
change of the disk was followed by a trigger that wants a pass, the current snapshot shows what a
new coordinator would extract from the present disk. If the project cannot be loaded from it, the
current snapshot is that of the last successful pass, or the initial one if there was none. -/
theorem current_at_rest (descriptor : FilePath) (config : PipelineConfig) (disk : Files.Disk)
    (actions : List Action)
    (hd : Digest.Separates (· ∈ (replay descriptor config disk actions).seen))
    (hf : Followed config actions)
    (hq : (replay descriptor config disk actions).pipeline.queue = [])
    (hp : (replay descriptor config disk actions).pipeline.phase = .waiting) :
    let s := replay descriptor config disk actions
    match Project.load s.disk descriptor with
    | .ok _ => ∃ x, ((Coordinator.new descriptor).run s.disk).1 = .ok x ∧
        s.current.text = Diagram.render x.model
    | .error _ => s.current = published s.outcomes := by
  intro s
  have hs : Sound descriptor config s := sound_replay descriptor config disk actions
  have hfresh : Fresh s :=
    (level_replay descriptor config disk actions hd hf).fresh_of_rest hs hq hp
  cases hl : Project.load s.disk descriptor with
  | error e => exact hs.current_eq
  | ok project =>
    refine ⟨Extraction.reference s.disk project.files, ?_, ?_⟩
    · rw [Coordinator.new_run_fst, hl]
    · exact hfresh.2 project (by rw [hs.descriptor_eq]; exact hl)

/-! ## A run that meets the hypotheses -/

def oldText : ByteArray := "class A \x7b\x7d".toUTF8

def newText : ByteArray := "class B \x7b\x7d".toUTF8

/-- A file next to a descriptor that lists it. -/
def diskWith (text : ByteArray) : Files.Disk :=
  ⟨[(["p"], .file "\x7b\"files\":[\"a.ts\"]\x7d".toUTF8), (["a.ts"], .file text)], []⟩

theorem readText_diskWith (text : ByteArray) :
    (diskWith text).readText ⟨"p"⟩ = .ok "\x7b\"files\":[\"a.ts\"]\x7d" := by cbv

theorem ofText_listing : Descriptor.ofText "\x7b\"files\":[\"a.ts\"]\x7d" =
    .ok ⟨some ["a.ts"], none, none, ⟨false, none⟩⟩ := by cbv

theorem select_diskWith (text : ByteArray) :
    Project.select (diskWith text) ⟨""⟩ ⟨"p"⟩ ⟨some ["a.ts"], none, none, ⟨false, none⟩⟩ =
      .ok [⟨"a.ts"⟩] := by cbv

theorem load_diskWith (text : ByteArray) :
    Project.load (diskWith text) ⟨"p"⟩ = .ok ⟨⟨""⟩, ⟨"p"⟩, false, [⟨"a.ts"⟩]⟩ := by
  have hroot : Project.rootOf ⟨"p"⟩ = ⟨""⟩ := by cbv
  unfold Project.load
  rw [readText_diskWith, hroot]
  simp [Except.mapError, bind, Except.bind, ofText_listing, select_diskWith]

theorem read_diskWith {text content : ByteArray}
    (h : content ∈ contents (diskWith text) [⟨"a.ts"⟩]) :
    content ∈ ["\x7b\"files\":[\"a.ts\"]\x7d".toUTF8, text] := by
  obtain ⟨p, -, hread⟩ := mem_contents.1 h
  refine Files.Disk.Within.mem_of_read ?_ hread
  simp [Files.Disk.Within, diskWith]

/-- The file changes twice, the second time while the consumer pauses, and a client attaches. -/
def untilPass : List Action :=
  [.run, .become ⟨[], []⟩, .accept (.fileChanged ⟨"a.ts"⟩), .consume, .become (diskWith newText),
    .accept (.fileChanged ⟨"a.ts"⟩), .accept (.clientAttached 1), .consume, .consume, .consume,
    .consume]

theorem act_untilPass (disk : Files.Disk) (publisher : Publisher) (seen : List ByteArray)
    (outcomes : List (Except ProjectError Extraction)) :
    untilPass.foldl act
        ⟨disk, ⟨⟨100, false⟩, publisher, [], .ready⟩, none, seen, outcomes⟩ =
      ⟨diskWith newText, ⟨⟨100, false⟩, publisher, [],
        .passing [.fileChanged ⟨"a.ts"⟩, .fileChanged ⟨"a.ts"⟩, .clientAttached 1]⟩,
        none, seen, outcomes⟩ := rfl

/-- A pass over the one file. -/
theorem consume_diskWith {text : ByteArray} {batch : List Trigger} (hdisk : s.disk = diskWith text)
    (hdesc : s.coordinator.descriptor = ⟨"p"⟩) (hp : s.pipeline.phase = .passing batch)
    (hr : s.reading = none) :
    let t := s.consume.consume.consume
    t.disk = s.disk ∧ t.pipeline.queue = s.pipeline.queue ∧ t.pipeline.phase = .waiting ∧
      t.seen = s.seen ++ contents s.disk [⟨"a.ts"⟩] := by
  have hl : Project.load s.disk s.coordinator.descriptor =
      .ok ⟨⟨""⟩, ⟨"p"⟩, false, [⟨"a.ts"⟩]⟩ := by
    rw [hdisk, hdesc]
    exact load_diskWith text
  let r : Reading := ⟨Extraction.empty, s.coordinator.cache.retain [⟨"a.ts"⟩], [⟨"a.ts"⟩]⟩
  let done := Coordinator.extractFile s.disk r.cache ⟨"a.ts"⟩
  have hbegin : s.consume = { s with reading := some r } := by
    rw [consume_begin hp hr, begin_ok hl]
  have hread : s.consume.consume = { s with reading := some r }.readFile r ⟨"a.ts"⟩ [] := by
    rw [hbegin]
    exact consume_readFile (s := { s with reading := some r }) (r := r) hp rfl rfl
  have hpublish : s.consume.consume.consume =
      ({ s with reading := some r }.readFile r ⟨"a.ts"⟩ []).publish
        ⟨r.extraction.add ⟨"a.ts"⟩ done.1, done.2, []⟩ := by
    rw [hread]
    exact consume_publish hp rfl rfl
  intro t
  rw [show t = _ from hpublish]
  exact ⟨rfl, rfl, rfl, rfl⟩

def sampleRun : List Action := untilPass ++ [.consume, .consume, .consume]

theorem followed_sampleRun : Followed ⟨100, false⟩ sampleRun := by
  have hchange : ∀ after : List Action, .accept (.fileChanged ⟨"a.ts"⟩) ∈ after →
      ∃ t, .accept t ∈ after ∧ PipelineConfig.wants ⟨100, false⟩ t = true :=
    fun _ h => ⟨.fileChanged ⟨"a.ts"⟩, h, rfl⟩
  have hnil : Followed ⟨100, false⟩ [] := by
    intro before disk after heq
    cases before <;> cases heq
  simp only [sampleRun, untilPass, List.cons_append, List.nil_append, followed_cons]
  refine ⟨nofun, fun _ _ => hchange _ (by simp), nofun, nofun, fun _ _ => hchange _ (by simp),
    nofun, nofun, nofun, nofun, nofun, nofun, nofun, nofun, nofun, hnil⟩

/-- The pass reads the disk as the second change left it. -/
theorem replay_sampleRun :
    let s := replay ⟨"p"⟩ ⟨100, false⟩ (diskWith oldText) sampleRun
    s.disk = diskWith newText ∧ s.pipeline.queue = [] ∧ s.pipeline.phase = .waiting ∧
      s.seen =
        contents (diskWith oldText) [⟨"a.ts"⟩] ++ contents (diskWith newText) [⟨"a.ts"⟩] := by
  let s₀ := start ⟨"p"⟩ ⟨100, false⟩ (diskWith oldText)
  have hseen : s₀.seen = contents (diskWith oldText) [⟨"a.ts"⟩] := by
    simp only [s₀, start, load_diskWith]
  have hbegun : replay ⟨"p"⟩ ⟨100, false⟩ (diskWith oldText) untilPass = _ :=
    act_untilPass s₀.disk s₀.pipeline.publisher s₀.seen s₀.outcomes
  have hdesc := (sound_replay ⟨"p"⟩ ⟨100, false⟩ (diskWith oldText) untilPass).descriptor_eq
  rw [hbegun] at hdesc
  intro s
  have hs : s =
      (((replay ⟨"p"⟩ ⟨100, false⟩ (diskWith oldText) untilPass).consume).consume).consume :=
    List.foldl_append
  rw [hbegun] at hs
  obtain ⟨h1, h2, h3, h4⟩ := consume_diskWith rfl hdesc rfl rfl
  rw [hs]
  refine ⟨h1, h2, h3, ?_⟩
  rw [h4, hseen]

theorem separates_sampleRun : Digest.Separates
    (· ∈ (replay ⟨"p"⟩ ⟨100, false⟩ (diskWith oldText) sampleRun).seen) := by
  have hnodup : (["\x7b\"files\":[\"a.ts\"]\x7d".toUTF8, oldText, newText].map
      Digest.ofBytes).Nodup := by decide +kernel
  refine (Digest.separates_of_nodup hnodup).mono ?_
  intro content h
  rw [replay_sampleRun.2.2.2] at h
  rcases List.mem_append.1 h with h | h
  · have h' := read_diskWith h
    exact List.mem_of_mem_take (i := 2) h'
  · have h' := read_diskWith h
    rcases List.mem_cons.1 h' with rfl | h'
    · exact List.mem_cons_self
    · exact List.mem_of_mem_drop (i := 2) h'

/-- The run ends at rest, and shows the class that the second change brought. -/
theorem current_after_sampleRun :
    let s := replay ⟨"p"⟩ ⟨100, false⟩ (diskWith oldText) sampleRun
    ∃ x, ((Coordinator.new ⟨"p"⟩).run (diskWith newText)).1 = .ok x ∧
      s.current.text = Diagram.render x.model := by
  have h := current_at_rest ⟨"p"⟩ ⟨100, false⟩ (diskWith oldText) sampleRun separates_sampleRun
    followed_sampleRun replay_sampleRun.2.1 replay_sampleRun.2.2.1
  simp only [replay_sampleRun.1, load_diskWith] at h
  exact h

end ClassAtlas.Scene
