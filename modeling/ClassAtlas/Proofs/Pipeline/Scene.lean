import ClassAtlas.Pipeline.Basic
import Mathlib.Logic.Function.Iterate

/-!
# A pipeline on a disk that changes

`Pipeline.step` makes a whole pass at once, on one disk. A `Scene` takes the pass apart: it loads
the project, then reads one file after the other, then publishes, and the disk may change and
triggers may come between any two of these. What a pass reads is then the contents of no single
disk.

`Scene.act` does one action. Everything but the pass is left to `Pipeline.accept`, `Pipeline.run`
and `Pipeline.step`; a pass that nothing comes between is `Pipeline.step` again
(`iterate_consume`).

Two fields only record what happened: the contents that were read, and what each pass gave.
-/
namespace ClassAtlas

/-- A pass under way. -/
structure Reading where
  extraction : Extraction
  cache : Cache
  /-- The files still to be read. -/
  left : List FilePath
deriving Inhabited

structure Scene where
  disk : Files.Disk
  pipeline : Pipeline
  reading : Option Reading
  /-- The contents that passes have read. -/
  seen : List ByteArray
  /-- What the passes gave, the initial one first. -/
  outcomes : List (Except ProjectError Extraction)
deriving Inhabited

namespace Scene

inductive Action where
  /-- The disk changes in any way. -/
  | become (disk : Files.Disk)
  | accept (t : Trigger)
  /-- The consumer begins. -/
  | run
  /-- The consumer does the next thing. -/
  | consume
deriving Inhabited

def coordinator (s : Scene) : Coordinator := s.pipeline.publisher.coordinator

/-- The snapshot that readers see. -/
def current (s : Scene) : Diagram.Snapshot := s.pipeline.current

/-- The contents of the files that can be read. -/
def contents (disk : Files.Disk) (ps : List FilePath) : List ByteArray :=
  ps.filterMap fun p => (disk.read p).toOption

/-- A pipeline that has made its initial pass. -/
def start (descriptor : FilePath) (config : PipelineConfig) (disk : Files.Disk) : Scene where
  disk
  pipeline := (Pipeline.start descriptor config disk).2
  reading := none
  seen :=
    match Project.load disk descriptor with
    | .error _ => []
    | .ok project => contents disk project.files
  outcomes := [((Coordinator.new descriptor).run disk).1]

/-- Begins a pass: loads the project, or gives the pass up. -/
def begin (s : Scene) : Scene :=
  match Project.load s.disk s.coordinator.descriptor with
  | .error e =>
    { s with
      pipeline := { s.pipeline with phase := .waiting }
      outcomes := s.outcomes ++ [.error e] }
  | .ok project =>
    { s with
      reading := some ⟨Extraction.empty, s.coordinator.cache.retain project.files, project.files⟩ }

/-- Reads one file. -/
def readFile (s : Scene) (r : Reading) (p : FilePath) (ps : List FilePath) : Scene :=
  let (m, cache) := Coordinator.extractFile s.disk r.cache p
  { s with
    reading := some ⟨r.extraction.add p m, cache, ps⟩
    seen := s.seen ++ contents s.disk [p] }

/-- Ends a pass. -/
def publish (s : Scene) (r : Reading) : Scene :=
  { s with
    pipeline := { s.pipeline with
      publisher := ⟨{ s.coordinator with cache := r.cache },
        s.pipeline.publisher.cell.publish (Diagram.render r.extraction.model)⟩
      phase := .waiting }
    reading := none
    outcomes := s.outcomes ++ [.ok r.extraction] }

/-- The consumer's next step. -/
def consume (s : Scene) : Scene :=
  match s.pipeline.phase, s.reading with
  | .passing _, none => s.begin
  | .passing _, some r =>
    match r.left with
    | [] => s.publish r
    | p :: ps => s.readFile r p ps
  | _, _ =>
    match s.pipeline.step s.disk with
    | some (_, p) => { s with pipeline := p }
    | none => s

def act (s : Scene) : Action → Scene
  | .become disk => { s with disk }
  | .accept t => { s with pipeline := (s.pipeline.accept t).2 }
  | .run => { s with pipeline := s.pipeline.run }
  | .consume => s.consume

/-- The scene after some actions. -/
def replay (descriptor : FilePath) (config : PipelineConfig) (disk : Files.Disk)
    (actions : List Action) : Scene :=
  actions.foldl act (start descriptor config disk)

theorem replay_snoc (descriptor : FilePath) (config : PipelineConfig) (disk : Files.Disk)
    (actions : List Action) (a : Action) :
    replay descriptor config disk (actions ++ [a]) =
      (replay descriptor config disk actions).act a := by
  simp [replay]

/-! ## What the consumer does -/

section

variable {s : Scene} {batch : List Trigger} {r : Reading}

theorem begin_error {e : ProjectError}
    (h : Project.load s.disk s.coordinator.descriptor = .error e) :
    s.begin = { s with
      pipeline := { s.pipeline with phase := .waiting }
      outcomes := s.outcomes ++ [.error e] } := by
  unfold begin
  rw [h]

theorem begin_ok {project : Project}
    (h : Project.load s.disk s.coordinator.descriptor = .ok project) :
    s.begin = { s with
      reading := some ⟨Extraction.empty, s.coordinator.cache.retain project.files,
        project.files⟩ } := by
  unfold begin
  rw [h]

theorem consume_begin (hp : s.pipeline.phase = .passing batch) (hr : s.reading = none) :
    s.consume = s.begin := by
  unfold consume
  rw [hp, hr]

theorem consume_readFile (hp : s.pipeline.phase = .passing batch) (hr : s.reading = some r)
    {p : FilePath} {ps : List FilePath} (hl : r.left = p :: ps) :
    s.consume = s.readFile r p ps := by
  unfold consume
  rw [hp, hr]
  simp only [hl]

theorem consume_publish (hp : s.pipeline.phase = .passing batch) (hr : s.reading = some r)
    (hl : r.left = []) : s.consume = s.publish r := by
  unfold consume
  rw [hp, hr]
  simp only [hl]

theorem consume_step (hp : ∀ batch, s.pipeline.phase ≠ .passing batch) :
    s.consume =
      { s with pipeline := ((s.pipeline.step s.disk).map (·.2)).getD s.pipeline } := by
  unfold consume
  split
  · rename_i h _
    exact absurd h (hp _)
  · rename_i h _
    exact absurd h (hp _)
  · cases s.pipeline.step s.disk with
    | none => rfl
    | some x => rfl

/-! ## A pass that nothing comes between -/

/-- Reading on, file by file, gives what the coordinator makes of all the files. -/
theorem iterate_readFile (hp : s.pipeline.phase = .passing batch) (hr : s.reading = some r) :
    let done := Coordinator.extractFiles s.disk (r.extraction, r.cache) r.left
    (consume^[r.left.length] s).pipeline = s.pipeline ∧
      (consume^[r.left.length] s).reading = some ⟨done.1, done.2, []⟩ := by
  obtain ⟨e, cache, left⟩ := r
  induction left generalizing s e cache with
  | nil => exact ⟨rfl, hr⟩
  | cons p ps ih =>
    have hread := ih (s := s.readFile ⟨e, cache, p :: ps⟩ p ps) hp _ _ rfl
    rw [List.length_cons, Function.iterate_succ_apply, consume_readFile hp hr rfl]
    exact hread

/-- A pass that nothing comes between is the pass that the pipeline makes in one step. -/
theorem iterate_consume (hp : s.pipeline.phase = .passing batch) (hr : s.reading = none) :
    ∃ n, (consume^[n] s).reading = none ∧
      (s.pipeline.step s.disk).map (·.2) = some (consume^[n] s).pipeline := by
  have hstep : (s.pipeline.step s.disk).map (·.2) = some { s.pipeline with
      publisher := (s.pipeline.publisher.pass s.disk).2, phase := .waiting } := by
    unfold Pipeline.step
    rw [hp]
    rfl
  rw [hstep]
  unfold Publisher.pass Coordinator.run
  cases hl : Project.load s.disk s.coordinator.descriptor with
  | error e =>
    have hl' : Project.load s.disk s.pipeline.publisher.coordinator.descriptor = .error e := hl
    refine ⟨1, ?_, ?_⟩
    · rw [Function.iterate_one, consume_begin hp hr, begin_error hl]
      exact hr
    · rw [Function.iterate_one, consume_begin hp hr, begin_error hl, hl']
  | ok project =>
    have hl' : Project.load s.disk s.pipeline.publisher.coordinator.descriptor = .ok project := hl
    have hb := begin_ok hl
    have hbp : s.begin.pipeline.phase = .passing batch := by rw [hb]; exact hp
    have hbr : s.begin.reading = some ⟨Extraction.empty, s.coordinator.cache.retain project.files,
        project.files⟩ := by rw [hb]
    obtain ⟨h1, h2⟩ := iterate_readFile hbp hbr
    simp only at h1 h2
    refine ⟨project.files.length + 2, ?_⟩
    rw [Function.iterate_succ_apply, Function.iterate_succ_apply', consume_begin hp hr,
      consume_publish (h1 ▸ hbp) h2 rfl, hl']
    refine ⟨rfl, ?_⟩
    simp only [publish, coordinator, h1]
    rw [hb]

end

end Scene
end ClassAtlas
