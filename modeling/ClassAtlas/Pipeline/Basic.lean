import ClassAtlas.Pipeline.Pass
import ClassAtlas.Pipeline.Trigger
/-!
# The pipeline

Triggers wait in one queue. A single consumer takes the first, waits for a while if it is a change
and changes are to be waited for, then gathers everything that is queued by then into one batch,
and makes one pass if some trigger of the batch wants one. So at most one pass runs at a time, and
a pass reads the disk after every trigger of its batch was accepted.

`Pipeline.step` is the consumer's next step and `none` if it has nothing to do; triggers and changes
of the disk may come between any two steps. `Pipeline.settle` makes steps until there is nothing to
do.
-/
namespace ClassAtlas

/-- What the consumer is doing. -/
inductive Phase where
  /-- It has not begun; triggers are queued already. -/
  | ready
  /-- It waits for a trigger. -/
  | waiting
  /-- It waits for further changes after the first of a batch. -/
  | pausing (batch : List Trigger)
  /-- It moves what is queued into the batch. -/
  | gathering (batch : List Trigger)
  /-- It makes a pass for the batch. -/
  | passing (batch : List Trigger)
  /-- It is gone, and triggers are refused. -/
  | stopped
deriving BEq, DecidableEq, Repr, Inhabited

/-- The triggers the consumer has taken and not yet made a pass for. -/
def Phase.batch : Phase → List Trigger
  | .pausing batch | .gathering batch | .passing batch => batch
  | .ready | .waiting | .stopped => []

/-- How much of its round the consumer has still before it. -/
def Phase.rank : Phase → Nat
  | .pausing _ => 3
  | .gathering _ => 2
  | .passing _ => 1
  | .ready | .waiting | .stopped => 0

/-- Mirrors `Pipeline`. -/
structure Pipeline where
  config : PipelineConfig
  publisher : Publisher
  queue : List Trigger
  phase : Phase
deriving BEq, DecidableEq, Repr, Inhabited

namespace Pipeline

/-- A pipeline that has made its initial pass. Mirrors `Pipeline::start`. -/
def start (descriptor : FilePath) (config : PipelineConfig) (disk : Files.Disk) :
    List Report × Pipeline :=
  let (reports, publisher) := (Publisher.new descriptor).pass disk
  (reports, ⟨config, publisher, [], .ready⟩)

/-- The snapshot that readers see. -/
def current (p : Pipeline) : Diagram.Snapshot := p.publisher.cell.current

/-- Lets the consumer begin. -/
def run (p : Pipeline) : Pipeline :=
  match p.phase with
  | .ready => { p with phase := .waiting }
  | _ => p

/-- Stops the consumer; what is queued is dropped with it. -/
def stop (p : Pipeline) : Pipeline := { p with phase := .stopped, queue := [] }

/-- Queues a trigger; false if the pipeline is stopped. Mirrors `PipelineHandle::trigger`. -/
def accept (p : Pipeline) (t : Trigger) : Bool × Pipeline :=
  match p.phase with
  | .stopped => (false, p)
  | _ => (true, { p with queue := p.queue ++ [t] })

@[simp] theorem accept_publisher (p : Pipeline) (t : Trigger) :
    (p.accept t).2.publisher = p.publisher := by
  unfold accept
  split <;> rfl

@[simp] theorem accept_config (p : Pipeline) (t : Trigger) :
    (p.accept t).2.config = p.config := by
  unfold accept
  split <;> rfl

@[simp] theorem accept_phase (p : Pipeline) (t : Trigger) : (p.accept t).2.phase = p.phase := by
  unfold accept
  split <;> rfl

theorem accept_fst {p : Pipeline} (h : p.phase ≠ .stopped) (t : Trigger) :
    (p.accept t).1 = true := by
  unfold accept
  split
  · rename_i hs
    exact absurd hs h
  · rfl

theorem accept_queue {p : Pipeline} (h : p.phase ≠ .stopped) (t : Trigger) :
    (p.accept t).2.queue = p.queue ++ [t] := by
  unfold accept
  split
  · rename_i hs
    exact absurd hs h
  · rfl

@[simp] theorem run_publisher (p : Pipeline) : p.run.publisher = p.publisher := by
  unfold run
  split <;> rfl

@[simp] theorem run_config (p : Pipeline) : p.run.config = p.config := by
  unfold run
  split <;> rfl

@[simp] theorem run_queue (p : Pipeline) : p.run.queue = p.queue := by
  unfold run
  split <;> rfl

@[simp] theorem run_batch (p : Pipeline) : p.run.phase.batch = p.phase.batch := by
  unfold run
  split
  · rename_i h
    rw [h]
    rfl
  · rfl

theorem run_phase (p : Pipeline) (h : p.phase ≠ .ready) : p.run.phase = p.phase := by
  unfold run
  split
  · rename_i hr
    exact absurd hr h
  · rfl

theorem run_running {p : Pipeline} (h : p.phase ≠ .stopped) : p.run.phase ≠ .stopped := by
  unfold run
  split
  · simp
  · exact h

/-- The consumer's next step. Mirrors `Pipeline::run`. -/
def step (p : Pipeline) (disk : Files.Disk) : Option (List Report × Pipeline) :=
  match p.phase, p.queue with
  | .ready, _ | .stopped, _ | .waiting, [] => none
  | .waiting, t :: rest =>
    some ([], { p with
      queue := rest
      phase := if p.config.pausesAfter t then .pausing [t] else .gathering [t] })
  | .pausing batch, _ => some ([], { p with phase := .gathering batch })
  | .gathering batch, t :: rest =>
    some ([], { p with queue := rest, phase := .gathering (batch ++ [t]) })
  | .gathering batch, [] =>
    some ([], { p with phase := if batch.any p.config.wants then .passing batch else .waiting })
  | .passing _, _ =>
    let (reports, publisher) := p.publisher.pass disk
    some (reports, { p with publisher, phase := .waiting })

/-- All that a step can be. -/
theorem step_cases {p q : Pipeline} {disk : Files.Disk} {reports : List Report}
    (h : p.step disk = some (reports, q)) :
    (∃ t rest, p.phase = .waiting ∧ p.queue = t :: rest ∧ reports = [] ∧
      q = { p with
        queue := rest
        phase := if p.config.pausesAfter t then .pausing [t] else .gathering [t] }) ∨
    (∃ batch, p.phase = .pausing batch ∧ reports = [] ∧ q = { p with phase := .gathering batch }) ∨
    (∃ batch t rest, p.phase = .gathering batch ∧ p.queue = t :: rest ∧ reports = [] ∧
      q = { p with queue := rest, phase := .gathering (batch ++ [t]) }) ∨
    (∃ batch, p.phase = .gathering batch ∧ p.queue = [] ∧ reports = [] ∧
      q = { p with phase := if batch.any p.config.wants then .passing batch else .waiting }) ∨
    (∃ batch, p.phase = .passing batch ∧ reports = (p.publisher.pass disk).1 ∧
      q = { p with publisher := (p.publisher.pass disk).2, phase := .waiting }) := by
  obtain ⟨config, publisher, queue, phase⟩ := p
  cases phase with
  | ready => simp [step] at h
  | stopped => simp [step] at h
  | waiting =>
    cases queue with
    | nil => simp [step] at h
    | cons t rest =>
      simp only [step, Option.some.injEq, Prod.mk.injEq] at h
      exact Or.inl ⟨t, rest, rfl, rfl, h.1.symm, h.2.symm⟩
  | pausing batch =>
    simp only [step, Option.some.injEq, Prod.mk.injEq] at h
    exact Or.inr (Or.inl ⟨batch, rfl, h.1.symm, h.2.symm⟩)
  | gathering batch =>
    cases queue with
    | nil =>
      simp only [step, Option.some.injEq, Prod.mk.injEq] at h
      exact Or.inr (Or.inr (Or.inr (Or.inl ⟨batch, rfl, rfl, h.1.symm, h.2.symm⟩)))
    | cons t rest =>
      simp only [step, Option.some.injEq, Prod.mk.injEq] at h
      exact Or.inr (Or.inr (Or.inl ⟨batch, t, rest, rfl, rfl, h.1.symm, h.2.symm⟩))
  | passing batch =>
    simp only [step, Option.some.injEq, Prod.mk.injEq] at h
    exact Or.inr (Or.inr (Or.inr (Or.inr ⟨batch, rfl, h.1.symm, h.2.symm⟩)))

/-- Nothing but a pass changes what is published and remembered. -/
theorem step_frame {p q : Pipeline} {disk : Files.Disk} {reports : List Report}
    (h : p.step disk = some (reports, q)) (hp : ∀ batch, p.phase ≠ .passing batch) :
    q.publisher = p.publisher ∧ q.config = p.config := by
  rcases step_cases h with ⟨_, _, -, -, -, rfl⟩ | ⟨_, -, -, rfl⟩ | ⟨_, _, _, -, -, -, rfl⟩ |
    ⟨_, -, -, -, rfl⟩ | ⟨batch, hb, -⟩
  · exact ⟨rfl, rfl⟩
  · exact ⟨rfl, rfl⟩
  · exact ⟨rfl, rfl⟩
  · exact ⟨rfl, rfl⟩
  · exact absurd hb (hp batch)

/-- No step stops the consumer. -/
theorem step_running {p q : Pipeline} {disk : Files.Disk} {reports : List Report}
    (h : p.step disk = some (reports, q)) : q.phase ≠ .stopped := by
  rcases step_cases h with ⟨t, _, -, -, -, rfl⟩ | ⟨_, -, -, rfl⟩ | ⟨_, _, _, -, -, -, rfl⟩ |
    ⟨batch, -, -, -, rfl⟩ | ⟨_, -, -, rfl⟩
  · cases hc : p.config.pausesAfter t <;> simp
  · simp
  · simp
  · cases hc : batch.any p.config.wants <;> simp
  · simp

/-- How many steps are left at most if no trigger comes. -/
def stepsLeft (p : Pipeline) : Nat := 4 * p.queue.length + p.phase.rank

theorem stepsLeft_step {p q : Pipeline} {disk : Files.Disk} {reports : List Report}
    (h : p.step disk = some (reports, q)) : q.stepsLeft < p.stepsLeft := by
  obtain ⟨config, publisher, queue, phase⟩ := p
  cases phase <;> cases queue <;> grind [step, stepsLeft, Phase.rank]

/-- Makes steps until there is nothing to do, on a disk that does not change. -/
def settle (p : Pipeline) (disk : Files.Disk) : List Report × Pipeline :=
  match _h : p.step disk with
  | none => ([], p)
  | some (reports, q) =>
    let (later, last) := q.settle disk
    (reports ++ later, last)
termination_by p.stepsLeft
decreasing_by exact stepsLeft_step ‹_›

end Pipeline
end ClassAtlas
