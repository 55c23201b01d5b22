import ClassAtlas.Proofs.Pipeline.Soundness
import Mathlib

/-!
# Every accepted trigger comes into one batch

`Scene.journal` tells what a run does with its triggers: which are accepted, which the consumer
takes out of the queue, when it begins a pass and when it waits again. `Scene.events` reads this off
the states before and after an action.

`Tally` is kept along any run. The triggers accepted so far are those of the batches that are done
with, of the batch in hand and of the queue, in this order, so each is in one place only. What the
consumer did is one `roundOf` after the other: it takes the triggers of a batch, makes a pass if one
of them wants it, and waits again.

Main result: `one_batch_each`.
-/
namespace ClassAtlas.Scene

/-- What happens to a trigger, and what the consumer does. -/
inductive Event where
  /-- A trigger is queued. -/
  | accepted (t : Trigger)
  /-- The consumer takes a trigger out of the queue. -/
  | taken (t : Trigger)
  /-- A pass begins. -/
  | began
  /-- The consumer waits again. -/
  | rested
deriving DecidableEq, Repr, Inhabited

namespace Event

def accepted? : Event → Option Trigger
  | .accepted t => some t
  | .taken _ | .began | .rested => none

/-- Whether the consumer does it. -/
def isConsumers : Event → Bool
  | .accepted _ => false
  | .taken _ | .began | .rested => true

end Event

/-- The trigger that an action queues. -/
def Action.trigger? : Action → Option Trigger
  | .accept t => some t
  | .become _ | .run | .consume => none

/-- Whether the consumer's next step begins a pass. -/
def isToBegin (s : Scene) : Bool :=
  match s.pipeline.phase, s.reading with
  | .passing _, none => true
  | _, _ => false

/-- What the consumer's next step does: the triggers that leave the queue, the beginning of a pass,
and the return to waiting. -/
def doings (s : Scene) : List Event :=
  let next := s.consume.pipeline
  (s.pipeline.queue.take (s.pipeline.queue.length - next.queue.length)).map .taken
    ++ (if s.isToBegin then [.began] else [])
    ++ if s.pipeline.phase ≠ .waiting ∧ next.phase = .waiting then [.rested] else []

/-- What an action brings about. -/
def events (s : Scene) : Action → List Event
  | .become _ | .run => []
  | .accept t => if (s.pipeline.accept t).1 then [.accepted t] else []
  | .consume => s.doings

/-- What some actions bring about, one after the other. -/
def journal (s : Scene) : List Action → List Event
  | [] => []
  | a :: actions => s.events a ++ (s.act a).journal actions

/-- The triggers that were accepted. -/
def accepted (journal : List Event) : List Trigger := journal.filterMap Event.accepted?

/-- All the consumer does for a batch. -/
def roundOf (config : PipelineConfig) (batch : List Trigger) : List Event :=
  batch.map .taken ++ (if batch.any config.wants then [.began] else []) ++ [.rested]

/-- What it has done so far for the batch in hand. -/
def underWay (s : Scene) : List Event :=
  s.pipeline.phase.batch.map .taken ++ s.reading.toList.map fun _ => .began

theorem journal_snoc (s : Scene) (actions : List Action) (a : Action) :
    s.journal (actions ++ [a]) = s.journal actions ++ (actions.foldl act s).events a := by
  induction actions generalizing s with
  | nil => simp [journal]
  | cons b actions ih =>
    rw [List.cons_append, journal, ih, journal, List.append_assoc]
    rfl

/-! ## What the consumer's next step is -/

/-- What the consumer's next step leads to, and what is done by it. -/
inductive Moves (s : Scene) : Scene → List Event → Prop where
  /-- There is nothing to do. -/
  | idle : Moves s s []
  /-- The first trigger of a batch is taken. -/
  | take {t : Trigger} {rest : List Trigger} {phase : Phase} (hp : s.pipeline.phase = .waiting)
      (hq : s.pipeline.queue = t :: rest) (hphase : phase = .pausing [t] ∨ phase = .gathering [t]) :
      Moves s { s with pipeline := { s.pipeline with queue := rest, phase } } [.taken t]
  /-- The pause is over. -/
  | wake {batch : List Trigger} (hp : s.pipeline.phase = .pausing batch) :
      Moves s { s with pipeline := { s.pipeline with phase := .gathering batch } } []
  /-- A further trigger is taken. -/
  | gather {t : Trigger} {rest batch : List Trigger} (hp : s.pipeline.phase = .gathering batch)
      (hq : s.pipeline.queue = t :: rest) :
      Moves s { s with pipeline := { s.pipeline with
        queue := rest, phase := .gathering (batch ++ [t]) } } [.taken t]
  /-- The batch is complete and wants a pass. -/
  | commit {batch : List Trigger} (hp : s.pipeline.phase = .gathering batch)
      (hq : s.pipeline.queue = []) (hw : batch.any s.pipeline.config.wants = true) :
      Moves s { s with pipeline := { s.pipeline with phase := .passing batch } } []
  /-- The batch is complete and wants none. -/
  | dismiss {batch : List Trigger} (hp : s.pipeline.phase = .gathering batch)
      (hq : s.pipeline.queue = []) (hw : batch.any s.pipeline.config.wants = false) :
      Moves s { s with pipeline := { s.pipeline with phase := .waiting } } [.rested]
  /-- A pass begins and is given up. -/
  | giveUp {batch : List Trigger} {e : ProjectError} (hp : s.pipeline.phase = .passing batch)
      (hr : s.reading = none) :
      Moves s { s with
        pipeline := { s.pipeline with phase := .waiting }
        outcomes := s.outcomes ++ [.error e] } [.began, .rested]
  /-- A pass begins. -/
  | load {batch : List Trigger} {r : Reading} (hp : s.pipeline.phase = .passing batch)
      (hr : s.reading = none) : Moves s { s with reading := some r } [.began]
  /-- A file is read. -/
  | read {batch : List Trigger} {r r' : Reading} {seen : List ByteArray}
      (hp : s.pipeline.phase = .passing batch) (hr : s.reading = some r) :
      Moves s { s with reading := some r', seen } []
  /-- A pass ends. -/
  | publish {batch : List Trigger} {r : Reading} {publisher : Publisher}
      (hp : s.pipeline.phase = .passing batch) (hr : s.reading = some r) :
      Moves s { s with
        pipeline := { s.pipeline with publisher, phase := .waiting }
        reading := none
        outcomes := s.outcomes ++ [.ok r.extraction] } [.rested]

theorem isToBegin_of_ne {s : Scene} (hp : ∀ batch, s.pipeline.phase ≠ .passing batch) :
    s.isToBegin = false := by
  unfold isToBegin
  split
  · rename_i h _
    exact absurd h (hp _)
  · rfl

/-- A step that is no part of a pass. -/
theorem moves_of_step {s : Scene} (hp : ∀ batch, s.pipeline.phase ≠ .passing batch) :
    Moves s s.consume s.doings := by
  have hb := isToBegin_of_ne hp
  unfold doings
  rw [consume_step hp, hb]
  cases hstep : s.pipeline.step s.disk with
  | none => simpa using Moves.idle
  | some x =>
    obtain ⟨reports, q⟩ := x
    simp only [Option.map_some, Option.getD_some]
    rcases Pipeline.step_cases hstep with ⟨t, rest, hph, hqu, -, rfl⟩ | ⟨batch, hph, -, rfl⟩ |
      ⟨batch, t, rest, hph, hqu, -, rfl⟩ | ⟨batch, hph, hqu, -, rfl⟩ | ⟨batch, hph, -⟩
    · let phase : Phase :=
        if s.pipeline.config.pausesAfter t then .pausing [t] else .gathering [t]
      have hphase : phase = .pausing [t] ∨ phase = .gathering [t] := by
        unfold phase
        split <;> simp
      simpa [hph, hqu, phase] using Moves.take hph hqu hphase
    · simpa [hph] using Moves.wake hph
    · simpa [hph, hqu] using Moves.gather hph hqu
    · cases hw : batch.any s.pipeline.config.wants with
      | true => simpa [hph, hqu] using Moves.commit hph hqu hw
      | false => simpa [hph, hqu] using Moves.dismiss hph hqu hw
    · exact absurd hph (hp batch)

/-- A step that is part of a pass. -/
theorem moves_of_passing {s : Scene} {batch : List Trigger}
    (hp : s.pipeline.phase = .passing batch) : Moves s s.consume s.doings := by
  unfold doings isToBegin
  cases hr : s.reading with
  | none =>
    rw [consume_begin hp hr]
    cases hl : Project.load s.disk s.coordinator.descriptor with
    | error e =>
      rw [begin_error hl]
      simpa [hp] using Moves.giveUp hp hr
    | ok project =>
      rw [begin_ok hl]
      simpa [hp] using Moves.load hp hr
  | some r =>
    cases hl : r.left with
    | nil =>
      rw [consume_publish hp hr hl]
      simpa [hp, Scene.publish] using Moves.publish hp hr
    | cons p ps =>
      rw [consume_readFile hp hr hl]
      simpa [hp, readFile] using Moves.read hp hr

theorem moves_consume (s : Scene) : Moves s s.consume s.doings := by
  by_cases hp : ∃ batch, s.pipeline.phase = .passing batch
  · obtain ⟨batch, hp⟩ := hp
    exact moves_of_passing hp
  · exact moves_of_step fun batch hb => hp ⟨batch, hb⟩

/-! ## Where the triggers are -/

/-- The triggers that were accepted since a pass began last. -/
def unanswered (journal : List Event) : List Trigger :=
  journal.foldl (fun ts e =>
    match e with
    | .accepted t => ts ++ [t]
    | .began => []
    | .taken _ | .rested => ts) []

theorem mem_unanswered (before : List Event) {after : List Event} (t : Trigger)
    (h : .began ∉ after) :
    t ∈ unanswered (before ++ .accepted t :: after) := by
  induction after using List.reverseRecOn with
  | nil => simp [unanswered, List.foldl_append]
  | append_singleton after e ih =>
    have hafter : .began ∉ after := fun hb => h (List.mem_append_left _ hb)
    have hmem := ih hafter
    rw [← List.cons_append, ← List.append_assoc]
    unfold unanswered at hmem ⊢
    rw [List.foldl_append, List.foldl_cons, List.foldl_nil]
    cases e with
    | accepted u => exact List.mem_append_left _ hmem
    | taken u => exact hmem
    | began => exact absurd (List.mem_append_right _ (List.mem_singleton_self _)) h
    | rested => exact hmem

structure Tally (config : PipelineConfig) (journal : List Event) (s : Scene) : Prop where
  /-- Each trigger is in one place, and the consumer does one batch after the other. -/
  batches : ∃ batches : List (List Trigger),
    accepted journal = batches.flatten ++ s.pipeline.phase.batch ++ s.pipeline.queue ∧
      journal.filter Event.isConsumers = batches.flatMap (roundOf config) ++ s.underWay
  /-- A pass is made only for a batch that wants one. -/
  wanted : ∀ batch, s.pipeline.phase = .passing batch → batch.any config.wants = true
  /-- A trigger that wants a pass waits until one begins. -/
  waits : ∀ t ∈ unanswered journal, config.wants t = true →
    t ∈ s.pipeline.queue ∨ s.reading = none ∧ t ∈ s.pipeline.phase.batch
  /-- All passes but the initial one are in the journal. -/
  passes : s.outcomes.length + s.reading.toList.length = 1 + journal.count .began

variable {descriptor : FilePath} {config : PipelineConfig} {s : Scene} {journal : List Event}

theorem tally_start (descriptor : FilePath) (config : PipelineConfig) (disk : Files.Disk) :
    Tally config [] (start descriptor config disk) where
  batches := ⟨[], rfl, rfl⟩
  wanted := by
    intro batch hp
    cases hp
  waits := by
    intro t ht
    cases ht
  passes := rfl

theorem tally_of_accept (h : Tally config journal s) (hrun : s.pipeline.phase ≠ .stopped)
    (t : Trigger) : Tally config (journal ++ s.events (.accept t)) (s.act (.accept t)) := by
  have hfst := Pipeline.accept_fst hrun t
  have hqueue := Pipeline.accept_queue hrun t
  obtain ⟨⟨batches, ha, hd⟩, hw, hwaits, hpasses⟩ := h
  simp only [events, hfst, if_true]
  refine ⟨⟨batches, ?_, ?_⟩, ?_, ?_, ?_⟩
  · simp only [act, Pipeline.accept_phase, hqueue]
    rw [accepted, List.filterMap_append, ← accepted, ha]
    simp [Event.accepted?]
  · have hsame : (s.act (.accept t)).underWay = s.underWay := by
      simp only [underWay, act, Pipeline.accept_phase]
    rw [List.filter_append, hd, hsame]
    simp [Event.isConsumers]
  · simpa only [act, Pipeline.accept_phase] using hw
  · intro u hu huw
    simp only [act, Pipeline.accept_phase, hqueue]
    simp only [unanswered, List.foldl_append, List.foldl_cons, List.foldl_nil] at hu
    rcases List.mem_append.1 hu with hu | hu
    · exact (hwaits u hu huw).imp_left (List.mem_append_left _)
    · exact Or.inl (List.mem_append_right _ hu)
  · simpa [act] using hpasses

theorem tally_of_run (h : Tally config journal s) :
    Tally config (journal ++ s.events .run) (s.act .run) := by
  obtain ⟨⟨batches, ha, hd⟩, hw, hwaits, hpasses⟩ := h
  simp only [events, List.append_nil]
  refine ⟨⟨batches, ?_, ?_⟩, ?_, ?_, hpasses⟩
  · simpa only [act, Pipeline.run_batch, Pipeline.run_queue] using ha
  · rw [hd]
    simp only [underWay, act, Pipeline.run_batch]
  · intro batch hp
    by_cases hready : s.pipeline.phase = .ready
    · simp [act, Pipeline.run, hready] at hp
    · exact hw batch (Pipeline.run_phase _ hready ▸ hp)
  · simpa only [act, Pipeline.run_batch, Pipeline.run_queue] using hwaits

/-- The consumer takes the next trigger: it leaves the queue and joins the batch in hand. -/
theorem tally_of_taken (h : Tally config journal s) {t : Trigger} {rest : List Trigger}
    {phase : Phase} (hq : s.pipeline.queue = t :: rest) (hr : s.reading = none)
    (hbatch : phase.batch = s.pipeline.phase.batch ++ [t])
    (hphase : ∀ batch, phase ≠ .passing batch) :
    Tally config (journal ++ [.taken t])
      { s with pipeline := { s.pipeline with queue := rest, phase } } := by
  obtain ⟨⟨batches, ha, hd⟩, -, hwaits, hpasses⟩ := h
  refine ⟨⟨batches, ?_, ?_⟩, ?_, ?_, ?_⟩
  · rw [accepted, List.filterMap_append, ← accepted, ha, hq]
    simp [Event.accepted?, hbatch]
  · rw [List.filter_append, hd]
    simp [Event.isConsumers, underWay, hbatch, hr]
  · intro batch hp
    exact absurd hp (hphase batch)
  · intro u hu huw
    simp only [unanswered, List.foldl_append, List.foldl_cons, List.foldl_nil] at hu
    simp only [hbatch]
    rcases hwaits u hu huw with hmem | ⟨-, hmem⟩
    · rw [hq] at hmem
      rcases List.mem_cons.1 hmem with rfl | hmem
      · exact Or.inr ⟨hr, List.mem_append_right _ (List.mem_singleton_self _)⟩
      · exact Or.inl hmem
    · exact Or.inr ⟨hr, List.mem_append_left _ hmem⟩
  · simpa using hpasses

/-- The consumer goes on to another phase with the batch in hand. -/
theorem tally_of_phase (h : Tally config journal s) {phase : Phase}
    (hbatch : phase.batch = s.pipeline.phase.batch)
    (hw : ∀ batch, phase = .passing batch → batch.any config.wants = true) :
    Tally config journal { s with pipeline := { s.pipeline with phase } } := by
  obtain ⟨⟨batches, ha, hd⟩, -, hwaits, hpasses⟩ := h
  refine ⟨⟨batches, ?_, ?_⟩, hw, ?_, hpasses⟩
  · simpa only [hbatch] using ha
  · rw [hd]
    simp only [underWay, hbatch]
  · simpa only [hbatch] using hwaits

/-- A pass begins for the batch in hand. -/
theorem tally_of_began (h : Tally config journal s) (hr : s.reading = none) (r : Reading) :
    Tally config (journal ++ [.began]) { s with reading := some r } := by
  obtain ⟨⟨batches, ha, hd⟩, hw, -, hpasses⟩ := h
  refine ⟨⟨batches, ?_, ?_⟩, hw, ?_, ?_⟩
  · rw [accepted, List.filterMap_append, ← accepted, ha]
    simp [Event.accepted?]
  · rw [List.filter_append, hd]
    simp [Event.isConsumers, underWay, hr]
  · intro u hu
    simp [unanswered, List.foldl_append] at hu
  · rw [List.count_append, ← Nat.add_assoc, ← hpasses]
    simp [hr]

/-- The consumer is done with the batch in hand, for which it has made a pass if that was wanted. -/
theorem tally_of_rested (h : Tally config journal s) (pipeline : Pipeline)
    (outcomes : List (Except ProjectError Extraction))
    (hpass : s.reading.isSome = s.pipeline.phase.batch.any config.wants)
    (hqueue : pipeline.queue = s.pipeline.queue) (hphase : pipeline.phase = .waiting)
    (houtcomes : outcomes.length = s.outcomes.length + s.reading.toList.length) :
    Tally config (journal ++ [.rested]) { s with pipeline, reading := none, outcomes } := by
  obtain ⟨⟨batches, ha, hd⟩, -, hwaits, hpasses⟩ := h
  have hround : s.underWay ++ [.rested] = roundOf config s.pipeline.phase.batch := by
    unfold underWay roundOf
    rw [← hpass]
    cases s.reading <;> rfl
  refine ⟨⟨batches ++ [s.pipeline.phase.batch], ?_, ?_⟩, ?_, ?_, ?_⟩
  · rw [accepted, List.filterMap_append, ← accepted, ha]
    simp [Event.accepted?, hqueue, hphase, Phase.batch]
  · rw [List.filter_append, hd, List.flatMap_append, List.flatMap_singleton, ← hround]
    simp [Event.isConsumers, underWay, hphase, Phase.batch]
  · intro batch hp
    rw [hphase] at hp
    cases hp
  · intro u hu huw
    have hu : u ∈ unanswered journal := by simpa [unanswered, List.foldl_append] using hu
    rcases hwaits u hu huw with hmem | ⟨hr, hmem⟩
    · exact Or.inl (hqueue ▸ hmem)
    · have hany : s.pipeline.phase.batch.any config.wants = true :=
        List.any_eq_true.2 ⟨u, hmem, huw⟩
      rw [← hpass, hr] at hany
      cases hany
  · rw [List.count_append, ← Nat.add_assoc, ← hpasses, houtcomes]
    rfl

theorem tally_of_consume (h : Tally config journal s) (hs : Sound descriptor config s) :
    Tally config (journal ++ s.doings) s.consume := by
  have hnone : (∀ batch, s.pipeline.phase ≠ .passing batch) → s.reading = none := by
    intro hp
    cases hr : s.reading with
    | none => rfl
    | some r =>
      obtain ⟨⟨batch, hb⟩, -⟩ := hs.reading r hr
      exact absurd hb (hp batch)
  have hmove := moves_consume s
  generalize s.consume = next, s.doings = more at hmove
  cases hmove with
  | idle => simpa using h
  | @take t rest phase hp hq hphase =>
    refine tally_of_taken h hq (hnone fun batch hb => ?_) ?_ fun batch hb => ?_
    · rw [hp] at hb
      cases hb
    · rcases hphase with rfl | rfl <;> simp [Phase.batch, hp]
    · rcases hphase with rfl | rfl <;> cases hb
  | wake hp =>
    rw [List.append_nil]
    refine tally_of_phase h (by rw [hp]; rfl) fun batch hb => ?_
    cases hb
  | gather hp hq =>
    refine tally_of_taken h hq (hnone fun batch hb => ?_) (by rw [hp]; rfl) fun batch hb => ?_
    · rw [hp] at hb
      cases hb
    · cases hb
  | commit hp hq hw =>
    rw [List.append_nil]
    refine tally_of_phase h (by rw [hp]; rfl) fun batch hb => ?_
    cases hb
    rwa [hs.config_eq] at hw
  | dismiss hp hq hw =>
    have hr : s.reading = none := by
      refine hnone fun batch hb => ?_
      rw [hp] at hb
      cases hb
    have hrest := tally_of_rested h { s.pipeline with phase := .waiting } s.outcomes
      (by rw [hr, hp, ← hs.config_eq]; exact hw.symm) rfl rfl (by simp [hr])
    rwa [← hr] at hrest
  | @giveUp batch e hp hr =>
    have hrest := tally_of_rested (tally_of_began h hr default)
      { s.pipeline with phase := .waiting } (s.outcomes ++ [.error e])
      (by rw [hp]; exact (h.wanted _ hp).symm) rfl rfl (by simp)
    rw [List.append_assoc] at hrest
    rwa [← hr] at hrest
  | load hp hr => exact tally_of_began h hr _
  | read hp hr =>
    rw [List.append_nil]
    obtain ⟨⟨batches, ha, hd⟩, hw, hwaits, hpasses⟩ := h
    refine ⟨⟨batches, ha, ?_⟩, hw, ?_, ?_⟩
    · rw [hd]
      simp [underWay, hr]
    · intro u hu huw
      refine (hwaits u hu huw).imp_right fun hnone => ?_
      rw [hr] at hnone
      cases hnone.1
    · simpa [hr] using hpasses
  | publish hp hr =>
    refine tally_of_rested h _ _ ?_ rfl rfl (by simp [hr])
    rw [hr, hp]
    exact (h.wanted _ hp).symm

/-! ## Runs -/

theorem tally_replay (descriptor : FilePath) (config : PipelineConfig) (disk : Files.Disk)
    (actions : List Action) :
    Tally config ((start descriptor config disk).journal actions)
      (replay descriptor config disk actions) := by
  induction actions using List.reverseRecOn with
  | nil => exact tally_start descriptor config disk
  | append_singleton actions a ih =>
    have hs := sound_replay descriptor config disk actions
    rw [replay_snoc, journal_snoc]
    show Tally config (_ ++ (replay descriptor config disk actions).events a) _
    cases a with
    | become disk =>
      obtain ⟨hbatches, hw, hwaits, hpasses⟩ := ih
      rw [events, List.append_nil]
      exact ⟨hbatches, hw, hwaits, hpasses⟩
    | accept t => exact tally_of_accept ih hs.running t
    | run => exact tally_of_run ih
    | consume => exact tally_of_consume ih hs

theorem accepted_doings (s : Scene) : accepted s.doings = [] := by
  unfold accepted doings
  rw [List.filterMap_append, List.filterMap_append, List.filterMap_map]
  have htaken : Event.accepted? ∘ Event.taken = fun _ => none := rfl
  rw [htaken]
  split <;> split <;> simp [Event.accepted?]

/-- No trigger is refused. -/
theorem accepted_journal (descriptor : FilePath) (config : PipelineConfig) (disk : Files.Disk)
    (actions : List Action) :
    accepted ((start descriptor config disk).journal actions) =
      actions.filterMap Action.trigger? := by
  induction actions using List.reverseRecOn with
  | nil => rfl
  | append_singleton actions a ih =>
    have hrun := (sound_replay descriptor config disk actions).running
    rw [journal_snoc, accepted, List.filterMap_append, ← accepted, ih, List.filterMap_append]
    congr 1
    show accepted ((replay descriptor config disk actions).events a) = _
    cases a with
    | become disk => rfl
    | run => rfl
    | consume => exact accepted_doings _
    | accept t =>
      rw [events, Pipeline.accept_fst hrun t]
      rfl

theorem count_roundOf_le (config : PipelineConfig) (batch : List Trigger) :
    (roundOf config batch).count .began ≤ batch.countP config.wants := by
  have htaken : (batch.map Event.taken).count .began = 0 :=
    List.count_eq_zero.2 fun hmem => by simp at hmem
  unfold roundOf
  rw [List.count_append, List.count_append, htaken]
  split
  · rename_i hany
    have hpos : 0 < batch.countP config.wants := List.countP_pos_iff.2 (List.any_eq_true.1 hany)
    simpa using hpos
  · simp

theorem Tally.count_began_le (h : Tally config journal s)
    (hr : ∀ r, s.reading = some r → ∃ batch, s.pipeline.phase = .passing batch) :
    journal.count .began ≤ (accepted journal).countP config.wants := by
  obtain ⟨⟨batches, ha, hd⟩, hw, -, -⟩ := h
  have hcount : journal.count .began = (journal.filter Event.isConsumers).count .began :=
    (List.count_filter rfl).symm
  have hunder : s.underWay.count .began ≤ s.pipeline.phase.batch.countP config.wants := by
    unfold underWay
    have htaken : (s.pipeline.phase.batch.map Event.taken).count .began = 0 :=
      List.count_eq_zero.2 fun hmem => by simp at hmem
    rw [List.count_append, htaken]
    cases hread : s.reading with
    | none => simp
    | some r =>
      obtain ⟨batch, hp⟩ := hr r hread
      have hpos : 0 < batch.countP config.wants :=
        List.countP_pos_iff.2 (List.any_eq_true.1 (hw batch hp))
      simpa [hp, Phase.batch] using hpos
  have hbatches : (batches.flatMap (roundOf config)).count .began ≤
      batches.flatten.countP config.wants := by
    clear ha hd
    induction batches with
    | nil => exact Nat.le_refl 0
    | cons batch batches ih =>
      rw [List.flatMap_cons, List.flatten_cons, List.count_append, List.countP_append]
      exact Nat.add_le_add (count_roundOf_le config batch) ih
  rw [hcount, hd, ha, List.count_append, List.countP_append, List.countP_append]
  omega

/-- **No trigger is lost or comes twice.** At any time of any run, the triggers accepted so far are
those of the batches done with, of the batch in hand and of the queue, in the order in which they
were accepted. The consumer does one batch after the other: it takes all its triggers and then, if
one of them wants a pass, makes exactly one. Whenever the queue is empty and the consumer waits, a
pass has begun after every trigger that wants one was accepted; and there are never more passes than
one and one for each such trigger. -/
theorem one_batch_each (descriptor : FilePath) (config : PipelineConfig) (disk : Files.Disk)
    (actions : List Action) :
    let s := replay descriptor config disk actions
    let journal := (start descriptor config disk).journal actions
    accepted journal = actions.filterMap Action.trigger? ∧
    (∃ batches : List (List Trigger),
      accepted journal = batches.flatten ++ s.pipeline.phase.batch ++ s.pipeline.queue ∧
      journal.filter Event.isConsumers = batches.flatMap (roundOf config) ++ s.underWay) ∧
    (s.pipeline.queue = [] → s.pipeline.phase = .waiting → ∀ before t after,
      journal = before ++ .accepted t :: after → config.wants t = true → .began ∈ after) ∧
    s.outcomes.length + s.reading.toList.length = 1 + journal.count .began ∧
    journal.count .began ≤ (accepted journal).countP config.wants := by
  intro s journal
  have hs : Sound descriptor config s := sound_replay descriptor config disk actions
  have h : Tally config journal s := tally_replay descriptor config disk actions
  refine ⟨accepted_journal descriptor config disk actions, h.batches, ?_, h.passes,
    h.count_began_le fun r hr => (hs.reading r hr).1⟩
  intro hq hp before t after heq hw
  by_contra hafter
  have hmem := heq ▸ mem_unanswered before t hafter
  rcases h.waits t hmem hw with hmem | ⟨-, hmem⟩
  · rw [hq] at hmem
    exact absurd hmem List.not_mem_nil
  · rw [hp] at hmem
    exact absurd hmem List.not_mem_nil

/-! ## A run that meets the hypotheses -/

/-- A client attaches, a file changes while the batch is gathered, and a request comes while the
pass for both is about to begin. -/
def overlapping : List Action :=
  [.run, .accept (.clientAttached 1), .consume, .accept (.fileChanged ⟨"a.ts"⟩), .consume, .consume,
    .accept .requested, .consume, .consume, .consume, .consume]

theorem load_nothing : Project.load ⟨[], []⟩ ⟨"p"⟩ = .error (.read ⟨"p"⟩ .notFound) := by cbv

/-- On an empty disk every pass is given up. -/
theorem begin_nothing (publisher : Publisher) (h : publisher.coordinator.descriptor = ⟨"p"⟩)
    (queue : List Trigger) (phase : Phase) (outcomes : List (Except ProjectError Extraction)) :
    begin ⟨⟨[], []⟩, ⟨⟨100, false⟩, publisher, queue, phase⟩, none, [], outcomes⟩ =
      ⟨⟨[], []⟩, ⟨⟨100, false⟩, publisher, queue, .waiting⟩, none, [],
        outcomes ++ [.error (.read ⟨"p"⟩ .notFound)]⟩ :=
  begin_error (by rw [coordinator, h]; exact load_nothing)

theorem run_overlapping (publisher : Publisher) (h : publisher.coordinator.descriptor = ⟨"p"⟩)
    (outcomes : List (Except ProjectError Extraction)) :
    let s₀ : Scene := ⟨⟨[], []⟩, ⟨⟨100, false⟩, publisher, [], .ready⟩, none, [], outcomes⟩
    (overlapping.foldl act s₀).pipeline = ⟨⟨100, false⟩, publisher, [], .waiting⟩ ∧
    s₀.journal overlapping =
      [.accepted (.clientAttached 1), .taken (.clientAttached 1),
        .accepted (.fileChanged ⟨"a.ts"⟩), .taken (.fileChanged ⟨"a.ts"⟩), .accepted .requested,
        .began, .rested, .taken .requested, .began, .rested] := by
  simp [overlapping, journal, events, doings, act, consume, isToBegin, Pipeline.accept,
    Pipeline.run, Pipeline.step, PipelineConfig.wants, PipelineConfig.pausesAfter,
    begin_nothing publisher h]

theorem start_nothing (config : PipelineConfig) :
    ∃ publisher outcomes, publisher.coordinator.descriptor = ⟨"p"⟩ ∧
      start ⟨"p"⟩ config ⟨[], []⟩ =
        ⟨⟨[], []⟩, ⟨config, publisher, [], .ready⟩, none, [], outcomes⟩ := by
  refine ⟨_, (start ⟨"p"⟩ config ⟨[], []⟩).outcomes,
    (sound_start ⟨"p"⟩ config ⟨[], []⟩).descriptor_eq, ?_⟩
  unfold start
  rw [load_nothing]
  rfl

/-- The run ends at rest, and a pass has begun after the file changed. -/
theorem began_after_change :
    let s := replay ⟨"p"⟩ ⟨100, false⟩ ⟨[], []⟩ overlapping
    (s.pipeline.queue = [] ∧ s.pipeline.phase = .waiting) ∧
      .began ∈ [Event.taken (.fileChanged ⟨"a.ts"⟩), .accepted .requested, .began, .rested,
        .taken .requested, .began, .rested] := by
  obtain ⟨publisher, outcomes, hdesc, hstart⟩ := start_nothing ⟨100, false⟩
  obtain ⟨hrun, hjournal⟩ := run_overlapping publisher hdesc outcomes
  have h := one_batch_each ⟨"p"⟩ ⟨100, false⟩ ⟨[], []⟩ overlapping
  simp only [replay] at h ⊢
  rw [hstart] at h ⊢
  have hrest : _ ∧ _ := ⟨congrArg Pipeline.queue hrun, congrArg Pipeline.phase hrun⟩
  refine ⟨hrest, ?_⟩
  exact h.2.2.1 hrest.1 hrest.2 [.accepted (.clientAttached 1), .taken (.clientAttached 1)]
    (.fileChanged ⟨"a.ts"⟩) _ hjournal rfl

end ClassAtlas.Scene
