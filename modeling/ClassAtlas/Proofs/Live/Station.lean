import ClassAtlas.Proofs.Extraction.Entries
import ClassAtlas.Proofs.Live.Soundness
import Mathlib

/-!
# What is heard of the passes

A `Station` makes passes over disks and sends what they report to its clients. The first report of a
pass is made when all was sent that the pass before it published; clients may come, go, receive and
be sent diagrams at any time.

`Traffic.Carries`: what holds of every diagram that is published holds of every diagram that waits
for a client, is on its way to one or was received.

`Sound` is kept along any run: the diagrams reported are the snapshots that the successful passes
have published, numbered from one on; the current one is the last of them; and no client has or
gets any other.

Main result: `heard_of_passes`.
-/
namespace ClassAtlas.Live

/-! ## What holds of every diagram -/

/-- Every diagram that a task is to send has a property. -/
def Task.Carries (P : Outbound → Prop) : Task → Prop
  | .read _ => True
  | .greet _ s | .push _ s | .announce s => s.revision ≠ 0 → P (.ofSnapshot s)
  | .deliver _ o => P o

namespace Task

variable {P : Outbound → Prop} {current : Diagram.Snapshot} {k k' : Task}

theorem Carries.posts (h : k.Carries P) {pick id : ConnectionId} {o : Outbound}
    (hp : k.posts pick = some (id, o)) : P o := by
  cases k with
  | read i => cases hp
  | greet i s =>
    simp only [Task.posts] at hp
    split at hp
    · cases hp
    · rename_i hs
      cases hp
      exact h hs
  | push session s => cases hp
  | announce s => cases hp
  | deliver ids o' =>
    simp only [Task.posts] at hp
    split at hp
    · cases hp
      exact h
    · cases hp

theorem carries_spread {s : Diagram.Snapshot} (h : s.revision ≠ 0 → P (.ofSnapshot s))
    {ids : List ConnectionId} (hk : spread ids s = some k) : k.Carries P := by
  unfold spread at hk
  split at hk
  · cases hk
  · rename_i hs
    cases hk
    exact h hs

theorem Carries.step (h : k.Carries P) (hc : current.revision ≠ 0 → P (.ofSnapshot current))
    {hub : Hub} {pick : ConnectionId} (hk : (k.step current hub pick).1 = some k') :
    k'.Carries P := by
  cases k with
  | read id =>
    cases hk
    exact hc
  | greet id s => cases hk
  | push session s => exact carries_spread h hk
  | announce s => exact carries_spread h hk
  | deliver ids o =>
    cases ids with
    | nil => cases hk
    | cons id ids =>
      simp only [Task.step] at hk
      split at hk <;> cases hk <;> exact h

end Task

namespace Traffic

structure Carries (P : Outbound → Prop) (t : Traffic) : Prop where
  current : t.current.revision ≠ 0 → P (.ofSnapshot t.current)
  queued : ∀ id b, t.hub.mailboxes.get? id = some b → ∀ o ∈ b.queue, P o
  logged : ∀ id, ∀ o ∈ t.got id, P o
  tasks : ∀ k ∈ t.tasks, k.Carries P
  due : ∀ k, t.due = some k → k.Carries P

namespace Carries

variable {P Q : Outbound → Prop} {t : Traffic}

theorem empty (P : Outbound → Prop) : Traffic.empty.Carries P where
  current h := absurd rfl h
  queued id b hb := by cases hb
  logged id o ho := by cases ho
  tasks k hk := by cases hk
  due k hk := by cases hk

theorem mono (h : t.Carries P) (hPQ : ∀ o, P o → Q o) : t.Carries Q := by
  have htask : ∀ k : Task, k.Carries P → k.Carries Q := by
    intro k hk
    cases k with
    | read id => trivial
    | greet id s => exact fun hs => hPQ _ (hk hs)
    | push session s => exact fun hs => hPQ _ (hk hs)
    | announce s => exact fun hs => hPQ _ (hk hs)
    | deliver ids o => exact hPQ o hk
  exact ⟨fun hs => hPQ _ (h.current hs), fun id b hb o ho => hPQ o (h.queued id b hb o ho),
    fun id o ho => hPQ o (h.logged id o ho), fun k hk => htask k (h.tasks k hk),
    fun k hk => htask k (h.due k hk)⟩

/-- More or other tasks. -/
theorem of_tasks (h : t.Carries P) {tasks : List Task} (hk : ∀ k ∈ tasks, k.Carries P) :
    Carries P { t with tasks } :=
  ⟨h.current, h.queued, h.logged, hk, h.due⟩

theorem of_hub (h : t.Carries P) {hub : Hub} (hhub : t.hub.Lessened hub) :
    Carries P { t with hub } :=
  ⟨h.current, fun id b hb => h.queued id b (hhub.mailboxes id b hb), h.logged, h.tasks, h.due⟩

/-- A new mailbox is empty. -/
theorem connect (h : t.Carries P) : Carries P { t with hub := t.hub.connect.2 } := by
  refine ⟨h.current, ?_, h.logged, h.tasks, h.due⟩
  intro id b hb o ho
  rw [Hub.get?_connect] at hb
  split at hb
  · cases hb
    cases ho
  · exact h.queued id b hb o ho

theorem publish (h : t.Carries P) {text : String}
    (hnew : P (.ofSnapshot (t.cell.publish text).current)) : Carries P { t with
      cell := t.cell.publish text
      due := some (.announce (t.cell.publish text).current) } := by
  refine ⟨fun _ => hnew, h.queued, h.logged, h.tasks, ?_⟩
  rintro k ⟨⟩
  exact fun _ => hnew

theorem of_post (h : t.Carries P) {p : Option (ConnectionId × Outbound)}
    (hp : ∀ id o, p = some (id, o) → P o) : Carries P { t with hub := t.hub.postSome p } := by
  refine ⟨h.current, ?_, h.logged, h.tasks, h.due⟩
  intro id b' hb' o ho
  obtain ⟨b, hb, -, hq | ⟨o', ho', hq⟩⟩ := Hub.mailbox_of_postSome hb'
  · rw [hq] at ho
    exact h.queued id b hb o ho
  · rw [hq] at ho
    rcases List.mem_append.1 ho with ho | ho
    · exact h.queued id b hb o ho
    · rw [List.mem_singleton.1 ho]
      exact hp id o' ho'

theorem receive (h : t.Carries P) (i : ConnectionId) : (t.act (.receive i)).Carries P := by
  refine ⟨h.current, ?_, ?_, h.tasks, h.due⟩
  · intro id b' hb' o ho
    rcases mailbox_of_receive hb' with ⟨-, hb⟩ | ⟨rfl, b, hb, rfl⟩
    · exact h.queued id b' hb o ho
    · obtain ⟨more, hq, -⟩ := Mailbox.take_spec b
      refine h.queued id b hb o ?_
      rw [hq]
      exact List.mem_append_right _ ho
  · intro id o ho
    rw [got_receive] at ho
    rcases List.mem_append.1 ho with ho | ho
    · exact h.logged id o ho
    · split at ho
      · obtain ⟨b, hb, hq⟩ := mem_queue_of_next? (Option.mem_toList.1 ho)
        exact h.queued i b hb o hq
      · cases ho

/-- What is published has to have the property; nothing else brings a new diagram. -/
theorem act (h : t.Carries P) (a : Action)
    (hpublish : ∀ text, a = .publish text → t.due = none →
      P (.ofSnapshot (t.cell.publish text).current))
    (herror : ∀ message, P ⟨none, .error message⟩) : (t.act a).Carries P := by
  have heffect := effect_act t a
  generalize t.act a = t' at heffect
  cases heffect with
  | nothing => exact h
  | publish text hd => exact h.publish (hpublish text rfl hd)
  | announce pick hd =>
    have hk := h.due _ hd
    obtain ⟨hc, hq, hl, ht, -⟩ := h.of_post fun id o hp => hk.posts hp
    exact ⟨hc, hq, hl, ht, fun k' hk' => hk.step h.current hk'⟩
  | @proceed i k pick hi =>
    have hk := h.tasks k (List.mem_of_getElem? hi)
    refine (h.of_post fun id o hp => hk.posts hp).of_tasks (forall_mem_proceed i h.tasks ?_)
    exact fun k' hk' => hk.step h.current hk'
  | begin hk =>
    refine h.of_tasks (forall_mem_begin h.tasks ?_)
    rcases hk with ⟨ids, message, rfl⟩ | ⟨session, rfl⟩
    · exact herror message
    · exact h.current
  | connect => exact h.connect.of_tasks (forall_mem_begin h.tasks trivial)
  | lessen hhub => exact h.of_hub hhub
  | receive id => exact h.receive id

end Carries

/-- Whether an action tells of a pass. -/
def Action.isReport : Action → Bool
  | .publish _ | .fail _ => true
  | .announce _ | .proceed _ _ | .push _ | .connect | .join _ _ | .disconnect _ | .drop _
  | .receive _ => false

theorem cell_act (t : Traffic) {a : Action} (h : ∀ text, a ≠ .publish text) :
    (t.act a).cell = t.cell := by
  cases a with
  | publish text => exact absurd rfl (h text)
  | announce pick =>
    simp only [act]
    split <;> rfl
  | proceed i pick =>
    simp only [act]
    split <;> rfl
  | _ => rfl

/-- Hands a report on to the clients. -/
def report (t : Traffic) : Report → Traffic
  | .updated s => t.act (.publish s.text)
  | .failed message => t.act (.fail message)

end Traffic

/-! ## Passes and clients -/

/-- A publisher and the traffic of its diagrams. -/
structure Station where
  publisher : Publisher
  traffic : Traffic
  /-- What the passes gave, in order. -/
  outcomes : List (Except ProjectError Extraction)
  /-- What they reported, in order. -/
  calls : List Report

namespace Station

inductive Action where
  /-- A pass over a disk, if nothing is left to announce. -/
  | pass (disk : Files.Disk)
  /-- Anything that is no report of a pass. -/
  | other (a : Traffic.Action)

/-- A station that has made no pass. -/
def new (descriptor : FilePath) : Station := ⟨Publisher.new descriptor, Traffic.empty, [], []⟩

/-- The snapshot that readers see. -/
def current (w : Station) : Diagram.Snapshot := w.traffic.current

def pass (w : Station) (disk : Files.Disk) : Station where
  publisher := (w.publisher.pass disk).2
  traffic := (w.publisher.pass disk).1.foldl Traffic.report w.traffic
  outcomes := w.outcomes ++ [(w.publisher.coordinator.run disk).1]
  calls := w.calls ++ (w.publisher.pass disk).1

def act (w : Station) : Action → Station
  | .pass disk => if w.traffic.due = none then w.pass disk else w
  | .other a => if a.isReport then w else { w with traffic := w.traffic.act a }

def run (descriptor : FilePath) (actions : List Action) : Station :=
  actions.foldl act (new descriptor)

theorem run_snoc (descriptor : FilePath) (actions : List Action) (a : Action) :
    run descriptor (actions ++ [a]) = (run descriptor actions).act a := by
  simp [run]

/-- The snapshots that were reported. -/
def updates (w : Station) : List Diagram.Snapshot :=
  w.calls.filterMap fun
    | .updated s => some s
    | .failed _ => none

/-- A diagram is one of some snapshots. -/
def IsOf (snapshots : List Diagram.Snapshot) (o : Outbound) : Prop :=
  o.isDiagram = true → ∃ s ∈ snapshots, o = .ofSnapshot s

structure Sound (descriptor : FilePath) (w : Station) : Prop where
  descriptor_eq : w.publisher.coordinator.descriptor = descriptor
  cell_eq : w.traffic.cell = w.publisher.cell
  updates_eq : w.updates = Publisher.snapshots w.outcomes
  current_eq : w.current = w.updates.getLast?.getD .initial
  carries : w.traffic.Carries (IsOf w.updates)

variable {descriptor : FilePath} {w : Station}

theorem sound_new (descriptor : FilePath) : Sound descriptor (new descriptor) :=
  ⟨rfl, rfl, rfl, rfl, Traffic.Carries.empty _⟩

theorem isOf_error (snapshots : List Diagram.Snapshot) (message : String) :
    IsOf snapshots ⟨none, .error message⟩ := by
  intro h
  cases h

/-- A pass that fails. -/
theorem pass_of_error (h : Sound descriptor w) {disk : Files.Disk} {e : ProjectError}
    (hl : Project.load disk descriptor = .error e) :
    w.pass disk = { w with
      traffic := w.traffic.act (.fail (Publisher.failureMessage e))
      outcomes := w.outcomes ++ [.error e]
      calls := w.calls ++ [.failed (Publisher.failureMessage e)] } := by
  have hl : Project.load disk w.publisher.coordinator.descriptor = .error e :=
    h.descriptor_eq ▸ hl
  unfold pass
  rw [Publisher.pass_of_error hl, Coordinator.run_of_error hl]
  rfl

/-- A pass that succeeds. -/
theorem pass_of_ok (h : Sound descriptor w) {disk : Files.Disk} {project : Project}
    (hl : Project.load disk descriptor = .ok project) :
    ∃ x publisher, x.failures = w.publisher.coordinator.failed disk project ∧
      publisher.coordinator.descriptor = descriptor ∧
      publisher.cell = w.publisher.cell.publish (Diagram.render x.model) ∧
      w.pass disk =
        let s : Diagram.Snapshot := ⟨Diagram.render x.model, w.current.revision + 1⟩
        ⟨publisher, (Publisher.reports s x.failures).foldl Traffic.report w.traffic,
          w.outcomes ++ [.ok x], w.calls ++ Publisher.reports s x.failures⟩ := by
  have hl : Project.load disk w.publisher.coordinator.descriptor = .ok project :=
    h.descriptor_eq ▸ hl
  obtain ⟨x, hx, hfailed⟩ := Coordinator.run_of_ok hl
  have hcurrent : w.current = w.publisher.cell.current := congrArg Diagram.Cell.current h.cell_eq
  refine ⟨x, ⟨(w.publisher.coordinator.run disk).2, _⟩, hfailed, ?_, rfl, ?_⟩
  · rw [← h.descriptor_eq]
    exact Coordinator.run_descriptor _ _
  · unfold pass
    rw [Publisher.pass_of_ok hx, hx, hcurrent]
    rfl

/-- What the reports of a pass do to the traffic of a station that has nothing left to announce. -/
theorem traffic_of_reports {t : Traffic} (hdue : t.due = none) {s : Diagram.Snapshot}
    (hs : (t.cell.publish s.text).current = s) (failures : List FileFailure) :
    let t' := (Publisher.reports s failures).foldl Traffic.report t
    t'.cell = t.cell.publish s.text ∧
      ∀ P : Outbound → Prop, t.Carries P → P (.ofSnapshot s) →
        (∀ message, P ⟨none, .error message⟩) → t'.Carries P := by
  have hcell : (t.act (.publish s.text)).cell = t.cell.publish s.text := by
    simp only [Traffic.act, hdue]
  have hcarries : ∀ P : Outbound → Prop, t.Carries P → P (.ofSnapshot s) →
      (∀ message, P ⟨none, .error message⟩) → (t.act (.publish s.text)).Carries P := by
    intro P h hP herror
    refine h.act _ ?_ herror
    rintro text ⟨⟩ -
    rwa [hs]
  unfold Publisher.reports
  split
  · exact ⟨hcell, hcarries⟩
  · let fail : Traffic.Action := .fail (Publisher.missingMessage failures)
    have hfail : ∀ text, fail ≠ .publish text := by simp [fail]
    refine ⟨(Traffic.cell_act _ hfail).trans hcell, ?_⟩
    intro P h hP herror
    exact (hcarries P h hP herror).act fail (fun text heq => absurd heq (hfail text)) herror

theorem updates_reports (w : Station) (s : Diagram.Snapshot) (failures : List FileFailure) :
    updates { w with calls := w.calls ++ Publisher.reports s failures } = w.updates ++ [s] := by
  unfold updates Publisher.reports
  rw [List.filterMap_append]
  split <;> rfl

theorem sound_pass (h : Sound descriptor w) (hdue : w.traffic.due = none) (disk : Files.Disk) :
    Sound descriptor (w.pass disk) := by
  cases hl : Project.load disk descriptor with
  | error e =>
    let fail : Traffic.Action := .fail (Publisher.failureMessage e)
    have hfail : ∀ text, fail ≠ .publish text := by simp [fail]
    have hupdates : (w.pass disk).updates = w.updates := by
      rw [pass_of_error h hl]
      unfold updates
      rw [List.filterMap_append, List.filterMap_cons_none rfl, List.filterMap_nil, List.append_nil]
    have hcarries : (w.traffic.act fail).Carries (IsOf w.updates) :=
      h.carries.act fail (fun text heq => absurd heq (hfail text)) (isOf_error _)
    have hcurrent : (w.pass disk).current = w.current := by
      rw [pass_of_error h hl]
      rfl
    refine ⟨?_, ?_, ?_, ?_, ?_⟩
    · rw [pass_of_error h hl]
      exact h.descriptor_eq
    · rw [pass_of_error h hl]
      exact h.cell_eq
    · rw [hupdates, h.updates_eq, pass_of_error h hl]
      exact (Publisher.snapshots_error _ _).symm
    · rw [hcurrent, hupdates, h.current_eq]
    · rw [hupdates, pass_of_error h hl]
      exact hcarries
  | ok project =>
    obtain ⟨x, publisher, -, hdesc, hcell, hpass⟩ := pass_of_ok h hl
    let s : Diagram.Snapshot := ⟨Diagram.render x.model, w.current.revision + 1⟩
    have hs : (w.traffic.cell.publish s.text).current = s := rfl
    obtain ⟨htraffic, hcarries⟩ := traffic_of_reports hdue hs x.failures
    have hupdates : (w.pass disk).updates = w.updates ++ [s] := by
      rw [hpass]
      exact updates_reports w s x.failures
    have hcurrent : (w.pass disk).current = s := by
      rw [hpass]
      exact congrArg Diagram.Cell.current htraffic
    have hrevision : w.current.revision = (Publisher.snapshots w.outcomes).length := by
      rw [h.current_eq, h.updates_eq, Publisher.revision_getLast?_snapshots,
        Publisher.length_snapshots]
    have hmono : ∀ o, IsOf w.updates o → IsOf (w.updates ++ [s]) o := by
      intro o ho hd
      obtain ⟨s', hs', heq⟩ := ho hd
      exact ⟨s', List.mem_append_left _ hs', heq⟩
    refine ⟨?_, ?_, ?_, ?_, ?_⟩
    · rw [hpass]
      exact hdesc
    · rw [hpass]
      show _ = publisher.cell
      rw [hcell, ← h.cell_eq]
      exact htraffic
    · rw [hupdates, h.updates_eq, hpass]
      show _ = Publisher.snapshots (w.outcomes ++ [.ok x])
      rw [Publisher.snapshots_ok, ← hrevision]
    · rw [hcurrent, hupdates]
      simp
    · rw [hupdates, hpass]
      refine hcarries _ (h.carries.mono hmono) ?_ (isOf_error _)
      exact fun _ => ⟨s, List.mem_append_right _ (List.mem_singleton_self s), rfl⟩

theorem sound_act (h : Sound descriptor w) (a : Action) : Sound descriptor (w.act a) := by
  cases a with
  | pass disk =>
    simp only [act]
    split
    · rename_i hdue
      exact sound_pass h hdue disk
    · exact h
  | other a =>
    simp only [act]
    split
    · exact h
    · rename_i hreport
      have hpublish : ∀ text, a ≠ .publish text := by
        rintro text rfl
        exact hreport rfl
      have hcell := w.traffic.cell_act hpublish
      refine ⟨h.descriptor_eq, hcell.trans h.cell_eq, h.updates_eq, ?_, ?_⟩
      · exact (congrArg Diagram.Cell.current hcell).trans h.current_eq
      · exact h.carries.act a (fun text heq => absurd heq (hpublish text)) (isOf_error _)

theorem sound_run (descriptor : FilePath) (actions : List Action) :
    Sound descriptor (run descriptor actions) := by
  induction actions using List.reverseRecOn with
  | nil => exact sound_new descriptor
  | append_singleton actions a ih =>
    rw [run_snoc]
    exact sound_act ih a

/-! ## The account of a run -/

theorem calls_reports (calls : List Report) (s : Diagram.Snapshot) (failures : List FileFailure) :
    calls ++ Publisher.reports s failures = calls ++ .updated s ::
      if failures = [] then [] else [.failed (Publisher.missingMessage failures)] := by
  unfold Publisher.reports
  simp only [List.isEmpty_iff]

/-- Whoever reads sees the model of a pass that succeeded, or nothing yet. -/
theorem Sound.exists_of_current (h : Sound descriptor w) : w.current.revision = 0 ∨
    ∃ x, .ok x ∈ w.outcomes ∧ w.current.text = Diagram.render x.model := by
  rw [h.current_eq, h.updates_eq]
  cases hlast : (Publisher.snapshots w.outcomes).getLast? with
  | none => exact Or.inl rfl
  | some s =>
    obtain ⟨x, hx, htext, -⟩ := Publisher.exists_of_mem_snapshots (List.mem_of_getLast? hlast)
    exact Or.inr ⟨x, hx, htext⟩

/-- Whoever receives a diagram was sent one that was reported. -/
theorem Sound.exists_of_mem_diagrams (h : Sound descriptor w) {id : ConnectionId} {o : Outbound}
    (ho : o ∈ w.traffic.diagrams id) : ∃ x s, .ok x ∈ w.outcomes ∧ .updated s ∈ w.calls ∧
      s.text = Diagram.render x.model ∧ o = .ofSnapshot s := by
  obtain ⟨hgot, hd⟩ := List.mem_filter.1 ho
  obtain ⟨s, hs, heq⟩ := h.carries.logged id o hgot hd
  have hcall : .updated s ∈ w.calls := by
    obtain ⟨call, hcall, hsome⟩ := List.mem_filterMap.1 hs
    cases call with
    | updated s' =>
      cases hsome
      exact hcall
    | failed message => cases hsome
  obtain ⟨x, hx, htext, -⟩ := Publisher.exists_of_mem_snapshots (h.updates_eq ▸ hs)
  exact ⟨x, s, hx, hcall, htext, heq⟩

/-- **What is heard of the passes.** In every run, a pass that cannot load its project makes one
report, of an error, and leaves the snapshot, the cache and its hits as they were. Any other pass
reports the new snapshot, and after it the files that gave no model, in the order of the project, if
there are any. So the snapshots reported are numbered from one on without a gap, the current one
bears the number of the passes that succeeded and is the last reported, and neither readers nor
clients see a diagram that does not show the model of a pass that succeeded. -/
theorem heard_of_passes (descriptor : FilePath) (actions : List Action) :
    let w := run descriptor actions
    (∀ disk, match Project.load disk descriptor with
      | .error e =>
        (w.pass disk).calls = w.calls ++ [.failed ("Recomputation failed: " ++ e.message)] ∧
        (w.pass disk).outcomes = w.outcomes ++ [.error e] ∧
        (w.pass disk).publisher = w.publisher ∧ (w.pass disk).current = w.current
      | .ok project => ∃ x, (w.pass disk).outcomes = w.outcomes ++ [.ok x] ∧
        x.failures = w.publisher.coordinator.failed disk project ∧
        List.Sublist (x.failures.map (·.path)) project.files ∧
        (w.pass disk).calls = w.calls ++
          .updated ⟨Diagram.render x.model, w.current.revision + 1⟩ ::
            if x.failures = [] then []
            else [.failed ("Diagram is incomplete, " ++ toString x.failures.length
              ++ " file(s) failed to parse: " ++ String.intercalate "; "
                (x.failures.map fun f => f.path.text ++ ": " ++ f.error.message))]) ∧
    w.updates.map (·.revision) = List.range' 1 (w.outcomes.countP Except.isOk) ∧
    w.current.revision = w.outcomes.countP Except.isOk ∧
    w.current = w.updates.getLast?.getD .initial ∧
    (w.current.revision = 0 ∨ ∃ x, .ok x ∈ w.outcomes ∧
      w.current.text = Diagram.render x.model) ∧
    ∀ id, ∀ o ∈ w.traffic.diagrams id, ∃ x s, .ok x ∈ w.outcomes ∧ .updated s ∈ w.calls ∧
      s.text = Diagram.render x.model ∧ o = .ofSnapshot s := by
  intro w
  have h : Sound descriptor w := sound_run descriptor actions
  refine ⟨?_, ?_, ?_, h.current_eq, h.exists_of_current, fun id o => h.exists_of_mem_diagrams⟩
  · intro disk
    cases hl : Project.load disk descriptor with
    | error e =>
      rw [pass_of_error h hl]
      exact ⟨rfl, rfl, rfl, rfl⟩
    | ok project =>
      obtain ⟨x, publisher, hfailed, -, -, hpass⟩ := pass_of_ok h hl
      refine ⟨x, ?_, hfailed, ?_, ?_⟩
      · rw [hpass]
      · rw [hfailed]
        exact Coordinator.failed_sublist _ disk project
      · rw [hpass]
        exact calls_reports w.calls _ x.failures
  · rw [h.updates_eq]
    exact Publisher.revisions_snapshots w.outcomes
  · rw [h.current_eq, h.updates_eq]
    exact Publisher.revision_getLast?_snapshots w.outcomes

/-! ## A run with a pass of every kind -/

/-- There is no descriptor. -/
def voidDisk : Files.Disk := ⟨[], []⟩

/-- The file that the descriptor lists is missing. -/
def gapDisk : Files.Disk := ⟨[(["p"], .file "\x7b\"files\":[\"a.ts\"]\x7d".toUTF8)], []⟩

/-- The descriptor selects nothing. -/
def bareDisk : Files.Disk := ⟨[(["p"], .file "\x7b\"files\":[]\x7d".toUTF8)], []⟩

theorem load_voidDisk : Project.load voidDisk ⟨"p"⟩ = .error (.read ⟨"p"⟩ .notFound) := by cbv

theorem load_gapDisk : Project.load gapDisk ⟨"p"⟩ = .ok ⟨⟨""⟩, ⟨"p"⟩, false, [⟨"a.ts"⟩]⟩ := by
  have htext : gapDisk.readText ⟨"p"⟩ = .ok "\x7b\"files\":[\"a.ts\"]\x7d" := by cbv
  have hparsed : Descriptor.ofText "\x7b\"files\":[\"a.ts\"]\x7d" =
      .ok ⟨some ["a.ts"], none, none, ⟨false, none⟩⟩ := by cbv
  rw [Project.load_of_listsAll htext hparsed (Or.inr ⟨rfl, by simp⟩)]
  decide +kernel

theorem load_bareDisk : Project.load bareDisk ⟨"p"⟩ = .ok ⟨⟨""⟩, ⟨"p"⟩, false, []⟩ := by
  have htext : bareDisk.readText ⟨"p"⟩ = .ok "\x7b\"files\":[]\x7d" := by cbv
  have hparsed : Descriptor.ofText "\x7b\"files\":[]\x7d" =
      .ok ⟨some [], none, none, ⟨false, none⟩⟩ := by cbv
  rw [Project.load_of_listsAll htext hparsed (Or.inr ⟨rfl, by simp⟩)]
  decide +kernel

theorem failed_gapDisk : (Coordinator.new ⟨"p"⟩).failed gapDisk
    ⟨⟨""⟩, ⟨"p"⟩, false, [⟨"a.ts"⟩]⟩ = [⟨⟨"a.ts"⟩, .unreadable .notFound⟩] := by
  have hread : gapDisk.read ⟨"a.ts"⟩ = .error .notFound := by cbv
  have hseparates : Digest.Separates fun _ => False := fun _ _ h => h.elim
  rw [Coordinator.failed_eq hseparates Cache.faithful_empty (by simp [hread])]
  simp [Extraction.reference, Extraction.missing, Extraction.fileModel, hread]

/-- What a run has come to. -/
structure ComesTo (w : Station) (outcomes : List (Except ProjectError Extraction))
    (calls : List Report) (traffic : Traffic) : Prop where
  outcomes_eq : w.outcomes = outcomes
  calls_eq : w.calls = calls
  traffic_eq : w.traffic = traffic

variable {actions : List Action} {outcomes : List (Except ProjectError Extraction)}
  {calls reports : List Report} {traffic : Traffic} {disk : Files.Disk}
  {r : Except ProjectError Extraction}

theorem ComesTo.pass (h : (run descriptor actions).ComesTo outcomes calls traffic)
    (hdue : traffic.due = none)
    (houtcomes : ((run descriptor actions).pass disk).outcomes =
      (run descriptor actions).outcomes ++ [r])
    (hcalls : ((run descriptor actions).pass disk).calls =
      (run descriptor actions).calls ++ reports) :
    (run descriptor (actions ++ [.pass disk])).ComesTo (outcomes ++ [r]) (calls ++ reports)
      (reports.foldl Traffic.report traffic) := by
  obtain ⟨rfl, rfl, rfl⟩ := h
  rw [run_snoc, act, if_pos hdue]
  refine ⟨houtcomes, hcalls, ?_⟩
  exact congrArg (List.foldl Traffic.report (run descriptor actions).traffic)
    (List.append_cancel_left hcalls)

/-- What is no report concerns the clients only. -/
theorem ComesTo.others (h : (run descriptor actions).ComesTo outcomes calls traffic)
    {others : List Traffic.Action} (hothers : ∀ a ∈ others, a.isReport = false) :
    (run descriptor (actions ++ others.map .other)).ComesTo outcomes calls
      (others.foldl Traffic.act traffic) := by
  induction others using List.reverseRecOn with
  | nil => simpa using h
  | append_singleton others a ih =>
    obtain ⟨houtcomes, hcalls, htraffic⟩ := ih fun b hb => hothers b (List.mem_append_left _ hb)
    have ha : ¬ a.isReport = true := by simp [hothers a (by simp)]
    rw [List.map_append, ← List.append_assoc, List.map_singleton, run_snoc, act, if_neg ha,
      List.foldl_append]
    exact ⟨houtcomes, hcalls, congrArg (Traffic.act · a) htraffic⟩

/-- A pass is announced to one client, who receives the diagram. -/
def told : List Traffic.Action := [.announce 0, .announce 1, .announce 0, .receive 1]

/-- A client comes before the first pass and is told of the others. -/
def troubledRun : List Action :=
  [.other .connect] ++ [.pass voidDisk] ++ [.pass gapDisk] ++ told.map .other ++
    [.pass bareDisk] ++ told.map .other

def voidMessage : String := "Recomputation failed: cannot read project descriptor p: " ++
  "No such file or directory (os error 2)"

def gapMessage : String := "Diagram is incomplete, 1 file(s) failed to parse: " ++
  "a.ts: failed to read file: No such file or directory (os error 2)"

theorem voidMessage_eq : "Recomputation failed: " ++
    (ProjectError.read ⟨"p"⟩ Files.Fault.notFound).message = voidMessage := by decide +kernel

theorem gapMessage_eq (failures : List FileFailure)
    (h : failures = [⟨⟨"a.ts"⟩, .unreadable .notFound⟩]) :
    "Diagram is incomplete, " ++ toString failures.length ++ " file(s) failed to parse: "
      ++ String.intercalate "; " (failures.map fun f => f.path.text ++ ": " ++ f.error.message) =
        gapMessage := by
  subst h
  decide +kernel

/-- One pass finds no project, the next one lacks a file, and the last one lacks none. -/
theorem heard_of_troubledRun :
    let w := run ⟨"p"⟩ troubledRun
    ∃ x y, w.outcomes = [.error (.read ⟨"p"⟩ .notFound), .ok x, .ok y] ∧
      x.failures = [⟨⟨"a.ts"⟩, .unreadable .notFound⟩] ∧ y.failures = [] ∧
      w.calls = [.failed voidMessage, .updated ⟨Diagram.render x.model, 1⟩, .failed gapMessage,
        .updated ⟨Diagram.render y.model, 2⟩] ∧
      w.updates.map (·.revision) = [1, 2] ∧ w.current.revision = 2 ∧
      w.traffic.diagrams 1 = [⟨some 1, .diagram (Diagram.render x.model)⟩,
        ⟨some 2, .diagram (Diagram.render y.model)⟩] := by
  intro w
  have htold : ∀ a ∈ told, a.isReport = false := by decide
  have hclient : (run ⟨"p"⟩ [.other .connect]).ComesTo [] [] (Traffic.run [.connect]) :=
    ⟨rfl, rfl, rfl⟩
  -- the pass that finds no project
  have hpass := (heard_of_passes ⟨"p"⟩ [.other .connect]).1 voidDisk
  simp only [load_voidDisk] at hpass
  obtain ⟨hcalls, houtcomes, hpublisher, -⟩ := hpass
  rw [voidMessage_eq] at hcalls
  have hvoid := hclient.pass rfl houtcomes hcalls
  have hnew : (run ⟨"p"⟩ ([.other .connect] ++ [.pass voidDisk])).publisher =
    Publisher.new ⟨"p"⟩ := hpublisher
  -- the pass that lacks a file
  have hpass := (heard_of_passes ⟨"p"⟩ ([.other .connect] ++ [.pass voidDisk])).1 gapDisk
  simp only [load_gapDisk, hnew, current, hvoid.traffic_eq] at hpass
  obtain ⟨x, houtcomes, hfailures, -, hcalls⟩ := hpass
  replace hfailures : x.failures = [⟨⟨"a.ts"⟩, .unreadable .notFound⟩] :=
    hfailures.trans failed_gapDisk
  rw [gapMessage_eq x.failures hfailures, if_neg (by simp [hfailures])] at hcalls
  have hgap := (hvoid.pass rfl houtcomes hcalls).others htold
  -- the pass that lacks none
  have hpass := (heard_of_passes ⟨"p"⟩ ([.other .connect] ++ [.pass voidDisk] ++
    [.pass gapDisk] ++ told.map .other)).1 bareDisk
  simp only [load_bareDisk, current, hgap.traffic_eq] at hpass
  obtain ⟨y, houtcomes, hnone, -, hcalls⟩ := hpass
  replace hnone : y.failures = [] := hnone
  rw [if_pos hnone] at hcalls
  obtain ⟨houtcomes, hcalls, htraffic⟩ := (hgap.pass rfl houtcomes hcalls).others htold
  obtain ⟨-, hrevisions, hrevision, -⟩ := heard_of_passes ⟨"p"⟩ troubledRun
  rw [show (run ⟨"p"⟩ troubledRun).outcomes = _ from houtcomes] at hrevisions hrevision
  refine ⟨x, y, houtcomes, hfailures, hnone, hcalls, hrevisions, hrevision, ?_⟩
  rw [show w.traffic = _ from htraffic]
  cbv

end Station
end ClassAtlas.Live
