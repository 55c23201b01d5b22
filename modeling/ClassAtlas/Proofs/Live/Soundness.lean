import ClassAtlas.Proofs.Live.Rooms
import ClassAtlas.Proofs.Live.Traffic
import Mathlib.Data.List.Induction

/-!
# Nothing under way is newer than the current diagram

`Sound` is kept along any run of `Traffic`: a diagram that waits in a mailbox, is on its way to one
or was received has a revision that was published and is no newer than the current diagram, and is
the current diagram if it is as new; an announcement is one of the current diagram; and what a
client received is what was fresh in what it took out of its mailbox.

`effect_act` says all that an action can do. That `Sound` is kept is derived from it, and so is what
`Freshness` and `Station` say of every run.

Results:
* `sound_run`: every run is sound.
* `Sound.pairwise_diagramRevisions`: the revisions that a client receives never go down.
* `Sound.of_mem_diagrams`: none of them is 0, and one that is as new as the current diagram came
  with it.
-/
namespace ClassAtlas.Live

/-- A diagram that is not newer than the current one, and is the current one if it is as new. -/
def Outbound.Known (current : Diagram.Snapshot) (o : Outbound) : Prop :=
  match o.revision? with
  | none => o.isDiagram = false
  | some r => o.isDiagram = true ∧ 1 ≤ r ∧ r ≤ current.revision ∧
      (r = current.revision → o = .ofSnapshot current)

/-- The same of a snapshot that was read, which may be the one before anything is published. -/
def KnownSnapshot (current s : Diagram.Snapshot) : Prop :=
  s.revision ≤ current.revision ∧ (s.revision = current.revision → s = current)

def Task.Known (current : Diagram.Snapshot) : Task → Prop
  | .read _ => True
  | .greet _ s | .push _ s | .announce s => KnownSnapshot current s
  | .deliver _ o => o.Known current

theorem known_current (current : Diagram.Snapshot) : KnownSnapshot current current :=
  ⟨Nat.le_refl _, fun _ => rfl⟩

theorem Outbound.known_error (current : Diagram.Snapshot) (message : String) :
    Outbound.Known current ⟨none, .error message⟩ := rfl

theorem Outbound.Known.of_some {current : Diagram.Snapshot} {o : Outbound} (h : o.Known current)
    {r : Nat} (hr : o.revision? = some r) : o.isDiagram = true ∧ 1 ≤ r ∧ r ≤ current.revision ∧
      (r = current.revision → o = .ofSnapshot current) := by
  unfold Known at h
  rw [hr] at h
  exact h

theorem Outbound.Known.revision_le {current : Diagram.Snapshot} {o : Outbound} (h : o.Known current)
    {r : Nat} (hr : o.revision? = some r) : r ≤ current.revision :=
  (h.of_some hr).2.2.1

theorem KnownSnapshot.outbound {current s : Diagram.Snapshot} (h : KnownSnapshot current s)
    (hs : s.revision ≠ 0) : Outbound.Known current (.ofSnapshot s) := by
  refine ⟨rfl, Nat.one_le_iff_ne_zero.2 hs, h.1, ?_⟩
  intro heq
  rw [h.2 heq]

theorem Outbound.Known.publish {current : Diagram.Snapshot} {o : Outbound} (h : o.Known current)
    (text : String) : o.Known ⟨text, current.revision + 1⟩ := by
  unfold Known at h ⊢
  cases hr : o.revision? with
  | none =>
    rw [hr] at h
    exact h
  | some r =>
    rw [hr] at h
    obtain ⟨hd, h1, hle, -⟩ := h
    refine ⟨hd, h1, Nat.le_succ_of_le hle, ?_⟩
    intro heq
    have heq : r = current.revision + 1 := heq
    omega

theorem KnownSnapshot.publish {current s : Diagram.Snapshot} (h : KnownSnapshot current s)
    (text : String) : KnownSnapshot ⟨text, current.revision + 1⟩ s := by
  refine ⟨Nat.le_succ_of_le h.1, ?_⟩
  intro heq
  have heq : s.revision = current.revision + 1 := heq
  have hle := h.1
  omega

theorem Task.Known.publish {current : Diagram.Snapshot} {k : Task} (h : k.Known current)
    (text : String) : k.Known ⟨text, current.revision + 1⟩ := by
  cases k with
  | read id => trivial
  | greet id s => exact KnownSnapshot.publish h text
  | push session s => exact KnownSnapshot.publish h text
  | announce s => exact KnownSnapshot.publish h text
  | deliver ids o => exact Outbound.Known.publish h text

/-! ## What a step of a task does -/

/-- Puts a message into a mailbox, if there is one to be put. -/
def Hub.postSome (hub : Hub) : Option (ConnectionId × Outbound) → Hub
  | some (id, o) => (hub.post id o).2
  | none => hub

namespace Task

/-- The message that the next step puts into a mailbox, and where. -/
def posts (pick : ConnectionId) : Task → Option (ConnectionId × Outbound)
  | .greet id s => if s.revision = 0 then none else some (id, .ofSnapshot s)
  | .deliver ids o => if pick ∈ ids then some (pick, o) else none
  | .read _ | .push _ _ | .announce _ => none

variable {current : Diagram.Snapshot} {k : Task}

theorem step_snd (current : Diagram.Snapshot) (hub : Hub) (pick : ConnectionId) (k : Task) :
    (k.step current hub pick).2 = hub.postSome (k.posts pick) := by
  cases k with
  | read id => rfl
  | greet id s =>
    simp only [step, posts, Hub.sendDiagramTo, Hub.postDiagram]
    split <;> rfl
  | push session s => rfl
  | announce s => rfl
  | deliver ids o =>
    cases ids with
    | nil => simp [step, posts, Hub.postSome]
    | cons id ids =>
      simp only [step, posts]
      split <;> rfl

theorem known_posts (h : k.Known current) {pick id : ConnectionId} {o : Outbound}
    (hp : k.posts pick = some (id, o)) : o.Known current := by
  cases k with
  | read i => cases hp
  | greet i s =>
    simp only [posts] at hp
    split at hp
    · cases hp
    · rename_i hs
      cases hp
      exact KnownSnapshot.outbound h hs
  | push session s => cases hp
  | announce s => cases hp
  | deliver ids o' =>
    simp only [posts] at hp
    split at hp
    · cases hp
      exact h
    · cases hp

theorem known_spread {s : Diagram.Snapshot} (h : KnownSnapshot current s) {ids : List ConnectionId}
    (hk : spread ids s = some k) : k.Known current := by
  unfold spread at hk
  split at hk
  · cases hk
  · rename_i hs
    cases hk
    exact h.outbound hs

theorem known_step (h : k.Known current) {hub : Hub} {pick : ConnectionId} {k' : Task}
    (hk : (k.step current hub pick).1 = some k') : k'.Known current := by
  cases k with
  | read id =>
    cases hk
    exact known_current current
  | greet id s => cases hk
  | push session s => exact known_spread h hk
  | announce s => exact known_spread h hk
  | deliver ids o =>
    cases ids with
    | nil => cases hk
    | cons id ids =>
      simp only [step] at hk
      split at hk <;> cases hk <;> exact h

end Task

namespace Hub

theorem registry_postSome (hub : Hub) (p : Option (ConnectionId × Outbound)) :
    (hub.postSome p).registry = hub.registry := by
  cases p with
  | none => rfl
  | some e => exact registry_post hub e.1 e.2

/-- Posting adds to the end of one mailbox at most. -/
theorem mailbox_of_postSome {hub : Hub} {p : Option (ConnectionId × Outbound)} {id : ConnectionId}
    {b' : Mailbox} (h : (hub.postSome p).mailboxes.get? id = some b') :
    ∃ b, hub.mailboxes.get? id = some b ∧ b'.lastRevision = b.lastRevision ∧
      (b'.queue = b.queue ∨ ∃ o, p = some (id, o) ∧ b'.queue = b.queue ++ [o]) := by
  cases p with
  | none => exact ⟨b', h, rfl, Or.inl rfl⟩
  | some e =>
    obtain ⟨i, o⟩ := e
    rw [postSome, get?_post] at h
    split at h
    · rename_i hid
      obtain ⟨b, hb, rfl⟩ := Option.map_eq_some_iff.1 h
      exact ⟨b, hb, rfl, Or.inr ⟨o, by rw [hid.1], rfl⟩⟩
    · exact ⟨b', h, rfl, Or.inl rfl⟩

theorem mem_queue_postSome {hub : Hub} {id : ConnectionId} {o : Outbound} {b' : Mailbox}
    (hid : id ∈ hub.registry.connected)
    (h : (hub.postSome (some (id, o))).mailboxes.get? id = some b') : o ∈ b'.queue := by
  rw [postSome, get?_post, if_pos ⟨rfl, (Registry.isConnected_iff _ _).2 hid⟩] at h
  obtain ⟨b, -, rfl⟩ := Option.map_eq_some_iff.1 h
  exact List.mem_append_right _ (List.mem_singleton_self o)

/-- The connections and mailboxes of a hub, or fewer; the rooms may be others. -/
structure Lessened (hub hub' : Hub) : Prop where
  consistent : hub.registry.Consistent → hub'.registry.Consistent
  lastId : hub'.registry.lastId = hub.registry.lastId
  connected : ∀ id ∈ hub'.registry.connected, id ∈ hub.registry.connected
  mailboxes : ∀ id b, hub'.mailboxes.get? id = some b → hub.mailboxes.get? id = some b

theorem lessened_join (hub : Hub) (id : ConnectionId) (session : String) :
    hub.Lessened (hub.join id session).2 where
  consistent h := h.join id session
  lastId := (Registry.join_frame hub.registry id session).2
  connected _ hi := (Registry.join_frame hub.registry id session).1 ▸ hi
  mailboxes _ _ hb := hb

theorem lessened_disconnect (hub : Hub) (id : ConnectionId) :
    hub.Lessened (hub.disconnect id) where
  consistent h := h.disconnect id
  lastId := Registry.lastId_disconnect hub.registry id
  connected i hi := ((Registry.mem_connected_disconnect hub.registry id i).1 hi).1
  mailboxes _ _ hb := hb

theorem lessened_dropMailbox (hub : Hub) (id : ConnectionId) :
    hub.Lessened (hub.dropMailbox id).2 where
  consistent h := h
  lastId := rfl
  connected _ hi := hi
  mailboxes i b hb := by
    rw [get?_dropMailbox] at hb
    split at hb
    · cases hb
    · exact hb

end Hub

namespace Traffic

/-! ## What an action does -/

/-- All that an action can do. -/
inductive Effect (t : Traffic) : Action → Traffic → Prop
  | nothing {a : Action} : Effect t a t
  | publish (text : String) (hd : t.due = none) : Effect t (.publish text) { t with
      cell := t.cell.publish text
      due := some (.announce (t.cell.publish text).current) }
  | announce {k : Task} (pick : ConnectionId) (hd : t.due = some k) :
      Effect t (.announce pick) { t with
        due := (k.step t.current t.hub pick).1
        hub := t.hub.postSome (k.posts pick) }
  | proceed {i : Nat} {k : Task} (pick : ConnectionId) (hk : t.tasks[i]? = some k) :
      Effect t (.proceed i pick) { t with
        tasks := t.tasks.eraseIdx i ++ (k.step t.current t.hub pick).1.toList
        hub := t.hub.postSome (k.posts pick) }
  | begin {a : Action} {k : Task} (hk : (∃ ids message, k = .deliver ids ⟨none, .error message⟩) ∨
      ∃ session, k = .push session t.current) : Effect t a { t with tasks := t.tasks ++ [k] }
  | connect : Effect t .connect { t with
      hub := t.hub.connect.2
      tasks := t.tasks ++ [.read t.hub.connect.1] }
  | lessen {a : Action} {hub : Hub} (hhub : t.hub.Lessened hub) : Effect t a { t with hub }
  | receive (id : ConnectionId) : Effect t (.receive id) (t.act (.receive id))

theorem effect_act (t : Traffic) (a : Action) : Effect t a (t.act a) := by
  cases a with
  | publish text =>
    cases hd : t.due with
    | none =>
      simp only [act, hd]
      exact .publish text hd
    | some k =>
      simp only [act, hd]
      exact .nothing
  | announce pick =>
    cases hd : t.due with
    | none =>
      simp only [act, hd]
      exact .nothing
    | some k =>
      simp only [act, hd, Task.step_snd]
      exact .announce pick hd
  | proceed i pick =>
    cases hk : t.tasks[i]? with
    | none =>
      simp only [act, hk]
      exact .nothing
    | some k =>
      simp only [act, hk, Task.step_snd]
      exact .proceed pick hk
  | fail message => exact .begin (.inl ⟨_, message, rfl⟩)
  | push session => exact .begin (.inr ⟨session, rfl⟩)
  | connect => exact .connect
  | join id session => exact .lessen (t.hub.lessened_join id session)
  | disconnect id => exact .lessen (t.hub.lessened_disconnect id)
  | drop id => exact .lessen (t.hub.lessened_dropMailbox id)
  | receive id => exact .receive id

/-- What holds of all tasks and of what is left of one of them holds when that has gone on. -/
theorem forall_mem_proceed {P : Task → Prop} {tasks : List Task} {next : Option Task} (i : Nat)
    (h : ∀ k ∈ tasks, P k) (hnext : ∀ k, next = some k → P k) :
    ∀ k ∈ tasks.eraseIdx i ++ next.toList, P k := by
  rw [List.forall_mem_append]
  exact ⟨fun k hk => h k (List.mem_of_mem_eraseIdx hk),
    fun k hk => hnext k (Option.mem_toList.1 hk)⟩

/-- What holds of all tasks and of one that begins. -/
theorem forall_mem_begin {P : Task → Prop} {tasks : List Task} {k : Task}
    (h : ∀ k ∈ tasks, P k) (hk : P k) : ∀ k' ∈ tasks ++ [k], P k' :=
  List.forall_mem_append.2 ⟨h, List.forall_mem_singleton.2 hk⟩

/-! ## What waits, is under way or was received -/

structure Sound (t : Traffic) : Prop where
  registry : t.hub.registry.Consistent
  owned : ∀ id b, t.hub.mailboxes.get? id = some b → id ≤ t.hub.registry.lastId
  queued : ∀ id b, t.hub.mailboxes.get? id = some b → ∀ o ∈ b.queue, o.Known t.current
  logged : ∀ id, ∀ o ∈ t.got id, o.Known t.current
  tasks : ∀ k ∈ t.tasks, k.Known t.current
  /-- An announcement is of the current diagram. -/
  due : ∀ k, t.due = some k → k = .announce t.current ∨
    ∃ ids, k = .deliver ids (.ofSnapshot t.current) ∧ t.current.revision ≠ 0
  /-- What a client got is what was fresh in what it took. -/
  taken : ∀ id, ∃ taken, t.got id = Mailbox.fresh 0 taken ∧
    ∀ b, t.hub.mailboxes.get? id = some b → b.lastRevision = Mailbox.highest 0 taken
  unused : ∀ id, t.hub.registry.lastId < id → t.got id = []

theorem sound_empty : Sound empty where
  registry := Registry.consistent_empty
  owned := by
    intro id b hb
    cases hb
  queued := by
    intro id b hb
    cases hb
  logged := by
    intro id o ho
    cases ho
  tasks := by
    intro k hk
    cases hk
  due := by
    intro k hk
    cases hk
  taken _ := ⟨[], rfl, fun b hb => by cases hb⟩
  unused _ _ := rfl

namespace Sound

variable {t : Traffic}

/-- More or other tasks. -/
theorem of_tasks (h : Sound t) {tasks : List Task} (hk : ∀ k ∈ tasks, k.Known t.current) :
    Sound { t with tasks } :=
  ⟨h.registry, h.owned, h.queued, h.logged, hk, h.due, h.taken, h.unused⟩

theorem of_due (h : Sound t) {due : Option Task}
    (hd : ∀ k, due = some k → k = .announce t.current ∨
      ∃ ids, k = .deliver ids (.ofSnapshot t.current) ∧ t.current.revision ≠ 0) :
    Sound { t with due } :=
  ⟨h.registry, h.owned, h.queued, h.logged, h.tasks, hd, h.taken, h.unused⟩

theorem of_hub (h : Sound t) {hub : Hub} (hhub : t.hub.Lessened hub) : Sound { t with hub } where
  registry := hhub.consistent h.registry
  owned id b hq := by
    rw [hhub.lastId]
    exact h.owned id b (hhub.mailboxes id b hq)
  queued id b hq := h.queued id b (hhub.mailboxes id b hq)
  logged := h.logged
  tasks := h.tasks
  due := h.due
  taken id := by
    obtain ⟨taken, hg, hl⟩ := h.taken id
    exact ⟨taken, hg, fun b hq => hl b (hhub.mailboxes id b hq)⟩
  unused id hid := h.unused id (hhub.lastId ▸ hid)

theorem of_post (h : Sound t) {p : Option (ConnectionId × Outbound)}
    (hp : ∀ id o, p = some (id, o) → o.Known t.current) :
    Sound { t with hub := t.hub.postSome p } where
  registry := by
    rw [Hub.registry_postSome]
    exact h.registry
  owned id b' hb' := by
    obtain ⟨b, hb, -⟩ := Hub.mailbox_of_postSome hb'
    rw [Hub.registry_postSome]
    exact h.owned id b hb
  queued id b' hb' o ho := by
    obtain ⟨b, hb, -, hq | ⟨o', ho', hq⟩⟩ := Hub.mailbox_of_postSome hb'
    · rw [hq] at ho
      exact h.queued id b hb o ho
    · rw [hq] at ho
      rcases List.mem_append.1 ho with ho | ho
      · exact h.queued id b hb o ho
      · rw [List.mem_singleton.1 ho]
        exact hp id o' ho'
  logged := h.logged
  tasks := h.tasks
  due := h.due
  taken id := by
    obtain ⟨taken, hg, hl⟩ := h.taken id
    refine ⟨taken, hg, ?_⟩
    intro b' hb'
    obtain ⟨b, hb, hlast, -⟩ := Hub.mailbox_of_postSome hb'
    rw [hlast]
    exact hl b hb
  unused id hid := by
    rw [Hub.registry_postSome] at hid
    exact h.unused id hid

theorem publish (h : Sound t) (text : String) :
    Sound { t with
      cell := t.cell.publish text
      due := some (.announce (t.cell.publish text).current) } where
  registry := h.registry
  owned := h.owned
  queued id b hb o ho := (h.queued id b hb o ho).publish text
  logged id o ho := (h.logged id o ho).publish text
  tasks k hk := (h.tasks k hk).publish text
  due := by
    rintro k ⟨⟩
    exact Or.inl rfl
  taken := h.taken
  unused := h.unused

theorem connect (h : Sound t) : Sound { t with hub := t.hub.connect.2 } where
  registry := h.registry.connect
  owned id b hb := by
    rw [Hub.get?_connect] at hb
    split at hb
    · rename_i hid
      exact Nat.le_of_eq hid
    · exact Nat.le_succ_of_le (h.owned id b hb)
  queued id b hb o ho := by
    rw [Hub.get?_connect] at hb
    split at hb
    · cases hb
      cases ho
    · exact h.queued id b hb o ho
  logged := h.logged
  tasks := h.tasks
  due := h.due
  taken id := by
    by_cases hid : id = t.hub.registry.lastId + 1
    · refine ⟨[], h.unused id (hid ▸ Nat.lt_succ_self _), ?_⟩
      intro b hb
      rw [Hub.get?_connect, if_pos hid] at hb
      cases hb
      rfl
    · obtain ⟨taken, hg, hl⟩ := h.taken id
      refine ⟨taken, hg, ?_⟩
      intro b hb
      rw [Hub.get?_connect, if_neg hid] at hb
      exact hl b hb
  unused id hid := h.unused id (Nat.lt_of_succ_lt hid)

end Sound

/-- An announcement stays one of the current diagram. -/
theorem Sound.due_step {t : Traffic} (h : Sound t) {k k' : Task} (hd : t.due = some k)
    {pick : ConnectionId} (hk : (k.step t.current t.hub pick).1 = some k') :
    k' = .announce t.current ∨
      ∃ ids, k' = .deliver ids (.ofSnapshot t.current) ∧ t.current.revision ≠ 0 := by
  rcases h.due k hd with rfl | ⟨ids, rfl, h0⟩
  · simp only [Task.step, Task.spread] at hk
    split at hk
    · cases hk
    · rename_i h0
      cases hk
      exact Or.inr ⟨_, rfl, h0⟩
  · cases ids with
    | nil => cases hk
    | cons id ids =>
      simp only [Task.step] at hk
      split at hk <;> cases hk <;> exact Or.inr ⟨_, rfl, h0⟩

theorem Sound.known_due {t : Traffic} (h : Sound t) {k : Task} (hd : t.due = some k) :
    k.Known t.current := by
  rcases h.due k hd with rfl | ⟨ids, rfl, h0⟩
  · exact known_current t.current
  · exact (known_current t.current).outbound h0

/-- The last revision a client got is the last in the log. -/
theorem Sound.getLast?_got {t : Traffic} (h : Sound t) {id : ConnectionId} {b : Mailbox}
    (hb : t.hub.mailboxes.get? id = some b) :
    (Mailbox.revisions (t.got id)).getLast?.getD 0 = b.lastRevision := by
  obtain ⟨taken, hg, hl⟩ := h.taken id
  rw [hg, Mailbox.getLast?_fresh, hl b hb]

theorem Sound.lastRevision_le {t : Traffic} (h : Sound t) {id : ConnectionId} {b : Mailbox}
    (hb : t.hub.mailboxes.get? id = some b) : b.lastRevision ≤ t.current.revision := by
  rw [← h.getLast?_got hb]
  cases hr : (Mailbox.revisions (t.got id)).getLast? with
  | none => exact Nat.zero_le _
  | some r =>
    obtain ⟨o, ho, hor⟩ := List.mem_filterMap.1 (List.mem_of_getLast? hr)
    exact (h.logged id o ho).revision_le hor

theorem got_receive (t : Traffic) (i id : ConnectionId) :
    (t.act (.receive i)).got id = t.got id ++ if id = i then (t.next? i).toList else [] := by
  simp only [got, act, List.filter_append, List.map_append]
  by_cases hid : id = i
  · subst hid
    cases t.next? id <;> simp
  · cases t.next? i with
    | none => simp
    | some o => simp [hid, Ne.symm hid]

theorem mailbox_of_receive {t : Traffic} {i id : ConnectionId} {b' : Mailbox}
    (h : (t.act (.receive i)).hub.mailboxes.get? id = some b') :
    (id ≠ i ∧ t.hub.mailboxes.get? id = some b') ∨
      (id = i ∧ ∃ b, t.hub.mailboxes.get? i = some b ∧ b.take.2 = b') := by
  have h : (t.hub.receive i).2.mailboxes.get? id = some b' := h
  rw [Hub.get?_receive] at h
  split at h
  · rename_i hid
    exact Or.inr ⟨hid, Option.map_eq_some_iff.1 h⟩
  · rename_i hid
    exact Or.inl ⟨hid, h⟩

theorem mem_queue_of_next? {t : Traffic} {i : ConnectionId} {o : Outbound}
    (h : t.next? i = some o) : ∃ b, t.hub.mailboxes.get? i = some b ∧ o ∈ b.queue := by
  obtain ⟨b, hb, hn⟩ := Option.bind_eq_some_iff.1 h
  obtain ⟨more, hq, -, hf, -⟩ := Mailbox.take_spec b
  have ho : o ∈ Mailbox.fresh b.lastRevision more := by
    rw [hf, hn]
    exact List.mem_singleton_self o
  refine ⟨b, hb, ?_⟩
  rw [hq]
  exact List.mem_append_left _ (Mailbox.mem_of_mem_fresh _ _ ho)

/-- What a client takes is fresh after what it took. -/
theorem Sound.taken_receive {t : Traffic} (h : Sound t) (i id : ConnectionId) :
    ∃ taken, (t.act (.receive i)).got id = Mailbox.fresh 0 taken ∧
      ∀ b, (t.act (.receive i)).hub.mailboxes.get? id = some b →
        b.lastRevision = Mailbox.highest 0 taken := by
  obtain ⟨taken, hg, hl⟩ := h.taken id
  by_cases hid : id = i
  · subst hid
    cases hb : t.hub.mailboxes.get? id with
    | none =>
      refine ⟨taken, ?_, ?_⟩
      · rw [got_receive, if_pos rfl, hg]
        simp [next?, hb]
      · intro b' hb'
        rcases mailbox_of_receive hb' with ⟨hne, -⟩ | ⟨-, b, hb', -⟩
        · exact absurd rfl hne
        · rw [hb] at hb'
          cases hb'
    | some b =>
      obtain ⟨more, -, hlast, hf, -⟩ := Mailbox.take_spec b
      refine ⟨taken ++ more, ?_, ?_⟩
      · rw [got_receive, if_pos rfl, hg, Mailbox.fresh_append, ← hl b hb, hf]
        simp [next?, hb]
      · intro b' hb'
        rcases mailbox_of_receive hb' with ⟨hne, -⟩ | ⟨-, b₀, hb₀, rfl⟩
        · exact absurd rfl hne
        · rw [hb] at hb₀
          cases hb₀
          rw [hlast, hl b hb, Mailbox.highest_append]
  · refine ⟨taken, ?_, ?_⟩
    · rw [got_receive, if_neg hid, List.append_nil, hg]
    · intro b' hb'
      rcases mailbox_of_receive hb' with ⟨-, hb⟩ | ⟨heq, -⟩
      · exact hl b' hb
      · exact absurd heq hid

theorem Sound.receive {t : Traffic} (h : Sound t) (i : ConnectionId) :
    Sound (t.act (.receive i)) := by
  have hreg : (t.act (.receive i)).hub.registry = t.hub.registry := Hub.registry_receive _ _
  refine ⟨?_, ?_, ?_, ?_, h.tasks, h.due, h.taken_receive i, ?_⟩
  · rw [hreg]
    exact h.registry
  · intro id b' hb'
    rw [hreg]
    rcases mailbox_of_receive hb' with ⟨-, hb⟩ | ⟨rfl, b, hb, -⟩
    · exact h.owned id b' hb
    · exact h.owned id b hb
  · intro id b' hb' o ho
    rcases mailbox_of_receive hb' with ⟨-, hb⟩ | ⟨rfl, b, hb, rfl⟩
    · exact h.queued id b' hb o ho
    · obtain ⟨more, hq, -⟩ := Mailbox.take_spec b
      refine h.queued id b hb o ?_
      rw [hq]
      exact List.mem_append_right _ ho
  · intro id o ho
    rw [got_receive] at ho
    rcases List.mem_append.1 ho with ho | ho
    · exact h.logged id o ho
    · split at ho
      · obtain ⟨b, hb, hq⟩ := mem_queue_of_next? (Option.mem_toList.1 ho)
        exact h.queued i b hb o hq
      · cases ho
  · intro id hid
    rw [hreg] at hid
    rw [got_receive, h.unused id hid]
    split
    · rename_i heq
      subst heq
      cases hn : t.next? id with
      | none => rfl
      | some o =>
        obtain ⟨b, hb, -⟩ := mem_queue_of_next? hn
        exact absurd (h.owned id b hb) (Nat.not_le_of_lt hid)
    · rfl

/-! ## Runs -/

theorem sound_act {t : Traffic} (h : Sound t) (a : Action) : Sound (t.act a) := by
  have heffect := effect_act t a
  generalize t.act a = t' at heffect
  cases heffect with
  | nothing => exact h
  | publish text hd => exact h.publish text
  | announce pick hd =>
    refine (h.of_post ?_).of_due ?_
    · exact fun id o hp => Task.known_posts (h.known_due hd) hp
    · exact fun k' hk' => h.due_step hd hk'
  | @proceed i k pick hk =>
    have hknown : k.Known t.current := h.tasks k (List.mem_of_getElem? hk)
    refine (h.of_post ?_).of_tasks (forall_mem_proceed i h.tasks ?_)
    · exact fun id o hp => Task.known_posts hknown hp
    · exact fun k' hk' => Task.known_step hknown hk'
  | begin hk =>
    refine h.of_tasks (forall_mem_begin h.tasks ?_)
    rcases hk with ⟨ids, message, rfl⟩ | ⟨session, rfl⟩
    · exact Outbound.known_error t.current message
    · exact known_current t.current
  | connect => exact h.connect.of_tasks (forall_mem_begin h.tasks trivial)
  | lessen hhub => exact h.of_hub hhub
  | receive id => exact h.receive id

theorem sound_run (actions : List Action) : Sound (run actions) := by
  induction actions using List.reverseRecOn with
  | nil => exact sound_empty
  | append_singleton actions a ih =>
    rw [run_snoc]
    exact sound_act ih a

/-! ## What a client received -/

/-- The revisions of the diagrams a client got. -/
def diagramRevisions (t : Traffic) (id : ConnectionId) : List Nat :=
  (t.diagrams id).map (·.revision?.getD 0)

theorem map_filter_known {current : Diagram.Snapshot} {q : List Outbound}
    (h : ∀ o ∈ q, o.Known current) :
    (q.filter (·.isDiagram)).map (·.revision?.getD 0) = Mailbox.revisions q := by
  induction q with
  | nil => rfl
  | cons o q ih =>
    have ih := ih fun o' ho' => h o' (List.mem_cons_of_mem _ ho')
    have ho := h o List.mem_cons_self
    cases hr : o.revision? with
    | none =>
      have hd : o.isDiagram = false := by
        unfold Outbound.Known at ho
        rw [hr] at ho
        exact ho
      simpa [hd, Mailbox.revisions, hr] using ih
    | some r =>
      have hd := (ho.of_some hr).1
      simpa [hd, Mailbox.revisions, hr] using ih

namespace Sound

variable {t : Traffic}

theorem diagramRevisions_eq (h : Sound t) (id : ConnectionId) :
    t.diagramRevisions id = Mailbox.revisions (t.got id) :=
  map_filter_known (h.logged id)

theorem pairwise_diagramRevisions (h : Sound t) (id : ConnectionId) :
    (t.diagramRevisions id).Pairwise (· ≤ ·) := by
  obtain ⟨taken, hg, -⟩ := h.taken id
  rw [h.diagramRevisions_eq, hg]
  exact Mailbox.pairwise_fresh 0 taken

/-- A diagram that was received has a revision, and is the current one if it is as new. -/
theorem of_mem_diagrams (h : Sound t) {id : ConnectionId} {o : Outbound}
    (ho : o ∈ t.diagrams id) : 1 ≤ o.revision?.getD 0 ∧
      o.revision?.getD 0 ≤ t.current.revision ∧
      (o.revision?.getD 0 = t.current.revision → o = .ofSnapshot t.current) := by
  obtain ⟨hg, hd⟩ := List.mem_filter.1 ho
  have hk := h.logged id o hg
  cases hr : o.revision? with
  | none =>
    unfold Outbound.Known at hk
    rw [hr, hd] at hk
    cases hk
  | some r => exact (hk.of_some hr).2

end Sound

end Traffic
end ClassAtlas.Live
