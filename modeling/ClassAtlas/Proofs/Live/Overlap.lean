import ClassAtlas.Live.Call
import Mathlib.Data.List.Induction

/-!
# Joins and disconnects that overlap

A `Busy` registry has any number of calls under way, joins and disconnects of any connections,
several of the same one and of the same room among them. A move lets one of them do its next step
(`Call.step`), begins another, connects a client, or puts the rooms that a disconnect still has to
leave into another order, since nothing says in which order it meets them.

A new connection has a number that no call under way names: clients know a number only from the
connect that gave it away.

`Holds` says of each call what is true whatever the others do, by what is left to do of it. `Sound`
says of each trace of a connection that is gone which call is still to remove it:

* a note is taken by a call that is going to confirm or to disconnect (`Call.Takes`),
* an entry in a room without a note is noted or removed by a call that has entered the room or has
  taken the note (`Call.Settles`),
* an empty room is closed by the call that left it (`Call.Closes`).

Every move keeps this (`sound_act`), so nothing is left behind where no call is under way:

* `in_order_at_rest`: rooms and notes then say the same, of connections that are there, and are
  never empty. A connection that has joined and that nobody asked to disconnect is in its room at
  any time.
-/
namespace ClassAtlas.Live

inductive Demand where
  | join (id : ConnectionId) (session : String)
  | disconnect (id : ConnectionId)
deriving DecidableEq, Repr, Inhabited

namespace Demand

def id : Demand → ConnectionId
  | .join id _ | .disconnect id => id

/-- All that is to be done. -/
def call : Demand → Call
  | .join id session => .join id session
  | .disconnect id => .disconnect id

end Demand

/-- What was asked, and what is left to do of it. -/
structure Job where
  demand : Demand
  call : Call
deriving DecidableEq, Repr, Inhabited

namespace Call

/-- The connection that a call under way works on. -/
def id? : Call → Option ConnectionId
  | .join id _ | .enter id _ | .note id _ | .confirm id | .disconnect id | .takeNotes id
  | .leave id _ | .close id _ => some id
  | .done _ => none

/-- Whether a call will take the notes of a connection if that is gone. -/
def Takes (id : ConnectionId) : Call → Prop
  | .confirm i | .disconnect i | .takeNotes i => i = id
  | _ => False

/-- Whether a call will note that a connection is in a room, or take it out. -/
def Settles (id : ConnectionId) (session : String) : Call → Prop
  | .note i s => i = id ∧ s = session
  | .leave i sessions => i = id ∧ session ∈ sessions
  | .close i sessions => i = id ∧ session ∈ sessions.tail
  | _ => False

/-- Whether a call will close a room if that is empty. -/
def Closes (session : String) : Call → Prop
  | .close _ sessions => sessions.head? = some session
  | _ => False

end Call

structure Busy where
  registry : Registry
  /-- All calls so far; those that are done stay. -/
  jobs : List Job
deriving DecidableEq, Repr, Inhabited

namespace Busy

inductive Move where
  | connect
  | begin (demand : Demand)
  /-- A call does its next step. -/
  | proceed (i : Nat)
  /-- The rooms that a call still has to leave come in another order. -/
  | reorder (i : Nat) (sessions : List String)
deriving DecidableEq, Repr, Inhabited

def empty : Busy := ⟨Registry.empty, []⟩

/-- Whether a call under way works on a connection. -/
def names (b : Busy) (id : ConnectionId) : Bool := b.jobs.any fun j => j.call.id? == some id

def act (b : Busy) : Move → Busy
  | .connect =>
    if b.names (b.registry.lastId + 1) then b else { b with registry := b.registry.connect.2 }
  | .begin demand => { b with jobs := b.jobs ++ [⟨demand, demand.call⟩] }
  | .proceed i =>
    match b.jobs[i]? with
    | none => b
    | some ⟨demand, call⟩ =>
      let (call, registry) := call.step b.registry
      ⟨registry, b.jobs.set i ⟨demand, call⟩⟩
  | .reorder i sessions =>
    match b.jobs[i]? with
    | some ⟨demand, .leave id rest⟩ =>
      if sessions.Perm rest then { b with jobs := b.jobs.set i ⟨demand, .leave id sessions⟩ } else b
    | _ => b

def run (moves : List Move) : Busy := moves.foldl act empty

theorem run_snoc (moves : List Move) (m : Move) : run (moves ++ [m]) = (run moves).act m := by
  simp [run]

/-- No call is under way. -/
def AtRest (b : Busy) : Prop := ∀ j ∈ b.jobs, j.call.result?.isSome = true

instance (b : Busy) : Decidable b.AtRest := inferInstanceAs (Decidable (∀ j ∈ b.jobs, _))

/-- A join of the connection to the room has succeeded. -/
def Joined (b : Busy) (id : ConnectionId) (session : String) : Prop :=
  ⟨.join id session, .done true⟩ ∈ b.jobs

/-- Somebody asked to disconnect. -/
def Asked (b : Busy) (id : ConnectionId) : Prop := ∃ j ∈ b.jobs, j.demand = .disconnect id

/-! ## What holds of a call -/

/-- The connection was there once, and is gone only if somebody asked for that. -/
def Known (b : Busy) (id : ConnectionId) : Prop :=
  id ≤ b.registry.lastId ∧ (id ∈ b.registry.connected ∨ b.Asked id)

/-- The connection is in the room if it is there at all. -/
def Entered (b : Busy) (id : ConnectionId) (session : String) : Prop :=
  b.Known id ∧ (id ∈ b.registry.connected → id ∈ b.registry.members session)

/-- The connection is gone because somebody asked for that. -/
def Gone (b : Busy) (id : ConnectionId) : Prop := b.Asked id ∧ id ∉ b.registry.connected

/-- What is true between two steps of a call, by what is left to do of it. -/
def Holds (b : Busy) (demand : Demand) : Call → Prop
  | .join id session => demand = .join id session
  | .enter id session => demand = .join id session ∧ b.Known id
  | .note id session => demand = .join id session ∧ b.Entered id session
  | .confirm id => ∃ session, demand = .join id session ∧ b.Entered id session
  | .disconnect id => b.Asked id
  | .takeNotes id | .leave id _ | .close id _ => b.Gone id
  | .done true => ∃ id session, demand = .join id session ∧ b.Entered id session
  | .done false => True

/-- What a move of one leaves to all others. -/
structure Spares (b b' : Busy) : Prop where
  lastId : b.registry.lastId ≤ b'.registry.lastId
  asked : ∀ id, b.Asked id → b'.Asked id
  /-- Connections come in with new numbers. -/
  came : ∀ id ∈ b'.registry.connected, id ∈ b.registry.connected ∨
    b.registry.lastId < id ∧ b.names id = false
  /-- They go because somebody asked. -/
  went : ∀ id ∈ b.registry.connected, id ∈ b'.registry.connected ∨ b'.Asked id
  members : ∀ id ∈ b'.registry.connected, ∀ s,
    id ∈ b.registry.members s → id ∈ b'.registry.members s

namespace Spares

variable {b b' : Busy}

theorem known (h : Spares b b') {id : ConnectionId} (hk : b.Known id) : b'.Known id :=
  ⟨Nat.le_trans hk.1 h.lastId, hk.2.elim (h.went id) fun ha => Or.inr (h.asked id ha)⟩

theorem entered (h : Spares b b') {id : ConnectionId} {s : String} (he : b.Entered id s) :
    b'.Entered id s := by
  refine ⟨h.known he.1, fun hid => h.members id hid s (he.2 ?_)⟩
  rcases h.came id hid with hc | ⟨hlt, -⟩
  · exact hc
  · exact absurd hlt (Nat.not_lt_of_le he.1.1)

theorem gone (h : Spares b b') {id : ConnectionId} (hn : b.names id = true) (hg : b.Gone id) :
    b'.Gone id := by
  refine ⟨h.asked id hg.1, fun hid => ?_⟩
  rcases h.came id hid with hc | ⟨-, hfree⟩
  · exact hg.2 hc
  · rw [hn] at hfree
    cases hfree

/-- What holds of a call is not disturbed. -/
theorem holds (h : Spares b b') {j : Job} (hj : j ∈ b.jobs) (hh : b.Holds j.demand j.call) :
    b'.Holds j.demand j.call := by
  have hnames : ∀ id, j.call.id? = some id → b.names id = true := by
    intro id hid
    exact List.any_eq_true.2 ⟨j, hj, by simp [hid]⟩
  obtain ⟨demand, call⟩ := j
  cases call with
  | join id s => exact hh
  | enter id s => exact ⟨hh.1, h.known hh.2⟩
  | note id s => exact ⟨hh.1, h.entered hh.2⟩
  | confirm id =>
    obtain ⟨s, hs, he⟩ := hh
    exact ⟨s, hs, h.entered he⟩
  | disconnect id => exact h.asked id hh
  | takeNotes id => exact h.gone (hnames id rfl) hh
  | leave id ss => exact h.gone (hnames id rfl) hh
  | close id ss => exact h.gone (hnames id rfl) hh
  | done joined =>
    cases joined with
    | true =>
      obtain ⟨id, s, hs, he⟩ := hh
      exact ⟨id, s, hs, h.entered he⟩
    | false => exact trivial

end Spares

/-! ## What is still owed -/

structure Sound (b : Busy) : Prop where
  le_lastId : ∀ id ∈ b.registry.connected, id ≤ b.registry.lastId
  holds : ∀ j ∈ b.jobs, b.Holds j.demand j.call
  notes_ne_nil : ∀ id, b.registry.memberships.get? id ≠ some []
  /-- Who is there is in the rooms noted. -/
  noted : ∀ id ∈ b.registry.connected, ∀ s,
    s ∈ b.registry.sessionsOf id → id ∈ b.registry.members s
  /-- The notes of one who is gone will be taken. -/
  taken : ∀ id s, s ∈ b.registry.sessionsOf id →
    id ∈ b.registry.connected ∨ ∃ j ∈ b.jobs, j.call.Takes id
  /-- One in a room without a note will be noted or taken out. -/
  settled : ∀ id s, id ∈ b.registry.members s →
    s ∈ b.registry.sessionsOf id ∨ ∃ j ∈ b.jobs, j.call.Settles id s
  /-- An empty room will be closed. -/
  closed : ∀ s, b.registry.rooms.get? s = some [] → ∃ j ∈ b.jobs, j.call.Closes s

theorem sound_empty : Sound empty where
  le_lastId _ hid := absurd hid List.not_mem_nil
  holds _ hj := absurd hj List.not_mem_nil
  notes_ne_nil _ := nofun
  noted _ hid := absurd hid List.not_mem_nil
  taken _ _ hs := absurd hs List.not_mem_nil
  settled _ _ hid := absurd hid List.not_mem_nil
  closed _ := nofun

/-! ## A step of one call -/

/-- What a step of a call leaves of the tables. -/
structure Keeps (b : Busy) (r : Registry) : Prop where
  lastId : r.lastId = b.registry.lastId
  came : ∀ id ∈ r.connected, id ∈ b.registry.connected
  went : ∀ id ∈ b.registry.connected, id ∈ r.connected ∨ b.Asked id
  members : ∀ id ∈ r.connected, ∀ s, id ∈ b.registry.members s → id ∈ r.members s

theorem Keeps.refl (b : Busy) : Keeps b b.registry :=
  ⟨rfl, fun _ h => h, fun _ h => Or.inl h, fun _ _ _ h => h⟩

/-- A job gets on to another call, and the registry is another one. -/
def advance (b : Busy) (i : Nat) (j : Job) (r : Registry) : Busy := ⟨r, b.jobs.set i j⟩

section

variable {b : Busy} {i : Nat} {demand : Demand} {call call' : Call} {r : Registry}

theorem mem_jobs_advance (hj : b.jobs[i]? = some ⟨demand, call⟩) :
    ⟨demand, call'⟩ ∈ (b.advance i ⟨demand, call'⟩ r).jobs := by
  obtain ⟨hi, -⟩ := List.getElem?_eq_some_iff.1 hj
  exact List.mem_set hi _

theorem mem_jobs_advance_of_mem (hj : b.jobs[i]? = some ⟨demand, call⟩) {j : Job}
    (h : j ∈ b.jobs) : j ∈ (b.advance i ⟨demand, call'⟩ r).jobs ∨ j = ⟨demand, call⟩ := by
  obtain ⟨n, hn⟩ := List.getElem?_of_mem h
  by_cases hi : i = n
  · subst hi
    rw [hj] at hn
    exact Or.inr (Option.some.inj hn).symm
  · exact Or.inl (List.mem_of_getElem? (by rw [advance, List.getElem?_set_ne hi, hn]))

/-- What one of the calls owes is still owed by one, if the step passes it on or does it. -/
theorem owed_advance (hj : b.jobs[i]? = some ⟨demand, call⟩) {P : Call → Prop} {Q : Prop}
    (hstep : P call → Q ∨ P call') (h : ∃ j ∈ b.jobs, P j.call) :
    Q ∨ ∃ j ∈ (b.advance i ⟨demand, call'⟩ r).jobs, P j.call := by
  obtain ⟨j, hmem, hp⟩ := h
  rcases mem_jobs_advance_of_mem hj hmem with hkept | rfl
  · exact Or.inr ⟨j, hkept, hp⟩
  · exact (hstep hp).imp_right fun hp' => ⟨_, mem_jobs_advance hj, hp'⟩

theorem owes_advance (hj : b.jobs[i]? = some ⟨demand, call⟩) {P : Call → Prop}
    (hstep : P call → P call') (h : ∃ j ∈ b.jobs, P j.call) :
    ∃ j ∈ (b.advance i ⟨demand, call'⟩ r).jobs, P j.call :=
  (owed_advance (Q := False) hj (fun hp => Or.inr (hstep hp)) h).resolve_left not_false

theorem asked_advance (hj : b.jobs[i]? = some ⟨demand, call⟩) {id : ConnectionId}
    (h : b.Asked id) : (b.advance i ⟨demand, call'⟩ r).Asked id := by
  obtain ⟨j, hmem, hr⟩ := h
  rcases mem_jobs_advance_of_mem hj hmem with hkept | rfl
  · exact ⟨j, hkept, hr⟩
  · exact ⟨_, mem_jobs_advance hj, hr⟩

theorem spares_advance (hj : b.jobs[i]? = some ⟨demand, call⟩) (hk : Keeps b r) :
    Spares b (b.advance i ⟨demand, call'⟩ r) where
  lastId := Nat.le_of_eq hk.lastId.symm
  asked _ h := asked_advance hj h
  came id hid := Or.inl (hk.came id hid)
  went id hid := (hk.went id hid).imp_right (asked_advance hj)
  members := hk.members

theorem le_lastId_of_keeps (h : Sound b) (hk : Keeps b r) :
    ∀ id ∈ r.connected, id ≤ r.lastId := by
  intro id hid
  rw [hk.lastId]
  exact h.le_lastId id (hk.came id hid)

theorem holds_advance (h : Sound b) (hj : b.jobs[i]? = some ⟨demand, call⟩) (hk : Keeps b r)
    (hown : (b.advance i ⟨demand, call'⟩ r).Holds demand call') :
    ∀ j ∈ (b.advance i ⟨demand, call'⟩ r).jobs,
      (b.advance i ⟨demand, call'⟩ r).Holds j.demand j.call := by
  intro j hmem
  rcases List.mem_or_eq_of_mem_set hmem with hmem | rfl
  · exact (spares_advance hj hk).holds hmem (h.holds j hmem)
  · exact hown

/-- A step that leaves the tables as they are passes on what its call owed. -/
theorem Sound.turn (h : Sound b) (hj : b.jobs[i]? = some ⟨demand, call⟩)
    (hown : (b.advance i ⟨demand, call'⟩ b.registry).Holds demand call')
    (htakes : ∀ id, call.Takes id → id ∈ b.registry.connected ∨ call'.Takes id)
    (hsettles : ∀ id s, call.Settles id s → call'.Settles id s)
    (hcloses : ∀ s, call.Closes s → call'.Closes s) :
    Sound (b.advance i ⟨demand, call'⟩ b.registry) where
  le_lastId := h.le_lastId
  holds := holds_advance h hj (Keeps.refl b) hown
  notes_ne_nil := h.notes_ne_nil
  noted := h.noted
  taken id s hs := by
    rcases h.taken id s hs with hid | howed
    · exact Or.inl hid
    · exact owed_advance hj (htakes id) howed
  settled id s hid := by
    rcases h.settled id s hid with hs | howed
    · exact Or.inl hs
    · exact owed_advance hj (fun hp => Or.inr (hsettles id s hp)) howed
  closed s hs := owes_advance hj (hcloses s) (h.closed s hs)

/-- Who enters a room still has to note it. -/
theorem Sound.enter {id : ConnectionId} {session : String} (h : Sound b)
    (hj : b.jobs[i]? = some ⟨demand, .enter id session⟩) :
    Sound (b.advance i ⟨demand, .note id session⟩ (b.registry.enter id session)) := by
  have hmembers := b.registry.members_enter id session
  have hrooms : ∀ s, (b.registry.enter id session).rooms.get? s =
      if s = session then some ((b.registry.members session).insert id)
      else b.registry.rooms.get? s := fun s => Table.get?_set _ _ _ _
  have hmono : ∀ i s, i ∈ b.registry.members s →
      i ∈ (b.registry.enter id session).members s := by
    intro i s hi
    rw [hmembers]
    split
    · rename_i hs
      exact List.mem_insert_of_mem (hs ▸ hi)
    · exact hi
  have hin : id ∈ (b.registry.enter id session).members session := by
    rw [hmembers, if_pos rfl]
    exact List.mem_insert_self
  have hkeeps : Keeps b (b.registry.enter id session) :=
    ⟨rfl, fun _ h => h, fun _ h => Or.inl h, fun i _ s => hmono i s⟩
  obtain ⟨hdemand, hknown⟩ := h.holds _ (List.mem_of_getElem? hj)
  refine ⟨le_lastId_of_keeps h hkeeps, holds_advance h hj hkeeps ?_, h.notes_ne_nil,
    ?_, ?_, ?_, ?_⟩
  · exact ⟨hdemand, (spares_advance hj hkeeps).known hknown, fun _ => hin⟩
  · exact fun i hi s hs => hmono i s (h.noted i hi s hs)
  · intro i s hs
    rcases h.taken i s hs with hi | howed
    · exact Or.inl hi
    · exact owed_advance hj False.elim howed
  · intro i s hi
    by_cases hnew : i = id ∧ s = session
    · exact Or.inr ⟨_, mem_jobs_advance hj, hnew.1.symm, hnew.2.symm⟩
    · have hold : i ∈ b.registry.members s := by
        rw [advance, hmembers] at hi
        split at hi
        · rename_i hs
          rcases List.mem_insert_iff.1 hi with heq | hi
          · exact absurd ⟨heq, hs⟩ hnew
          · exact hs ▸ hi
        · exact hi
      rcases h.settled i s hold with hs | howed
      · exact Or.inl hs
      · exact owed_advance hj False.elim howed
  · intro s hs
    rw [advance, hrooms] at hs
    split at hs
    · exact absurd (Option.some.inj hs) (List.ne_nil_of_mem List.mem_insert_self)
    · exact owes_advance hj False.elim (h.closed s hs)

/-- Who notes a room still has to see whether the connection is there. -/
theorem Sound.note {id : ConnectionId} {session : String} (h : Sound b)
    (hj : b.jobs[i]? = some ⟨demand, .note id session⟩) :
    Sound (b.advance i ⟨demand, .confirm id⟩ (b.registry.note id session)) := by
  have hnotes := b.registry.sessionsOf_note id
  have hkeeps : Keeps b (b.registry.note id session) :=
    ⟨rfl, fun _ h => h, fun _ h => Or.inl h, fun _ _ _ h => h⟩
  obtain ⟨hdemand, hentered⟩ := h.holds _ (List.mem_of_getElem? hj)
  have hmono : ∀ i s, s ∈ b.registry.sessionsOf i →
      s ∈ (b.registry.note id session).sessionsOf i := by
    intro i s hs
    rw [hnotes]
    split
    · rename_i hi
      exact List.mem_insert_of_mem (hi ▸ hs)
    · exact hs
  have hold : ∀ i s, s ∈ (b.registry.note id session).sessionsOf i →
      i = id ∧ s = session ∨ s ∈ b.registry.sessionsOf i := by
    intro i s hs
    rw [hnotes] at hs
    split at hs
    · rename_i hi
      rcases List.mem_insert_iff.1 hs with heq | hs
      · exact Or.inl ⟨hi, heq⟩
      · exact Or.inr (hi ▸ hs)
    · exact Or.inr hs
  refine ⟨le_lastId_of_keeps h hkeeps, holds_advance h hj hkeeps ?_, ?_, ?_, ?_, ?_, ?_⟩
  · exact ⟨session, hdemand, (spares_advance hj hkeeps).entered hentered⟩
  · intro i
    show Table.get? (Table.set _ id _) i ≠ _
    rw [Table.get?_set]
    split
    · exact fun heq => List.ne_nil_of_mem List.mem_insert_self (Option.some.inj heq)
    · exact h.notes_ne_nil i
  · intro i hi s hs
    rcases hold i s hs with ⟨rfl, rfl⟩ | hs
    · exact hentered.2 hi
    · exact h.noted i hi s hs
  · intro i s hs
    rcases hold i s hs with ⟨rfl, rfl⟩ | hs
    · exact Or.inr ⟨_, mem_jobs_advance hj, rfl⟩
    · rcases h.taken i s hs with hi | howed
      · exact Or.inl hi
      · exact owed_advance hj False.elim howed
  · intro i s hi
    rcases h.settled i s hi with hs | howed
    · exact Or.inl (hmono i s hs)
    · refine owed_advance hj ?_ howed
      rintro ⟨rfl, rfl⟩
      refine Or.inl ?_
      rw [advance, hnotes, if_pos rfl]
      exact List.mem_insert_self
  · exact fun s hs => owes_advance hj False.elim (h.closed s hs)

/-- Who cuts a connection off still has to take its notes. -/
theorem Sound.cutOff {id : ConnectionId} (h : Sound b)
    (hj : b.jobs[i]? = some ⟨demand, .disconnect id⟩) :
    Sound (b.advance i ⟨demand, .takeNotes id⟩ (b.registry.cutOff id)) := by
  have hconnected : ∀ i, i ∈ (b.registry.cutOff id).connected ↔
      i ∈ b.registry.connected ∧ i ≠ id := by simp [Registry.cutOff]
  have hasked : b.Asked id := h.holds _ (List.mem_of_getElem? hj)
  have hkeeps : Keeps b (b.registry.cutOff id) := by
    refine ⟨rfl, fun i hi => ((hconnected i).1 hi).1, fun i hi => ?_, fun _ _ _ h => h⟩
    by_cases hid : i = id
    · exact Or.inr (hid ▸ hasked)
    · exact Or.inl ((hconnected i).2 ⟨hi, hid⟩)
  refine ⟨le_lastId_of_keeps h hkeeps, holds_advance h hj hkeeps ?_, h.notes_ne_nil,
    ?_, ?_, ?_, ?_⟩
  · exact ⟨asked_advance hj hasked, fun hid => ((hconnected id).1 hid).2 rfl⟩
  · exact fun i hi => h.noted i ((hconnected i).1 hi).1
  · intro i s hs
    by_cases hid : i = id
    · exact Or.inr ⟨_, mem_jobs_advance hj, hid.symm⟩
    · rcases h.taken i s hs with hi | howed
      · exact Or.inl ((hconnected i).2 ⟨hi, hid⟩)
      · exact owed_advance hj (fun hp => absurd hp.symm hid) howed
  · intro i s hi
    rcases h.settled i s hi with hs | howed
    · exact Or.inl hs
    · exact owed_advance hj False.elim howed
  · exact fun s hs => owes_advance hj False.elim (h.closed s hs)

/-- Who takes the notes of a connection has to leave all rooms that they name. -/
theorem Sound.takeNotes {id : ConnectionId} (h : Sound b)
    (hj : b.jobs[i]? = some ⟨demand, .takeNotes id⟩) :
    Sound (b.advance i ⟨demand, .leave id (b.registry.sessionsOf id)⟩
      (b.registry.takeNotes id).2) := by
  have hnotes := b.registry.sessionsOf_takeNotes id
  have hold : ∀ i s, s ∈ (b.registry.takeNotes id).2.sessionsOf i →
      i ≠ id ∧ s ∈ b.registry.sessionsOf i := by
    intro i s hs
    rw [hnotes] at hs
    split at hs
    · cases hs
    · rename_i hid
      exact ⟨hid, hs⟩
  have hkeeps : Keeps b (b.registry.takeNotes id).2 :=
    ⟨rfl, fun _ h => h, fun _ h => Or.inl h, fun _ _ _ h => h⟩
  have hgone : b.Gone id := h.holds _ (List.mem_of_getElem? hj)
  refine ⟨le_lastId_of_keeps h hkeeps, holds_advance h hj hkeeps ?_, ?_, ?_, ?_, ?_, ?_⟩
  · exact ⟨asked_advance hj hgone.1, hgone.2⟩
  · intro i
    show Table.get? (Table.erase _ id) i ≠ _
    rw [Table.get?_erase]
    split
    · exact (Option.some_ne_none []).symm
    · exact h.notes_ne_nil i
  · exact fun i hi s hs => h.noted i hi s (hold i s hs).2
  · intro i s hs
    obtain ⟨hid, hs⟩ := hold i s hs
    rcases h.taken i s hs with hi | howed
    · exact Or.inl hi
    · exact owed_advance hj (fun hp => absurd hp.symm hid) howed
  · intro i s hi
    rcases h.settled i s hi with hs | howed
    · by_cases hid : i = id
      · exact Or.inr ⟨_, mem_jobs_advance hj, hid.symm, hid ▸ hs⟩
      · refine Or.inl ?_
        rw [advance, hnotes, if_neg hid]
        exact hs
    · exact owed_advance hj False.elim howed
  · exact fun s hs => owes_advance hj False.elim (h.closed s hs)

/-- A step in the rooms alone, for a connection that is gone: who else is in them stays, and a room
that is empty now is closed by the call itself or was empty before. -/
theorem Sound.inRooms {id : ConnectionId} (h : Sound b)
    (hj : b.jobs[i]? = some ⟨demand, call⟩) (hid : call.id? = some id) (hgone : b.Gone id)
    (hframe : r.connected = b.registry.connected ∧ r.memberships = b.registry.memberships ∧
      r.lastId = b.registry.lastId)
    (hmembers : ∀ i s, i ∈ r.members s → i ∈ b.registry.members s)
    (hkeep : ∀ i s, i ≠ id → i ∈ b.registry.members s → i ∈ r.members s)
    (hown : (b.advance i ⟨demand, call'⟩ r).Gone id →
      (b.advance i ⟨demand, call'⟩ r).Holds demand call')
    (htakes : ∀ i, ¬ call.Takes i)
    (hsettles : ∀ i s, i ∈ r.members s → call.Settles i s → call'.Settles i s)
    (hcloses : ∀ s, r.rooms.get? s = some [] →
      call'.Closes s ∨ b.registry.rooms.get? s = some [] ∧ ¬ call.Closes s) :
    Sound (b.advance i ⟨demand, call'⟩ r) := by
  obtain ⟨hconnected, hmemberships, hlast⟩ := hframe
  have hkeeps : Keeps b r := by
    refine ⟨hlast, fun i hi => hconnected ▸ hi, fun i hi => Or.inl (hconnected ▸ hi), ?_⟩
    rintro i hi s hs
    refine hkeep i s ?_ hs
    rintro rfl
    exact hgone.2 (hconnected ▸ hi)
  have hnotes : ∀ i, r.sessionsOf i = b.registry.sessionsOf i :=
    fun i => congrArg (fun t => (Table.get? t i).getD []) hmemberships
  refine ⟨le_lastId_of_keeps h hkeeps, holds_advance h hj hkeeps (hown ?_), ?_, ?_, ?_, ?_, ?_⟩
  · have hnames : b.names id = true :=
      List.any_eq_true.2 ⟨_, List.mem_of_getElem? hj, by simp [hid]⟩
    exact (spares_advance hj hkeeps).gone hnames hgone
  · rw [advance, hmemberships]
    exact h.notes_ne_nil
  · intro i hi s hs
    rw [advance, hnotes] at hs
    exact hkeeps.members i hi s (h.noted i (hkeeps.came i hi) s hs)
  · intro i s hs
    rw [advance, hnotes] at hs
    rw [advance, hconnected]
    rcases h.taken i s hs with hi | howed
    · exact Or.inl hi
    · exact owed_advance hj (fun hp => absurd hp (htakes i)) howed
  · intro i s hi
    rw [advance, hnotes]
    rcases h.settled i s (hmembers i s hi) with hs | howed
    · exact Or.inl hs
    · exact owed_advance hj (fun hp => Or.inr (hsettles i s hi hp)) howed
  · intro s hs
    rcases hcloses s hs with hclose | ⟨hempty, hnot⟩
    · exact ⟨_, mem_jobs_advance hj, hclose⟩
    · exact owes_advance hj (fun hp => absurd hp hnot) (h.closed s hempty)

/-- Who leaves a room has to close it if it is empty, and to leave the other rooms. -/
theorem Sound.leave {id : ConnectionId} {session : String} {rest : List String} (h : Sound b)
    (hj : b.jobs[i]? = some ⟨demand, .leave id (session :: rest)⟩) :
    Sound (b.advance i ⟨demand, .close id (session :: rest)⟩ (b.registry.leave id session)) := by
  have hmembers : ∀ i s, i ∈ (b.registry.leave id session).members s ↔
      i ∈ b.registry.members s ∧ ¬ (i = id ∧ s = session) := by
    intro i s
    rw [Registry.members_leave]
    split
    · rename_i hs
      simp [hs]
    · rename_i hs
      simp [hs]
  refine h.inRooms hj rfl (h.holds _ (List.mem_of_getElem? hj))
    (b.registry.leave_frame id session) (fun i s hi => ((hmembers i s).1 hi).1) ?_
    (fun hgone => hgone) (fun _ => not_false) ?_ ?_
  · exact fun i s hne hi => (hmembers i s).2 ⟨hi, fun heq => hne heq.1⟩
  · rintro i s hi ⟨rfl, hs⟩
    rcases List.mem_cons.1 hs with rfl | hs
    · exact absurd ⟨rfl, rfl⟩ ((hmembers _ _).1 hi).2
    · exact ⟨rfl, hs⟩
  · intro s hs
    rw [Registry.get?_rooms_leave] at hs
    by_cases hses : s = session
    · exact Or.inl (congrArg some hses.symm)
    · rw [if_neg hses] at hs
      exact Or.inr ⟨hs, not_false⟩

/-- Who closes a room if it is empty has to leave the rooms behind it. -/
theorem Sound.close {id : ConnectionId} {session : String} {rest : List String} (h : Sound b)
    (hj : b.jobs[i]? = some ⟨demand, .close id (session :: rest)⟩) :
    Sound (b.advance i ⟨demand, .leave id rest⟩ (b.registry.closeIfEmpty session)) := by
  have hmembers : ∀ s, (b.registry.closeIfEmpty session).members s = b.registry.members s :=
    b.registry.members_closeIfEmpty session
  refine h.inRooms hj rfl (h.holds _ (List.mem_of_getElem? hj))
    (b.registry.closeIfEmpty_frame session) (fun i s hi => hmembers s ▸ hi)
    (fun i s _ hi => (hmembers s).symm ▸ hi) (fun hgone => hgone) (fun _ => not_false)
    (fun i s _ hp => hp) ?_
  intro s hs
  rw [Registry.get?_rooms_closeIfEmpty] at hs
  split at hs
  · cases hs
  · rename_i hopen
    refine Or.inr ⟨hs, fun hhead => ?_⟩
    have hses : s = session := (Option.some.inj hhead).symm
    exact hopen ⟨hses, hses ▸ hs⟩

end

/-- Every step of a call keeps what is owed. -/
theorem Sound.proceed {b : Busy} (h : Sound b) {i : Nat} {j : Job} (hj : b.jobs[i]? = some j) :
    Sound (b.advance i ⟨j.demand, (j.call.step b.registry).1⟩ (j.call.step b.registry).2) := by
  have hown := h.holds j (List.mem_of_getElem? hj)
  obtain ⟨demand, call⟩ := j
  have hspares (next : Call) : Spares b (b.advance i ⟨demand, next⟩ b.registry) :=
    spares_advance hj (Keeps.refl b)
  cases call with
  | join id s =>
    simp only [Call.step]
    split
    · rename_i hc
      have hid : id ∈ b.registry.connected := (Registry.isConnected_iff _ _).1 hc
      exact h.turn hj ⟨hown, (hspares _).known ⟨h.le_lastId id hid, Or.inl hid⟩⟩
        (fun _ => False.elim) (fun _ _ => False.elim) fun _ => False.elim
    · exact h.turn hj trivial (fun _ => False.elim) (fun _ _ => False.elim) fun _ => False.elim
  | enter id s => exact h.enter hj
  | note id s => exact h.note hj
  | confirm id =>
    obtain ⟨s, hs, hentered⟩ := hown
    simp only [Call.step]
    split
    · rename_i hc
      have hid : id ∈ b.registry.connected := (Registry.isConnected_iff _ _).1 hc
      refine h.turn hj ⟨id, s, hs, (hspares _).entered hentered⟩ ?_ (fun _ _ => False.elim)
        fun _ => False.elim
      rintro _ rfl
      exact Or.inl hid
    · rename_i hc
      have hid : id ∉ b.registry.connected := fun hid => hc ((Registry.isConnected_iff _ _).2 hid)
      refine h.turn hj ((hspares _).asked id (hentered.1.2.resolve_left hid)) ?_
        (fun _ _ => False.elim) fun _ => False.elim
      exact fun _ hp => Or.inr hp
  | disconnect id => exact h.cutOff hj
  | takeNotes id => exact h.takeNotes hj
  | leave id sessions =>
    cases sessions with
    | nil =>
      refine h.turn hj trivial (fun _ => False.elim) ?_ fun _ => False.elim
      exact fun _ _ hp => absurd hp.2 List.not_mem_nil
    | cons s rest => exact h.leave hj
  | close id sessions =>
    cases sessions with
    | nil =>
      refine h.turn hj trivial (fun _ => False.elim) (fun _ _ hp => absurd hp.2 List.not_mem_nil) ?_
      intro s hp
      cases hp
    | cons s rest => exact h.close hj
  | done joined =>
    exact h.turn hj ((hspares _).holds (List.mem_of_getElem? hj) hown) (fun _ => False.elim)
      (fun _ _ => False.elim) fun _ => False.elim

/-! ## Other moves -/

/-- A connection with a number that no call names is not in any room. -/
theorem Sound.connect {b : Busy} (h : Sound b) (hfree : b.names (b.registry.lastId + 1) = false) :
    Sound { b with registry := b.registry.connect.2 } := by
  have hconnected : ∀ id, id ∈ b.registry.connect.2.connected ↔
      id ∈ b.registry.connected ∨ id = b.registry.lastId + 1 := by
    intro id
    simp [Registry.connect]
  have hspares : Spares b { b with registry := b.registry.connect.2 } := by
    refine ⟨Nat.le_succ _, fun _ ha => ha, fun id hid => ?_,
      fun id hid => Or.inl ((hconnected id).2 (Or.inl hid)), fun _ _ _ hs => hs⟩
    rcases (hconnected id).1 hid with hid | rfl
    · exact Or.inl hid
    · exact Or.inr ⟨Nat.lt_succ_self _, hfree⟩
  -- notes of the new connection would be owed by a call that names it
  have hblank : ∀ s, s ∉ b.registry.sessionsOf (b.registry.lastId + 1) := by
    intro s hs
    rcases h.taken _ s hs with hid | ⟨j, hj, hp⟩
    · exact absurd (h.le_lastId _ hid) (Nat.not_succ_le_self _)
    · have hnames : j.call.id? = some (b.registry.lastId + 1) := by
        obtain ⟨demand, call⟩ := j
        cases call with
        | confirm id | disconnect id | takeNotes id => exact congrArg some hp
        | join | enter | note | leave | close | done => cases hp
      exact absurd hfree (by simpa [names] using ⟨j, hj, hnames⟩)
  refine ⟨?_, fun j hj => hspares.holds hj (h.holds j hj), h.notes_ne_nil, ?_, ?_, h.settled,
    h.closed⟩
  · intro id hid
    rcases (hconnected id).1 hid with hid | rfl
    · exact Nat.le_succ_of_le (h.le_lastId id hid)
    · exact Nat.le_refl _
  · intro id hid s hs
    rcases (hconnected id).1 hid with hid | rfl
    · exact h.noted id hid s hs
    · exact absurd hs (hblank s)
  · intro id s hs
    exact (h.taken id s hs).imp_left fun hid => (hconnected id).2 (Or.inl hid)

theorem Sound.begin {b : Busy} (h : Sound b) (demand : Demand) :
    Sound { b with jobs := b.jobs ++ [⟨demand, demand.call⟩] } := by
  have hmore : ∀ {P : Call → Prop}, (∃ j ∈ b.jobs, P j.call) →
      ∃ j ∈ b.jobs ++ [⟨demand, demand.call⟩], P j.call :=
    fun ⟨j, hj, hp⟩ => ⟨j, List.mem_append_left _ hj, hp⟩
  have hspares : Spares b { b with jobs := b.jobs ++ [⟨demand, demand.call⟩] } :=
    ⟨Nat.le_refl _, fun _ ⟨j, hj, ha⟩ => ⟨j, List.mem_append_left _ hj, ha⟩,
      fun _ hid => Or.inl hid, fun _ hid => Or.inl hid, fun _ _ _ hs => hs⟩
  refine ⟨h.le_lastId, ?_, h.notes_ne_nil, h.noted,
    fun id s hs => (h.taken id s hs).imp_right hmore,
    fun id s hid => (h.settled id s hid).imp_right hmore, fun s hs => hmore (h.closed s hs)⟩
  intro j hj
  rcases List.mem_append.1 hj with hj | hj
  · exact hspares.holds hj (h.holds j hj)
  · obtain rfl := List.mem_singleton.1 hj
    cases demand with
    | join id s => rfl
    | disconnect id => exact ⟨_, List.mem_append_right _ (List.mem_singleton_self _), rfl⟩

theorem Sound.reorder {b : Busy} (h : Sound b) {i : Nat} {demand : Demand} {id : ConnectionId}
    {sessions rest : List String} (hj : b.jobs[i]? = some ⟨demand, .leave id rest⟩)
    (hperm : sessions.Perm rest) :
    Sound (b.advance i ⟨demand, .leave id sessions⟩ b.registry) := by
  have hown : b.Gone id := h.holds _ (List.mem_of_getElem? hj)
  have hspares : Spares b (b.advance i ⟨demand, .leave id sessions⟩ b.registry) :=
    spares_advance hj (Keeps.refl b)
  have hgone := hspares.gone
    (List.any_eq_true.2 ⟨_, List.mem_of_getElem? hj, by simp [Call.id?]⟩) hown
  refine h.turn hj hgone (fun _ => False.elim) ?_ fun _ => False.elim
  exact fun _ _ hp => ⟨hp.1, hperm.mem_iff.2 hp.2⟩

theorem sound_act {b : Busy} (h : Sound b) (m : Move) : Sound (b.act m) := by
  cases m with
  | connect =>
    simp only [act]
    split
    · exact h
    · rename_i hfree
      exact h.connect (Bool.eq_false_iff.2 hfree)
  | begin demand => exact h.begin demand
  | proceed i =>
    simp only [act]
    split
    · exact h
    · rename_i hj
      exact h.proceed hj
  | reorder i sessions =>
    simp only [act]
    split
    · rename_i hj
      split
      · rename_i hperm
        exact h.reorder hj hperm
      · exact h
    · exact h

theorem sound_run (moves : List Move) : Sound (run moves) := by
  induction moves using List.reverseRecOn with
  | nil => exact sound_empty
  | append_singleton moves m ih =>
    rw [run_snoc]
    exact sound_act ih m

/-! ## Where no call is under way -/

section

variable {b : Busy}

/-- A call that is done owes nothing. -/
theorem AtRest.not_owed (hrest : b.AtRest) {P : Call → Prop}
    (hdone : ∀ joined, ¬ P (.done joined)) :
    ¬ ∃ j ∈ b.jobs, P j.call := by
  rintro ⟨⟨demand, call⟩, hj, hp⟩
  cases call with
  | done joined => exact hdone joined hp
  | join | enter | note | confirm | disconnect | takeNotes | leave | close => cases hrest _ hj

theorem Sound.mem_members_iff (h : Sound b) (hrest : b.AtRest) (id : ConnectionId) (s : String) :
    id ∈ b.registry.members s ↔ s ∈ b.registry.sessionsOf id := by
  have htaken := hrest.not_owed (P := (Call.Takes id)) fun _ => not_false
  have hsettled := hrest.not_owed (P := (Call.Settles id s)) fun _ => not_false
  constructor
  · exact fun hid => (h.settled id s hid).resolve_right hsettled
  · exact fun hs => h.noted id ((h.taken id s hs).resolve_right htaken) s hs

theorem Sound.connected_of_noted (h : Sound b) (hrest : b.AtRest) {id : ConnectionId} {s : String}
    (hs : s ∈ b.registry.sessionsOf id) : id ∈ b.registry.connected :=
  (h.taken id s hs).resolve_right (hrest.not_owed (P := (Call.Takes id)) fun _ => not_false)

/-- Who joined and was never to be disconnected is in the room. -/
theorem Sound.mem_of_joined (h : Sound b) {id : ConnectionId} {s : String} (hj : b.Joined id s)
    (hasked : ¬ b.Asked id) : id ∈ b.registry.members s := by
  obtain ⟨i, t, heq, ⟨-, hconnected⟩, hentered⟩ := h.holds _ hj
  cases heq
  exact hentered (hconnected.resolve_right hasked)

end

/-- **Joins and disconnects may overlap.** However the steps of any number of calls come one after
the other: whenever no call is under way, rooms and notes say the same, speak of those alone that
are there, and are never empty; and at any time a connection is in every room that it has joined if
nobody has asked to disconnect it. -/
theorem in_order_at_rest (moves : List Move) :
    let b := run moves
    (b.AtRest →
      (∀ id s, id ∈ b.registry.members s ↔ s ∈ b.registry.sessionsOf id) ∧
      (∀ s ids, b.registry.rooms.get? s = some ids →
        ids ≠ [] ∧ ∀ id ∈ ids, id ∈ b.registry.connected) ∧
      (∀ id ss, b.registry.memberships.get? id = some ss →
        ss ≠ [] ∧ id ∈ b.registry.connected)) ∧
    ∀ id s, b.Joined id s → ¬ b.Asked id → id ∈ b.registry.members s := by
  intro b
  have h : Sound b := sound_run moves
  refine ⟨fun hrest => ⟨h.mem_members_iff hrest, ?_, ?_⟩, fun id s => h.mem_of_joined⟩
  · intro s ids hroom
    refine ⟨?_, fun id hid => ?_⟩
    · rintro rfl
      exact hrest.not_owed (P := (Call.Closes s)) (fun _ => not_false) (h.closed s hroom)
    · have hmem : id ∈ b.registry.members s := by
        rw [Registry.members, hroom]
        exact hid
      exact h.connected_of_noted hrest ((h.mem_members_iff hrest id s).1 hmem)
  · intro id ss hnotes
    have hne : ss ≠ [] := fun hnil => h.notes_ne_nil id (hnil ▸ hnotes)
    obtain ⟨s, hs⟩ := List.exists_mem_of_ne_nil ss hne
    refine ⟨hne, h.connected_of_noted hrest (s := s) ?_⟩
    rw [Registry.sessionsOf, hnotes]
    exact hs

/-! ## A disconnect between two joins -/

/-- The first client joins twice, and is disconnected after it has entered the room and before it is
noted there; the second one joins while the room is being left. -/
def crowdedMoves : List Move :=
  [.connect, .connect, .begin (.join 1 "x"), .begin (.join 1 "x"), .begin (.disconnect 1),
    .begin (.join 2 "x")] ++
  [0, 0, 1, 2, 0, 1, 2, 3, 3, 2, 1, 3, 3, 2, 2, 0, 1, 0, 0, 1, 1, 0, 0, 0, 1].map .proceed

/-- Both joins of the first client take back what they did. -/
theorem in_order_after_crowdedMoves :
    let b := run crowdedMoves
    b.AtRest ∧ b.Joined 2 "x" ∧ ¬ b.Asked 2 ∧
    (∀ id s, id ∈ b.registry.members s ↔ s ∈ b.registry.sessionsOf id) ∧
    2 ∈ b.registry.members "x" := by
  intro b
  have hrest : b.AtRest := by decide
  have hjoined : b.Joined 2 "x" := by
    unfold Joined
    decide
  have hasked : ¬ b.Asked 2 := by
    unfold Asked
    decide
  obtain ⟨horder, hmembers⟩ := in_order_at_rest crowdedMoves
  exact ⟨hrest, hjoined, hasked, (horder hrest).1, hmembers 2 "x" hjoined hasked⟩

end Busy
end ClassAtlas.Live
