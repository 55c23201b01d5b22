import ClassAtlas.Live.Registry
/-!
# Joins and disconnects step by step

A join and a disconnect work on several tables of the registry, one after the other, and other
calls may come between. A `Call` is what is left to do of one of them; `Call.step` does the next
thing, which touches one table. A join looks at the end whether the connection is still there, and
takes everything back if not.

`Call.run_join` and `Call.run_disconnect` say that a call that nothing comes between does what
`Registry.join` and `Registry.disconnect` do.
-/
namespace ClassAtlas.Live

/-- What is left to do of a join or a disconnect. The rooms of a disconnect are those still to be
left. -/
inductive Call where
  /-- To see whether the connection is there. -/
  | join (id : ConnectionId) (session : String)
  /-- To put it into the room. -/
  | enter (id : ConnectionId) (session : String)
  /-- To note the room. -/
  | note (id : ConnectionId) (session : String)
  /-- To see whether the connection is still there. -/
  | confirm (id : ConnectionId)
  /-- To forget that the connection is there. -/
  | disconnect (id : ConnectionId)
  /-- To take the notes of its rooms. -/
  | takeNotes (id : ConnectionId)
  /-- To leave the first of some rooms. -/
  | leave (id : ConnectionId) (sessions : List String)
  /-- To give up the first of some rooms if it is empty. -/
  | close (id : ConnectionId) (sessions : List String)
  /-- Nothing; a join answers whether it succeeded. -/
  | done (joined : Bool)
deriving BEq, DecidableEq, Repr, Inhabited

namespace Call

/-- How far a call is from its end; no step leads away from it. -/
def stage : Call → Nat
  | .done _ => 0
  | .leave _ _ => 1
  | .close _ _ => 1
  | .takeNotes _ => 2
  | .disconnect _ => 3
  | .confirm _ => 4
  | .note _ _ => 5
  | .enter _ _ => 6
  | .join _ _ => 7

/-- How many steps are left in rooms. -/
def roomsLeft : Call → Nat
  | .leave _ sessions => 2 * sessions.length + 1
  | .close _ sessions => 2 * sessions.length
  | _ => 0

/-- Does the next thing. Mirrors `Broadcaster::join` and `Broadcaster::disconnect`, one lock at a
time. -/
def step (r : Registry) : Call → Call × Registry
  | .join id session => (if r.isConnected id then .enter id session else .done false, r)
  | .enter id session => (.note id session, r.enter id session)
  | .note id session => (.confirm id, r.note id session)
  | .confirm id => (if r.isConnected id then .done true else .disconnect id, r)
  | .disconnect id => (.takeNotes id, r.cutOff id)
  | .takeNotes id =>
    let (sessions, r) := r.takeNotes id
    (.leave id sessions, r)
  | .leave _ [] => (.done false, r)
  | .leave id (s :: rest) => (.close id (s :: rest), r.leave id s)
  | .close _ [] => (.done false, r)
  | .close id (s :: rest) => (.leave id rest, r.closeIfEmpty s)
  | .done joined => (.done joined, r)

/-- The answer of a call with nothing left to do. -/
def result? : Call → Option Bool
  | .done joined => some joined
  | _ => none

theorem step_lt (r : Registry) (c : Call) (h : c.result? = none) :
    (c.step r).1.stage < c.stage ∨
      (c.step r).1.stage = c.stage ∧ (c.step r).1.roomsLeft < c.roomsLeft := by
  cases c with
  | done b => simp [result?] at h
  | join id s => simp only [step]; split <;> simp [stage]
  | confirm id => simp only [step]; split <;> simp [stage]
  | leave id ss => cases ss <;> simp [step, stage, roomsLeft]
  | close id ss => cases ss <;> simp [step, stage, roomsLeft]; omega
  | enter id s => simp [step, stage]
  | note id s => simp [step, stage]
  | disconnect id => simp [step, stage]
  | takeNotes id => simp [step, stage]

/-- Does everything that is left to do, with nothing coming between. -/
def run (r : Registry) (c : Call) : Bool × Registry :=
  match _h : c.result? with
  | some joined => (joined, r)
  | none => run (c.step r).2 (c.step r).1
termination_by (c.stage, c.roomsLeft)
decreasing_by
  have := step_lt r c ‹_›
  grind [Prod.Lex]

theorem run_done (r : Registry) (b : Bool) : run r (.done b) = (b, r) := by rw [run]; rfl

theorem run_step (r : Registry) (c : Call) (h : c.result? = none) :
    run r c = run (c.step r).2 (c.step r).1 := by
  rw [run]
  split
  next h' => simp [h] at h'
  next => rfl

theorem run_leave (r : Registry) (id : ConnectionId) (sessions : List String) :
    run r (.leave id sessions) = (false, r.leaveAll id sessions) := by
  induction sessions generalizing r with
  | nil => rw [run_step _ _ rfl, step, run_done]; rfl
  | cons s rest ih =>
    rw [run_step _ _ rfl, step, run_step _ _ rfl, step, ih]
    rfl

/-- Alone, a disconnect takes every trace of the connection away. -/
theorem run_disconnect (r : Registry) (id : ConnectionId) :
    run r (.disconnect id) = (false, r.disconnect id) := by
  rw [run_step _ _ rfl, step, run_step _ _ rfl, step, run_leave]
  rfl

/-- Alone, a join finds the connection at its end if it did at its beginning. -/
theorem run_join (r : Registry) (id : ConnectionId) (session : String) :
    run r (.join id session) = r.join id session := by
  rw [run_step _ _ rfl, step]
  unfold Registry.join
  split
  next h =>
    rw [run_step _ _ rfl, step, run_step _ _ rfl, step, run_step _ _ rfl, step]
    have : ((r.enter id session).note id session).isConnected id = true := h
    rw [if_pos this, run_done]
  next h => rw [run_done]

end Call
end ClassAtlas.Live
