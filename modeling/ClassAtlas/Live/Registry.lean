import ClassAtlas.Live.Table
/-!
# Who is connected, and in which rooms

The registry knows three things: which connections are there, which connections are in each room,
and which rooms each connection is in. The last two say the same twice, so that a connection that
goes away can be taken out of its rooms without a search. Rooms come into being when somebody joins
them and are gone with their last member.

Each operation below the first heading touches one of the three tables only. A join and a
disconnect are made of them; `Live.Call` takes them apart again, to say what happens when several
are under way at once.
-/
namespace ClassAtlas.Live

/-- A connection is known by a number that is never used again. Mirrors `ConnectionId`. -/
abbrev ConnectionId := Nat

/-- Mirrors the tables of `Broadcaster`. -/
structure Registry where
  /-- The last number given away. -/
  lastId : ConnectionId
  connected : List ConnectionId
  rooms : Table String (List ConnectionId)
  memberships : Table ConnectionId (List String)
deriving BEq, DecidableEq, Repr, Inhabited

namespace Registry

def empty : Registry := ⟨0, [], [], []⟩

def isConnected (r : Registry) (id : ConnectionId) : Bool := r.connected.contains id

/-- The connections in a room. -/
def members (r : Registry) (session : String) : List ConnectionId := (r.rooms.get? session).getD []

/-- The rooms a connection is in. -/
def sessionsOf (r : Registry) (id : ConnectionId) : List String := (r.memberships.get? id).getD []

/-! ## Steps on one table -/

/-- Puts a connection into a room. -/
def enter (r : Registry) (id : ConnectionId) (session : String) : Registry :=
  { r with rooms := r.rooms.set session ((r.members session).insert id) }

/-- Notes that a connection is in a room. -/
def note (r : Registry) (id : ConnectionId) (session : String) : Registry :=
  { r with memberships := r.memberships.set id ((r.sessionsOf id).insert session) }

/-- Forgets that a connection is there. -/
def cutOff (r : Registry) (id : ConnectionId) : Registry :=
  { r with connected := r.connected.filter (· ≠ id) }

/-- Forgets which rooms a connection is in, and tells them. -/
def takeNotes (r : Registry) (id : ConnectionId) : List String × Registry :=
  (r.sessionsOf id, { r with memberships := r.memberships.erase id })

/-- Takes a connection out of a room, which may stay empty. -/
def leave (r : Registry) (id : ConnectionId) (session : String) : Registry :=
  match r.rooms.get? session with
  | some ids => { r with rooms := r.rooms.set session (ids.filter (· ≠ id)) }
  | none => r

/-- Gives up a room if nobody is in it. -/
def closeIfEmpty (r : Registry) (session : String) : Registry :=
  match r.rooms.get? session with
  | some [] => { r with rooms := r.rooms.erase session }
  | _ => r

/-! ## Whole operations -/

/-- A new connection. Mirrors `Broadcaster::connect`. -/
def connect (r : Registry) : ConnectionId × Registry :=
  (r.lastId + 1, { r with lastId := r.lastId + 1, connected := r.connected ++ [r.lastId + 1] })

/-- Puts a connection into a room; false if there is no such connection. Mirrors
`Broadcaster::join`. -/
def join (r : Registry) (id : ConnectionId) (session : String) : Bool × Registry :=
  if r.isConnected id then (true, (r.enter id session).note id session) else (false, r)

/-- Takes a connection out of rooms and gives up those that are empty then. -/
def leaveAll (r : Registry) (id : ConnectionId) (sessions : List String) : Registry :=
  sessions.foldl (fun r s => (r.leave id s).closeIfEmpty s) r

/-- Forgets a connection and takes it out of every room. Mirrors `Broadcaster::disconnect`. -/
def disconnect (r : Registry) (id : ConnectionId) : Registry :=
  let (sessions, r) := (r.cutOff id).takeNotes id
  r.leaveAll id sessions

/-- Mirrors `Broadcaster::connection_count`. -/
def connectionCount (r : Registry) : Nat := r.connected.length

/-- Mirrors `Broadcaster::session_count`. -/
def sessionCount (r : Registry) : Nat := r.rooms.length

/-! ## What the steps change -/

section

variable (r : Registry) (id j : ConnectionId) (session s : String)

theorem isConnected_iff : r.isConnected id = true ↔ id ∈ r.connected := by
  simp [isConnected]

theorem members_enter : (r.enter id session).members s =
    if s = session then (r.members session).insert id else r.members s := by
  simp only [enter, members, Table.get?_set]
  split <;> rfl

theorem sessionsOf_note : (r.note id session).sessionsOf j =
    if j = id then (r.sessionsOf id).insert session else r.sessionsOf j := by
  simp only [note, sessionsOf, Table.get?_set]
  split <;> rfl

theorem sessionsOf_takeNotes : (r.takeNotes id).2.sessionsOf j =
    if j = id then [] else r.sessionsOf j := by
  simp only [takeNotes, sessionsOf, Table.get?_erase]
  split <;> rfl

theorem members_leave : (r.leave id session).members s =
    if s = session then (r.members session).filter (· ≠ id) else r.members s := by
  unfold leave
  split
  · simp only [members, Table.get?_set]
    split
    · rename_i ids h hs
      rw [h]
      rfl
    · rfl
  · rename_i h
    split
    · rename_i hs
      subst hs
      simp [members, h]
    · rfl

@[simp] theorem members_closeIfEmpty : (r.closeIfEmpty session).members s = r.members s := by
  unfold closeIfEmpty
  split
  · rename_i h
    simp only [members, Table.get?_erase]
    split
    · rename_i hs
      subst hs
      rw [h]
      rfl
    · rfl
  · rfl

theorem get?_rooms_leave : (r.leave id session).rooms.get? s =
    if s = session then (r.rooms.get? session).map (·.filter (· ≠ id)) else r.rooms.get? s := by
  unfold leave
  split
  · rename_i ids hids
    rw [hids]
    exact Table.get?_set _ _ _ _
  · rename_i hnone
    split
    · rename_i hs
      rw [hs, hnone]
      rfl
    · rfl

theorem get?_rooms_closeIfEmpty : (r.closeIfEmpty session).rooms.get? s =
    if s = session ∧ r.rooms.get? session = some [] then none else r.rooms.get? s := by
  unfold closeIfEmpty
  split
  · rename_i hnil
    simp only [hnil, and_true]
    exact Table.get?_erase _ _ _
  · rename_i hne
    rw [if_neg fun h => hne h.2]

/-- Leaving and closing rooms is all in the table of rooms. -/
theorem leave_frame : (r.leave id session).connected = r.connected ∧
    (r.leave id session).memberships = r.memberships ∧ (r.leave id session).lastId = r.lastId := by
  unfold leave
  split <;> exact ⟨rfl, rfl, rfl⟩

theorem closeIfEmpty_frame : (r.closeIfEmpty session).connected = r.connected ∧
    (r.closeIfEmpty session).memberships = r.memberships ∧
    (r.closeIfEmpty session).lastId = r.lastId := by
  unfold closeIfEmpty
  split <;> exact ⟨rfl, rfl, rfl⟩

theorem leaveAll_frame (sessions : List String) :
    (r.leaveAll id sessions).connected = r.connected ∧
      (r.leaveAll id sessions).memberships = r.memberships ∧
      (r.leaveAll id sessions).lastId = r.lastId := by
  unfold leaveAll
  induction sessions generalizing r with
  | nil => exact ⟨rfl, rfl, rfl⟩
  | cons t sessions ih =>
    obtain ⟨h1, h2, h3⟩ := ih ((r.leave id t).closeIfEmpty t)
    obtain ⟨c1, c2, c3⟩ := closeIfEmpty_frame (r.leave id t) t
    obtain ⟨l1, l2, l3⟩ := leave_frame r id t
    exact ⟨h1.trans (c1.trans l1), h2.trans (c2.trans l2), h3.trans (c3.trans l3)⟩

theorem members_leaveAll (sessions : List String) : (r.leaveAll id sessions).members s =
    if s ∈ sessions then (r.members s).filter (· ≠ id) else r.members s := by
  unfold leaveAll
  induction sessions generalizing r with
  | nil => simp
  | cons t sessions ih =>
    rw [List.foldl_cons, ih, members_closeIfEmpty, members_leave]
    by_cases hs : s = t
    · subst hs
      simp
    · simp [hs]

theorem connected_disconnect : (r.disconnect id).connected = r.connected.filter (· ≠ id) :=
  (leaveAll_frame _ id _).1

@[simp] theorem lastId_disconnect : (r.disconnect id).lastId = r.lastId :=
  (leaveAll_frame _ id _).2.2

theorem sessionsOf_disconnect : (r.disconnect id).sessionsOf j =
    if j = id then [] else r.sessionsOf j := by
  have h : (r.disconnect id).memberships = ((r.cutOff id).takeNotes id).2.memberships :=
    (leaveAll_frame _ id _).2.1
  rw [sessionsOf, h]
  exact sessionsOf_takeNotes (r.cutOff id) id j

theorem members_disconnect : (r.disconnect id).members s =
    if s ∈ r.sessionsOf id then (r.members s).filter (· ≠ id) else r.members s :=
  members_leaveAll ((r.cutOff id).takeNotes id).2 id s (r.sessionsOf id)

end

end Registry
end ClassAtlas.Live
