import ClassAtlas.Diagram.Cell
import ClassAtlas.Live.Mailbox
import ClassAtlas.Live.Registry
/-!
# The hub

The registry together with the mailboxes of its clients. Every way of sending chooses connections,
all of them, those in a room or a single one, and puts one copy of the message into the mailbox of
each that is connected and still has one; it answers how many those were. A diagram of revision 0
stands for none and is not sent.

A client that gives up its mailbox stays connected, and one that is disconnected keeps its mailbox
until it is empty.
-/
namespace ClassAtlas.Live

/-- Mirrors `Broadcaster`. -/
structure Hub where
  registry : Registry
  mailboxes : Table ConnectionId Mailbox
deriving BEq, DecidableEq, Repr, Inhabited

/-- What a client that waits for its next message gets. -/
inductive Next where
  | message (m : ServerMessage)
  /-- There is none yet. -/
  | pending
  /-- There will never be one. -/
  | ended
deriving BEq, DecidableEq, Repr, Inhabited

namespace Hub

def empty : Hub := ⟨Registry.empty, []⟩

/-! ## Connections -/

/-- A new connection with a mailbox. -/
def connect (h : Hub) : ConnectionId × Hub :=
  let (id, registry) := h.registry.connect
  (id, ⟨registry, h.mailboxes.set id Mailbox.empty⟩)

def join (h : Hub) (id : ConnectionId) (session : String) : Bool × Hub :=
  let (joined, registry) := h.registry.join id session
  (joined, { h with registry })

def disconnect (h : Hub) (id : ConnectionId) : Hub :=
  { h with registry := h.registry.disconnect id }

/-- Gives up a mailbox; false if it is gone already. -/
def dropMailbox (h : Hub) (id : ConnectionId) : Bool × Hub :=
  ((h.mailboxes.get? id).isSome, { h with mailboxes := h.mailboxes.erase id })

/-! ## Sending -/

/-- Puts a message into one mailbox; false if nobody can get it there. -/
def post (h : Hub) (id : ConnectionId) (o : Outbound) : Bool × Hub :=
  if h.registry.isConnected id then
    match h.mailboxes.get? id with
    | some m => (true, { h with mailboxes := h.mailboxes.set id (m.push o) })
    | none => (false, h)
  else (false, h)

/-- Puts a message into mailboxes one by one and counts them. Mirrors `Broadcaster::fan_out`. -/
def postAll (h : Hub) (ids : List ConnectionId) (o : Outbound) : Nat × Hub :=
  ids.foldl (fun (n, h) id =>
    let (posted, h) := h.post id o
    (if posted then n + 1 else n, h)) (0, h)

/-- Puts a diagram into mailboxes, unless it stands for none. Mirrors
`Broadcaster::fan_out_diagram`. -/
def postDiagram (h : Hub) (ids : List ConnectionId) (s : Diagram.Snapshot) : Nat × Hub :=
  if s.revision = 0 then (0, h) else h.postAll ids ⟨some s.revision, .diagram s.text⟩

/-- Sends to everybody. Mirrors `Broadcaster::broadcast_all`. -/
def broadcast (h : Hub) (m : ServerMessage) : Nat × Hub := h.postAll h.registry.connected ⟨none, m⟩

/-- Sends to those in a room. Mirrors `Broadcaster::send_to_session`. -/
def sendToRoom (h : Hub) (session : String) (m : ServerMessage) : Nat × Hub :=
  h.postAll (h.registry.members session) ⟨none, m⟩

/-- Sends a diagram to everybody. Mirrors `Broadcaster::broadcast_diagram`. -/
def broadcastDiagram (h : Hub) (s : Diagram.Snapshot) : Nat × Hub :=
  h.postDiagram h.registry.connected s

/-- Sends a diagram to those in a room. Mirrors `Broadcaster::send_diagram_to_session`. -/
def sendDiagramToRoom (h : Hub) (session : String) (s : Diagram.Snapshot) : Nat × Hub :=
  h.postDiagram (h.registry.members session) s

/-- Sends a diagram to one connection. Mirrors `Broadcaster::send_diagram_to`. -/
def sendDiagramTo (h : Hub) (id : ConnectionId) (s : Diagram.Snapshot) : Bool × Hub :=
  let (n, h) := h.postDiagram [id] s
  (n == 1, h)

/-! ## Receiving -/

/-- The next message of a client, if one is there. -/
def receive (h : Hub) (id : ConnectionId) : Option ServerMessage × Hub :=
  match h.mailboxes.get? id with
  | some m =>
    let (message, m) := m.take
    (message, { h with mailboxes := h.mailboxes.set id m })
  | none => (none, h)

/-- What a client gets that waits for its next message. Mirrors `ClientReceiver::recv`. -/
def await (h : Hub) (id : ConnectionId) : Next × Hub :=
  match h.receive id with
  | (some m, h) => (.message m, h)
  | (none, h) => (if h.registry.isConnected id then .pending else .ended, h)

/-- All messages that are there for a client. -/
def receiveAll (h : Hub) (id : ConnectionId) : List ServerMessage × Hub :=
  match h.mailboxes.get? id with
  | some m =>
    let (messages, m) := m.takeAll
    (messages, { h with mailboxes := h.mailboxes.set id m })
  | none => ([], h)

/-! ## What the steps change -/

section

variable (h : Hub) (id j : ConnectionId) (o : Outbound)

@[simp] theorem registry_connect : (h.connect).2.registry = h.registry.connect.2 := rfl

theorem get?_connect : (h.connect).2.mailboxes.get? j =
    if j = h.registry.lastId + 1 then some Mailbox.empty else h.mailboxes.get? j :=
  Table.get?_set _ _ _ _

theorem get?_dropMailbox : (h.dropMailbox id).2.mailboxes.get? j =
    if j = id then none else h.mailboxes.get? j :=
  Table.get?_erase _ _ _

@[simp] theorem registry_receive : (h.receive id).2.registry = h.registry := by
  unfold receive
  split <;> rfl

theorem get?_receive : (h.receive id).2.mailboxes.get? j =
    if j = id then (h.mailboxes.get? id).map (·.take.2) else h.mailboxes.get? j := by
  unfold receive
  split
  · rename_i m hm
    rw [hm]
    exact Table.get?_set _ _ _ _
  · rename_i hm
    split
    · rename_i hj
      rw [hj, hm]
      rfl
    · rfl

theorem receive_fst : (h.receive id).1 = (h.mailboxes.get? id).bind (·.take.1) := by
  unfold receive
  split
  · rename_i m hm
    rw [hm]
    rfl
  · rename_i hm
    rw [hm]
    rfl

@[simp] theorem await_snd : (h.await id).2 = (h.receive id).2 := by
  unfold await
  split <;> rename_i heq <;> rw [heq]

/-- Whether somebody can get a message through a mailbox. -/
def reaches : Bool := h.registry.isConnected id && (h.mailboxes.get? id).isSome

theorem post_fst : (h.post id o).1 = h.reaches id := by
  unfold post reaches
  split
  · rename_i hc
    rw [hc]
    split <;> rename_i hm <;> rw [hm] <;> rfl
  · rename_i hc
    rw [Bool.eq_false_iff.2 hc]
    rfl

@[simp] theorem registry_post : (h.post id o).2.registry = h.registry := by
  unfold post
  split
  · split <;> rfl
  · rfl

theorem get?_post : (h.post id o).2.mailboxes.get? j =
    if j = id ∧ h.registry.isConnected id then (h.mailboxes.get? j).map (·.push o)
    else h.mailboxes.get? j := by
  unfold post
  split
  · rename_i hc
    simp only [hc, and_true]
    split
    · rename_i m hm
      rw [Table.get?_set]
      split
      · rename_i hj
        rw [hj, hm]
        rfl
      · rfl
    · rename_i hm
      split
      · rename_i hj
        rw [hj, hm]
        rfl
      · rfl
  · rename_i hc
    simp [hc]

theorem reaches_post (i : ConnectionId) : (h.post i o).2.reaches id = h.reaches id := by
  unfold reaches
  rw [registry_post, get?_post]
  split
  · rw [Option.isSome_map]
  · rfl

theorem postAll_cons (ids : List ConnectionId) : h.postAll (id :: ids) o =
    ((if h.reaches id then 1 else 0) + ((h.post id o).2.postAll ids o).1,
      ((h.post id o).2.postAll ids o).2) := by
  -- the count that the fold starts with only adds to its result
  have hfrom : ∀ (ids : List ConnectionId) (n : Nat) (h : Hub),
      ids.foldl (fun (n, h) id =>
        let (posted, h) := h.post id o
        (if posted then n + 1 else n, h)) (n, h) =
      (n + (h.postAll ids o).1, (h.postAll ids o).2) := by
    intro ids
    induction ids with
    | nil => exact fun n h => rfl
    | cons i ids ih =>
      intro n h
      unfold postAll
      rw [List.foldl_cons, List.foldl_cons, ih, ih]
      cases (h.post i o).1 <;> simp [Nat.add_assoc]
  rw [← post_fst h id o]
  unfold postAll
  rw [List.foldl_cons, hfrom]
  cases (h.post id o).1 <;> simp [postAll]

@[simp] theorem registry_postAll (ids : List ConnectionId) :
    (h.postAll ids o).2.registry = h.registry := by
  induction ids generalizing h with
  | nil => rfl
  | cons i ids ih => rw [postAll_cons, ih, registry_post]

/-- How many got it. -/
theorem postAll_fst (ids : List ConnectionId) :
    (h.postAll ids o).1 = (ids.filter h.reaches).length := by
  induction ids generalizing h with
  | nil => rfl
  | cons i ids ih =>
    have hsame : (h.post i o).2.reaches = h.reaches := funext fun k => reaches_post h k o i
    rw [postAll_cons, ih, hsame, List.filter_cons]
    cases h.reaches i <;> simp [Nat.add_comm]

/-- One copy goes to each of different connections that is there, and nothing to others. -/
theorem get?_postAll {ids : List ConnectionId} (hids : ids.Nodup) :
    (h.postAll ids o).2.mailboxes.get? j =
      if j ∈ ids ∧ h.registry.isConnected j then (h.mailboxes.get? j).map (·.push o)
      else h.mailboxes.get? j := by
  induction ids generalizing h with
  | nil => simp [postAll]
  | cons i ids ih =>
    obtain ⟨hi, hids⟩ := List.nodup_cons.1 hids
    rw [postAll_cons, ih _ hids, registry_post, get?_post]
    by_cases hj : j = i
    · subst hj
      simp [hi]
    · simp [hj]

end

end Hub
end ClassAtlas.Live
