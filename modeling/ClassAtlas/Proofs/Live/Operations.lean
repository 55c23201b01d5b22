import ClassAtlas.Live.Hub
import Mathlib.Data.List.Basic
import Mathlib.Data.List.Induction

/-!
# What was asked of a hub

A history is the list of what was asked of a hub, from its beginning. Who is there, who still has a
mailbox, who is in a room and to whom a send goes is defined here by the history alone: by what was
asked at some time and what was not asked since (`Since`). Nothing is looked up in a table of the
hub.

`arrival` is what one send puts into the mailbox of a connection, and `addressed` all that was ever
put there, in order. `delivered` is what the client got when it asked.
-/
namespace ClassAtlas.Live

/-- A way of sending. -/
inductive Send where
  | toAll (m : ServerMessage)
  | toRoom (session : String) (m : ServerMessage)
  | diagramToAll (s : Diagram.Snapshot)
  | diagramToRoom (session : String) (s : Diagram.Snapshot)
  | diagramTo (id : ConnectionId) (s : Diagram.Snapshot)
deriving DecidableEq, Repr, Inhabited

inductive Op where
  | connect
  | join (id : ConnectionId) (session : String)
  | disconnect (id : ConnectionId)
  /-- The client gives up its mailbox. -/
  | drop (id : ConnectionId)
  | receive (id : ConnectionId)
  | await (id : ConnectionId)
  | send (m : Send)
deriving DecidableEq, Repr, Inhabited

/-- What a send answers. -/
inductive Answer where
  | count (n : Nat)
  | single (sent : Bool)
deriving DecidableEq, Repr, Inhabited

namespace Send

/-- The message as it waits in a mailbox; there is none for a diagram of revision 0. -/
def outbound? : Send → Option Outbound
  | .toAll m | .toRoom _ m => some ⟨none, m⟩
  | .diagramToAll s | .diagramToRoom _ s | .diagramTo _ s =>
    if s.revision = 0 then none else some ⟨some s.revision, .diagram s.text⟩

/-- The answer if so many mailboxes got the message. -/
def answer (n : Nat) : Send → Answer
  | .diagramTo _ _ => .single (n == 1)
  | _ => .count n

end Send

def Next.message? : Next → Option ServerMessage
  | .message m => some m
  | .pending | .ended => none

namespace Hub

def send (h : Hub) : Send → Answer × Hub
  | .toAll m => ((h.broadcast m).map .count id)
  | .toRoom session m => ((h.sendToRoom session m).map .count id)
  | .diagramToAll s => ((h.broadcastDiagram s).map .count id)
  | .diagramToRoom session s => ((h.sendDiagramToRoom session s).map .count id)
  | .diagramTo i s => ((h.sendDiagramTo i s).map .single id)

def perform (h : Hub) : Op → Hub
  | .connect => h.connect.2
  | .join id session => (h.join id session).2
  | .disconnect id => h.disconnect id
  | .drop id => (h.dropMailbox id).2
  | .receive id => (h.receive id).2
  | .await id => (h.await id).2
  | .send m => (h.send m).2

/-- The hub after a history. -/
def run (ops : List Op) : Hub := ops.foldl perform empty

theorem run_snoc (ops : List Op) (op : Op) : run (ops ++ [op]) = (run ops).perform op := by
  simp [run]

/-- Those that a send is for. -/
def recipients (h : Hub) : Send → List ConnectionId
  | .toAll _ | .diagramToAll _ => h.registry.connected
  | .toRoom session _ | .diagramToRoom session _ => h.registry.members session
  | .diagramTo i _ => [i]

/-- All ways of sending post one message to some recipients. -/
theorem send_eq (h : Hub) (m : Send) : h.send m =
    match m.outbound? with
    | some o => (m.answer (h.postAll (h.recipients m) o).1, (h.postAll (h.recipients m) o).2)
    | none => (m.answer 0, h) := by
  have hdiagram : ∀ (ids : List ConnectionId) (s : Diagram.Snapshot), h.postDiagram ids s =
      match (if s.revision = 0 then none else
        some (⟨some s.revision, .diagram s.text⟩ : Outbound)) with
      | some o => h.postAll ids o
      | none => (0, h) := by
    intro ids s
    unfold postDiagram
    split <;> rfl
  cases m with
  | toAll m => rfl
  | toRoom session m => rfl
  | diagramToAll s =>
    simp only [send, broadcastDiagram, hdiagram, Send.outbound?]
    split <;> rfl
  | diagramToRoom session s =>
    simp only [send, sendDiagramToRoom, hdiagram, Send.outbound?]
    split <;> rfl
  | diagramTo i s =>
    simp only [send, sendDiagramTo, hdiagram, Send.outbound?]
    split <;> rfl

theorem send_of_some {m : Send} {o : Outbound} (ho : m.outbound? = some o) (h : Hub) :
    h.send m =
      (m.answer (h.postAll (h.recipients m) o).1, (h.postAll (h.recipients m) o).2) := by
  rw [send_eq, ho]

theorem send_of_none {m : Send} (ho : m.outbound? = none) (h : Hub) :
    h.send m = (m.answer 0, h) := by
  rw [send_eq, ho]

theorem message?_await (h : Hub) (id : ConnectionId) :
    (h.await id).1.message? = (h.receive id).1 := by
  unfold await
  split
  · rename_i heq
    rw [heq]
    rfl
  · rename_i heq
    rw [heq]
    split <;> rfl

end Hub

/-! ## By the history alone -/

/-- At some time something was asked that starts, and since then nothing that stops. -/
def Since (start : List Op → Op → Prop) (stop : Op → Prop) (ops : List Op) : Prop :=
  ∃ before op after, ops = before ++ op :: after ∧ start before op ∧ ∀ o ∈ after, ¬ stop o

/-- How many connections there have been. -/
def connects (ops : List Op) : Nat := ops.count .connect

/-- A connection comes and gets its number. -/
def Comes (id : ConnectionId) (before : List Op) (op : Op) : Prop :=
  op = .connect ∧ id = connects before + 1

/-- It was connected, and not disconnected since. -/
def IsLive (ops : List Op) (id : ConnectionId) : Prop := Since (Comes id) (· = .disconnect id) ops

/-- It was connected, and did not give up its mailbox since. -/
def IsOpen (ops : List Op) (id : ConnectionId) : Prop := Since (Comes id) (· = .drop id) ops

def IsReachable (ops : List Op) (id : ConnectionId) : Prop := IsLive ops id ∧ IsOpen ops id

/-- It joined the room while it was live, and was not disconnected since. -/
def IsMember (ops : List Op) (session : String) (id : ConnectionId) : Prop :=
  Since (fun before op => op = .join id session ∧ IsLive before id) (· = .disconnect id) ops

/-- A send is for a connection. -/
def IsTarget (ops : List Op) (id : ConnectionId) : Send → Prop
  | .toAll _ | .diagramToAll _ => IsLive ops id
  | .toRoom session _ | .diagramToRoom session _ => IsMember ops session id
  | .diagramTo i _ => id = i

section

variable {start : List Op → Op → Prop} {stop : Op → Prop} {ops : List Op} {op : Op}

theorem since_iff : Since start stop ops ↔ ∃ i : Fin ops.length,
    start (ops.take i) ops[i] ∧ ∀ o ∈ ops.drop (i + 1), ¬ stop o := by
  constructor
  · rintro ⟨before, op, after, rfl, hs, hn⟩
    exact ⟨⟨before.length, by simp⟩, by simpa using hs, by simpa using hn⟩
  · rintro ⟨i, hs, hn⟩
    exact ⟨ops.take i, ops[i], ops.drop (i + 1), by simp, hs, hn⟩

instance [∀ before op, Decidable (start before op)] [DecidablePred stop] :
    Decidable (Since start stop ops) :=
  decidable_of_iff _ since_iff.symm

instance (id : ConnectionId) (before : List Op) : Decidable (Comes id before op) :=
  inferInstanceAs (Decidable (_ ∧ _))

instance (id : ConnectionId) : Decidable (IsLive ops id) :=
  inferInstanceAs (Decidable (Since _ _ _))

instance (id : ConnectionId) : Decidable (IsOpen ops id) :=
  inferInstanceAs (Decidable (Since _ _ _))

instance (id : ConnectionId) : Decidable (IsReachable ops id) :=
  inferInstanceAs (Decidable (_ ∧ _))

instance (session : String) (id : ConnectionId) : Decidable (IsMember ops session id) :=
  inferInstanceAs (Decidable (Since _ _ _))

instance (id : ConnectionId) : (m : Send) → Decidable (IsTarget ops id m)
  | .toAll _ | .diagramToAll _ => inferInstanceAs (Decidable (IsLive ops id))
  | .toRoom session _ | .diagramToRoom session _ =>
    inferInstanceAs (Decidable (IsMember ops session id))
  | .diagramTo i _ => inferInstanceAs (Decidable (id = i))

/-- What is asked last either starts it, or does not stop it. -/
theorem since_snoc :
    Since start stop (ops ++ [op]) ↔ start ops op ∨ Since start stop ops ∧ ¬ stop op := by
  constructor
  · rintro ⟨before, o, after, heq, hs, hn⟩
    rcases List.eq_nil_or_concat after with rfl | ⟨after, last, rfl⟩
    · obtain ⟨rfl, h⟩ := List.append_inj' heq rfl
      cases h
      exact Or.inl hs
    · rw [List.concat_eq_append, ← List.cons_append, ← List.append_assoc] at heq
      obtain ⟨rfl, h⟩ := List.append_inj' heq rfl
      cases h
      refine Or.inr ⟨⟨before, o, after, rfl, hs, ?_⟩, hn _ (by simp)⟩
      exact fun o' ho' => hn o' (by simp [ho'])
  · rintro (hs | ⟨⟨before, o, after, rfl, hs, hn⟩, hop⟩)
    · exact ⟨ops, op, [], rfl, hs, by simp⟩
    · refine ⟨before, o, after ++ [op], by simp, hs, ?_⟩
      intro o' ho'
      rcases List.mem_append.1 ho' with ho' | ho'
      · exact hn o' ho'
      · rw [List.mem_singleton.1 ho']
        exact hop

theorem not_since_nil : ¬ Since start stop [] := by
  rintro ⟨before, o, after, heq, -⟩
  cases before <;> cases heq

theorem connects_snoc : connects (ops ++ [op]) = connects ops + if op = .connect then 1 else 0 := by
  unfold connects
  rw [List.count_append]
  by_cases h : op = .connect
  · simp [h]
  · simp [h]

/-- A number is not in use before it is given away. -/
theorem le_connects_of_since {id : ConnectionId} (h : Since (Comes id) stop ops) :
    id ≤ connects ops := by
  induction ops using List.reverseRecOn with
  | nil => exact absurd h not_since_nil
  | append_singleton ops op ih =>
    rw [connects_snoc]
    rcases since_snoc.1 h with ⟨rfl, hid⟩ | ⟨h, -⟩
    · rw [if_pos rfl]
      exact Nat.le_of_eq hid
    · exact Nat.le_add_right_of_le (ih h)

end

/-! ## What comes to a connection -/

/-- What a send puts into the mailbox of a connection. -/
def arrival (ops : List Op) (m : Send) (id : ConnectionId) : Option Outbound :=
  if IsTarget ops id m ∧ IsReachable ops id then m.outbound? else none

/-- What a history brings, each time by what was asked before and what is asked then. -/
def collect {α : Type} (f : List Op → Op → Option α) (ops : List Op) : List α :=
  (List.range ops.length).filterMap fun i => ops[i]?.bind (f (ops.take i))

theorem collect_snoc {α : Type} (f : List Op → Op → Option α) (ops : List Op) (op : Op) :
    collect f (ops ++ [op]) = collect f ops ++ (f ops op).toList := by
  unfold collect
  rw [List.length_append, List.length_singleton, List.range_succ, List.filterMap_append]
  congr 1
  · refine List.filterMap_congr ?_
    intro i hi
    have hi : i < ops.length := List.mem_range.1 hi
    rw [List.getElem?_append_left hi, List.take_append_of_le_length (Nat.le_of_lt hi)]
  · cases h : f ops op <;> simp [h]

/-- What is put into the mailbox of a connection when something is asked. -/
def arrivalOf (id : ConnectionId) (before : List Op) : Op → Option Outbound
  | .send m => arrival before m id
  | _ => none

/-- What a client gets when something is asked. -/
def deliveryOf (id : ConnectionId) (before : List Op) : Op → Option ServerMessage
  | .receive i => if i = id then ((Hub.run before).receive id).1 else none
  | .await i => if i = id then ((Hub.run before).await id).1.message? else none
  | _ => none

/-- All that was ever put into the mailbox of a connection. -/
def addressed (id : ConnectionId) : List Op → List Outbound := collect (arrivalOf id)

/-- All that a client got. -/
def delivered (id : ConnectionId) : List Op → List ServerMessage := collect (deliveryOf id)

end ClassAtlas.Live
