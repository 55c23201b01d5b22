import ClassAtlas.Live.Message
/-!
# Mailboxes

What waits for a client, in the order it was sent. A diagram waits with its revision. Taking out
passes over every diagram that is older than one already taken, so a client never moves back;
equal revisions are not older.
-/
namespace ClassAtlas.Live

/-- A message on its way; diagrams carry their revision. Mirrors `Outbound`. -/
structure Outbound where
  revision? : Option Nat
  message : ServerMessage
deriving BEq, DecidableEq, Repr, Inhabited

/-- Mirrors `ClientReceiver`. -/
structure Mailbox where
  queue : List Outbound
  /-- The revision of the last diagram taken out. -/
  lastRevision : Nat
deriving BEq, DecidableEq, Repr, Inhabited

namespace Outbound

/-- Whether a message is an older diagram than one taken out before. Mirrors the test of
`ClientReceiver::accept`. -/
def isStale (o : Outbound) (lastRevision : Nat) : Bool :=
  match o.revision? with
  | some r => r < lastRevision
  | none => false

end Outbound

namespace Mailbox

def empty : Mailbox := ⟨[], 0⟩

def push (m : Mailbox) (o : Outbound) : Mailbox := { m with queue := m.queue ++ [o] }

/-- Takes the first message that is not stale out of a queue. -/
def takeFrom (lastRevision : Nat) : List Outbound → Option ServerMessage × Mailbox
  | [] => (none, ⟨[], lastRevision⟩)
  | o :: rest =>
    if o.isStale lastRevision then takeFrom lastRevision rest
    else (some o.message, ⟨rest, o.revision?.getD lastRevision⟩)

/-- Takes the next message out, if there is one. Mirrors `ClientReceiver::try_recv`. -/
def take (m : Mailbox) : Option ServerMessage × Mailbox := takeFrom m.lastRevision m.queue

/-- What is left in a queue after one message is taken out is shorter. -/
theorem queue_takeFrom_lt {last : Nat} {q : List Outbound} {s : ServerMessage} {m : Mailbox}
    (h : takeFrom last q = (some s, m)) : m.queue.length < q.length := by
  induction q with
  | nil => simp [takeFrom] at h
  | cons o q ih =>
    unfold takeFrom at h
    split at h
    · exact Nat.lt_succ_of_lt (ih h)
    · obtain ⟨-, rfl⟩ := Prod.mk.inj h
      exact Nat.lt_succ_self _

/-- Takes everything out. -/
def takeAll (m : Mailbox) : List ServerMessage × Mailbox :=
  match _h : m.take with
  | (none, m) => ([], m)
  | (some s, m') =>
    let (rest, last) := takeAll m'
    (s :: rest, last)
termination_by m.queue.length
decreasing_by exact queue_takeFrom_lt ‹_›

end Mailbox
end ClassAtlas.Live
