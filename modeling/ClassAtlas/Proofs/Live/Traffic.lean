import ClassAtlas.Live.Hub
import ClassAtlas.Proofs.Live.Staleness

/-!
# A cell, a hub and what is under way between them

`Hub.broadcastDiagram` and its like send at once. Here they take their time: a `Task` is what is
left to do of one of them, and anything may come between two of its steps. Connections are chosen
when a task gets to it and may be gone when their turn comes; the order of the turns is left open.

A new client is connected first, reads the current diagram later and is sent what it has read later
still. A published diagram is announced to everybody, and no other is published before that is done;
everything else may overlap.

`Task.run_read`, `Task.run_deliver`, `Task.run_push` and `Task.run_announce`: a task that nothing
comes between does what the hub does at once.

The log only records what the clients took out of their mailboxes.
-/
namespace ClassAtlas.Live

/-- A diagram on its way. -/
def Outbound.ofSnapshot (s : Diagram.Snapshot) : Outbound := ⟨some s.revision, .diagram s.text⟩

def Outbound.isDiagram (o : Outbound) : Bool :=
  match o.message with
  | .diagram _ => true
  | .error _ => false

/-- What is left to do of something that takes several steps. -/
inductive Task where
  /-- A new client is to read the current diagram. -/
  | read (id : ConnectionId)
  /-- A new client is to be sent what it has read. -/
  | greet (id : ConnectionId) (s : Diagram.Snapshot)
  /-- A room is to be sent a diagram. -/
  | push (session : String) (s : Diagram.Snapshot)
  /-- Everybody is to be sent a diagram. -/
  | announce (s : Diagram.Snapshot)
  /-- A message is still to be put into some mailboxes. -/
  | deliver (ids : List ConnectionId) (o : Outbound)
deriving DecidableEq, Repr, Inhabited

namespace Task

/-- To send a diagram to some, unless it stands for none. -/
def spread (ids : List ConnectionId) (s : Diagram.Snapshot) : Option Task :=
  if s.revision = 0 then none else some (.deliver ids (.ofSnapshot s))

/-- Does the next thing. A delivery goes on with the connection that is picked. -/
def step (current : Diagram.Snapshot) (hub : Hub) (pick : ConnectionId) :
    Task → Option Task × Hub
  | .read id => (some (.greet id current), hub)
  | .greet id s => (none, (hub.sendDiagramTo id s).2)
  | .push session s => (spread (hub.registry.members session) s, hub)
  | .announce s => (spread hub.registry.connected s, hub)
  | .deliver [] _ => (none, hub)
  | .deliver (id :: ids) o =>
    if pick ∈ id :: ids then (some (.deliver ((id :: ids).erase pick) o), (hub.post pick o).2)
    else (some (.deliver (id :: ids) o), hub)

/-- Whether a task is a new client's way to its first diagram. -/
def greets (id : ConnectionId) : Task → Bool
  | .read i | .greet i _ => i = id
  | .push _ _ | .announce _ | .deliver _ _ => false

end Task

structure Traffic where
  cell : Diagram.Cell
  hub : Hub
  /-- What is left of the announcement of the last diagram. -/
  due : Option Task
  tasks : List Task
  log : List (ConnectionId × Outbound)
deriving DecidableEq, Repr, Inhabited

namespace Traffic

inductive Action where
  /-- A diagram is published, if the last was announced to all. -/
  | publish (text : String)
  /-- The announcement goes on. -/
  | announce (pick : ConnectionId)
  /-- One of the tasks goes on. -/
  | proceed (i : Nat) (pick : ConnectionId)
  /-- Everybody is to be told of an error. -/
  | fail (message : String)
  /-- The current diagram is read, to be sent to a room. -/
  | push (session : String)
  | connect
  | join (id : ConnectionId) (session : String)
  | disconnect (id : ConnectionId)
  | drop (id : ConnectionId)
  | receive (id : ConnectionId)
deriving DecidableEq, Repr, Inhabited

def empty : Traffic := ⟨Diagram.Cell.new, Hub.empty, none, [], []⟩

/-- The snapshot that readers see. -/
def current (t : Traffic) : Diagram.Snapshot := t.cell.current

/-- The next message of a client, with its revision. -/
def next? (t : Traffic) (id : ConnectionId) : Option Outbound :=
  (t.hub.mailboxes.get? id).bind Mailbox.next?

def act (t : Traffic) : Action → Traffic
  | .publish text =>
    match t.due with
    | none =>
      let cell := t.cell.publish text
      { t with cell, due := some (.announce cell.current) }
    | some _ => t
  | .announce pick =>
    match t.due with
    | none => t
    | some k =>
      let (due, hub) := k.step t.current t.hub pick
      { t with due, hub }
  | .proceed i pick =>
    match t.tasks[i]? with
    | none => t
    | some k =>
      let (k, hub) := k.step t.current t.hub pick
      { t with tasks := t.tasks.eraseIdx i ++ k.toList, hub }
  | .fail message =>
    { t with tasks := t.tasks ++ [.deliver t.hub.registry.connected ⟨none, .error message⟩] }
  | .push session => { t with tasks := t.tasks ++ [.push session t.current] }
  | .connect =>
    let (id, hub) := t.hub.connect
    { t with hub, tasks := t.tasks ++ [.read id] }
  | .join id session => { t with hub := (t.hub.join id session).2 }
  | .disconnect id => { t with hub := t.hub.disconnect id }
  | .drop id => { t with hub := (t.hub.dropMailbox id).2 }
  | .receive id =>
    { t with hub := (t.hub.receive id).2, log := t.log ++ ((t.next? id).map (id, ·)).toList }

def run (actions : List Action) : Traffic := actions.foldl act empty

theorem run_snoc (actions : List Action) (a : Action) :
    run (actions ++ [a]) = (run actions).act a := by
  simp [run]

/-- What a client took out of its mailbox. -/
def got (t : Traffic) (id : ConnectionId) : List Outbound :=
  (t.log.filter (·.1 = id)).map (·.2)

/-- The diagrams a client got. -/
def diagrams (t : Traffic) (id : ConnectionId) : List Outbound :=
  (t.got id).filter (·.isDiagram)

/-- What the log records is what the hub hands out. -/
theorem receive_fst (t : Traffic) (id : ConnectionId) :
    (t.hub.receive id).1 = (t.next? id).map (·.message) := by
  rw [Hub.receive_fst, next?]
  cases t.hub.mailboxes.get? id with
  | none => rfl
  | some b =>
    obtain ⟨-, -, -, -, hfst, -⟩ := Mailbox.take_spec b
    exact hfst

end Traffic

/-! ## A task that nothing comes between -/

namespace Task

/-- Does one thing after the other. -/
def run (current : Diagram.Snapshot) : List ConnectionId → Option Task → Hub → Option Task × Hub
  | pick :: picks, some k, hub =>
    let (k, hub) := k.step current hub pick
    run current picks k hub
  | _, k, hub => (k, hub)

variable (current : Diagram.Snapshot) (hub : Hub)

theorem run_none (picks : List ConnectionId) : run current picks none hub = (none, hub) := by
  cases picks <;> rfl

theorem run_read (id first second : ConnectionId) :
    run current [first, second] (some (.read id)) hub =
      (none, (hub.sendDiagramTo id current).2) := rfl

theorem run_deliver (ids : List ConnectionId) (o : Outbound) (last : ConnectionId) :
    run current (ids ++ [last]) (some (.deliver ids o)) hub = (none, (hub.postAll ids o).2) := by
  induction ids generalizing hub with
  | nil => rfl
  | cons id ids ih =>
    have hstep : (deliver (id :: ids) o).step current hub id =
        (some (.deliver ids o), (hub.post id o).2) := by
      simp [step]
    simp only [List.cons_append, run, hstep]
    rw [ih, Hub.postAll_cons]

theorem run_spread (ids : List ConnectionId) (s : Diagram.Snapshot) (last : ConnectionId) :
    run current (ids ++ [last]) (spread ids s) hub = (none, (hub.postDiagram ids s).2) := by
  unfold spread Hub.postDiagram
  split
  · exact run_none current hub _
  · exact run_deliver current hub ids _ last

theorem run_announce (s : Diagram.Snapshot) (first last : ConnectionId) :
    run current (first :: hub.registry.connected ++ [last]) (some (.announce s)) hub =
      (none, (hub.broadcastDiagram s).2) :=
  run_spread current hub hub.registry.connected s last

theorem run_push (session : String) (s : Diagram.Snapshot) (first last : ConnectionId) :
    run current (first :: hub.registry.members session ++ [last]) (some (.push session s)) hub =
      (none, (hub.sendDiagramToRoom session s).2) :=
  run_spread current hub (hub.registry.members session) s last

end Task
end ClassAtlas.Live
