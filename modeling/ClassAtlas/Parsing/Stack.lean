import ClassAtlas.Parsing.Subtree
/-!
# The parse stack

A stack with several tops. Tops that come to the same state at the same place are joined, so the
stack is a graph: a node keeps one link for each way in which it was reached.
-/
namespace ClassAtlas.Parsing

open ClassAtlas.Grammar ClassAtlas.Lexing

/-- The way from a node to the one below it; without a subtree it marks where an error began. -/
structure Link where
  node : Nat
  tree : Option Subtree
deriving Inhabited

structure StackNode where
  state : Nat
  position : Nat
  errorCost : Nat
  nodeCount : Nat
  dynamic : Int
  links : Array Link
deriving Inhabited

/-- Where the stack of a top stood when an error was found, one entry for each depth and state. -/
structure SummaryEntry where
  position : Nat
  depth : Nat
  state : Nat
deriving Inhabited

inductive Status where
  | active
  | paused (lookahead : Subtree)
  | halted
deriving Inhabited

def Status.isActive : Status → Bool
  | .active => true
  | _ => false

def Status.isPaused : Status → Bool
  | .paused _ => true
  | _ => false

def Status.isHalted : Status → Bool
  | .halted => true
  | _ => false

/-- A top of the stack: one reading of the text so far. -/
structure Head where
  node : Nat
  status : Status := .active
  nodeCountAtError : Nat := 0
  summary : Array SummaryEntry := #[]
deriving Inhabited

structure Stack where
  nodes : Array StackNode
  heads : Array Head
deriving Inhabited

namespace Stack

def maxLinks : Nat := 8

def maxIterators : Nat := 64

/-- A stack with one top in the given state at the start of the text. -/
def new (state : Nat) : Stack := ⟨#[⟨state, 0, 0, 0, 0, #[]⟩], #[{ node := 0 }]⟩

variable (s : Stack)

def head (v : Nat) : Head := s.heads.getD v default

def nodeAt (n : Nat) : StackNode := s.nodes.getD n default

def top (v : Nat) : StackNode := s.nodeAt (s.head v).node

def state (v : Nat) : Nat := (s.top v).state

def position (v : Nat) : Nat := (s.top v).position

def status (v : Nat) : Status := (s.head v).status

def setStatus (v : Nat) (x : Status) : Stack :=
  { s with heads := s.heads.modify v fun h => { h with status := x } }

def halt (v : Nat) : Stack := s.setStatus v .halted

def remove (v : Nat) : Stack := { s with heads := s.heads.eraseIdxIfInBounds v }

/-- Moves a top to the place of an earlier one, which is dropped but for its summary. -/
def renumber (source target : Nat) : Stack :=
  if source == target then s
  else
    let h := s.head source
    let old := s.head target
    let h := if h.summary.isEmpty then { h with summary := old.summary } else h
    { s with heads := (s.heads.set! target h).eraseIdxIfInBounds source }

def swap (i j : Nat) : Stack := { s with heads := s.heads.swapIfInBounds i j }

/-- A second top equal to the given one. -/
def copy (v : Nat) : Stack := { s with heads := s.heads.push { s.head v with summary := #[] } }

/-- Puts a subtree, or the mark of an error, on a top. -/
def push (g : Productions) (v : Nat) (tree : Option Subtree) (state : Nat) : Stack :=
  let below := s.top v
  let node : StackNode := match tree with
    | some t =>
      { state
        position := t.stop
        errorCost := below.errorCost + t.errorCost
        nodeCount := below.nodeCount + t.nodeCount g
        dynamic := below.dynamic + t.dynamic
        links := #[⟨(s.head v).node, some t⟩] }
    | none => { below with state, links := #[⟨(s.head v).node, none⟩] }
  let id := s.nodes.size
  { nodes := s.nodes.push node
    heads := s.heads.modify v fun h =>
      { h with
        node := id
        nodeCountAtError := if tree.isNone then node.nodeCount else h.nodeCountAtError } }

/-- Visible nodes read since the last error on this top. A top that was cut back counts from where
it is found, so the question is also an update. -/
def nodeCountSinceError (v : Nat) : Nat × Stack :=
  let now := (s.top v).nodeCount
  let atError := (s.head v).nodeCountAtError
  if now < atError then
    (0, { s with heads := s.heads.modify v fun h => { h with nodeCountAtError := now } })
  else (now - atError, s)

/-- An error that was just found and one that is not closed yet cost a recovery on top. -/
def errorCost (v : Nat) : Nat :=
  let n := s.top v
  let open_ := n.state == 0 && match n.links[0]? with
    | some l => l.tree.isNone
    | none => true
  n.errorCost + (if (s.status v).isPaused || open_ then costs.recovery else 0)

def canMerge (v w : Nat) : Bool :=
  let a := s.top v
  let b := s.top w
  (s.status v).isActive && (s.status w).isActive && a.state == b.state &&
    a.position == b.position && a.errorCost == b.errorCost

/-- Whether two links over one stretch of text say the same. -/
def sameReading (l r : Option Subtree) : Bool :=
  match l, r with
  | some l, some r =>
    l.symbol == r.symbol &&
      ((l.errorCost > 0 && r.errorCost > 0) ||
        (l.origin == r.origin && l.start == r.start && l.stop == r.stop &&
          l.children.size == r.children.size && l.extra == r.extra))
  | none, none => true
  | _, _ => false

def linkDynamic (l : Link) : Int := (s.nodeAt l.node).dynamic + ((l.tree.map (·.dynamic)).getD 0)

def linkCount (g : Productions) (l : Link) : Nat :=
  (s.nodeAt l.node).nodeCount + ((l.tree.map (·.nodeCount g)).getD 0)

/-- Adds a link to a node. An equal reading between the same nodes keeps the one of higher dynamic
precedence; equal readings from nodes that can be joined join those. `fuel` bounds the depth. -/
def addLink (g : Productions) : Nat → Stack → Nat → Link → Stack
  | 0, s, _, _ => s
  | fuel + 1, s, target, link =>
    if link.node == target then s
    else
      let node := s.nodeAt target
      let hit := (List.range node.links.size).find? fun i =>
        let l := node.links.getD i default
        sameReading l.tree link.tree && (l.node == link.node ||
          (let a := s.nodeAt l.node
           let b := s.nodeAt link.node
           a.state == b.state && a.position == b.position && a.errorCost == b.errorCost))
      match hit with
      | some i =>
        let l := node.links.getD i default
        if l.node == link.node then
          let more := ((link.tree.map (·.dynamic)).getD 0) > ((l.tree.map (·.dynamic)).getD 0)
          if more then
            { s with nodes := s.nodes.set! target { node with
                links := node.links.set! i link
                dynamic := s.linkDynamic link } }
          else s
        else
          let s := (s.nodeAt link.node).links.foldl (fun s x => addLink g fuel s l.node x) s
          let d := s.linkDynamic link
          if d > (s.nodeAt target).dynamic then
            { s with nodes := s.nodes.modify target fun n => { n with dynamic := d } }
          else s
      | none =>
        if node.links.size ≥ maxLinks then s
        else
          { s with nodes := s.nodes.set! target { node with
              links := node.links.push link
              nodeCount := max node.nodeCount (s.linkCount g link)
              dynamic := max node.dynamic (s.linkDynamic link) } }

/-- Joins the second top to the first one, if they can be joined. -/
def merge (g : Productions) (v w : Nat) : Bool × Stack :=
  if !s.canMerge v w then (false, s)
  else
    let target := (s.head v).node
    let s := (s.top w).links.foldl (fun t l => addLink g (s.nodes.size + 1) t target l) s
    let s := if (s.nodeAt target).state == 0 then
        { s with heads := s.heads.modify v fun h =>
            { h with nodeCountAtError := (s.nodeAt target).nodeCount } }
      else s
    (true, s.remove w)

/-- A walk down the stack: the node reached and the subtrees passed, the deepest first. -/
structure Walk where
  node : Nat
  trees : List Subtree
  count : Nat

/-- Subtrees that were taken off, and the top that is left. -/
structure Slice where
  version : Nat
  trees : List Subtree

/-- What a walk does at a node. -/
structure Verdict where
  take : Bool
  stop : Bool

/-- Adds a taken slice: a walk that ends in the node of an earlier slice shares its top. -/
def addSlice (s : Stack) (slices : Array Slice) (original node : Nat) (trees : List Subtree) :
    Stack × Array Slice :=
  let shared := (List.range slices.size).reverse.find? fun i =>
    (s.head (slices.getD i ⟨0, []⟩).version).node == node
  match shared with
  | some i =>
    (s, slices.insertIdxIfInBounds (i + 1) ⟨(slices.getD i ⟨0, []⟩).version, trees⟩)
  | none =>
    let h := s.head original
    ({ s with heads := s.heads.push { node, nodeCountAtError := h.nodeCountAtError } },
      slices.push ⟨s.heads.size, trees⟩)

/-- The walks one step below a walk: its own place is taken by the first link, the other links
start walks at the end. -/
def stepDown (s : Stack) (w : Walk) : List Walk :=
  (s.nodeAt w.node).links.toList.map fun l =>
    match l.tree with
    | some t => ⟨l.node, t :: w.trees, if t.extra then w.count else w.count + 1⟩
    | none => ⟨l.node, w.trees, w.count + 1⟩

/-- One round over all walks. -/
def round {σ : Type} (original : Nat) (judge : σ → Walk → Verdict × σ) :
    List Walk → Nat → List Walk → List Walk → (Stack × Array Slice × σ) →
      List Walk × (Stack × Array Slice × σ)
  | [], _, kept, added, acc => (kept.reverse ++ added.reverse, acc)
  | w :: rest, total, kept, added, (s, slices, x) =>
    let (verdict, x) := judge x w
    let (s, slices) :=
      if verdict.take then addSlice s slices original w.node w.trees else (s, slices)
    match stepDown s w with
    | [] => round original judge rest (total - 1) kept added (s, slices, x)
    | first :: others =>
      if verdict.stop then round original judge rest (total - 1) kept added (s, slices, x)
      else
        let room := maxIterators - total
        let others := others.take room
        round original judge rest (total + others.length) (first :: kept)
          (others.reverse ++ added) (s, slices, x)

/-- Walks down from a top until every walk has stopped. `fuel` bounds the depth. -/
def walk {σ : Type} (original : Nat) (judge : σ → Walk → Verdict × σ) :
    Nat → List Walk → (Stack × Array Slice × σ) → (Stack × Array Slice × σ)
  | 0, _, acc => acc
  | _, [], acc => acc
  | fuel + 1, walks, acc =>
    let (walks, acc) := round original judge walks walks.length [] [] acc
    walk original judge fuel walks acc

def walkFrom {σ : Type} (v : Nat) (x : σ) (judge : σ → Walk → Verdict × σ) :
    Stack × Array Slice × σ :=
  walk v judge (s.nodes.size + 1) [⟨(s.head v).node, [], 0⟩] (s, #[], x)

/-- Takes a number of subtrees off a top, not counting extras; one slice for each way. -/
def popCount (v count : Nat) : Stack × Array Slice :=
  let (s, slices, _) := s.walkFrom v () fun _ w =>
    let hit := w.count == count
    (⟨hit, hit⟩, ())
  (s, slices)

/-- Takes everything off a top. -/
def popAll (v : Nat) : Stack × Array Slice :=
  let (t, slices, _) := s.walkFrom v () fun _ w =>
    let hit := (s.nodeAt w.node).links.isEmpty
    (⟨hit, false⟩, ())
  (t, slices)

/-- Takes an error node off a top if one lies there; its children are the answer. -/
def popError (g : Productions) (v : Nat) : Stack × Option Subtree :=
  let hit := (s.top v).links.any fun l => match l.tree with
    | some t => t.isError g
    | none => false
  if !hit then (s, none)
  else
    let (s, slices, _) := s.walkFrom v false fun found w =>
      match w.trees.getLast? with
      | none => (⟨false, false⟩, found)
      | some t => if !found && t.isError g then (⟨true, true⟩, true) else (⟨false, true⟩, found)
    match slices[0]? with
    | none => (s, none)
    | some slice => (s.renumber slice.version v, slice.trees[0]?)

def maxSummaryDepth : Nat := 16

/-- Records where a top stands, down to a depth. -/
def recordSummary (v : Nat) : Stack :=
  let (t, _, summary) := s.walkFrom v (#[] : Array SummaryEntry) fun summary w =>
    if w.count > maxSummaryDepth then (⟨false, true⟩, summary)
    else
      let n := s.nodeAt w.node
      let known := summary.any fun e => e.depth == w.count && e.state == n.state
      (⟨false, false⟩, if known then summary else summary.push ⟨n.position, w.count, n.state⟩)
  { t with heads := t.heads.modify v fun h => { h with summary } }

/-- Whether text was read since the last error. -/
def hasAdvanced (v : Nat) : Bool :=
  let n := s.top v
  if n.errorCost == 0 then true
  else go (s.head v).nodeCountAtError (s.nodes.size + 1) n
where
  go (atError : Nat) : Nat → StackNode → Bool
    | 0, _ => false
    | fuel + 1, n =>
      match (n.links[0]?).bind fun l => l.tree.map fun t => (l.node, t) with
      | some (below, t) =>
        if t.stop > t.origin then true
        else if n.nodeCount > atError && t.errorCost == 0 then go atError fuel (s.nodeAt below)
        else false
      | none => false

end Stack
end ClassAtlas.Parsing
