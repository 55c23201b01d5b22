import ClassAtlas.Grammar.Productions
import ClassAtlas.Lexing.Scanner
/-!
# Subtrees

What lies on the parse stack: tokens and the nodes built from them, hidden ones included. Each
subtree carries the sums the parser compares: its error cost, its dynamic precedence and the number
of visible nodes in it.
-/
namespace ClassAtlas.Parsing

open ClassAtlas.Grammar ClassAtlas.Lexing

/-- What errors cost when two ways to read a text are compared. -/
structure ErrorCosts where
  recovery : Nat
  missing : Nat
  skippedTree : Nat
  skippedChar : Nat
  skippedLine : Nat
  /-- A difference, weighted by progress, above which the worse way is given up at once. -/
  maxDifference : Nat

def costs : ErrorCosts := ⟨500, 110, 100, 1, 30, 1800⟩

/-- A token or a node. `origin` is where the gap before it begins. -/
structure Subtree where
  symbol : Nat
  origin : Nat
  start : Nat
  stop : Nat
  production : Nat := 0
  extra : Bool := false
  missing : Bool := false
  keyword : Bool := false
  visible : Bool
  errorCost : Nat := 0
  dynamic : Int := 0
  /-- Visible nodes below this one. -/
  descendants : Nat := 0
  /-- Visible nodes directly below this one, hidden nodes taken as their own children. -/
  visibleChildren : Nat := 0
  children : Array Subtree := #[]
deriving Inhabited

/-- The symbols of a stretch of text that could not be read: a finished one, and one under way. -/
def errorSymbol (g : Productions) : Nat := g.symbols.size

def errorRepeatSymbol (g : Productions) : Nat := g.symbols.size + 1

def isVisibleSymbol (g : Productions) (s : Nat) : Bool :=
  s == errorSymbol g || (g.symbols.getD s default).shape != .hidden

namespace Subtree

def isError (g : Productions) (t : Subtree) : Bool := t.symbol == errorSymbol g

/-- Where the alias of a step applies: the steps of a production are its children but extras. -/
def aliasAt (g : Productions) (production index : Nat) : Option Alias :=
  ((g.productions.getD production default).steps[index]?).bind (·.shownAs)

def leaf (g : Productions) (symbol origin start stop : Nat) (keyword : Bool) : Subtree :=
  { symbol, origin, start, stop, keyword
    extra := symbol == endSymbol
    visible := isVisibleSymbol g symbol }

/-- A token that was expected and is not there. -/
def missingLeaf (g : Productions) (symbol position : Nat) : Subtree :=
  { leaf g symbol position position position false with
    missing := true, errorCost := costs.missing + costs.recovery }

/-- Characters that belong to no token. -/
def errorLeaf (g : Productions) (origin start stop : Nat) : Subtree :=
  { symbol := errorSymbol g, origin, start, stop, visible := true }

/-- Sums over the children, with the number of children passed that are no extras. -/
structure Sums where
  errorCost : Nat := 0
  dynamic : Int := 0
  descendants : Nat := 0
  visibleChildren : Nat := 0
  index : Nat := 0

/-- A node over children that lie next to each other; `position` is where it lies if it has none. -/
def node (g : Productions) (src : Source) (symbol production position : Nat)
    (children : Array Subtree) : Subtree :=
  let isError := symbol == errorSymbol g || symbol == errorRepeatSymbol g
  let sums := children.foldl (fun (s : Sums) c =>
    let childCost := if c.symbol == errorRepeatSymbol g then 0 else c.errorCost
    let skipped :=
      if isError && !c.extra && !(c.isError g && c.children.isEmpty) then
        if c.visible then costs.skippedTree
        else if c.children.isEmpty then 0
        else costs.skippedTree * c.visibleChildren
      else 0
    let aliased := !isError && !c.extra && (aliasAt g production s.index).isSome
    { errorCost := s.errorCost + childCost + skipped
      dynamic := s.dynamic + c.dynamic
      descendants := s.descendants + c.descendants + (if aliased || c.visible then 1 else 0)
      visibleChildren := s.visibleChildren +
        (if aliased || c.visible then 1 else c.visibleChildren)
      index := if c.extra then s.index else s.index + 1 }) {}
  let first := children[0]?
  let origin := (first.map (·.origin)).getD position
  let start := (first.map (·.start)).getD position
  let stop := (children.back?.map (·.stop)).getD position
  let spanCost := if isError then
      costs.recovery + costs.skippedChar * (src.byte stop - src.byte start) +
        costs.skippedLine * (src.row stop - src.row start)
    else 0
  { symbol, origin, start, stop, production, children
    visible := isVisibleSymbol g symbol
    errorCost := sums.errorCost + spanCost
    dynamic := sums.dynamic
    descendants := sums.descendants
    visibleChildren := sums.visibleChildren }

/-- Nodes that show progress: the visible ones, and stretches of skipped text. -/
def nodeCount (g : Productions) (t : Subtree) : Nat :=
  t.descendants + (if t.visible then 1 else 0) + (if t.symbol == errorRepeatSymbol g then 1 else 0)

/-- The symbol of the first token. `fuel` bounds the depth. -/
def leafSymbol : Nat → Subtree → Nat
  | 0, t => t.symbol
  | fuel + 1, t => match t.children[0]? with
    | some c => leafSymbol fuel c
    | none => t.symbol

/-- Compares two readings of one text symbol by symbol, from the left. -/
def compareTrees : Nat → List (Subtree × Subtree) → Ordering
  | 0, _ => .eq
  | _, [] => .eq
  | fuel + 1, (l, r) :: rest =>
    if l.symbol < r.symbol then .lt
    else if r.symbol < l.symbol then .gt
    else if l.children.size < r.children.size then .lt
    else if r.children.size < l.children.size then .gt
    else compareTrees fuel ((l.children.zip r.children).toList ++ rest)

/-- Whether the second of two readings is kept: the one with fewer errors, then the one of higher
dynamic precedence, then the one whose symbols come first. -/
def prefersSecond (fuel : Nat) (l r : Subtree) : Bool :=
  if r.errorCost < l.errorCost then true
  else if l.errorCost < r.errorCost then false
  else if r.dynamic > l.dynamic then true
  else if l.dynamic > r.dynamic then false
  else if l.errorCost > 0 then true
  else compareTrees fuel [(l, r)] == .gt

end Subtree
end ClassAtlas.Parsing
