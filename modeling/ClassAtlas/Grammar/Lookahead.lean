import ClassAtlas.Grammar.Productions
/-!
# First sets and expansions

For every symbol the tokens that can begin it, and for every rule the rules that can stand at its
left edge together with the tokens that can follow them there. No rule but the start rule derives
the empty text, so one symbol of lookahead behind a step is always the first set of the next step.
-/
namespace ClassAtlas.Grammar

/-- A set of tokens: bit `t` is set when token `t` is a member. -/
abbrev TokenSet := Nat

namespace TokenSet

def empty : TokenSet := (0 : Nat)

def single (t : Nat) : TokenSet := (1 <<< t : Nat)

def union (a b : TokenSet) : TokenSet := (a ||| b : Nat)

def contains (s : TokenSet) (t : Nat) : Bool := Nat.testBit s t

/-- Members below a bound, in ascending order. -/
def toList (s : TokenSet) (bound : Nat) : List Nat := (List.range bound).filter s.contains

end TokenSet

/-- A rule at the left edge of another one: tokens that follow it there, and whether whatever
follows the outer rule can follow it too. -/
structure Expansion where
  rule : Nat
  follow : TokenSet
  propagates : Bool
deriving Inhabited

/-- A grammar with the tables that item sets are built from. -/
structure Tables where
  grammar : Productions
  /-- First set of each symbol. -/
  first : Array TokenSet
  /-- Tokens with which an alternative of the rule itself begins. -/
  leading : Array TokenSet
  /-- Productions of each rule that begin with each symbol, under the symbol. -/
  starting : Array (Array Nat)
  /-- Productions without steps. -/
  empties : Array Nat
  /-- Left edge of each rule, the rule itself included. -/
  expansions : Array (Array Expansion)
deriving Inhabited

namespace Tables

/-- One round of the first-set equations. -/
def firstRound (g : Productions) (first : Array TokenSet) : Array TokenSet :=
  g.productions.foldl (fun acc p =>
    match p.steps[0]? with
    | none => acc
    | some s => acc.modify p.lhs (·.union (acc.getD s.symbol .empty))) first

/-- Repeats a round until nothing changes. -/
def untilStable {α : Type} [BEq α] (f : α → α) : Nat → α → α
  | 0, x => x
  | fuel + 1, x =>
    let y := f x
    if y == x then x else untilStable f fuel y

def firstSets (g : Productions) : Array TokenSet :=
  let start := (Array.range g.symbols.size).map fun i =>
    if i < g.tokenCount then TokenSet.single i else .empty
  untilStable (firstRound g) g.symbols.size start

/-- Left corners of each rule: the rules its alternatives begin with, each with what follows it
there, or `none` where it ends the alternative. -/
def leftCorners (g : Productions) (first : Array TokenSet) :
    Array (Array (Nat × Option TokenSet)) :=
  g.productions.foldl (fun acc p =>
    match p.steps[0]? with
    | none => acc
    | some s =>
      if s.symbol < g.tokenCount then acc
      else
        let follow := p.steps[1]?.map fun t => first.getD t.symbol .empty
        acc.modify p.lhs fun l =>
          if l.contains (s.symbol, follow) then l else l.push (s.symbol, follow))
    (Array.replicate g.symbols.size #[])

/-- What is known of the rules at a left edge: tokens that follow, and whether the context does. -/
abbrev EdgeInfo := Array (Option (TokenSet × Bool))

def EdgeInfo.add (e : EdgeInfo) (v : Nat) (follow : TokenSet) (propagates : Bool) :
    EdgeInfo × Bool :=
  match e.getD v none with
  | none => (e.set! v (some (follow, propagates)), true)
  | some (f, p) =>
    let f' := f.union follow
    let p' := p || propagates
    if f' == f && p' == p then (e, false) else (e.set! v (some (f', p')), true)

/-- Works off the rules whose information changed. -/
def spread (corners : Array (Array (Nat × Option TokenSet))) :
    Nat → List Nat → EdgeInfo → EdgeInfo
  | 0, _, e => e
  | _, [], e => e
  | fuel + 1, v :: work, e =>
    match e.getD v none with
    | none => spread corners fuel work e
    | some (follow, propagates) =>
      let (e, work) := (corners.getD v #[]).foldl (fun (e, work) (u, next) =>
        let (e, changed) := match next with
          | some f => EdgeInfo.add e u f false
          | none => EdgeInfo.add e u follow propagates
        (e, if changed then u :: work else work)) (e, work)
      spread corners fuel work e

def expansionsOf (g : Productions) (corners : Array (Array (Nat × Option TokenSet))) (v : Nat) :
    Array Expansion :=
  let start : EdgeInfo := (Array.replicate g.symbols.size none).set! v (some (.empty, true))
  let e := spread corners (g.symbols.size * g.symbols.size) [v] start
  (Array.range e.size).filterMap fun u => (e.getD u none).map fun (f, p) => ⟨u, f, p⟩

def ofProductions (g : Productions) : Tables :=
  let first := firstSets g
  let corners := leftCorners g first
  let leading := g.productions.foldl (fun acc p =>
    match p.steps[0]? with
    | some s =>
      if s.symbol < g.tokenCount then acc.modify p.lhs (·.union (.single s.symbol)) else acc
    | none => acc) (Array.replicate g.symbols.size TokenSet.empty)
  let starting := (Array.range g.productions.size).foldl (fun acc i =>
    match (g.productions.getD i default).steps[0]? with
    | some s => acc.modify s.symbol (·.push i)
    | none => acc) (Array.replicate g.symbols.size #[])
  let expansions := (Array.range g.symbols.size).map fun v =>
    if v < g.tokenCount then #[] else expansionsOf g corners v
  let empties := (Array.range g.productions.size).filter fun i =>
    (g.productions.getD i default).steps.isEmpty
  ⟨g, first, leading, starting, empties, expansions⟩

end Tables
end ClassAtlas.Grammar
