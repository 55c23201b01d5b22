import ClassAtlas.Grammar.Lookahead
/-!
# The parsing automaton

Item sets with one token of lookahead, built when they are first entered and kept. A state answers
two questions: what can be done on a token (`Automaton.actions`), and which state follows a symbol
(`Automaton.next`). Conflicts are settled by precedence and associativity; where they do not settle
one, all actions stay and the parser follows each.

State 0 is the error state, which is no item set; state 1 is the start state.
-/
namespace ClassAtlas.Parsing

open ClassAtlas.Grammar
open Std (HashMap)

/-- What the parser can do on a token. A shift marked as a repetition is an ambiguity between the
two sides of a repeated rule and is not followed. -/
inductive Action where
  | shift (state : Nat) (repetition : Bool)
  | shiftExtra
  | reduce (production : Nat)
  | accept
  | recover
deriving BEq, Inhabited

namespace Action

def isReduce : Action → Bool
  | .reduce _ => true
  | _ => false

end Action

/-- Dotted productions, numbered in one row; items with equal past decorations and equal future
share the number `canonical`. -/
structure Items where
  offsets : Array Nat
  production : Array Nat
  dot : Array Nat
  canonical : Array Nat
deriving Inhabited

/-- What tells an item from another one. -/
structure ItemKey where
  lhs : Nat
  dynamic : Int
  length : Nat
  precedence : Precedence
  associativity : Option Associativity
  past : List (Option Alias × Option String)
  future : List (Nat × Precedence × Option Associativity × Option Alias × Option String)
deriving BEq, Hashable

def itemKey (p : Production) (dot : Nat) : ItemKey :=
  let steps := p.steps.toList
  let previous := if dot == 0 then none else p.steps[dot - 1]?
  { lhs := p.lhs
    dynamic := p.dynamic
    length := p.steps.size
    precedence := (previous.map (·.precedence)).getD .unset
    associativity := previous.bind (·.associativity)
    past := (steps.take dot).map fun s => (s.shownAs, s.field)
    future := (steps.drop dot).map fun s =>
      (s.symbol, s.precedence, s.associativity, s.shownAs, s.field) }

def Items.ofProductions (g : Productions) : Items := Id.run do
  let mut items : Items := ⟨#[], #[], #[], #[]⟩
  let mut seen : HashMap ItemKey Nat := {}
  for i in [0:g.productions.size] do
    let p := g.productions.getD i default
    items := { items with offsets := items.offsets.push items.production.size }
    for d in [0:p.steps.size + 1] do
      let id := items.production.size
      let key := itemKey p d
      let canonical := seen.getD key id
      seen := seen.insert key canonical
      items := { items with
        production := items.production.push i
        dot := items.dot.push d
        canonical := items.canonical.push canonical }
  return items

/-- An item and the tokens that may follow its rule. -/
abbrev Entry := Nat × TokenSet

/-- A state: the items it was entered with, the lookahead of every rule at their left edge, and the
tokens on which there is an action. -/
structure State where
  kernel : Array Entry
  reach : Array TokenSet
  valid : TokenSet
deriving Inhabited

/-- The states found so far, with the moves between them and the actions already worked out. -/
structure Automaton where
  tables : Tables
  items : Items
  states : Array State
  ids : HashMap (Array Entry) Nat
  moves : HashMap Nat Nat
  entries : HashMap Nat (Array Action)
  errorTokens : TokenSet
deriving Inhabited

namespace Automaton

def errorState : Nat := 0

def startState : Nat := 1

variable (a : Automaton)

def grammar : Productions := a.tables.grammar

def productionOf (item : Nat) : Production :=
  a.grammar.productions.getD (a.items.production.getD item 0) default

/-- The symbol behind the dot. -/
def nextSymbol (item : Nat) : Option Nat :=
  (a.productionOf item).steps[a.items.dot.getD item 0]?.map (·.symbol)

/-- The step before the dot. -/
def previousStep (item : Nat) : Option ProductionStep :=
  let d := a.items.dot.getD item 0
  if d == 0 then none else (a.productionOf item).steps[d - 1]?

/-- Lookaheads of the rules at the left edge of a set of items. -/
def reachOf (kernel : Array Entry) : Array TokenSet :=
  kernel.foldl (fun reach (item, lookahead) =>
    let p := a.productionOf item
    let d := a.items.dot.getD item 0
    match p.steps[d]? with
    | none => reach
    | some s =>
      if s.symbol < a.grammar.tokenCount then reach
      else
        let follow := match p.steps[d + 1]? with
          | some t => a.tables.first.getD t.symbol .empty
          | none => lookahead
        (a.tables.expansions.getD s.symbol #[]).foldl (fun reach x =>
          let more := if x.propagates then x.follow.union follow else x.follow
          reach.modify x.rule (·.union more)) reach)
    (Array.replicate a.grammar.symbols.size .empty)

/-- The tokens on which a set of items has an action. -/
def validOf (kernel : Array Entry) (reach : Array TokenSet) : TokenSet :=
  let extras := a.grammar.extras.foldl (fun s t => s.union (.single t)) TokenSet.empty
  let fromKernel := kernel.foldl (fun acc (item, lookahead) =>
    match a.nextSymbol item with
    | none => acc.union lookahead
    | some s => if s < a.grammar.tokenCount then acc.union (.single s) else acc) extras
  let fromEmpties := a.tables.empties.foldl (fun acc p =>
    acc.union (reach.getD (a.grammar.productions.getD p default).lhs .empty)) fromKernel
  (Array.range reach.size).foldl (fun acc v =>
    if reach.getD v .empty == .empty then acc
    else acc.union (a.tables.leading.getD v .empty)) fromEmpties

/-- The number of the state with the given items, which is made if it is new. -/
def intern (kernel : Array Entry) : Nat × Automaton :=
  match a.ids[kernel]? with
  | some i => (i, a)
  | none =>
    let reach := a.reachOf kernel
    let valid := a.validOf kernel reach
    let i := a.states.size
    (i, { a with states := a.states.push ⟨kernel, reach, valid⟩, ids := a.ids.insert kernel i })

/-- Adds an item, uniting lookaheads of equal items. -/
def addEntry (entries : Array Entry) (item : Nat) (lookahead : TokenSet) : Array Entry :=
  match entries.findIdx? (·.1 == item) with
  | some i => entries.modify i fun e => (e.1, e.2.union lookahead)
  | none => entries.push (item, lookahead)

/-- The items of a state moved over a symbol. -/
def successor (st : State) (symbol : Nat) : Array Entry :=
  let moved := st.kernel.foldl (fun acc (item, lookahead) =>
    if a.nextSymbol item == some symbol then
      addEntry acc (a.items.canonical.getD (item + 1) 0) lookahead
    else acc) #[]
  let all := (a.tables.starting.getD symbol #[]).foldl (fun acc p =>
    let lookahead := st.reach.getD (a.grammar.productions.getD p default).lhs .empty
    if lookahead == .empty then acc
    else addEntry acc (a.items.canonical.getD (a.items.offsets.getD p 0 + 1) 0) lookahead) moved
  all.insertionSort fun x y => x.1 < y.1

/-- The key of a state and a symbol; the two symbols of errors follow those of the grammar. -/
def key (state symbol : Nat) : Nat := state * (a.grammar.symbols.size + 2) + symbol

/-- The state after a symbol, 0 when there is none. -/
def next (state symbol : Nat) : Nat × Automaton :=
  let key := a.key state symbol
  match a.moves[key]? with
  | some s => (s, a)
  | none =>
    let kernel := a.successor (a.states.getD state default) symbol
    let (s, a) := if kernel.isEmpty then (0, a) else a.intern kernel
    (s, { a with moves := a.moves.insert key s })

/-- Whether an entry of a precedence ordering speaks of a precedence or of one of the rules. -/
def rankMatches (g : Productions) (r : Rank) (p : Precedence) (rules : List Nat) : Bool :=
  match r with
  | .level n => p == .named n
  | .rule n => rules.any fun s => (g.symbols.getD s default).rule == n

/-- Scans one ordering: the operand met first binds tighter, if both occur. -/
def compareIn (g : Productions) (lp : Precedence) (ls : List Nat) (rp : Precedence)
    (rs : List Nat) : List Rank → Bool → Bool → Option Ordering
  | [], _, _ => none
  | e :: rest, sawLeft, sawRight =>
    if rankMatches g e lp ls then
      if sawRight then some .lt else compareIn g lp ls rp rs rest true sawRight
    else if rankMatches g e rp rs then
      if sawLeft then some .gt else compareIn g lp ls rp rs rest sawLeft true
    else compareIn g lp ls rp rs rest sawLeft sawRight

/-- Compares two precedences: numbers as numbers, anything else by the first ordering that lists
both. -/
def comparePrecedence (g : Productions) (lp : Precedence) (ls : List Nat) (rp : Precedence)
    (rs : List Nat) : Ordering :=
  let ranked := (g.orderings.findSome? fun o => compareIn g lp ls rp rs o false false).getD .eq
  match lp, rp with
  | .level l, .level r => if l != 0 || r != 0 then compare l r else ranked
  | .level l, .unset => if l != 0 then compare l 0 else ranked
  | .unset, .level r => if r != 0 then compare 0 r else ranked
  | _, _ => ranked

/-- Reductions possible on one token, with what their comparison with a shift needs. -/
structure Reductions where
  productions : Array Nat := #[]
  precedence : Precedence := .unset
  rules : List Nat := []
  associativities : List (Option Associativity) := []

/-- Orders finished items: shorter productions first, then by rule. -/
def itemLt (x y : Nat) : Bool :=
  let dx := a.items.dot.getD x 0
  let dy := a.items.dot.getD y 0
  let lx := (a.productionOf x).lhs
  let ly := (a.productionOf y).lhs
  dx < dy || (dx == dy && (lx < ly || (lx == ly && x < y)))

/-- The reductions of a state on a token: of unequal precedences only the highest stays. -/
def reductions (st : State) (token : Nat) : Reductions :=
  let fromKernel := st.kernel.toList.filterMap fun (item, lookahead) =>
    if (a.nextSymbol item).isNone && lookahead.contains token then some item else none
  let fromReach := a.tables.empties.toList.filterMap fun p =>
    let q := a.grammar.productions.getD p default
    if (st.reach.getD q.lhs .empty).contains token then
      some (a.items.offsets.getD p 0) else none
  let finished := (fromKernel ++ fromReach).mergeSort fun x y => a.itemLt x y
  finished.foldl (fun r item =>
    let p := a.productionOf item
    let step := a.previousStep item
    let precedence := (step.map (·.precedence)).getD .unset
    let associativity := step.bind (·.associativity)
    let index := a.items.production.getD item 0
    let added (r : Reductions) : Reductions :=
      { productions := r.productions.push index
        precedence
        rules := if r.rules.contains p.lhs then r.rules else p.lhs :: r.rules
        associativities := associativity :: r.associativities }
    if r.productions.isEmpty then added {}
    else match comparePrecedence a.grammar precedence [p.lhs] r.precedence r.rules with
      | .gt => added {}
      | .eq => added r
      | .lt => r) {}

/-- Whether an alternative of the state could go on with the token, seen from the items that are
already begun. -/
def begunItems (st : State) (token : Nat) : List Nat :=
  st.kernel.toList.filterMap fun (item, _) =>
    match a.nextSymbol item with
    | some s =>
      if a.items.dot.getD item 0 > 0 && (a.tables.first.getD s .empty).contains token then some item
      else none
    | none => none

/-- Settles the choice between a shift and the reductions. -/
def settle (st : State) (token target : Nat) (r : Reductions) : Array Action :=
  let g := a.grammar
  let reduce := r.productions.map Action.reduce
  let begun := a.begunItems st token
  let lhs (item : Nat) : Nat := (a.productionOf item).lhs
  let owners := distinct (begun.map lhs ++ r.rules)
  match owners with
  | [v] =>
    if (g.symbols.getD v default).auxiliary then reduce.push (.shift target true)
    else byPrecedence g reduce begun lhs
  | _ => byPrecedence g reduce begun lhs
where
  byPrecedence (g : Productions) (reduce : Array Action) (begun : List Nat) (lhs : Nat → Nat) :
      Array Action :=
    let verdicts := begun.map fun item =>
      comparePrecedence g (((a.previousStep item).map (·.precedence)).getD .unset) [lhs item]
        r.precedence r.rules
    let more := verdicts.contains .gt
    let less := verdicts.contains .lt
    let shift := Action.shift target false
    if more && !less then #[shift]
    else if less && !more then reduce
    else if !more && !less then
      if r.associativities.all (· == some .left) then reduce
      else if r.associativities.all (· == some .right) then #[shift]
      else reduce.push shift
    else reduce.push shift

/-- The actions of an item set on a token, worked out anew. -/
def actionsOf (state token : Nat) : Array Action × Automaton :=
  let st := a.states.getD state default
  if !st.valid.contains token then (#[], a)
  else
    let r := a.reductions st token
    let reduce : Array Action :=
      if r.productions.contains 0 then #[.accept] else r.productions.map .reduce
    let (target, a) := a.next state token
    if target == 0 then
      if reduce.isEmpty then (if a.grammar.extras.contains token then #[.shiftExtra] else #[], a)
      else (reduce, a)
    else if reduce.isEmpty then (#[.shift target false], a)
    else (a.settle st token target r, a)

/-- The actions of a state on a token. -/
def actions (state token : Nat) : Array Action × Automaton :=
  if state == errorState then
    if a.grammar.extras.contains token then (#[.shiftExtra], a)
    else if a.errorTokens.contains token then (#[.recover], a)
    else (#[], a)
  else
    let key := a.key state token
    match a.entries[key]? with
    | some e => (e, a)
    | none =>
      let (e, a) := a.actionsOf state token
      (e, { a with entries := a.entries.insert key e })

/-- An automaton with the start state only. -/
def ofTables (t : Tables) (errorTokens : TokenSet) : Automaton :=
  let items := Items.ofProductions t.grammar
  let a : Automaton := ⟨t, items, #[default], {}, {}, {}, errorTokens⟩
  (a.intern #[(0, .single endSymbol)]).2

end Automaton
end ClassAtlas.Parsing
