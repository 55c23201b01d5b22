import ClassAtlas.Parsing.Automaton
import ClassAtlas.Parsing.Stack
import ClassAtlas.Lexing.Layout
/-!
# Steps of the parser

Reading a token, shifting, reducing and accepting on one top of the stack, and the choice between
tops. What happens when no top can go on is in `ClassAtlas.Parsing.Recovery`.
-/
namespace ClassAtlas.Parsing

open ClassAtlas.Grammar ClassAtlas.Lexing

/-- What does not change during a parse. -/
structure Env where
  grammar : Productions
  src : Source
  rules : LayoutRules

/-- The state of a parse. The automaton and the scanner grow but never change their answers. -/
structure Engine where
  automaton : Automaton
  scanner : Scanner
  stack : Stack
  finished : Option Subtree := none
  accepted : Nat := 0
deriving Inhabited

abbrev Parse := StateM Engine

/-- Tops kept after each round, and how many more a round may make. -/
def maxVersions : Nat := 6

def maxOverflow : Nat := 4

namespace Engine

def onStack (f : Stack → Stack) : Parse Unit := modify fun e => { e with stack := f e.stack }

def onStackGet {α : Type} (f : Stack → α × Stack) : Parse α := modifyGet fun e =>
  let stack := e.stack
  let (x, stack) := f stack
  (x, { e with stack })

def versionCount : Parse Nat := do pure (← get).stack.heads.size

def stateOf (v : Nat) : Parse Nat := do pure ((← get).stack.state v)

def positionOf (v : Nat) : Parse Nat := do pure ((← get).stack.position v)

def actions (state token : Nat) : Parse (Array Action) := modifyGet fun e =>
  let (r, a) := e.automaton.actions state token
  (r, { e with automaton := a })

/-- The state after a rule was read in a state. -/
def gotoState (state symbol : Nat) : Parse Nat := modifyGet fun e =>
  let (r, a) := e.automaton.next state symbol
  (r, { e with automaton := a })

/-- The state after a token, 0 if the last action on it is no shift. -/
def tokenState (state token : Nat) : Parse Nat := do
  let acts ← actions state token
  pure (match acts.back? with
    | some (.shift s _) => s
    | some .shiftExtra => state
    | _ => 0)

def push (env : Env) (v : Nat) (tree : Option Subtree) (state : Nat) : Parse Unit :=
  onStack (·.push env.grammar v tree state)

def merge (env : Env) (v w : Nat) : Parse Bool := onStackGet (·.merge env.grammar v w)

/-! ## Tokens -/

def acceptableOf (g : Productions) (valid : TokenSet) : Acceptable :=
  let has (i : Nat) : Bool := match g.layouts[i]? with
    | some t => valid.contains t
    | none => false
  { semicolon := has 0, templateChars := has 1, ternaryMark := has 2, htmlComment := has 3
    logicalOr := has 4, escape := has 5, regexPattern := has 6, jsxText := has 7
    signatureSemicolon := has 8 }

def scanTokens (env : Env) (tokens : TokenSet) (position : Nat) : Parse Scanner.Scan :=
  modifyGet fun e =>
    let scanner := e.scanner
    let (r, scanner) := scanner.scan env.src tokens position
    (r, { e with scanner })

/-- The layout token at a position. An empty one is ignored where it could be read for ever: just
after an error, or when it would not change the state. -/
def layoutToken (env : Env) (v state position : Nat) (valid : TokenSet) :
    Parse (Option (Nat × LayoutToken)) := do
  let from_ := if position == 0 && env.src.code 0 == 0xFEFF then 1 else position
  match Layout.scan env.src env.rules (acceptableOf env.grammar valid) from_ with
  | none => pure none
  | some t =>
    let symbol := env.grammar.layouts.getD t.kind 0
    if t.stop ≤ position then
      let next ← tokenState state symbol
      if next == state || !(← get).stack.hasAdvanced v then pure none else pure (some (symbol, t))
    else pure (some (symbol, t))

/-- The keyword a word is, if the state can go on with it. -/
def keywordFor (env : Env) (state start stop : Nat) : Parse (Option Nat) := do
  let text := String.ofList (env.src.chars.extract start stop).toList
  match (← get).scanner.keywords[text]? with
  | none => pure none
  | some k => do
    let acts ← actions state k
    pure (if acts.isEmpty then none else some k)

/-- Makes the token of a scan; a word that is a keyword here becomes the keyword. -/
def scannedLeaf (env : Env) (state position start : Nat) (token stop : Nat) : Parse Subtree := do
  if token == env.grammar.word then
    match ← keywordFor env state start stop with
    | some k => return Subtree.leaf env.grammar k position start stop true
    | none => return Subtree.leaf env.grammar token position start stop false
  else return Subtree.leaf env.grammar token position start stop false

/-- Skips characters until some token begins or the text ends. -/
def skipUnreadable (env : Env) (tokens : TokenSet) (origin start : Nat) :
    Nat → Nat → Nat → Parse Subtree
  | 0, _, stop => pure (.errorLeaf env.grammar origin start stop)
  | fuel + 1, reached, stop => do
    if reached == stop && reached ≥ env.src.size then
      return .errorLeaf env.grammar origin start stop
    let stop := if reached == stop then reached + 1 else reached
    let r ← scanTokens env tokens stop
    match r.found with
    | some _ => return .errorLeaf env.grammar origin start stop
    | none => skipUnreadable env tokens origin start fuel r.reached stop

/-- The next token of a top. Where the state accepts no token that stands there, any token is
read, and where there is none either, an unreadable stretch. -/
def lex (env : Env) (v state : Nat) : Parse Subtree := do
  let position ← positionOf v
  let e ← get
  let errorTokens := e.automaton.errorTokens
  let valid := if state == 0 then errorTokens else (e.automaton.states.getD state default).valid
  if state != 0 then
    match ← layoutToken env v state position valid with
    | some (symbol, t) =>
      return Subtree.leaf env.grammar symbol (min position t.start) t.start t.stop false
    | none => pure ()
    let r ← scanTokens env valid position
    match r.found with
    | some (t, stop) => return ← scannedLeaf env state position r.start t stop
    | none => pure ()
  let r ← scanTokens env errorTokens position
  match r.found with
  | some (t, stop) => scannedLeaf env state position r.start t stop
  | none =>
    skipUnreadable env errorTokens position r.start (env.src.size + 2) r.reached r.start

/-! ## Reductions -/

/-- Splits off the extras at the end. -/
def splitExtras (trees : List Subtree) : List Subtree × List Subtree :=
  let extras := (trees.reverse.takeWhile (·.extra)).reverse
  (trees.take (trees.length - extras.length), extras)

/-- Of the ways in which one top was reached, the best children and the extras behind them. -/
def selectWay (env : Env) (symbol production position : Nat) :
    Subtree × List Subtree → List (List Subtree) → Subtree × List Subtree
  | best, [] => best
  | (tree, extras), trees :: rest =>
    let (children, extras') := splitExtras trees
    let other := Subtree.node env.grammar env.src symbol production position children.toArray
    let fuel := 4 * (env.src.size + 64)
    if Subtree.prefersSecond (fuel * 8) tree other then
      selectWay env symbol production position (other, extras') rest
    else selectWay env symbol production position (tree, extras) rest

/-- Slices grouped by the top they leave, in order. -/
def groupSlices : List Stack.Slice → List (Nat × List (List Subtree))
  | [] => []
  | s :: rest =>
    match groupSlices rest with
    | (v, ways) :: more =>
      if v == s.version then (v, s.trees :: ways) :: more
      else (s.version, [s.trees]) :: (v, ways) :: more
    | [] => [(s.version, [s.trees])]

/-- Joins a new top to an earlier one, if that is possible. -/
def mergeIntoEarlier (env : Env) (except_ v : Nat) : Nat → Nat → Parse Bool
  | 0, _ => pure false
  | fuel + 1, j =>
    if j ≥ v then pure false
    else if j == except_ then mergeIntoEarlier env except_ v fuel (j + 1)
    else do
      if ← merge env j v then pure true else mergeIntoEarlier env except_ v fuel (j + 1)

/-- Puts the parent of the popped children on each top they left. -/
def pushParents (env : Env) (version symbol production halted : Nat) (dynamic : Int) :
    List (Nat × List (List Subtree)) → Nat → Parse Unit
  | [], _ => pure ()
  | (v, ways) :: rest, removed => do
    let v := v - removed
    if v > maxVersions + maxOverflow + halted then
      onStack (·.remove v)
      pushParents env version symbol production halted dynamic rest (removed + 1)
    else
      let position ← positionOf v
      let (children, extras) := splitExtras (ways.headD [])
      let tree := Subtree.node env.grammar env.src symbol production position children.toArray
      let (tree, extras) := selectWay env symbol production position (tree, extras) ways.tail
      let state ← stateOf v
      let next ← gotoState state symbol
      push env v (some { tree with dynamic := tree.dynamic + dynamic }) next
      extras.forM fun x => push env v (some x) next
      let joined ← mergeIntoEarlier env version v (v + 1) 0
      pushParents env version symbol production halted dynamic rest
        (if joined then removed + 1 else removed)

/-- Reduces by a production on one top; answers the first new top. -/
def reduce (env : Env) (version production : Nat) : Parse (Option Nat) := do
  let p := env.grammar.productions.getD production default
  let before ← versionCount
  let halted := ((← get).stack.heads.filter (·.status.isHalted)).size
  let slices ← onStackGet fun s =>
    let (s, slices) := s.popCount version p.steps.size
    (slices, s)
  pushParents env version p.lhs production halted p.dynamic (groupSlices slices.toList) 0
  pure (if (← versionCount) > before then some before else none)

/-- Takes the last subtree that is no extra as the root and everything else as its children. -/
def rootOf (env : Env) (trees : List Subtree) : Subtree :=
  let back := trees.reverse
  let after := (back.takeWhile (·.extra)).reverse
  match back.drop after.length with
  | [] => Subtree.node env.grammar env.src (errorSymbol env.grammar) 0 0 trees.toArray
  | t :: before =>
    let children := (before.reverse.toArray ++ t.children) ++ after.toArray
    Subtree.node env.grammar env.src t.symbol t.production t.start children

/-- Ends a top at the end of the text; the best tree is kept. -/
def accept (env : Env) (version : Nat) (lookahead : Subtree) : Parse Unit := do
  push env version (some lookahead) 1
  let slices ← onStackGet fun s =>
    let (s, slices) := s.popAll version
    (slices, s)
  slices.toList.forM fun slice => modify fun e =>
    let root := rootOf env slice.trees
    let best := match e.finished with
      | some old => if Subtree.prefersSecond (8 * (env.src.size + 64)) old root then root else old
      | none => root
    { e with finished := some best, accepted := e.accepted + 1 }
  onStack (·.remove ((slices[0]?.map (·.version)).getD 0))
  onStack (·.halt version)

/-! ## Comparing tops -/

structure ErrorStatus where
  cost : Nat
  nodeCount : Nat
  dynamic : Int
  inError : Bool

inductive Preference where
  | takeLeft
  | preferLeft
  | none
  | preferRight
  | takeRight
deriving BEq

def compareStatus (a b : ErrorStatus) : Preference :=
  if !a.inError && b.inError then (if a.cost < b.cost then .takeLeft else .preferLeft)
  else if a.inError && !b.inError then (if b.cost < a.cost then .takeRight else .preferRight)
  else if a.cost < b.cost then
    if (b.cost - a.cost) * (1 + a.nodeCount) > costs.maxDifference then .takeLeft else .preferLeft
  else if b.cost < a.cost then
    if (a.cost - b.cost) * (1 + b.nodeCount) > costs.maxDifference then .takeRight
    else .preferRight
  else if a.dynamic > b.dynamic then .preferLeft
  else if b.dynamic > a.dynamic then .preferRight
  else .none

def nodeCountSinceError (v : Nat) : Parse Nat := onStackGet (·.nodeCountSinceError v)

def statusOf (v : Nat) : Parse ErrorStatus := do
  let count ← nodeCountSinceError v
  let s := (← get).stack
  let paused := (s.status v).isPaused
  pure {
    cost := s.errorCost v + (if paused then costs.skippedTree else 0)
    nodeCount := count
    dynamic := (s.top v).dynamic
    inError := paused || s.state v == 0 }

/-- Whether a top that would reach the given cost is not worth going on with. -/
def betterExists (version : Nat) (inError : Bool) (cost : Nat) : Parse Bool := do
  let beaten : Bool := match (← get).finished with
    | some t => decide (t.errorCost ≤ cost)
    | none => false
  if beaten then return true
  let count ← nodeCountSinceError version
  let position ← positionOf version
  let dynamic := ((← get).stack.top version).dynamic
  let status : ErrorStatus := ⟨cost, count, dynamic, inError⟩
  for i in [0:(← versionCount)] do
    let s := (← get).stack
    if i != version && (s.status i).isActive && s.position i ≥ position then
      match compareStatus status (← statusOf i) with
      | .takeRight => return true
      | .preferRight =>
        if (← get).stack.canMerge i version then return true
      | _ => pure ()
  return false

end Engine
end ClassAtlas.Parsing
