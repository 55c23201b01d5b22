import ClassAtlas.Parsing.Engine
/-!
# Recovering from errors

When no reading of the text can go on, the parser looks for the cheapest repair: a token that is
missing, a stretch of text to skip, or an earlier state in which the next token is acceptable. All
repairs compete by the cost of their errors.
-/
namespace ClassAtlas.Parsing

open ClassAtlas.Grammar ClassAtlas.Lexing

namespace Engine

/-- The reductions of a state on some tokens, one for each rule and length, and whether one of the
tokens can be shifted. -/
def collectReductions (env : Env) (state : Nat) :
    List Nat → Array Nat → Bool → Parse (Array Nat × Bool)
  | [], found, shifts => pure (found, shifts)
  | token :: rest, found, shifts => do
    let acts ← actions state token
    let (found, shifts) := acts.foldl (fun (found, shifts) act =>
      match act with
      | .shift _ repetition => (found, shifts || !repetition)
      | .recover => (found, true)
      | .reduce p =>
        let q := env.grammar.productions.getD p default
        let known := q.steps.isEmpty || found.any fun o =>
          let r := env.grammar.productions.getD o default
          r.lhs == q.lhs && r.steps.size == q.steps.size
        (if known then found else found.push p, shifts)
      | _ => (found, shifts)) (found, shifts)
    collectReductions env state rest found shifts

def mergeAny (env : Env) (version : Nat) : Nat → Nat → Parse Bool
  | 0, _ => pure false
  | fuel + 1, j =>
    if j ≥ version then pure false
    else do
      if ← merge env j version then pure true else mergeAny env version fuel (j + 1)

/-- Does every reduction that is possible on a token, or on any token at all, on a top and on the
tops that come from it. Answers whether one of them can then shift the token. `round` counts. -/
def reduceAll (env : Env) (start initial : Nat) (token : Option Nat) :
    Nat → Nat → Nat → Bool → Parse Bool
  | 0, _, _, can => pure can
  | fuel + 1, round, version, can => do
    let count ← versionCount
    if version ≥ count then return can
    if ← mergeAny env version (version + 1) initial then
      return ← reduceAll env start initial token fuel (round + 1) version can
    let state ← stateOf version
    let automaton := (← get).automaton
    let valid := if state == 0 then automaton.errorTokens
      else (automaton.states.getD state default).valid
    let tokens := match token with
      | some t => [t]
      | none => (List.range env.grammar.tokenCount).tail.filter valid.contains
    let (reductions, shifts) ← collectReductions env state tokens #[] false
    let mut last : Option Nat := none
    for p in reductions do
      last ← reduce env version p
    let can := can || shifts
    match shifts, last with
    | false, some r =>
      if round < maxVersions then
        onStack (·.renumber r version)
        return ← reduceAll env start initial token fuel (round + 1) version can
      else dropUnless env start initial token fuel round version count can shifts
    | _, _ => dropUnless env start initial token fuel round version count can shifts
where
  dropUnless (env : Env) (start initial : Nat) (token : Option Nat) (fuel round version count : Nat)
      (can shifts : Bool) : Parse Bool := do
    if !shifts && token.isSome then onStack (·.remove version)
    let next := if version == start then count else version + 1
    reduceAll env start initial token fuel (round + 1) next can

def doAllReductions (env : Env) (version : Nat) (token : Option Nat) : Parse Bool := do
  let initial ← versionCount
  reduceAll env version initial token 4096 0 version false

/-- Cuts a top back by a number of subtrees to a state in which it can go on; what was cut off
becomes an error. -/
def recoverTo (env : Env) (version depth goal : Nat) : Parse Bool := do
  let slices ← onStackGet fun s =>
    let (s, slices) := s.popCount version depth
    (slices, s)
  go slices.toList none
where
  go : List Stack.Slice → Option Nat → Parse Bool
    | [], previous => pure previous.isSome
    | slice :: rest, previous => do
      if previous == some slice.version then go rest previous
      else if (← stateOf slice.version) != goal then
        onStack (·.halt slice.version)
        go rest previous
      else
        let error ← onStackGet fun s =>
          let (s, t) := s.popError env.grammar slice.version
          (t, s)
        let inner := match error with
          | some t => t.children.toList
          | none => []
        let (trees, extras) := splitExtras (inner ++ slice.trees)
        if !trees.isEmpty then
          let node := Subtree.node env.grammar env.src (errorSymbol env.grammar) 0 0 trees.toArray
          push env slice.version (some { node with extra := true }) goal
        extras.forM fun x => push env slice.version (some x) goal
        go rest (some slice.version)

/-- Looks for an earlier state that can go on with the token. -/
def recoverEarlier (env : Env) (version : Nat) (lookahead : Subtree) (position count cost : Nat)
    (versions : Nat) : List SummaryEntry → Parse Bool
  | [] => pure false
  | entry :: rest => do
    let again := recoverEarlier env version lookahead position count cost versions rest
    if entry.state == 0 || entry.position == position then again
    else
      let depth := if count > 0 then entry.depth + 1 else entry.depth
      let s := (← get).stack
      let redundant := (List.range versions).any fun j =>
        s.state j == entry.state && s.position j == position
      if redundant then again
      else
        let src := env.src
        let newCost := cost + entry.depth * costs.skippedTree +
          (src.byte position - src.byte entry.position) * costs.skippedChar +
          (src.row position - src.row entry.position) * costs.skippedLine
        if ← betterExists version false newCost then pure false
        else if (← actions entry.state lookahead.symbol).isEmpty then again
        else if ← recoverTo env version depth entry.state then pure true
        else again

/-- Removes the tops from a place on that are not active. -/
def removeInactive : Nat → Nat → Parse Unit
  | 0, _ => pure ()
  | fuel + 1, i => do
    if i ≥ (← versionCount) then pure ()
    else if ((← get).stack.status i).isActive then removeInactive fuel (i + 1)
    else
      onStack (·.remove i)
      removeInactive fuel i

/-- Wraps the token, and the error before it, into an error under way. -/
def skipToken (env : Env) (version : Nat) (lookahead : Subtree) (count : Nat) : Parse Unit := do
  let g := env.grammar
  let acts ← actions Automaton.startState lookahead.symbol
  let extra := match acts.back? with
    | some .shiftExtra => true
    | _ => false
  let token := if extra then { lookahead with extra := true } else lookahead
  let mut error := Subtree.node g env.src (errorRepeatSymbol g) 0 0 #[token]
  if count > 0 then
    let slices ← onStackGet fun s =>
      let (s, slices) := s.popCount version 1
      (slices, s)
    match slices[0]? with
    | none => pure ()
    | some slice =>
      if slices.size > 1 then
        onStack fun s => { s with heads := s.heads.take (slice.version + 1) }
      onStack (·.renumber slice.version version)
      error := Subtree.node g env.src (errorRepeatSymbol g) 0 0 (slice.trees ++ [error]).toArray
  push env version (some error) 0

/-- Goes on from an error on a top: back to an earlier state, and past the token. -/
def recover (env : Env) (version : Nat) (lookahead : Subtree) : Parse Unit := do
  let versions ← versionCount
  let position ← positionOf version
  let count ← nodeCountSinceError version
  let cost := (← get).stack.errorCost version
  let summary := ((← get).stack.head version).summary
  let recovered ← if lookahead.isError env.grammar then pure false
    else recoverEarlier env version lookahead position count cost versions summary.toList
  removeInactive (versions + 64) versions
  if recovered && (← versionCount) > maxVersions then
    onStack (·.halt version)
  else if lookahead.symbol == endSymbol then
    let error := Subtree.node env.grammar env.src (errorSymbol env.grammar) 0 position #[]
    push env version (some error) 1
    accept env version lookahead
  else
    let src := env.src
    let newCost := cost + costs.skippedTree +
      (src.byte lookahead.stop - src.byte lookahead.origin) * costs.skippedChar +
      (src.row lookahead.stop - src.row lookahead.origin) * costs.skippedLine
    if ← betterExists version false newCost then onStack (·.halt version)
    else skipToken env version lookahead count

/-- Tries to go on as if one token stood before the next one. -/
def insertMissing (env : Env) (v state : Nat) (lookahead : Subtree) (position : Nat) :
    List Nat → Parse Bool
  | [] => pure false
  | symbol :: rest => do
    let again := insertMissing env v state lookahead position rest
    let after ← tokenState state symbol
    if after == 0 || after == state then again
    else
      let acts ← actions after lookahead.symbol
      let reduces := match acts[0]? with
        | some x => x.isReduce
        | none => false
      if !reduces then again
      else
        let w ← versionCount
        onStack (·.copy v)
        push env w (some (.missingLeaf env.grammar symbol position)) after
        let token := if lookahead.symbol == endSymbol then none else some lookahead.symbol
        if ← doAllReductions env w token then pure true else again

/-- Starts recovery on a top whose next token is not acceptable. -/
def handleError (env : Env) (version : Nat) (lookahead : Subtree) : Parse Unit := do
  let previous ← versionCount
  let _ ← doAllReductions env version none
  let count ← versionCount
  let position ← positionOf version
  let mut inserted := false
  for v in version :: (List.range count).filter (previous ≤ ·) do
    if !inserted then
      let state ← stateOf v
      inserted ← insertMissing env v state lookahead position
        (List.range env.grammar.tokenCount).tail
    push env v none 0
  for _ in [previous:count] do
    let _ ← merge env version previous
  onStack (·.recordSummary version)
  recover env version lookahead

end Engine
end ClassAtlas.Parsing
