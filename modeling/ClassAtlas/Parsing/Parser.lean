import ClassAtlas.Parsing.Recovery
/-!
# Parsing a text

All readings of a text advance side by side, token by token. After each round the worst ones are
dropped and equal ones are joined. The parse ends when the best finished tree has fewer errors than
any reading still under way could have. `Parser.parse` is what `parse_blocking` asks its workers
for.
-/
namespace ClassAtlas.Parsing

open ClassAtlas.Grammar ClassAtlas.Lexing

namespace Engine

/-- What came of the actions on a token. -/
inductive Outcome where
  /-- The token was used, or the top ended. -/
  | done
  /-- Reductions were made; the top goes on with the same token. -/
  | reduced (top : Option Nat)

/-- Carries out the actions of a state on a token. -/
def perform (env : Env) (version state : Nat) (lookahead : Subtree) :
    List Action → Outcome → Parse Outcome
  | [], out => pure out
  | act :: rest, out =>
    match act with
    | .shift target repetition =>
      if repetition then perform env version state lookahead rest out
      else do
        push env version (some lookahead) target
        pure .done
    | .shiftExtra => do
      push env version (some { lookahead with extra := true }) state
      pure .done
    | .reduce p => do
      let top ← reduce env version p
      let kept := match top, out with
        | none, .reduced old => old
        | t, _ => t
      perform env version state lookahead rest (.reduced kept)
    | .accept => do
      accept env version lookahead
      pure .done
    | .recover => do
      recover env version lookahead
      pure .done

/-- Uses one token on a top: reductions first, then a shift. A keyword that is not acceptable is
tried as a word; a token that is not acceptable at all pauses the top. `fuel` bounds the
reductions. -/
def useToken (env : Env) (version : Nat) (lookahead : Subtree) : Nat → Parse Unit
  | 0 => onStack (·.halt version)
  | fuel + 1 => do
    let state ← stateOf version
    let acts ← actions state lookahead.symbol
    if acts.isEmpty then
      let asWord ← if lookahead.keyword && lookahead.symbol != env.grammar.word then
          actions state env.grammar.word
        else pure #[]
      if !asWord.isEmpty then
        useToken env version { lookahead with symbol := env.grammar.word } fuel
      else if state == 0 then recover env version lookahead
      else onStack (·.setStatus version (.paused lookahead))
    else
      match ← perform env version state lookahead acts.toList (.reduced none) with
      | .done => pure ()
      | .reduced (some top) =>
        onStack (·.renumber top version)
        useToken env version lookahead fuel
      | .reduced none =>
        if acts.any (·.isReduce) then onStack (·.halt version)
        else
          let asWord ← if lookahead.keyword && lookahead.symbol != env.grammar.word then
              actions state env.grammar.word
            else pure #[]
          if !asWord.isEmpty then
            useToken env version { lookahead with symbol := env.grammar.word } fuel
          else onStack (·.setStatus version (.paused lookahead))

/-- Reads a token on a top and uses it. -/
def advance (env : Env) (version : Nat) : Parse Unit := do
  let state ← stateOf version
  let lookahead ← lex env version state
  useToken env version lookahead (16 * (env.src.size + 64))

/-- Advances a top until it is ahead of the tops before it. -/
def advanceTop (env : Env) (version : Nat) : Nat → Nat → Parse Nat
  | 0, last => pure last
  | fuel + 1, last => do
    if !((← get).stack.status version).isActive || version ≥ (← versionCount) then pure last
    else
      advance env version
      let position ← positionOf version
      if position > last || (version > 0 && position == last) then pure position
      else advanceTop env version fuel last

/-- Advances every top, also those that come up on the way. -/
def advanceAll (env : Env) : Nat → Nat → Nat → Parse Nat
  | 0, _, last => pure last
  | fuel + 1, version, last => do
    if version ≥ (← versionCount) then pure last
    else
      let last ← advanceTop env version (16 * (env.src.size + 64)) last
      advanceAll env fuel (version + 1) last

/-- Compares top `i`, which had the status `right`, with the tops before it. Answers which top
comes next. -/
def compareWithEarlier (env : Env) (right : ErrorStatus) : Nat → Nat → Nat → Parse Nat
  | 0, i, _ => pure i
  | fuel + 1, i, j => do
    if j ≥ i then pure (i + 1)
    else
      let left ← statusOf j
      match compareStatus left right with
      | .takeLeft =>
        onStack (·.remove i)
        pure i
      | .preferLeft | .none =>
        if ← merge env j i then pure i else compareWithEarlier env right fuel i (j + 1)
      | .preferRight =>
        if ← merge env j i then pure i
        else
          onStack (·.swap i j)
          compareWithEarlier env right fuel i (j + 1)
      | .takeRight =>
        onStack (·.remove j)
        compareWithEarlier env right fuel (i - 1) j

/-- Drops the tops that are clearly worse than others, joins equal ones and brings the better ones
to the front. Answers the least error cost of a top that is not in an error. -/
def condensePairs (env : Env) : Nat → Nat → Option Nat → Parse (Option Nat)
  | 0, _, least => pure least
  | fuel + 1, i, least => do
    if i ≥ (← versionCount) then pure least
    else if ((← get).stack.status i).isHalted then
      onStack (·.remove i)
      condensePairs env fuel i least
    else
      let status ← statusOf i
      let least := if status.inError then least else
        match least with
        | some c => some (min c status.cost)
        | none => some status.cost
      let i ← compareWithEarlier env status (i + 1) i 0
      condensePairs env fuel i least

/-- Resumes the best paused top if no other top is left, and drops the other paused ones. -/
def resume (env : Env) : Nat → Nat → Nat → Bool → Option Nat → Parse (Option Nat)
  | 0, _, _, _, least => pure least
  | fuel + 1, i, n, active, least => do
    if i ≥ n then pure least
    else
      match (← get).stack.status i with
      | .paused lookahead =>
        if !active && (← get).accepted < maxVersions then
          let cost := (← get).stack.errorCost i
          onStack (·.setStatus i .active)
          handleError env i lookahead
          resume env fuel (i + 1) n true (some cost)
        else
          onStack (·.remove i)
          resume env fuel i (n - 1) active least
      | _ => resume env fuel (i + 1) n true least

def condense (env : Env) : Parse (Option Nat) := do
  let least ← condensePairs env (4 * (← versionCount) + 64) 0 none
  onStack fun s => { s with heads := s.heads.take maxVersions }
  let n ← versionCount
  resume env (n + 1) 0 n false least

/-- Rounds until no top is left or the finished tree cannot be beaten. -/
def rounds (env : Env) : Nat → Nat → Parse Unit
  | 0, _ => pure ()
  | fuel + 1, last => do
    if (← versionCount) == 0 then pure ()
    else
      let last ← advanceAll env (16 * (env.src.size + 64)) 0 last
      let least ← condense env
      match (← get).finished, least with
      | some t, some c => if t.errorCost < c then pure () else rounds env fuel last
      | some _, none => pure ()
      | none, _ => rounds env fuel last

end Engine

/-- A grammar made ready for parsing; it keeps what earlier parses have worked out. -/
structure Parser where
  automaton : Automaton
  scanner : Scanner
  rules : LayoutRules
deriving Inhabited

namespace Parser

/-- Tokens that can only be told from others by the context are not read while skipping text. -/
def errorTokens (g : Productions) : TokenSet :=
  let contextual := ["unescaped_double_jsx_string_fragment", "unescaped_single_jsx_string_fragment",
    "unescaped_double_string_fragment", "unescaped_single_string_fragment", "regex_pattern",
    "jsx_identifier", "regex_flags", ""]
  (List.range g.lexemeCount).foldl (fun s t =>
    if contextual.contains (g.symbols.getD t default).rule then s else s.union (.single t))
    (List.range' g.lexemeCount (g.tokenCount - g.lexemeCount) |>.foldl
      (fun s t => s.union (.single t)) TokenSet.empty)

def ofGrammar (g : RuleSet) (rules : LayoutRules) : Parser :=
  let p := g.productions
  { automaton := Automaton.ofTables (Tables.ofProductions p) (errorTokens p)
    scanner := Scanner.ofProductions p
    rules }

/-- Parses a text; the tree is `none` only if the bound on the number of rounds was reached. -/
def parse (p : Parser) (src : Source) : Option Subtree × Parser :=
  let env : Env := ⟨p.automaton.grammar, src, p.rules⟩
  let rules := p.rules
  let start : Engine := {
    automaton := p.automaton, scanner := p.scanner, stack := Stack.new Automaton.startState }
  let ((), e) := (Engine.rounds env (16 * (src.size + 64)) 0).run start
  (e.finished, ⟨e.automaton, e.scanner, rules⟩)

end Parser
end ClassAtlas.Parsing
