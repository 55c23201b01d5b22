import Std.Data.HashMap
import ClassAtlas.Lexing.Nfa
/-!
# Scanning one token

The token automaton run on the text, over sets of its states. The sets and the steps between them
are worked out once and kept. A scan takes the longest match, except that a match of a stronger
token is not given up for a longer one of a weaker token.
-/
namespace ClassAtlas.Lexing

open ClassAtlas.Grammar
open Std (HashMap)

/-- The text with the byte offset and the row of every character, and of the end. -/
structure Source where
  chars : Array Char
  bytes : Array Nat
  rows : Array Nat
  /-- Byte offset of the start of each character's row. -/
  lineStarts : Array Nat
deriving Inhabited

namespace Source

def ofString (text : String) : Source := Id.run do
  let mut s : Source := ⟨#[], #[0], #[0], #[0]⟩
  let mut byte := 0
  let mut row := 0
  let mut line := 0
  for c in text.toList do
    byte := byte + c.utf8Size
    if c == '\n' then
      row := row + 1
      line := byte
    s := ⟨s.chars.push c, s.bytes.push byte, s.rows.push row, s.lineStarts.push line⟩
  return s

def size (s : Source) : Nat := s.chars.size

/-- Code point at a position, 0 at the end. -/
def code (s : Source) (i : Nat) : Nat := match s.chars[i]? with
  | some c => c.toNat
  | none => 0

def byte (s : Source) (i : Nat) : Nat := s.bytes.getD i 0

def row (s : Source) (i : Nat) : Nat := s.rows.getD i 0

/-- Byte offset within the row. -/
def column (s : Source) (i : Nat) : Nat := s.byte i - s.lineStarts.getD i 0

end Source

/-- A set of automaton states that a scan can be in. -/
structure ScanState where
  states : Array Nat
  completion : Option (Nat × Int)
  hasBlank : Bool
deriving Inhabited

/-- A step to another scan state, and whether the character is part of the gap. -/
abbrev ScanStep := Option (Nat × Bool)

/-- The token automaton with the scan states found so far. -/
structure Scanner where
  nfa : Nfa
  /-- Rank of each token among tokens of equal precedence. -/
  implicit : Array Nat
  /-- The word token and the keywords, which are read as words first. -/
  word : Nat
  keywords : HashMap String Nat
  keywordSet : TokenSet
  states : Array ScanState := #[]
  ids : HashMap (Array Nat) Nat := {}
  starts : HashMap TokenSet Nat := {}
  steps : HashMap Nat ScanStep := {}
deriving Inhabited

namespace Scanner

/-- Literal texts outrank patterns; an immediate token outranks one that is not. -/
def implicitRank : Lexeme → Nat
  | .text _ => 2
  | .pattern p =>
    let literal := match p.regex with
      | .seq [.set ⟨[_]⟩] => 2
      | _ => 0
    if p.immediate then literal + 1 else literal

def isKeyword : Lexeme → Bool
  | .text s => s.toList.all Char.isAlpha
  | .pattern _ => false

def ofProductions (g : Productions) : Scanner :=
  let keywords := (List.range g.lexemeCount).tail.filterMap fun t =>
    match g.lexemes.getD t default with
    | .text s => if isKeyword (.text s) then some (s, t) else none
    | .pattern _ => none
  { nfa := Nfa.ofProductions g
    implicit := g.lexemes.map implicitRank
    word := g.word
    keywords := HashMap.ofList keywords
    keywordSet := keywords.foldl (fun s k => s.union (.single k.2)) TokenSet.empty }

variable (sc : Scanner)

/-- Whether one completed token is kept over another. -/
def prefers (x y : Nat × Int) : Bool :=
  x.2 > y.2 || (x.2 == y.2 &&
    let i := sc.implicit.getD x.1 0
    let j := sc.implicit.getD y.1 0
    i > j || (i == j && x.1 < y.1))

def completionOf (states : Array Nat) : Option (Nat × Int) :=
  states.foldl (fun best s =>
    match sc.nfa.states.getD s default with
    | .accept t p => match best with
      | some b => if sc.prefers b (t, p) then best else some (t, p)
      | none => some (t, p)
    | _ => best) none

def intern (states : Array Nat) : Nat × Scanner :=
  match sc.ids[states]? with
  | some i => (i, sc)
  | none =>
    let hasBlank := states.any fun s => match sc.nfa.states.getD s default with
      | .advance _ _ _ b => b
      | _ => false
    let i := sc.states.size
    (i, { sc with
      states := sc.states.push ⟨states, sc.completionOf states, hasBlank⟩
      ids := sc.ids.insert states i })

/-- The scan state in which exactly the given tokens can begin; keywords begin as words. -/
def start (tokens : TokenSet) : Nat × Scanner :=
  match sc.starts[tokens]? with
  | some i => (i, sc)
  | none =>
    let heads := (List.range sc.nfa.starts.size).filterMap fun t =>
      let wanted := if t == sc.word then
          tokens.contains t || (tokens &&& sc.keywordSet : Nat) != 0
        else tokens.contains t && !sc.keywordSet.contains t
      if wanted then some (sc.nfa.starts.getD t 0) else none
    let (i, sc) := sc.intern (sc.nfa.closure heads)
    (i, { sc with starts := sc.starts.insert tokens i })

/-- The step on a character, worked out anew. -/
def stepAnew (state code : Nat) : ScanStep × Scanner :=
  let st := sc.states.getD state default
  let hits := st.states.toList.filterMap fun s =>
    match sc.nfa.states.getD s default with
    | .advance chars next p blank =>
      if chars.contains code then some (next, p, blank, sc.nfa.owner.getD s 0) else none
    | _ => none
  match hits with
  | [] => (none, sc)
  | (_, p, _, _) :: rest =>
    let precedence := rest.foldl (fun m h => max m h.2.1) p
    let blank := hits.all fun h => h.2.2.1
    let taken := match st.completion with
      | none => true
      | some (t, q) =>
        if precedence < q then false
        else if precedence == q then
          !blank && !(st.hasBlank && hits.all fun h => h.2.2.2 != t)
        else true
    if taken then
      let (i, sc) := sc.intern (sc.nfa.closure (hits.map (·.1)))
      (some (i, blank), sc)
    else (none, sc)

def step (state code : Nat) : ScanStep × Scanner :=
  let key := state * 0x110000 + code
  match sc.steps[key]? with
  | some r => (r, sc)
  | none =>
    let (r, sc) := sc.stepAnew state code
    (r, { sc with steps := sc.steps.insert key r })

/-- What a scan found: where the gap ended, the token and its end, and how far it read. -/
structure Scan where
  start : Nat
  found : Option (Nat × Nat)
  reached : Nat
deriving Inhabited

/-- Runs on from a position; `inGap` holds while only blanks were read. -/
def run (src : Source) (endAllowed : Bool) :
    Nat → Scanner → Nat → Nat → Bool → Scan → Scan × Scanner
  | 0, sc, _, _, _, r => (r, sc)
  | fuel + 1, sc, state, i, inGap, r =>
    let r := match (sc.states.getD state default).completion with
      | some (t, _) => { r with found := some (t, i) }
      | none => r
    match src.chars[i]? with
    | none =>
      if endAllowed && inGap then ({ r with found := some (endSymbol, i), reached := i }, sc)
      else ({ r with reached := i }, sc)
    | some c =>
      let (next, sc) := sc.step state c.toNat
      match next with
      | none => ({ r with reached := i }, sc)
      | some (s, blank) =>
        let r := if blank then { r with start := i + 1 } else r
        run src endAllowed fuel sc s (i + 1) (inGap && blank) r

/-- Scans for the longest of the given tokens at a position. A byte order mark at the very start
belongs to the gap. -/
def scan (src : Source) (tokens : TokenSet) (position : Nat) : Scan × Scanner :=
  let from_ := if position == 0 && src.code 0 == 0xFEFF then 1 else position
  let (state, sc) := sc.start tokens
  run src (tokens.contains endSymbol) (src.size + 2 - from_) sc state from_ true
    ⟨from_, none, from_⟩

end Scanner
end ClassAtlas.Lexing
