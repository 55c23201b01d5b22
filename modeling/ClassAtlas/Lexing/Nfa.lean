import ClassAtlas.Grammar.Lookahead
/-!
# Token automata

All token patterns compiled into one nondeterministic automaton. A token that may follow a gap
begins with a loop over blanks; an immediate one does not. Every transition carries the precedence
of its token, which decides whether a longer match of a weaker token beats a shorter match of a
stronger one.
-/
namespace ClassAtlas.Lexing

open ClassAtlas.Grammar

/-- A state of the token automaton. -/
inductive NfaState where
  | advance (chars : CharSet) (next : Nat) (precedence : Int) (blank : Bool)
  | split (a b : Nat)
  | accept (token : Nat) (precedence : Int)
deriving Inhabited

/-- The token automaton: its states, the token each one belongs to, and where each token starts. -/
structure Nfa where
  states : Array NfaState := #[]
  owner : Array Nat := #[]
  starts : Array Nat := #[]
deriving Inhabited

namespace Nfa

/-- Building an automaton: states are added in front of those already there. -/
abbrev Build := StateM Nfa

def push (owner : Nat) (s : NfaState) : Build Nat := modifyGet fun n =>
  (n.states.size, { n with states := n.states.push s, owner := n.owner.push owner })

mutual

/-- Adds states for a pattern that goes on at `next`, and answers where it starts. -/
def add (token : Nat) (precedence : Int) (blank : Bool) (next : Nat) : Regex → Build Nat
  | .epsilon => pure next
  | .set chars => push token (.advance chars next precedence blank)
  | .seq parts => addSeq token precedence blank next parts
  | .alt options => addAlt token precedence blank next options
  | .star body => do
    let loop ← push token (.split next next)
    let start ← add token precedence blank loop body
    modify fun n => { n with states := n.states.set! loop (.split start next) }
    pure loop

def addSeq (token : Nat) (precedence : Int) (blank : Bool) (next : Nat) : List Regex → Build Nat
  | [] => pure next
  | r :: rs => do
    let rest ← addSeq token precedence blank next rs
    add token precedence blank rest r

def addAlt (token : Nat) (precedence : Int) (blank : Bool) (next : Nat) : List Regex → Build Nat
  | [] => push token (.advance .empty next precedence blank)
  | [r] => add token precedence blank next r
  | r :: rs => do
    let a ← add token precedence blank next r
    let b ← addAlt token precedence blank next rs
    push token (.split a b)

end

/-- Pattern, gap rule and precedence of a token. -/
def patternOf : Lexeme → TokenPattern
  | .text s => ⟨.text s, false, 0⟩
  | .pattern p => p

def addToken (blanks : CharSet) (token : Nat) (x : Lexeme) : Build Unit := do
  let p := patternOf x
  let final ← push token (.accept token p.precedence)
  let body ← add token p.precedence false final p.regex
  let start ← if p.immediate then pure body else do
    let loop ← push token (.split body body)
    let gap ← push token (.advance blanks loop 0 true)
    modify fun n => { n with states := n.states.set! loop (.split gap body) }
    pure loop
  modify fun n => { n with starts := n.starts.push start }

/-- The automaton of all tokens of a grammar; symbol 0, the end, matches nothing. -/
def ofProductions (g : Productions) : Nfa :=
  let build : Build Unit := do
    let none ← push 0 (.advance .empty 0 0 false)
    modify fun n => { n with starts := n.starts.push none }
    (List.range g.lexemeCount).tail.forM fun t => addToken g.blanks t (g.lexemes.getD t default)
  (build.run {}).2

/-- The states reached without reading a character, in ascending order. `fuel` bounds the number
of states looked at. -/
def close (n : Nfa) : Nat → List Nat → Array Bool → Array Nat → Array Nat
  | 0, _, _, out => out
  | _, [], _, out => out.insertionSort (· < ·)
  | fuel + 1, s :: work, seen, out =>
    if seen.getD s true then close n fuel work seen out
    else
      let seen := seen.set! s true
      match n.states.getD s default with
      | .split a b => close n fuel (a :: b :: work) seen out
      | _ => close n fuel work seen (out.push s)

def closure (n : Nfa) (states : List Nat) : Array Nat :=
  n.close (3 * n.states.size + states.length + 1) states (Array.replicate n.states.size false) #[]

end Nfa
end ClassAtlas.Lexing
