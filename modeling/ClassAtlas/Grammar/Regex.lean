import ClassAtlas.Grammar.CharSet
/-!
# Regular expressions

The patterns of tokens. There is no match function here: tokens are matched by the automaton that
`ClassAtlas.Lexing.Nfa` compiles them to.
-/
namespace ClassAtlas.Grammar

/-- A regular expression over code points. -/
inductive Regex where
  | epsilon
  | set (chars : CharSet)
  | seq (parts : List Regex)
  | alt (options : List Regex)
  | star (body : Regex)
deriving BEq, Inhabited

namespace Regex

/-- The text itself. -/
def text (s : String) : Regex := seq (s.toList.map fun c => set (.single c))

/-- Any one character of the text. -/
def oneOf (s : String) : Regex := set (.ofString s)

/-- Any one character outside the set. -/
def noneOf (s : CharSet) : Regex := set s.complement

def opt (r : Regex) : Regex := alt [r, epsilon]

def plus (r : Regex) : Regex := seq [r, star r]

/-- Between `low` and `high` copies. -/
def times (low high : Nat) (r : Regex) : Regex :=
  seq (List.replicate low r ++ List.replicate (high - low) (opt r))

end Regex
end ClassAtlas.Grammar
