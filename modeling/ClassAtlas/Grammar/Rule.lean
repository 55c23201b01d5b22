import ClassAtlas.Grammar.Regex
/-!
# Grammar rules

A grammar as a person writes it: named rules over literals, token patterns, sequences, choices and
repetitions, decorated with precedences, field names and aliases. `ClassAtlas.Grammar.Productions`
turns it into plain productions.
-/
namespace ClassAtlas.Grammar

/-- How strongly a step of a production binds. -/
inductive Precedence where
  | unset
  | level (n : Int)
  | named (name : String)
deriving BEq, DecidableEq, Hashable, Inhabited, Repr

inductive Associativity where
  | left
  | right
deriving BEq, DecidableEq, Hashable, Inhabited, Repr

/-- Another name under which a node appears, and whether that name is a named kind. -/
structure Alias where
  kind : String
  named : Bool
deriving BEq, DecidableEq, Hashable, Inhabited, Repr

/-- A token: its pattern, whether it must follow the previous token without a gap, and its
lexical precedence. -/
structure TokenPattern where
  regex : Regex
  immediate : Bool
  precedence : Int
deriving BEq, Inhabited

inductive Rule where
  | blank
  | text (s : String)
  | pattern (p : TokenPattern)
  | ref (name : String)
  | seq (members : List Rule)
  | choice (members : List Rule)
  | repeat1 (body : Rule)
  | prec (p : Precedence) (a : Option Associativity) (body : Rule)
  | dynamic (n : Int) (body : Rule)
  | field (name : String) (body : Rule)
  | shownAs (a : Alias) (body : Rule)
deriving BEq, Inhabited

instance : Coe String Rule := ⟨.text⟩

/-- An entry of a precedence ordering: a named level, or every production of a rule. -/
inductive Rank where
  | level (name : String)
  | rule (name : String)
deriving BEq, Inhabited

/-- A grammar: its rules in order (the first one is the start), what may stand between any two
tokens, the tokens that are found by layout rather than by pattern, and how ambiguity is settled. -/
structure RuleSet where
  name : String
  rules : List (String × Rule)
  extras : List Rule
  blanks : CharSet
  externals : List Rule
  inlined : List String
  supertypes : List String
  word : String
  orderings : List (List Rank)
deriving Inhabited

namespace Rule

def optional (r : Rule) : Rule := .choice [r, .blank]

def many (r : Rule) : Rule := optional (.repeat1 r)

def sepBy1 (sep : Rule) (r : Rule) : Rule := .seq [r, many (.seq [sep, r])]

def commaSep1 (r : Rule) : Rule := sepBy1 "," r

def commaSep (r : Rule) : Rule := optional (commaSep1 r)

def left (p : String) (r : Rule) : Rule := .prec (.named p) (some .left) r

def right (p : String) (r : Rule) : Rule := .prec (.named p) (some .right) r

def leftAssoc (r : Rule) : Rule := .prec (.level 0) (some .left) r

def rightAssoc (r : Rule) : Rule := .prec (.level 0) (some .right) r

def level (p : String) (r : Rule) : Rule := .prec (.named p) none r

/-- A step that appears as a node of the named kind. -/
def as (kind : String) (r : Rule) : Rule := .shownAs ⟨kind, true⟩ r

def token (r : Regex) : Rule := .pattern ⟨r, false, 0⟩

def immediate (p : Int) (r : Regex) : Rule := .pattern ⟨r, true, p⟩

end Rule

namespace RuleSet

/-- The rule of the given name, or nothing that could match. -/
def rule (g : RuleSet) (name : String) : Rule := (g.rules.lookup name).getD (.choice [])

/-- Each given rule replaces the one of its name, or is added at the end. -/
def override (rules : List (String × Rule)) (changes : List (String × Rule)) :
    List (String × Rule) :=
  let replaced := rules.map fun (name, r) => (name, (changes.lookup name).getD r)
  replaced ++ changes.filter fun (name, _) => (rules.lookup name).isNone

end RuleSet
end ClassAtlas.Grammar
