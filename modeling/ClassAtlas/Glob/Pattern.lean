/-!
# Glob patterns

A pattern is a sequence of tokens: characters, `?`, `*`, `**` in its three positions, character
classes, and groups of alternatives. `Pattern.parse` reads one; a backslash takes the character
behind it as it is. `build_globset` compiles such patterns.
-/
namespace ClassAtlas.Glob

/-- A piece of a pattern. -/
inductive Token where
  | literal (c : Char)
  /-- One byte other than a separator. -/
  | any
  /-- Any number of bytes other than separators. -/
  | star
  /-- Any number of directories at the beginning. -/
  | anyPrefix
  /-- All that lies below a directory. -/
  | anySuffix
  /-- A separator, or any number of directories between two. -/
  | anyMiddle
  | charClass (negated : Bool) (ranges : List (Char × Char))
  | alternatives (branches : List (List Token))
deriving Inhabited

/-- A glob pattern. -/
abbrev Pattern := List Token

/-- Why a text is no pattern. -/
inductive Fault where
  | unclosedClass
  | invalidRange (first last : Char)
  | unopenedGroup
  | unclosedGroup
  | danglingEscape
deriving BEq, DecidableEq, Repr, Inhabited

def Fault.reason : Fault → String
  | .unclosedClass => "unclosed character class; missing ']'"
  | .invalidRange a b => "invalid range; '" ++ a.toString ++ "' > '" ++ b.toString ++ "'"
  | .unopenedGroup =>
    "unopened alternate group; missing '\x7b' (maybe escape '\x7d' with '[\x7d]'?)"
  | .unclosedGroup =>
    "unclosed alternate group; missing '\x7d' (maybe escape '\x7b' with '[\x7b]'?)"
  | .danglingEscape => "dangling '\\'"

/-- The message for a fault in a pattern. -/
def Fault.message (f : Fault) (pattern : String) : String :=
  "error parsing glob '" ++ pattern ++ "': " ++ f.reason

namespace Pattern

/-- A group that is open: its finished branches and the tokens before it, both last first. -/
structure OpenGroup where
  branches : List (List Token)
  before : List Token
deriving Inhabited

/-- What was read of a pattern: the tokens of the innermost branch, last first, the groups around
it, and the last character. -/
structure Progress where
  branch : List Token
  groups : List OpenGroup
  last : Option Char
deriving Inhabited

/-- A character class that is open; its ranges stand last first. -/
structure OpenClass where
  negated : Bool
  ranges : List (Char × Char)
  first : Bool
  inRange : Bool
deriving Inhabited

namespace Progress

def push (p : Progress) (t : Token) (last : Char) : Progress :=
  { p with branch := t :: p.branch, last := some last }

def openGroup (p : Progress) : Progress :=
  { branch := [], groups := ⟨[], p.branch⟩ :: p.groups, last := some '{' }

/-- Ends a branch; outside of groups a comma stands for itself. -/
def comma (p : Progress) : Progress :=
  match p.groups with
  | [] => p.push (.literal ',') ','
  | g :: outer =>
    { branch := [], groups := { g with branches := p.branch.reverse :: g.branches } :: outer
      last := some ',' }

def closeGroup (p : Progress) : Except Fault Progress :=
  match p.groups with
  | [] => .error .unopenedGroup
  | g :: outer =>
    let t := Token.alternatives (p.branch.reverse :: g.branches).reverse
    .ok { branch := t :: g.before, groups := outer, last := some '}' }

/-- Two stars that are not a whole path segment. -/
def twoStars (p : Progress) : Progress :=
  { p with branch := .star :: .star :: p.branch, last := some '*' }

/-- Two stars that are a whole segment take the place of the separator before them, unless they
follow stars of their kind. -/
def doubleStar (p : Progress) (t : Token) (last : Char) : Progress :=
  match p.branch with
  | .anyPrefix :: r => { p with branch := .anyPrefix :: r, last := some last }
  | .anySuffix :: r => { p with branch := .anySuffix :: r, last := some last }
  | _ :: r => { p with branch := t :: r, last := some last }
  | [] => { p with branch := [t], last := some last }

/-- Whether two stars that come next may begin a segment. -/
def atSegment (p : Progress) : Bool :=
  p.last == some '/' || (!p.groups.isEmpty && (p.last == some ',' || p.last == some '{'))

end Progress

/-- Adds a character to an open class. -/
def OpenClass.add (k : OpenClass) (c : Char) : Except Fault OpenClass :=
  if k.inRange then
    match k.ranges with
    | (a, _) :: r =>
      if c < a then .error (.invalidRange a c)
      else .ok { k with ranges := (a, c) :: r, first := false, inRange := false }
    | [] => .ok { k with ranges := [(c, c)], first := false, inRange := false }
  else if c == '-' && !k.first then .ok { k with first := false, inRange := true }
  else .ok { k with ranges := (c, c) :: k.ranges, first := false }

/-- The token of a class; a dash at its end stands for itself. -/
def OpenClass.token (k : OpenClass) : Token :=
  .charClass k.negated (if k.inRange then ('-', '-') :: k.ranges else k.ranges).reverse

/-- Reads on, inside a character class if one is open. -/
def read (p : Progress) : Option OpenClass → List Char → Except Fault Pattern
  | some _, [] => .error .unclosedClass
  | some k, ']' :: cs =>
    if k.first then read p (some { k with ranges := [(']', ']')], first := false }) cs
    else read (p.push k.token ']') none cs
  | some k, c :: cs =>
    match k.add c with
    | .error f => .error f
    | .ok k => read p (some k) cs
  | none, [] => if p.groups.isEmpty then .ok p.branch.reverse else .error .unclosedGroup
  | none, '?' :: cs => read (p.push .any '?') none cs
  | none, '*' :: '*' :: '/' :: cs =>
    if p.branch.isEmpty then read (p.push .anyPrefix '/') none cs
    else if p.atSegment then read (p.doubleStar .anyMiddle '/') none cs
    else read (p.twoStars.push (.literal '/') '/') none cs
  | none, '*' :: '*' :: cs =>
    let ends := match cs with
      | [] => true
      | c :: _ => !p.groups.isEmpty && (c == ',' || c == '}')
    if p.branch.isEmpty && cs.isEmpty then read (p.push .anyPrefix '*') none cs
    else if !p.branch.isEmpty && p.atSegment && ends then
      read (p.doubleStar .anySuffix '*') none cs
    else read p.twoStars none cs
  | none, '*' :: cs => read (p.push .star '*') none cs
  | none, '[' :: '!' :: cs => read p (some ⟨true, [], true, false⟩) cs
  | none, '[' :: '^' :: cs => read p (some ⟨true, [], true, false⟩) cs
  | none, '[' :: cs => read p (some ⟨false, [], true, false⟩) cs
  | none, '{' :: cs => read p.openGroup none cs
  | none, '}' :: cs =>
    match p.closeGroup with
    | .error f => .error f
    | .ok p => read p none cs
  | none, ',' :: cs => read p.comma none cs
  | none, '\\' :: [] => .error .danglingEscape
  | none, '\\' :: c :: cs => read (p.push (.literal c) c) none cs
  | none, c :: cs => read (p.push (.literal c) c) none cs

/-- Reads a pattern. Mirrors `GlobBuilder::build`, as `build_globset` calls it. -/
def parse (text : String) : Except Fault Pattern := read ⟨[], [], none⟩ none text.toList

end Pattern
end ClassAtlas.Glob
