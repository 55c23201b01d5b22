import ClassAtlas.Lexing.Scanner
/-!
# Tokens found by layout

Tokens that no pattern can describe: a semicolon that a line break stands for, the text parts of
template strings and of JSX elements, the question mark of a conditional expression (which must not
be that of an optional parameter or of optional chaining), and HTML-like comments.

Each scan is asked with the set of tokens that may come next, because that set tells a type from an
expression and the inside of a string from the outside.
-/
namespace ClassAtlas.Lexing

/-- The layout tokens that are acceptable at a position. -/
structure Acceptable where
  semicolon : Bool
  templateChars : Bool
  ternaryMark : Bool
  htmlComment : Bool
  logicalOr : Bool
  escape : Bool
  regexPattern : Bool
  jsxText : Bool
  signatureSemicolon : Bool
deriving Inhabited

/-- Which language decides where a line break ends a statement. -/
inductive LayoutRules where
  | plain
  | typed
deriving BEq, DecidableEq, Inhabited

/-- A layout token by its place in the grammar's list, and its extent. -/
structure LayoutToken where
  kind : Nat
  start : Nat
  stop : Nat
deriving BEq, Inhabited

namespace Layout

def isSpace (code : Nat) : Bool := (9 ≤ code && code ≤ 13) || code == 32

def isDigit (code : Nat) : Bool := 48 ≤ code && code ≤ 57

def isAlpha (code : Nat) : Bool := (65 ≤ code && code ≤ 90) || (97 ≤ code && code ≤ 122)

def isLineSeparator (code : Nat) : Bool := code == 0x2028 || code == 0x2029

variable (src : Source)

def at_ (i : Nat) (c : Char) : Bool := src.code i == c.toNat

/-- The first position from `i` on at which the test fails; the end of the text fails no test
itself but stops the search. -/
def skipWhile (test : Nat → Bool) (i : Nat) : Nat :=
  go (src.size - i) i
where
  go : Nat → Nat → Nat
    | 0, i => i
    | fuel + 1, i => if test (src.code i) then go fuel (i + 1) else i

def skipSpace (i : Nat) : Nat := skipWhile src isSpace i

/-- Ends a line comment. -/
def lineEnd (rules : LayoutRules) (i : Nat) : Nat :=
  skipWhile src (fun c => c != 0 && c != 10 && !(rules == .plain && isLineSeparator c)) i

/-- The position behind `*/` and whether a line break came before it; `none` for the position when
the comment is not closed. -/
def blockEnd : Nat → Nat → Bool → Option Nat × Nat × Bool
  | 0, i, nl => (none, i, nl)
  | fuel + 1, i, nl =>
    let c := src.code i
    if c == 0 then (none, i, nl)
    else if at_ src i '*' then
      if at_ src (i + 1) '/' then (some (i + 2), i + 2, nl) else blockEnd fuel (i + 1) nl
    else blockEnd fuel (i + 1) (nl || c == 10 || isLineSeparator c)

/-- What stands before the next token. -/
inductive Gap where
  /-- A slash that starts no comment. -/
  | slash
  /-- Not known yet whether a line break comes. -/
  | open_
  | passed
deriving BEq, DecidableEq

/-- Skips blanks and comments. Answers what was found, where it ended and whether there was a
comment. Unless `consume` is set, a block comment ends the search, because the line break in it
already decides. -/
def skipGap (rules : LayoutRules) (consume : Bool) :
    Nat → Nat → Bool → Bool → Gap × Nat × Bool
  | 0, i, comment, _ => (.passed, i, comment)
  | fuel + 1, i, comment, nl =>
    let i := skipSpace src i
    if at_ src i '/' then
      if at_ src (i + 1) '/' then
        skipGap rules consume fuel (lineEnd src rules (i + 2)) true nl
      else if at_ src (i + 1) '*' then
        match blockEnd src (src.size - i) (i + 2) nl with
        | (some j, _, nl) =>
          if !consume && !at_ src j '/' then (if nl then .passed else .open_, j, true)
          else skipGap rules consume fuel j true nl
        | (none, j, nl) => skipGap rules consume fuel j comment nl
      else (.slash, i + 1, comment)
    else (.passed, i, comment)

/-- Whether the word at `i` continues as `in` or `instanceof`, and where the search stopped. -/
def isInfixWord (i : Nat) : Bool × Nat :=
  if !at_ src (i + 1) 'n' then (false, i + 1)
  else if !isAlpha (src.code (i + 2)) then (true, i + 2)
  else
    let rest := "stanceof".toList
    let matched := (rest.zipIdx.takeWhile fun (c, k) => at_ src (i + 2 + k) c).length
    if matched < rest.length then (false, i + 2 + matched)
    else (!isAlpha (src.code (i + 10)), i + 10)

/-- Whether a line break before position `i` ends the statement, and where the search stopped. -/
def breaksBefore (rules : LayoutRules) (ok : Acceptable) (i : Nat) : Bool × Nat :=
  let c := Char.ofNat (src.code i)
  if "`,;*%><=?^|&/:".toList.contains c then (false, i)
  else if c == '.' then
    match rules with
    | .plain => (isDigit (src.code (i + 1)), i + 1)
    | .typed => (false, i)
  else if c == '(' || c == '[' then
    match rules with
    | .plain => (false, i)
    | .typed => (!ok.logicalOr, i)
  else if c == '\x7b' && rules == .typed && ok.signatureSemicolon then (false, i)
  else if c == '+' then (at_ src (i + 1) '+', i + 1)
  else if c == '-' then (at_ src (i + 1) '-', i + 1)
  else if c == '!' then (!at_ src (i + 1) '=', i + 1)
  else if c == 'i' then
    let (word, j) := isInfixWord src i
    (!word, j)
  else (true, i)

/-- Looks for the end of a statement at `i`. Answers whether it ends, where the search stopped and
whether a comment was passed. -/
def semicolonFrom (rules : LayoutRules) (ok : Acceptable) : Nat → Nat → Bool → Bool × Nat × Bool
  | 0, i, comment => (false, i, comment)
  | fuel + 1, i, comment =>
    if src.code i == 0 then (true, i, comment)
    else
      let (verdict, i, comment) := beforeSlash rules ok i comment
      match verdict with
      | some b => (b, i, comment)
      | none =>
        if at_ src i '\x7d' then
          match rules with
          | .plain => (true, i, comment)
          | .typed =>
            let j := skipSpace src (i + 1)
            if at_ src j ':' then (ok.logicalOr, j, comment) else (true, j, comment)
        else if src.code i == 10 || (rules == .plain && isLineSeparator (src.code i)) then
          let (gap, j, comment) := skipGap src rules true (src.size + 1) (i + 1) comment false
          match gap with
          | .slash => (false, j, comment)
          | _ =>
            let (b, j) := breaksBefore src rules ok j
            (b, j, comment)
        else if !isSpace (src.code i) then (false, i, comment)
        else semicolonFrom rules ok fuel (i + 1) comment
where
  /-- A comment before the line break: outside expressions a break inside it ends the statement. -/
  beforeSlash (rules : LayoutRules) (ok : Acceptable) (i : Nat) (comment : Bool) :
      Option Bool × Nat × Bool :=
    if rules == .plain && at_ src i '/' then
      let (gap, j, comment) := skipGap src rules false (src.size + 1) i comment false
      match gap with
      | .slash => (some false, j, comment)
      | .passed =>
        if !ok.logicalOr && !at_ src j ',' && !at_ src j '=' then (some true, j, comment)
        else (none, j, comment)
      | .open_ => (none, j, comment)
    else (none, i, comment)

/-- The question mark of a conditional expression. -/
def ternaryMark (rules : LayoutRules) (i : Nat) : Option LayoutToken :=
  let i := skipSpace src i
  if !at_ src i '?' then none
  else if at_ src (i + 1) '?' then none
  else
    let mark : LayoutToken := ⟨2, i, i + 1⟩
    match rules with
    | .plain =>
      if at_ src (i + 1) '.' then (if isDigit (src.code (i + 2)) then some mark else none)
      else some mark
    | .typed =>
      if at_ src (i + 1) '.' then none
      else
        let j := skipSpace src (i + 1)
        if at_ src j ':' || at_ src j ')' || at_ src j ',' then none
        else if at_ src j '.' then (if isDigit (src.code (j + 1)) then some mark else none)
        else some mark

/-- Text of a template string up to a quote, a substitution or an escape. -/
def templateChars : Nat → Nat → Nat → Option LayoutToken
  | 0, _, _ => none
  | fuel + 1, start, i =>
    let done := if i == start then none else some ⟨1, start, i⟩
    let c := src.code i
    if at_ src i '\x60' then done
    else if c == 0 then none
    else if at_ src i '$' then
      if at_ src (i + 1) '\x7b' then done else templateChars fuel start (i + 1)
    else if at_ src i '\\' then done
    else templateChars fuel start (i + 1)

/-- Text between JSX tags: where it ends, and whether it is more than line breaks and
indentation. -/
def jsxText (start : Nat) : Nat × Bool :=
  go (src.size + 1 - start) start false false
where
  go : Nat → Nat → Bool → Bool → Nat × Bool
    | 0, i, _, saw => (i, saw)
    | fuel + 1, i, newline, saw =>
      let c := src.code i
      if c == 0 || at_ src i '<' || at_ src i '>' || at_ src i '\x7b' || at_ src i '\x7d' ||
          at_ src i '&' then (i, saw)
      else if c == 10 then go fuel (i + 1) true saw
      else
        let newline := newline && isSpace c
        go fuel (i + 1) newline (saw || !newline)

/-- A line that begins with an HTML comment mark. -/
def htmlComment (i : Nat) : Option LayoutToken :=
  let i := skipWhile src (fun c => isSpace c || isLineSeparator c) i
  let startsWith (mark : String) : Bool := (mark.toList.zipIdx.all fun (c, k) => at_ src (i + k) c)
  let body (j : Nat) : Option LayoutToken :=
    some ⟨3, i, skipWhile src (fun c => c != 0 && c != 10 && !isLineSeparator c) j⟩
  if startsWith "<!--" then body (i + 4)
  else if startsWith "-->" then body (i + 3)
  else none

/-- The layout token at a position, if one of the acceptable ones stands there. -/
def scan (rules : LayoutRules) (ok : Acceptable) (position : Nat) : Option LayoutToken :=
  if ok.templateChars then
    if ok.semicolon then none
    else templateChars src (src.size + 1) position position
  else
    let (stop, saw) := if ok.jsxText then jsxText src position else (position, false)
    if saw then some ⟨7, position, stop⟩
    else if ok.semicolon || ok.signatureSemicolon then
      let (ends, j, comment) := semicolonFrom src rules ok (src.size + 2) stop false
      if ends then some ⟨0, stop, stop⟩
      else if !comment && ok.ternaryMark && at_ src j '?' then ternaryMark src rules j
      else none
    else if ok.ternaryMark then ternaryMark src rules stop
    else if ok.htmlComment && !ok.logicalOr && !ok.escape && !ok.regexPattern then
      htmlComment src stop
    else none

end Layout
end ClassAtlas.Lexing
