import ClassAtlas.Toml.Basic
/-!
# Reading TOML: keys and values

Readers stand at a place of the text and give a value with the place behind it. A fault that is not
cut lets another reading of the same place be tried. Together with `ClassAtlas.Toml.Document` this
is the reading of the settings file in `Settings::load`.
-/
namespace ClassAtlas.Toml

/-- A place in a text: the bytes before it and the characters behind it. -/
structure Cursor where
  offset : Nat
  rest : List Char
deriving Inhabited

namespace Cursor

def ofText (text : String) : Cursor := ⟨0, text.toList⟩

def head? (c : Cursor) : Option Char := c.rest.head?

/-- The place behind `n` more characters. -/
def skip : Nat → Cursor → Cursor
  | 0, c => c
  | _ + 1, ⟨o, []⟩ => ⟨o, []⟩
  | n + 1, ⟨o, x :: xs⟩ => skip n ⟨o + x.utf8Size, xs⟩

def next (c : Cursor) : Cursor := c.skip 1

/-- The place behind the characters that pass a test, and these characters. -/
def takeWhile (p : Char → Bool) (c : Cursor) : List Char × Cursor :=
  let taken := c.rest.takeWhile p
  (taken, c.skip taken.length)

def startsWith (word : List Char) (c : Cursor) : Bool := word.isPrefixOf c.rest

end Cursor

namespace Reader

/-! ## Characters -/

def isWs (c : Char) : Bool := c == ' ' || c == '\t'

def isBeyondAscii (c : Char) : Bool := 0x80 ≤ c.toNat

/-- Characters of a comment. -/
def isCommentChar (c : Char) : Bool :=
  c == '\t' || (0x20 ≤ c.toNat && c.toNat ≤ 0x7E) || isBeyondAscii c

/-- Characters of a basic string that stand for themselves. -/
def isBasicChar (c : Char) : Bool := isCommentChar c && c != '"' && c != '\\'

/-- Characters of a literal string. -/
def isLiteralChar (c : Char) : Bool := isCommentChar c && c != '\''

def isKeyChar (c : Char) : Bool := c.isAlphanum || c == '-' || c == '_'

def isHex (c : Char) : Bool :=
  c.isDigit || ('a' ≤ c && c ≤ 'f') || ('A' ≤ c && c ≤ 'F')

def isOctal (c : Char) : Bool := '0' ≤ c && c ≤ '7'

def isBinary (c : Char) : Bool := c == '0' || c == '1'

/-- The value of a digit of any base up to sixteen. -/
def digitValue (c : Char) : Nat :=
  if c.isDigit then c.toNat - 48 else if 'a' ≤ c then c.toNat - 87 else c.toNat - 55

def skipWs (c : Cursor) : Cursor := (c.takeWhile isWs).2

/-- The place behind a line break. -/
def newline? (c : Cursor) : Option Cursor :=
  match c.rest with
  | '\n' :: _ => some c.next
  | '\r' :: '\n' :: _ => some (c.skip 2)
  | _ => none

/-- Steps over a comment, up to the end of its line. -/
def skipComment (c : Cursor) : Cursor := (c.next.takeWhile isCommentChar).2

/-- Steps over white space and line breaks; `fuel` bounds their number. -/
def skipBlank : Nat → Cursor → Cursor
  | 0, c => c
  | fuel + 1, c =>
    let c := skipWs c
    match newline? c with
    | some c => skipBlank fuel c
    | none => c

/-- Steps over white space, line breaks and comments; `fuel` bounds the number of lines. -/
def skipLines : Nat → Cursor → Except Fault Cursor
  | 0, c => .ok c
  | fuel + 1, c =>
    let c := skipWs c
    match c.head? with
    | some '#' =>
      let d := skipComment c
      match newline? d with
      | some d => skipLines fuel d
      | none => .error (Fault.at_ d.offset)
    | some '\n' => skipLines fuel c.next
    | some '\r' =>
      match newline? c with
      | some d => skipLines fuel d
      | none => .error (Fault.at_ c.offset)
    | _ => .ok c

/-- Steps over what may stand behind a value or a header, with the end of the line. -/
def lineEnd (c : Cursor) : Except Fault Cursor :=
  let c := skipWs c
  let c := if c.head? == some '#' then skipComment c else c
  match newline? c with
  | some c => .ok c
  | none =>
    if c.rest.isEmpty then .ok c
    else .error ((Fault.at_ c.offset).wanting ["newline", "`#`"])

/-! ## Strings -/

/-- Reads a code point of some hexadecimal digits. -/
def codePoint (digits : Nat) (label : String) (c : Cursor) : Except Fault (Char × Cursor) :=
  let taken := (c.rest.take digits).takeWhile isHex
  let n := taken.foldl (fun n d => n * 16 + digitValue d) 0
  if taken.length == digits && n.isValidChar then .ok (Char.ofNat n, c.skip digits)
  else .error ((Fault.at_ c.offset).named label).final

/-- Reads an escape behind its backslash. -/
def escape (c : Cursor) : Except Fault (Char × Cursor) :=
  match c.head? with
  | none => .error (Fault.at_ c.offset)
  | some 'b' => .ok ('\x08', c.next)
  | some 'f' => .ok ('\x0c', c.next)
  | some 'n' => .ok ('\n', c.next)
  | some 'r' => .ok ('\r', c.next)
  | some 't' => .ok ('\t', c.next)
  | some '"' => .ok ('"', c.next)
  | some '\\' => .ok ('\\', c.next)
  | some 'u' => codePoint 4 "unicode 4-digit hex code" c.next
  | some 'U' => codePoint 8 "unicode 8-digit hex code" c.next
  | some _ =>
    .error (((Fault.at_ c.next.offset).named "escape sequence").wanting
      ["`b`", "`f`", "`n`", "`r`", "`t`", "`u`", "`U`", "`\\`", "`\"`"]).final

/-- Reads a basic string behind its quote; `read` holds what was read of it, last first. -/
def basicTail : Nat → List Char → Cursor → Except Fault (String × Cursor)
  | 0, _, c => .error (Fault.at_ c.offset)
  | fuel + 1, read, c =>
    let (plain, d) := c.takeWhile isBasicChar
    let read := plain.reverse ++ read
    match d.head? with
    | some '"' => .ok (String.ofList read.reverse, d.next)
    | some '\\' =>
      match escape d.next with
      | .ok (x, e) => basicTail fuel (x :: read) e
      | .error f =>
        if f.cut then .error f
        else .error ((Fault.at_ d.offset).named "basic string").final
    | _ => .error ((Fault.at_ d.offset).named "basic string").final

def basicString (c : Cursor) : Except Fault (String × Cursor) :=
  basicTail (c.rest.length + 1) [] c.next

def literalString (c : Cursor) : Except Fault (String × Cursor) :=
  let (plain, d) := c.next.takeWhile isLiteralChar
  if d.head? == some '\'' then .ok (String.ofList plain, d.next)
  else .error ((Fault.at_ d.offset).named "literal string").final

/-- How many of a quote stand at a place. -/
def quotesAt (q : Char) (c : Cursor) : Nat := (c.rest.takeWhile (· == q)).length

/-- Steps over a backslash at the end of a line and the blank lines behind it. -/
def escapedBreak? (c : Cursor) : Option Cursor :=
  (newline? (skipWs c.next)).map fun d => skipBlank (d.rest.length + 1) d

/-- Reads a multi-line string up to its end: three quotes behind at most two that belong to it. -/
def multilineTail (basic : Bool) : Nat → List Char → Cursor → Except Fault (String × Cursor)
  | 0, _, c => .error (Fault.at_ c.offset)
  | fuel + 1, read, c =>
    let q := if basic then '"' else '\''
    let label := if basic then "multiline basic string" else "multiline literal string"
    let stop (d : Cursor) : Except Fault (String × Cursor) :=
      .error ((Fault.at_ d.offset).named label).final
    let (plain, d) := c.takeWhile (if basic then isBasicChar else isLiteralChar)
    let read := plain.reverse ++ read
    match newline? d with
    | some e => multilineTail basic fuel ('\n' :: read) e
    | none =>
      match d.head? with
      | some x =>
        if x == q then
          let n := quotesAt q d
          if n < 3 then multilineTail basic fuel (List.replicate n q ++ read) (d.skip n)
          else
            let own := min 2 (n - 3)
            .ok (String.ofList (List.replicate own q ++ read).reverse, d.skip (own + 3))
        else if basic && x == '\\' then
          match escapedBreak? d with
          | some e => multilineTail basic fuel read e
          | none =>
            match escape d.next with
            | .ok (x, e) => multilineTail basic fuel (x :: read) e
            | .error f => if f.cut then .error (f.named label) else stop d
        else stop d
      | none => stop d

def multilineString (basic : Bool) (c : Cursor) : Except Fault (String × Cursor) :=
  let c := c.skip 3
  let c := (newline? c).getD c
  multilineTail basic (c.rest.length + 1) [] c

/-- Reads a string of any kind. The text begins with a quote. -/
def string (c : Cursor) : Except Fault (String × Cursor) :=
  if c.startsWith ['"', '"', '"'] then multilineString true c
  else if c.head? == some '"' then basicString c
  else if c.startsWith ['\'', '\'', '\''] then multilineString false c
  else literalString c

/-! ## Numbers -/

/-- Reads more digits, which single underscores may part. -/
def digitsTail (isDigit : Char → Bool) : Nat → Cursor → Except Fault Cursor
  | 0, c => .ok c
  | fuel + 1, c =>
    match c.rest with
    | x :: rest =>
      if isDigit x then digitsTail isDigit fuel c.next
      else if x == '_' then
        match rest with
        | y :: _ =>
          if isDigit y then digitsTail isDigit fuel (c.skip 2)
          else .error ((Fault.at_ c.next.offset).wanting ["digit"]).final
        | [] => .error ((Fault.at_ c.next.offset).wanting ["digit"]).final
      else .ok c
    | [] => .ok c

/-- Reads a run of digits of a kind. -/
def digitRun (isDigit : Char → Bool) (c : Cursor) : Except Fault Cursor :=
  if (c.head?.map isDigit).getD false then digitsTail isDigit c.rest.length c.next
  else .error (Fault.at_ c.offset)

/-- The characters between two places, without underscores. -/
def between (a b : Cursor) : List Char :=
  (a.rest.take (a.rest.length - b.rest.length)).filter (· != '_')

def skipSign (c : Cursor) : Cursor :=
  if c.head? == some '+' || c.head? == some '-' then c.next else c

/-- Reads the digits of a decimal integer, which does not begin with a zero unless it is one. -/
def decimal (c : Cursor) : Except Fault Cursor := do
  let d := skipSign c
  let out : Except Fault Cursor := match d.head? with
    | some '0' => .ok d.next
    | _ => digitRun Char.isDigit d
  out.mapError (·.named "integer")

def maxInteger : Int := 0x7FFFFFFFFFFFFFFF

def minInteger : Int := -0x8000000000000000

/-- Checks that an integer fits into 64 bits. -/
def fitting (offset : Nat) (n : Int) : Except Fault Int :=
  if maxInteger < n then
    .error (Fault.because offset "number too large to fit in target type").final
  else if n < minInteger then
    .error (Fault.because offset "number too small to fit in target type").final
  else .ok n

def naturalOf (base : Nat) (ds : List Char) : Nat := ds.foldl (fun n d => n * base + digitValue d) 0

/-- Reads an integer in another base behind its two characters of prefix. -/
def basedInteger (base : Nat) (isDigit : Char → Bool) (label : String) (c : Cursor) :
    Except Fault (Int × Cursor) := do
  let start := c.skip 2
  let stop ← (digitRun isDigit start).mapError fun f => (f.named label).final
  let n ← fitting c.offset (naturalOf base (between start stop))
  .ok (n, stop)

def integer (c : Cursor) : Except Fault (Int × Cursor) := do
  if c.startsWith ['0', 'x'] then basedInteger 16 isHex "hexadecimal integer" c
  else if c.startsWith ['0', 'o'] then basedInteger 8 isOctal "octal integer" c
  else if c.startsWith ['0', 'b'] then basedInteger 2 isBinary "binary integer" c
  else
    let stop ← decimal c
    let n : Int := naturalOf 10 (between (skipSign c) stop)
    let n ← fitting c.offset (if c.head? == some '-' then -n else n)
    .ok (n, stop)

/-- Reads the exponent of a number. -/
def exponent (c : Cursor) : Except Fault Cursor :=
  if c.head? == some 'e' || c.head? == some 'E' then
    (digitRun Char.isDigit (skipSign c.next)).mapError (·.final)
  else .error (Fault.at_ c.offset)

/-- Reads what makes a number more than an integer. -/
def floatTail (c : Cursor) : Except Fault Cursor :=
  if c.head? == some '.' then do
    let d ← (digitRun Char.isDigit c.next).mapError fun f => (f.wanting ["digit"]).final
    match exponent d with
    | .ok e => .ok e
    | .error f => if f.cut then .error f else .ok d
  else exponent c

/-- The value of a number's text. -/
def floatOf (cs : List Char) : Float :=
  let minus := cs.head? == some '-'
  let cs := cs.filter (· != '+')
  let cs := if minus then cs.drop 1 else cs
  let mantissa := cs.takeWhile fun c => c != 'e' && c != 'E'
  let behind := cs.drop (mantissa.length + 1)
  let whole := mantissa.takeWhile (· != '.')
  let fraction := mantissa.drop (whole.length + 1)
  let exponent : Int :=
    if behind.head? == some '-' then -(naturalOf 10 (behind.drop 1)) else naturalOf 10 behind
  let shift := max (-5000) (min 5000 (exponent - fraction.length))
  let x := Float.ofScientific (naturalOf 10 (whole ++ fraction)) (shift < 0) shift.natAbs
  if minus then -x else x

/-- Reads `inf` or `nan`. -/
def specialFloat (c : Cursor) : Except Fault (Float × Cursor) :=
  let d := skipSign c
  let signed (x : Float) := if c.head? == some '-' then -x else x
  if d.startsWith ['i', 'n', 'f'] then .ok (signed (1.0 / 0.0), d.skip 3)
  else if d.startsWith ['n', 'a', 'n'] then .ok (signed (0.0 / 0.0), d.skip 3)
  else .error (Fault.at_ d.offset)

def float (c : Cursor) : Except Fault (Float × Cursor) :=
  let label := "floating-point number"
  match decimal c >>= floatTail with
  | .ok stop =>
    let x := floatOf (between c stop)
    if x.isInf && 0 < x then .error ((Fault.at_ c.offset).named label).final else .ok (x, stop)
  | .error f =>
    if f.cut then .error (f.named label)
    else (specialFloat c).mapError (·.named label)

/-! ## Dates and times -/

/-- Reads a number of exactly so many digits. -/
def fixedDigits (count : Nat) (c : Cursor) : Except Fault (Nat × Cursor) :=
  let ds := (c.rest.take count).takeWhile Char.isDigit
  if ds.length == count then .ok (naturalOf 10 ds, c.skip count)
  else .error (Fault.at_ c.offset)

/-- Reads a number of two digits within limits. -/
def twoDigits (low high : Nat) (c : Cursor) : Except Fault (Nat × Cursor) := do
  let (n, d) ← fixedDigits 2 c
  if low ≤ n && n ≤ high then .ok (n, d)
  else .error (Fault.because c.offset "value is out of range")

def charAt (x : Char) (c : Cursor) : Except Fault Cursor :=
  if c.head? == some x then .ok c.next else .error (Fault.at_ c.offset)

def daysOf (year month : Nat) : Nat :=
  if month == 2 then
    if year % 4 == 0 && (year % 100 != 0 || year % 400 == 0) then 29 else 28
  else if [4, 6, 9, 11].contains month then 30 else 31

def date (c : Cursor) : Except Fault Cursor := do
  let (year, c) ← fixedDigits 4 c
  let c ← charAt '-' c
  let (month, c) ← (twoDigits 1 12 c).mapError (·.final)
  let c ← (charAt '-' c).mapError (·.final)
  let (day, d) ← (twoDigits 1 31 c).mapError (·.final)
  if daysOf year month < day then
    .error (Fault.because c.offset "value is out of range").final
  else .ok d

def timeTail (c : Cursor) : Except Fault Cursor := do
  let (_, c) ← twoDigits 0 59 c
  let c ← charAt ':' c
  let (_, c) ← twoDigits 0 60 c
  if c.head? == some '.' then
    let (fraction, d) := c.next.takeWhile Char.isDigit
    .ok (if fraction.isEmpty then c else d)
  else .ok c

def time (c : Cursor) : Except Fault Cursor := do
  let (_, c) ← twoDigits 0 23 c
  let c ← charAt ':' c
  (timeTail c).mapError (·.final)

def timeOffset (c : Cursor) : Except Fault Cursor :=
  if c.head? == some 'Z' || c.head? == some 'z' then .ok c.next
  else if c.head? == some '+' || c.head? == some '-' then
    (do
      let (_, c) ← twoDigits 0 23 c.next
      let c ← charAt ':' c
      let (_, c) ← twoDigits 0 59 c
      .ok c : Except Fault Cursor).mapError fun f => (f.named "time offset").final
  else .error ((Fault.at_ c.offset).named "time offset")

/-- What is read if it is there. -/
def optional (reader : Cursor → Except Fault Cursor) (c : Cursor) : Except Fault Cursor :=
  match reader c with
  | .ok d => .ok d
  | .error f => if f.cut then .error f else .ok c

/-- Reads a date, a time, or both. -/
def dateTime (c : Cursor) : Except Fault Cursor :=
  let both := do
    let d ← date c
    optional (fun d =>
      match d.head? with
      | some x =>
        if x == 'T' || x == 't' || x == ' ' then do
          let d ← time d.next
          optional timeOffset d
        else .error (Fault.at_ d.offset)
      | none => .error (Fault.at_ d.offset)) d
  match both with
  | .ok d => .ok d
  | .error f =>
    if f.cut then .error (f.named "date-time") else (time c).mapError (·.named "time")

/-! ## Keys -/

/-- Reads a part of a key. -/
def simpleKey (c : Cursor) : Except Fault (Key × Cursor) := do
  let key (s : String) (d : Cursor) : Key × Cursor := (⟨s, c.offset, d.offset⟩, d)
  match c.head? with
  | none => .error (Fault.at_ c.offset)
  | some '"' =>
    let (s, d) ← basicString c
    .ok (key s d)
  | some '\'' =>
    let (s, d) ← literalString c
    .ok (key s d)
  | some _ =>
    let (cs, d) := c.takeWhile isKeyChar
    if cs.isEmpty then .error (Fault.at_ c.offset) else .ok (key (String.ofList cs) d)

/-- Reads more parts of a key, each behind a dot; `fuel` bounds their number. -/
def keyTail : Nat → List Key → Cursor → Except Fault (List Key × Cursor)
  | 0, read, c => .ok (read.reverse, c)
  | fuel + 1, read, c =>
    if c.head? == some '.' then
      match simpleKey (skipWs c.next) with
      | .ok (k, d) => keyTail fuel (k :: read) (skipWs d)
      | .error f => if f.cut then .error f else .ok (read.reverse, c)
    else .ok (read.reverse, c)

/-- The depth that keys and values may reach. -/
def maxDepth : Nat := 80

/-- Reads a key of one or more parts. -/
def key (c : Cursor) : Except Fault (List Key × Cursor) :=
  let out := do
    let (k, d) ← simpleKey (skipWs c)
    let (ks, d) ← keyTail c.rest.length [k] (skipWs d)
    if maxDepth ≤ ks.length then .error (Fault.because c.offset "recursion limit exceeded")
    else .ok (ks, d)
  out.mapError (·.named "key")

/-! ## Tables -/

/-- Why an entry cannot be put into a table. -/
inductive Conflict where
  | duplicate (key : String)
  | duplicateIn (key : String) (table : List Key)
  | noTable (path : List Key) (actual : String)
deriving Inhabited

def dotted (path : List Key) : String := String.intercalate "." (path.map (·.name))

def Conflict.message : Conflict → String
  | .duplicate k => "duplicate key `" ++ k ++ "`"
  | .duplicateIn k [] => "duplicate key `" ++ k ++ "` in document root"
  | .duplicateIn k table => "duplicate key `" ++ k ++ "` in table `" ++ dotted table ++ "`"
  | .noTable path actual =>
    "dotted key `" ++ dotted path ++ "` attempted to extend non-table type (" ++ actual ++ ")"

/-- The entry of a key. -/
def entryOf? (entries : List (Key × Item)) (k : Key) : Option Item :=
  (entries.find? fun e => e.1.name == k.name).map (·.2)

/-- Replaces the entry of a key in its place, or adds it at the end. -/
def putEntry (entries : List (Key × Item)) (k : Key) (i : Item) : List (Key × Item) :=
  if entries.any (·.1.name == k.name) then
    entries.map fun e => if e.1.name == k.name then (e.1, i) else e
  else entries ++ [(k, i)]

/-- Changes the table that a path leads to from a table; tables that are not there are made. `way`
is the path so far. -/
def inTable (isDotted : Bool) (change : Table Item → Except Conflict (Table Item)) (way : List Key)
    (t : Table Item) : List Key → Except Conflict (Table Item)
  | [] => change t
  | k :: path => do
    let fresh : Table Item := ⟨[], true, isDotted, none⟩
    match (entryOf? t.entries k).getD (.table fresh) with
    | .table inner =>
      if isDotted && !inner.implied then .error (.duplicate k.name)
      else
        let inner ← inTable isDotted change (way ++ [k]) inner path
        .ok { t with entries := putEntry t.entries k (.table inner) }
    | .tables ts =>
      match ts.getLast? with
      | none => .error (.duplicate k.name)
      | some last =>
        let last ← inTable isDotted change (way ++ [k]) last path
        .ok { t with entries := putEntry t.entries k (.tables (ts.dropLast ++ [last])) }
    | other => .error (.noTable (way ++ [k]) other.kindName)

/-- Changes the inline table that a path leads to from an inline table. -/
def inInline (change : Table Item → Except Conflict (Table Item)) (way : List Key)
    (t : Table Item) : List Key → Except Conflict (Table Item)
  | [] => change t
  | k :: path => do
    let fresh : Table Item := ⟨[], true, true, none⟩
    match (entryOf? t.entries k).getD (.inlineTable fresh) with
    | .inlineTable inner =>
      if !inner.implied then .error (.duplicate k.name)
      else
        let inner ← inInline change (way ++ [k]) inner path
        .ok { t with entries := putEntry t.entries k (.inlineTable inner) }
    | other => .error (.noTable (way ++ [k]) other.kindName)

/-- Adds an entry that was not there; a dotted key has to end in a table made for dotted keys. -/
def addEntry (viaPath : Bool) (table : Option (List Key)) (k : Key) (i : Item) (t : Table Item) :
    Except Conflict (Table Item) :=
  if t.dotted != viaPath then .error (.duplicate k.name)
  else if (entryOf? t.entries k).isSome then
    .error (match table with
      | some path => .duplicateIn k.name path
      | none => .duplicate k.name)
  else .ok { t with entries := t.entries ++ [(k, i)] }

/-- The inline table of some entries. -/
def inlineOf (span : Span) (pairs : List (List Key × Key × Item)) :
    Except Conflict (Table Item) := do
  let t ← pairs.foldlM (fun t (path, k, i) =>
    inInline (addEntry (!path.isEmpty) none k i) [] t path) ⟨[], false, false, none⟩
  .ok { t with span := some span }

/-! ## Values -/

/-- Reads the values of an array; the place given is that of the last bracket or comma and what
follows is tried as a value. `fuel` bounds their number. -/
def arrayItems (item : Cursor → Except Fault (Item × Cursor)) :
    Nat → List Item → Cursor → Cursor → Except Fault (List Item × Cursor)
  | 0, read, back, _ => .ok (read.reverse, back)
  | fuel + 1, read, back, c =>
    let one := do
      let c ← skipLines (c.rest.length + 1) c
      let (i, c) ← item c
      let c ← skipLines (c.rest.length + 1) c
      .ok (i, c)
    match one with
    | .ok (i, d) =>
      if d.head? == some ',' then arrayItems item fuel (i :: read) d d.next
      else .ok ((i :: read).reverse, d)
    | .error f => if f.cut then .error f else .ok (read.reverse, back)

/-- Reads an array. -/
def array (item : Cursor → Except Fault (Item × Cursor)) (c : Cursor) :
    Except Fault (Item × Cursor) := do
  let inside := c.next
  if inside.head? == some ']' then .ok (.array [] ⟨c.offset, inside.next.offset⟩, inside.next)
  else
    let (items, d) ← arrayItems item c.rest.length [] inside inside
    let d := if !items.isEmpty && d.head? == some ',' then d.next else d
    let d ← (skipLines (d.rest.length + 1) d).mapError (·.final)
    if d.head? == some ']' then .ok (.array items ⟨c.offset, d.next.offset⟩, d.next)
    else .error (((Fault.at_ d.offset).named "array").wanting ["`]`"]).final

/-- Reads a key, the equals sign and a value. -/
def keyValue (item : Cursor → Except Fault (Item × Cursor)) (c : Cursor) :
    Except Fault ((List Key × Key × Item) × Cursor) := do
  let (ks, d) ← key c
  let rest : Except Fault ((List Key × Key × Item) × Cursor) := do
    if d.head? != some '=' then .error ((Fault.at_ d.offset).wanting ["`.`", "`=`"])
    let (i, d) ← item (skipWs d.next)
    .ok ((ks.dropLast, ks.getLastD default, i), d)
  rest.mapError (·.final)

/-- Reads the entries of an inline table; `fuel` bounds their number. -/
def inlineEntries (item : Cursor → Except Fault (Item × Cursor)) :
    Nat → List (List Key × Key × Item) → Cursor → Cursor →
      Except Fault (List (List Key × Key × Item) × Cursor)
  | 0, read, back, _ => .ok (read.reverse, back)
  | fuel + 1, read, back, c =>
    match keyValue item c with
    | .ok (e, d) =>
      let d := skipWs d
      if d.head? == some ',' then inlineEntries item fuel (e :: read) d d.next
      else .ok ((e :: read).reverse, d)
    | .error f => if f.cut then .error f else .ok (read.reverse, back)

/-- Reads an inline table. -/
def inlineTable (item : Cursor → Except Fault (Item × Cursor)) (c : Cursor) :
    Except Fault (Item × Cursor) := do
  let inside := c.next
  let (pairs, d) ← inlineEntries item c.rest.length [] inside inside
  let d := skipWs d
  match inlineOf ⟨c.offset, d.next.offset⟩ pairs with
  | .error e => .error (Fault.because inside.offset e.message).final
  | .ok t =>
    if d.head? == some '}' then .ok (.inlineTable t, d.next)
    else .error (((Fault.at_ d.offset).named "inline table").wanting ["`\x7d`"]).final

/-- What is said where a string could have stood. -/
def wantingString (f : Fault) : Fault := (f.named "string").wanting ["`\"`", "`'`"]

/-- Reads a word that stands for a value. -/
def wordValue (word : List Char) (v : Scalar) (c : Cursor) : Except Fault (Item × Cursor) :=
  let stop := c.skip word.length
  if c.startsWith word then .ok (.scalar v ⟨c.offset, stop.offset⟩, stop)
  else .error (wantingString (Fault.at_ c.offset))

/-- Reads a truth value; nothing else begins like one. -/
def truth (b : Bool) (c : Cursor) : Except Fault (Item × Cursor) :=
  let letters := if b then ['t', 'r', 'u', 'e'] else ['f', 'a', 'l', 's', 'e']
  (wordValue letters (.boolean b) c).mapError (·.final)

/-- Reads a date, a float or an integer, whichever fits first. -/
def numeric (c : Cursor) : Except Fault (Item × Cursor) :=
  let scalar (v : Scalar) (d : Cursor) : Item × Cursor := (.scalar v ⟨c.offset, d.offset⟩, d)
  match dateTime c with
  | .ok d => .ok (scalar .dateTime d)
  | .error f =>
    if f.cut then .error f
    else
      match float c with
      | .ok (x, d) => .ok (scalar (.float x) d)
      | .error f =>
        if f.cut then .error f
        else (integer c).map fun (n, d) => scalar (.integer n) d

/-- Reads a value; `depth` is what arrays and inline tables may still nest. -/
def value : Nat → Cursor → Except Fault (Item × Cursor)
  | depth, c =>
    let scalar (v : Scalar) (d : Cursor) : Item × Cursor := (.scalar v ⟨c.offset, d.offset⟩, d)
    let nested (reader : (Cursor → Except Fault (Item × Cursor)) → Cursor →
        Except Fault (Item × Cursor)) : Except Fault (Item × Cursor) :=
      match depth with
      | 0 => .error (Fault.because c.offset "recursion limit exceeded").final
      | depth + 1 => (reader (value depth) c).mapError (·.final)
    match c.head? with
    | none => .error (Fault.at_ c.offset)
    | some '"' => (string c).map fun (s, d) => scalar (.string s) d
    | some '\'' => (string c).map fun (s, d) => scalar (.string s) d
    | some '[' => nested array
    | some '{' => nested inlineTable
    | some 't' => truth true c
    | some 'f' => truth false c
    | some 'i' => wordValue ['i', 'n', 'f'] (.float (1.0 / 0.0)) c
    | some 'n' => wordValue ['n', 'a', 'n'] (.float (0.0 / 0.0)) c
    | some '_' =>
      ((integer c).mapError (·.wanting ["leading digit"])).map fun (n, d) => scalar (.integer n) d
    | some '.' =>
      ((float c).mapError (·.wanting ["leading digit"])).map fun (x, d) => scalar (.float x) d
    | some x =>
      if x == '+' || x == '-' || x.isDigit then numeric c
      else .error (wantingString (Fault.at_ c.offset))

end Reader
end ClassAtlas.Toml
