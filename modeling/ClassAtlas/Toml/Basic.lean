import ClassAtlas.Decimal.Shortest
import ClassAtlas.Text.Quoted
/-!
# TOML documents

The values of a TOML document with the stretches of text they were read from, and the faults of a
text that is none. A fault is told with the line it is on and a mark under the place.
`Settings::load` puts these faults into its message.
-/
namespace ClassAtlas.Toml

/-- A stretch of a text, in bytes. -/
structure Span where
  start : Nat
  stop : Nat
deriving BEq, DecidableEq, Repr, Inhabited

/-- A value without parts. -/
inductive Scalar where
  | string (s : String)
  | integer (n : Int)
  | float (x : Float)
  | boolean (b : Bool)
  | dateTime
deriving Inhabited

/-- A key and where it stands. -/
structure Key where
  name : String
  span : Span
deriving BEq, DecidableEq, Repr, Inhabited

/-- The entries of a table, in the order in which they came. `implied` tables were only named on
the way to others, `dotted` ones in a dotted key. -/
structure Table (α : Type) where
  entries : List (Key × α)
  implied : Bool
  dotted : Bool
  span : Option Span
deriving Inhabited

/-- What stands at a key. -/
inductive Item where
  | scalar (v : Scalar) (span : Span)
  | array (items : List Item) (span : Span)
  | inlineTable (t : Table Item)
  | table (t : Table Item)
  | tables (ts : List (Table Item))
deriving Inhabited

namespace Item

/-- What a message calls the kind of value. -/
def kindName : Item → String
  | .scalar (.string _) _ => "string"
  | .scalar (.integer _) _ => "integer"
  | .scalar (.float _) _ => "float"
  | .scalar (.boolean _) _ => "boolean"
  | .scalar .dateTime _ => "datetime"
  | .array _ _ => "array"
  | .inlineTable _ => "inline table"
  | .table _ => "table"
  | .tables _ => "array of tables"

/-- A value inside a message. -/
def text : Item → String
  | .scalar (.string s) _ => "string " ++ Text.quote s
  | .scalar (.integer n) _ => "integer `" ++ toString n ++ "`"
  | .scalar (.float x) _ => "floating point `" ++ Decimal.positional.ofFloat x ++ "`"
  | .scalar (.boolean b) _ => "boolean `" ++ (if b then "true" else "false") ++ "`"
  | .scalar .dateTime _ => "map"
  | .array _ _ => "sequence"
  | .inlineTable _ => "map"
  | .table _ => "map"
  | .tables _ => "sequence"

/-- The stretch from the first table to the last. -/
def tablesSpan (ts : List (Table Item)) : Option Span :=
  match ts.head?.bind (·.span), ts.getLast?.bind (·.span) with
  | some a, some b => some ⟨a.start, b.stop⟩
  | _, _ => none

def span? : Item → Option Span
  | .scalar _ s => some s
  | .array _ s => some s
  | .inlineTable t => t.span
  | .table t => t.span
  | .tables ts => tablesSpan ts

end Item

/-- A fault found while reading. `cut` says that no other reading is to be tried. -/
structure Fault where
  cut : Bool
  offset : Nat
  label : Option String
  expected : List String
  cause : Option String
deriving BEq, DecidableEq, Repr, Inhabited

namespace Fault

/-- A fault about which nothing is known but the place. -/
def at_ (offset : Nat) : Fault := ⟨false, offset, none, [], none⟩

/-- A fault with a reason. -/
def because (offset : Nat) (reason : String) : Fault := ⟨false, offset, none, [], some reason⟩

def final (f : Fault) : Fault := { f with cut := true }

/-- Names what was being read, if nothing inside it was named. -/
def named (f : Fault) (label : String) : Fault := { f with label := f.label <|> some label }

/-- Adds what could have stood there. -/
def wanting (f : Fault) (more : List String) : Fault := { f with expected := f.expected ++ more }

/-- The text of a fault. -/
def text (f : Fault) : String :=
  let parts := (f.label.map ("invalid " ++ ·)).toList
    ++ (if f.expected.isEmpty then [] else ["expected " ++ String.intercalate ", " f.expected])
    ++ f.cause.toList
  String.intercalate "\n" parts

end Fault

/-- An error and the stretch of text it is about. -/
structure Error where
  message : String
  span : Option Span
deriving BEq, DecidableEq, Repr, Inhabited

/-- Line and column, counted from zero, of a byte; the column counts characters. -/
def place (text : List UInt8) (offset : Nat) : Nat × Nat :=
  if text.isEmpty then (0, offset)
  else
    let safe := min offset (text.length - 1)
    let before := text.take safe
    let lineStart := safe - (before.reverse.takeWhile (· != 10)).length
    let line := (text.take lineStart).count 10
    let bytes := (text.take (safe + 1)).drop lineStart
    let column := match String.fromUTF8? (ByteArray.mk bytes.toArray) with
      | some s => s.length - 1
      | none => safe - lineStart
    (line, column + (offset - safe))

def blanks (n : Nat) : String := String.ofList (List.replicate n ' ')

/-- The lines of a text, which line breaks part. -/
def lineAt (text : String) (n : Nat) : String := (text.splitOn "\n").getD n ""

/-- The message of an error in a text. -/
def Error.render (e : Error) (text : String) : String :=
  match e.span with
  | none => e.message ++ "\n"
  | some span =>
    let (line, column) := place text.toUTF8.toList span.start
    let number := toString (line + 1)
    let content := lineAt text line
    let marks := max 1 (min (span.stop - span.start) (content.utf8ByteSize - column))
    "TOML parse error at line " ++ number ++ ", column " ++ toString (column + 1) ++ "\n"
      ++ blanks (number.length + 1) ++ "|\n"
      ++ number ++ " | " ++ content ++ "\n"
      ++ blanks (number.length + 1) ++ "|" ++ blanks (column + 1)
      ++ String.ofList (List.replicate marks '^') ++ "\n"
      ++ e.message ++ "\n"

end ClassAtlas.Toml
