import ClassAtlas.Text.Blank
/-!
# JSON with comments and trailing commas

Turns relaxed JSON into JSON. `dropComments` removes line comments up to their line break and puts
a space for every block comment; `dropTrailingCommas` removes the commas that only white space
separates from a closing bracket. Both leave strings as they are.
-/
namespace ClassAtlas.Json.Relaxed

/-- What a scan of relaxed JSON is inside of. -/
inductive Inside where
  | text
  | string
  | lineComment
  /-- A block comment; `star` says that its last character was a star. -/
  | blockComment (star : Bool)
deriving BEq, DecidableEq, Repr, Inhabited

/-- Removes comments; `done` holds what was kept so far, last first. -/
def scan : Inside → List Char → List Char → List Char
  | .text, done, '/' :: '/' :: cs => scan .lineComment done cs
  | .text, done, '/' :: '*' :: cs => scan (.blockComment false) done cs
  | .text, done, '"' :: cs => scan .string ('"' :: done) cs
  | .text, done, c :: cs => scan .text (c :: done) cs
  | .string, done, '\\' :: c :: cs => scan .string (c :: '\\' :: done) cs
  | .string, done, '"' :: cs => scan .text ('"' :: done) cs
  | .string, done, c :: cs => scan .string (c :: done) cs
  | .lineComment, done, '\n' :: cs => scan .text ('\n' :: done) cs
  | .lineComment, done, _ :: cs => scan .lineComment done cs
  | .blockComment star, done, c :: cs =>
    if star && c == '/' then scan .text (' ' :: done) cs
    else scan (.blockComment (c == '*')) done cs
  | .blockComment _, done, [] => (' ' :: done).reverse
  | _, done, [] => done.reverse

theorem scan_nil (done : List Char) : scan .text done [] = done.reverse := by
  rw [scan]
  nofun

theorem scan_text {c : Char} (hquote : c ≠ '"') (hslash : c ≠ '/') (done rest : List Char) :
    scan .text done (c :: rest) = scan .text (c :: done) rest := by
  rw [scan]
  · exact fun _ hc => absurd hc hslash
  · exact fun _ hc => absurd hc hslash
  · exact hquote

def dropComments (cs : List Char) : List Char := scan .text [] cs

/-- Whether a closing bracket follows behind white space. -/
def closesNext (cs : List Char) : Bool :=
  match cs.dropWhile Text.isBlank with
  | '}' :: _ => true
  | ']' :: _ => true
  | _ => false

/-- Removes trailing commas; `inString` and `escaped` tell where the scan is, `done` holds what was
kept so far, last first. -/
def scanCommas (inString escaped : Bool) (done : List Char) : List Char → List Char
  | [] => done.reverse
  | c :: cs =>
    if inString then
      if escaped then scanCommas true false (c :: done) cs
      else if c == '\\' then scanCommas true true (c :: done) cs
      else scanCommas (c != '"') false (c :: done) cs
    else if c == '"' then scanCommas true false (c :: done) cs
    else if c == ',' && closesNext cs then scanCommas false false done cs
    else scanCommas false false (c :: done) cs

def dropTrailingCommas (cs : List Char) : List Char := scanCommas false false [] cs

/-- The JSON text of a relaxed one. Mirrors `strip_jsonc`. -/
def toPlain (text : String) : String :=
  String.ofList (dropTrailingCommas (dropComments text.toList))

end ClassAtlas.Json.Relaxed
