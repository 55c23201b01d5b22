import ClassAtlas.Json.Basic
/-!
# Writing JSON

The compact form: no white space, members in their order, and in strings an escape for quotes,
backslashes and control characters only. What `handle_socket` sends and requests are answered with
is written so.
-/
namespace ClassAtlas.Json

/-- A digit below sixteen. -/
def hexDigit (n : Nat) : Char := if n < 10 then Char.ofNat (48 + n) else Char.ofNat (87 + n)

/-- A character inside a string. -/
def writeChar (c : Char) : List Char :=
  match c with
  | '"' => ['\\', '"']
  | '\\' => ['\\', '\\']
  | '\x08' => ['\\', 'b']
  | '\x0c' => ['\\', 'f']
  | '\n' => ['\\', 'n']
  | '\r' => ['\\', 'r']
  | '\t' => ['\\', 't']
  | c =>
    if c.toNat < 32 then ['\\', 'u', '0', '0', hexDigit (c.toNat / 16), hexDigit (c.toNat % 16)]
    else [c]

/-- A string in quotes. -/
def writeString (s : String) : List Char := '"' :: (s.toList.flatMap writeChar ++ ['"'])

mutual

/-- The text of a document. -/
def write : Json → List Char
  | .null => ['n', 'u', 'l', 'l']
  | .bool true => ['t', 'r', 'u', 'e']
  | .bool false => ['f', 'a', 'l', 's', 'e']
  | .number t => t.toList
  | .string s => writeString s
  | .array vs => '[' :: (writeItems vs ++ [']'])
  | .object ms => '{' :: (writeMembers ms ++ ['}'])

/-- Items with commas between them. -/
def writeItems : List Json → List Char
  | [] => []
  | [v] => v.write
  | v :: vs => v.write ++ ',' :: writeItems vs

/-- Members with commas between them. -/
def writeMembers : List (String × Json) → List Char
  | [] => []
  | [(k, v)] => writeString k ++ ':' :: v.write
  | (k, v) :: ms => writeString k ++ ':' :: (v.write ++ ',' :: writeMembers ms)

end

/-- The compact text of a document. -/
def toText (j : Json) : String := String.ofList j.write

end ClassAtlas.Json
