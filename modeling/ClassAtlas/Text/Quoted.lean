import ClassAtlas.Text.Shown
/-!
# Quoted text

The form in which a text is shown inside a message: in double quotes, with a backslash before
quotes and backslashes, short escapes for the common control characters, and the code point in
hexadecimal for every other character that does not show.
-/
namespace ClassAtlas.Text

/-- A number in lower-case hexadecimal. -/
def hex (n : Nat) : String := String.ofList (Nat.toDigits 16 n)

/-- A character inside quotes. -/
def escapeChar (c : Char) : String :=
  match c with
  | '\x00' => "\\0"
  | '\t' => "\\t"
  | '\n' => "\\n"
  | '\r' => "\\r"
  | '"' => "\\\""
  | '\\' => "\\\\"
  | _ => if shows c then c.toString else "\\u\x7b" ++ hex c.toNat ++ "\x7d"

/-- A text in quotes. -/
def quote (s : String) : String := "\"" ++ String.join (s.toList.map escapeChar) ++ "\""

end ClassAtlas.Text
