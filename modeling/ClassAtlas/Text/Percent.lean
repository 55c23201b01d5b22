/-!
# Percent encoding

A percent sign with two hexadecimal digits behind it stands for a byte; every other character stands
for itself, a percent sign without such digits too. The bytes need not be a text. Session names come
this way to `session_diagram`.
-/
namespace ClassAtlas.Text.Percent

/-- The value of a hexadecimal digit. -/
def digit? (c : Char) : Option Nat :=
  if '0' ≤ c ∧ c ≤ '9' then some (c.toNat - '0'.toNat)
  else if 'a' ≤ c ∧ c ≤ 'f' then some (c.toNat - 'a'.toNat + 10)
  else if 'A' ≤ c ∧ c ≤ 'F' then some (c.toNat - 'A'.toNat + 10)
  else none

/-- The byte that two digits stand for. -/
def byte? (a b : Char) : Option UInt8 := do
  some (UInt8.ofNat ((← digit? a) * 16 + (← digit? b)))

/-- The bytes that a text stands for. -/
def decodeBytes : List Char → List UInt8
  | '%' :: a :: b :: rest =>
    match byte? a b with
    | some x => x :: decodeBytes rest
    | none => (String.singleton '%').toUTF8.toList ++ decodeBytes (a :: b :: rest)
  | c :: rest => (String.singleton c).toUTF8.toList ++ decodeBytes rest
  | [] => []

/-- The text that a text stands for, if the bytes are one. -/
def decode? (s : String) : Option String :=
  String.fromUTF8? ⟨(decodeBytes s.toList).toArray⟩

end ClassAtlas.Text.Percent
