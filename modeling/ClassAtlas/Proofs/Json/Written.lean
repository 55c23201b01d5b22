import ClassAtlas.Json.Reader
import ClassAtlas.Json.Relaxed

/-!
# Documents as they are written

A `Written` value is a JSON value together with all that a writer is free in: how the characters of
its strings are escaped, how its numbers are spelled, and what stands between any two tokens, which
in relaxed JSON is white space and comments. An array or an object with something in it may end with
a comma.

A `Page` is a written value with what stands before and behind it. Its `plain` text has the white
space alone, its `relaxed` text the comments and the commas too.
-/
namespace ClassAtlas.Json

/-! ## Between two tokens -/

/-- A piece of what stands between two tokens. -/
inductive Blank where
  | space (c : Char) (h : Reader.isSpace c = true)
  /-- A comment that ends with its line. -/
  | line (body : List Char) (h : '\n' ∉ body)
  | block (body : List Char) (h : ¬ ['*', '/'] <:+: body)

/-- What stands between two tokens. -/
abbrev Gap := List Blank

/-- How the pieces that JSON does not know are written. -/
structure Style where
  line : List Char → List Char
  block : List Char → List Char
  comma : List Char

namespace Style

/-- As relaxed JSON. -/
def relaxed : Style :=
  ⟨fun body => ['/', '/'] ++ body ++ ['\n'], fun body => ['/', '*'] ++ body ++ ['*', '/'], [',']⟩

/-- Not at all. -/
def plain : Style := ⟨fun _ => [], fun _ => [], []⟩

/-- White space for every comment. -/
def blanked : Style := ⟨fun _ => ['\n'], fun _ => [' '], []⟩

/-- The same with trailing commas. -/
def withCommas (s : Style) : Style := { s with comma := [','] }

def blank (s : Style) : Blank → List Char
  | .space c _ => [c]
  | .line body _ => s.line body
  | .block body _ => s.block body

def gap (s : Style) (g : Gap) : List Char := g.flatMap s.blank

/-- Gaps are written as white space, and trailing commas not at all. -/
structure IsBare (s : Style) : Prop where
  line : ∀ body, ∀ c ∈ s.line body, Reader.isSpace c = true
  block : ∀ body, ∀ c ∈ s.block body, Reader.isSpace c = true
  comma : s.comma = []

theorem IsBare.gap {s : Style} (h : s.IsBare) (g : Gap) :
    ∀ c ∈ s.gap g, Reader.isSpace c = true := by
  intro c hc
  obtain ⟨b, -, hb⟩ := List.mem_flatMap.1 hc
  cases b with
  | space e he => exact List.eq_of_mem_singleton hb ▸ he
  | line body _ => exact h.line body c hb
  | block body _ => exact h.block body c hb

end Style

/-! ## Strings -/

/-- A hexadecimal digit. -/
structure HexDigit where
  char : Char
  value : Nat
  h : Reader.hexDigit? char = some value

/-- What is written behind `\u`. -/
structure CodeUnit where
  a : HexDigit
  b : HexDigit
  c : HexDigit
  d : HexDigit

namespace CodeUnit

def text (u : CodeUnit) : List Char := [u.a.char, u.b.char, u.c.char, u.d.char]

def value (u : CodeUnit) : Nat :=
  ((u.a.value * 16 + u.b.value) * 16 + u.c.value) * 16 + u.d.value

def IsHigh (u : CodeUnit) : Prop := 0xD800 ≤ u.value ∧ u.value ≤ 0xDBFF

def IsLow (u : CodeUnit) : Prop := 0xDC00 ≤ u.value ∧ u.value ≤ 0xDFFF

end CodeUnit

/-- A character of a string as it is written. -/
inductive Letter where
  | literal (c : Char) (h : c ≠ '"' ∧ c ≠ '\\' ∧ Reader.isControl c = false)
  /-- An escape of one letter. -/
  | short (c e : Char) (h : Reader.shortEscape? c = some e)
  | unit (u : CodeUnit) (h : ¬ u.IsHigh ∧ ¬ u.IsLow)
  /-- A character outside the basic plane, as two halves. -/
  | pair (high low : CodeUnit) (hh : high.IsHigh) (hl : low.IsLow)

namespace Letter

def text : Letter → List Char
  | .literal c _ => [c]
  | .short c _ _ => ['\\', c]
  | .unit u _ => '\\' :: 'u' :: u.text
  | .pair high low _ _ => '\\' :: 'u' :: (high.text ++ '\\' :: 'u' :: low.text)

/-- The character that is written. -/
def char : Letter → Char
  | .literal c _ => c
  | .short _ e _ => e
  | .unit u _ => Char.ofNat u.value
  | .pair high low _ _ =>
    Char.ofNat (0x10000 + (high.value - 0xD800) * 0x400 + (low.value - 0xDC00))

end Letter

/-- The letters of a string without its quotes. -/
def lettersText (letters : List Letter) : List Char := letters.flatMap Letter.text

/-- The string that letters spell. -/
def lettersString (letters : List Letter) : String := String.ofList (letters.map Letter.char)

/-! ## Numbers -/

/-- One digit or more. -/
structure Digits where
  text : List Char
  ne_nil : text ≠ []
  digits : ∀ c ∈ text, c.isDigit = true

structure Exponent where
  marker : Char
  marker_eq : marker = 'e' ∨ marker = 'E'
  sign : List Char
  sign_eq : sign = [] ∨ sign = ['+'] ∨ sign = ['-']
  digits : Digits

def Exponent.text (e : Exponent) : List Char := e.marker :: (e.sign ++ e.digits.text)

/-- A number as it is written: no zero stands before other digits. -/
structure Numeral where
  minus : Bool
  whole : Digits
  no_zero : ∀ c cs, whole.text ≠ '0' :: c :: cs
  fraction : Option Digits
  exponent : Option Exponent

namespace Numeral

def fractionText (n : Numeral) : List Char :=
  match n.fraction with
  | none => []
  | some ds => '.' :: ds.text

def exponentText (n : Numeral) : List Char :=
  match n.exponent with
  | none => []
  | some e => e.text

/-- The number without its sign. -/
def body (n : Numeral) : List Char := n.whole.text ++ (n.fractionText ++ n.exponentText)

def text (n : Numeral) : List Char := (if n.minus then ['-'] else []) ++ n.body

/-- Whether the number can be held. -/
def inRange (n : Numeral) : Bool := !Reader.isTooLarge (String.ofList n.text)

end Numeral

/-- What is read of something written: a number that cannot be held is the only thing that keeps it
from being read. -/
def ifInRange {α : Type} (inRange : Bool) (a : α) : Except Code α :=
  if inRange then .ok a else .error .numberOutOfRange

/-! ## Values -/

/-- A value that is one token. -/
inductive Scalar where
  | null
  | bool (b : Bool)
  | number (n : Numeral)
  | string (letters : List Letter)

namespace Scalar

def text : Scalar → List Char
  | .null => ['n', 'u', 'l', 'l']
  | .bool true => ['t', 'r', 'u', 'e']
  | .bool false => ['f', 'a', 'l', 's', 'e']
  | .number n => n.text
  | .string letters => '"' :: (lettersText letters ++ ['"'])

def doc : Scalar → Json
  | .null => .null
  | .bool b => .bool b
  | .number n => .number (String.ofList n.text)
  | .string letters => .string (lettersString letters)

def inRange : Scalar → Bool
  | .number n => n.inRange
  | .null | .bool _ | .string _ => true

end Scalar

/-- The key of a member with its colon and the gaps around them. -/
structure Key where
  before : Gap
  letters : List Letter
  behind : Gap
  ahead : Gap

namespace Key

def text (s : Style) (k : Key) : List Char :=
  s.gap k.before ++
    '"' :: (lettersText k.letters ++ '"' :: (s.gap k.behind ++ ':' :: s.gap k.ahead))

def string (k : Key) : String := lettersString k.letters

end Key

mutual

/-- A value as it is written. -/
inductive Written where
  | scalar (s : Scalar)
  | emptyArray (inside : Gap)
  /-- An array; the gap at its end stands behind a comma if it is there. -/
  | array (items : Items) (trailing : Option Gap)
  | emptyObject (inside : Gap)
  | object (members : Members) (trailing : Option Gap)

/-- The items of an array, one or more. -/
inductive Items where
  | last (before : Gap) (v : Written) (behind : Gap)
  | more (before : Gap) (v : Written) (behind : Gap) (rest : Items)

/-- The members of an object, one or more. -/
inductive Members where
  | last (key : Key) (v : Written) (behind : Gap)
  | more (key : Key) (v : Written) (behind : Gap) (rest : Members)

end

/-- A trailing comma and the gap behind it. -/
def Style.trailing (s : Style) : Option Gap → List Char
  | none => []
  | some g => s.comma ++ s.gap g

theorem Style.IsBare.trailing {s : Style} (h : s.IsBare) (t : Option Gap) :
    ∀ c ∈ s.trailing t, Reader.isSpace c = true := by
  cases t with
  | none => exact fun c hc => absurd hc List.not_mem_nil
  | some g =>
    unfold Style.trailing
    rw [h.comma]
    exact h.gap g

mutual

def Written.text (s : Style) : Written → List Char
  | .scalar t => t.text
  | .emptyArray inside => '[' :: (s.gap inside ++ [']'])
  | .array items trailing => '[' :: (items.text s ++ (s.trailing trailing ++ [']']))
  | .emptyObject inside => '{' :: (s.gap inside ++ ['}'])
  | .object members trailing => '{' :: (members.text s ++ (s.trailing trailing ++ ['}']))

def Items.text (s : Style) : Items → List Char
  | .last before v behind => s.gap before ++ (v.text s ++ s.gap behind)
  | .more before v behind rest => s.gap before ++ (v.text s ++ (s.gap behind ++ ',' :: rest.text s))

def Members.text (s : Style) : Members → List Char
  | .last key v behind => key.text s ++ (v.text s ++ s.gap behind)
  | .more key v behind rest => key.text s ++ (v.text s ++ (s.gap behind ++ ',' :: rest.text s))

end

/-! ## First characters -/

theorem isBlank_of_isSpace {c : Char} (h : Reader.isSpace c = true) : Text.isBlank c = true := by
  simp only [Reader.isSpace, Bool.or_eq_true, beq_iff_eq] at h
  rcases h with ((rfl | rfl) | rfl) | rfl <;> rfl

theorem isBlank_of_isDigit {c : Char} (h : c.isDigit = true) : Text.isBlank c = false := by
  have hrange : 48 ≤ c.toNat ∧ c.toNat ≤ 57 := by
    simpa [Char.isDigit, UInt32.le_iff_toNat_le] using h
  simp only [Text.isBlank, Bool.or_eq_false_iff, Bool.and_eq_false_iff, decide_eq_false_iff_not,
    beq_eq_false_iff_ne]
  omega

theorem Digits.exists_first (ds : Digits) : ∃ d cs, ds.text = d :: cs ∧ d.isDigit = true := by
  obtain ⟨d, cs, hd⟩ := List.exists_cons_of_ne_nil ds.ne_nil
  exact ⟨d, cs, hd, ds.digits d (by simp [hd])⟩

/-- A character with which a value can begin. -/
def Begins (c : Char) : Prop := Text.isBlank c = false ∧ c ≠ ']' ∧ c ≠ '}'

instance (c : Char) : Decidable (Begins c) := inferInstanceAs (Decidable (_ ∧ _ ∧ _))

theorem begins_of_isDigit {c : Char} (h : c.isDigit = true) : Begins c := by
  refine ⟨isBlank_of_isDigit h, ?_, ?_⟩
  · rintro rfl
    cases h
  · rintro rfl
    cases h

theorem Numeral.exists_first (n : Numeral) :
    ∃ c cs, n.text = c :: cs ∧ (c == '-' || c.isDigit) = true := by
  obtain ⟨d, cs, hd, hdigit⟩ := n.whole.exists_first
  unfold Numeral.text Numeral.body
  cases n.minus with
  | false => exact ⟨d, _, by rw [hd]; rfl, by simp [hdigit]⟩
  | true => exact ⟨'-', _, rfl, rfl⟩

theorem Scalar.exists_first (s : Scalar) : ∃ c cs, s.text = c :: cs ∧ Begins c := by
  cases s with
  | null => exact ⟨'n', _, rfl, by decide⟩
  | bool b =>
    cases b with
    | false => exact ⟨'f', _, rfl, by decide⟩
    | true => exact ⟨'t', _, rfl, by decide⟩
  | number n =>
    obtain ⟨c, cs, hc, hfirst⟩ := n.exists_first
    refine ⟨c, cs, hc, ?_⟩
    rcases Bool.or_eq_true _ _ ▸ hfirst with h | h
    · rw [beq_iff_eq.1 h]
      decide
    · exact begins_of_isDigit h
  | string letters => exact ⟨'"', _, rfl, by decide⟩

theorem Written.exists_first (s : Style) (w : Written) : ∃ c cs, w.text s = c :: cs ∧ Begins c := by
  cases w with
  | scalar t =>
    rw [Written.text]
    exact t.exists_first
  | emptyArray inside => exact ⟨'[', _, by rw [Written.text], by decide⟩
  | array items trailing => exact ⟨'[', _, by rw [Written.text], by decide⟩
  | emptyObject inside => exact ⟨'{', _, by rw [Written.text], by decide⟩
  | object members trailing => exact ⟨'{', _, by rw [Written.text], by decide⟩

/-! ## What is written -/

mutual

/-- The value that is written. -/
def Written.doc : Written → Json
  | .scalar s => s.doc
  | .emptyArray _ => .array []
  | .array items _ => .array items.docs
  | .emptyObject _ => .object []
  | .object members _ => .object members.docs

def Items.docs : Items → List Json
  | .last _ v _ => [v.doc]
  | .more _ v _ rest => v.doc :: rest.docs

def Members.docs : Members → List (String × Json)
  | .last key v _ => [(key.string, v.doc)]
  | .more key v _ rest => (key.string, v.doc) :: rest.docs

end

/-- How many items there are. -/
def Items.length : Items → Nat
  | .last _ _ _ => 1
  | .more _ _ _ rest => rest.length + 1

/-- How many members there are. -/
def Members.length : Members → Nat
  | .last _ _ _ => 1
  | .more _ _ _ rest => rest.length + 1

theorem Items.length_le (s : Style) : ∀ i : Items, i.length ≤ (i.text s).length
  | .last before v behind => by
    obtain ⟨c, cs, hc, -⟩ := v.exists_first s
    simp only [Items.length, Items.text, List.length_append, hc, List.length_cons]
    omega
  | .more before v behind rest => by
    have hrest := rest.length_le s
    simp only [Items.length, Items.text, List.length_append, List.length_cons]
    omega

theorem Members.length_le (s : Style) : ∀ m : Members, m.length ≤ (m.text s).length
  | .last key v behind => by
    obtain ⟨c, cs, hc, -⟩ := v.exists_first s
    simp only [Members.length, Members.text, List.length_append, hc, List.length_cons]
    omega
  | .more key v behind rest => by
    have hrest := rest.length_le s
    simp only [Members.length, Members.text, List.length_append, List.length_cons]
    omega

mutual

/-- How deep arrays and objects nest. -/
def Written.depth : Written → Nat
  | .scalar _ => 0
  | .emptyArray _ | .emptyObject _ => 1
  | .array items _ => items.depth + 1
  | .object members _ => members.depth + 1

def Items.depth : Items → Nat
  | .last _ v _ => v.depth
  | .more _ v _ rest => max v.depth rest.depth

def Members.depth : Members → Nat
  | .last _ v _ => v.depth
  | .more _ v _ rest => max v.depth rest.depth

end

mutual

/-- Whether all numbers can be held. -/
def Written.inRange : Written → Bool
  | .scalar s => s.inRange
  | .emptyArray _ | .emptyObject _ => true
  | .array items _ => items.inRange
  | .object members _ => members.inRange

def Items.inRange : Items → Bool
  | .last _ v _ => v.inRange
  | .more _ v _ rest => v.inRange && rest.inRange

def Members.inRange : Members → Bool
  | .last _ v _ => v.inRange
  | .more _ v _ rest => v.inRange && rest.inRange

end

/-- A written value with what stands before and behind it. -/
structure Page where
  before : Gap
  value : Written
  behind : Gap
  /-- A line comment that ends with the text. -/
  tail : Option {body : List Char // '\n' ∉ body}

namespace Page

def text (s : Style) (p : Page) : List Char :=
  s.gap p.before ++ (p.value.text s ++ s.gap p.behind)

/-- The text without comments and trailing commas. -/
def plain (p : Page) : String := String.ofList (p.text .plain)

def tailText (p : Page) : List Char :=
  match p.tail with
  | none => []
  | some body => '/' :: '/' :: body.val

/-- The text with them. -/
def relaxed (p : Page) : String := String.ofList (p.text .relaxed ++ p.tailText)

end Page
end ClassAtlas.Json
