import ClassAtlas.Json.Basic
import ClassAtlas.Json.Fault
/-!
# Reading JSON

Readers take the text left and give a value with the text behind it. `value` reads a document,
`skipValue` steps over one without keeping it; the second asks less of strings and numbers and knows
no limit of nesting. `items` and `members` read the inside of an array and of an object with any
reader for what stands there, so that typed records are read by the same rules. Descriptors
(`Project::load`) and messages (`handle_socket`) are read so.
-/
namespace ClassAtlas.Json

namespace Reader

/-- White space between tokens. -/
def isSpace (c : Char) : Bool := c == ' ' || c == '\n' || c == '\t' || c == '\r'

def skipSpace : List Char → List Char
  | [] => []
  | c :: cs => if isSpace c then skipSpace cs else c :: cs

theorem length_skipSpace_le (cs : List Char) : (skipSpace cs).length ≤ cs.length := by
  induction cs with
  | nil => exact Nat.le_refl _
  | cons c cs ih =>
    simp only [skipSpace]
    split
    · exact Nat.le_succ_of_le ih
    · exact Nat.le_refl _

/-! ## Words and numbers -/

/-- Reads the rest of a word. -/
def word : List Char → List Char → Except Fault (List Char)
  | [], cs => .ok cs
  | _ :: _, [] => .error (.here .endInValue [])
  | e :: es, c :: cs => if c == e then word es cs else .error (.next .expectedIdent (c :: cs))

/-- Splits off digits. -/
def digits (cs : List Char) : List Char × List Char := cs.span Char.isDigit

/-- A fault at a character where a digit has to stand. -/
def digitFault (kept : Bool) : List Char → Fault
  | [] => .here (if kept then .endInValue else .invalidNumber) []
  | cs => .next .invalidNumber cs

/-- Reads the digits of an exponent behind its `e`. -/
def exponentPart (kept : Bool) (cs : List Char) : Except Fault (List Char × List Char) :=
  let (sign, cs) := match cs with
    | '+' :: r => (['+'], r)
    | '-' :: r => (['-'], r)
    | _ => ([], cs)
  match digits cs with
  | ([], rest) => .error (digitFault kept rest)
  | (ds, rest) => .ok (sign ++ ds, rest)

/-- Reads the fraction and the exponent of a number. -/
def numberTail (kept : Bool) (cs : List Char) : Except Fault (List Char × List Char) := do
  let (fraction, cs) ← match cs with
    | '.' :: r =>
      match digits r with
      | ([], rest) =>
        let f : Fault := match rest with
          | [] => if kept then .here .endInValue [] else .here .invalidNumber []
          | _ => .next .invalidNumber rest
        .error f
      | (ds, rest) => .ok ('.' :: ds, rest)
    | _ => .ok ([], cs)
  match cs with
  | 'e' :: r => do
    let (exponent, rest) ← exponentPart kept r
    .ok (fraction ++ 'e' :: exponent, rest)
  | 'E' :: r => do
    let (exponent, rest) ← exponentPart kept r
    .ok (fraction ++ 'E' :: exponent, rest)
  | _ => .ok (fraction, cs)

/-- Reads a number behind its sign. `kept` says whether its value is wanted. -/
def numberBody (kept : Bool) (cs : List Char) : Except Fault (List Char × List Char) := do
  match digits cs with
  | ([], rest) => .error (digitFault kept rest)
  | ('0' :: d :: ds, rest) => .error (.next .invalidNumber (d :: ds ++ rest))
  | (whole, rest) =>
    let (tail, rest) ← numberTail kept rest
    .ok (whole ++ tail, rest)

/-- Whether the number of a text is too large to be held. -/
def isTooLarge (text : String) : Bool :=
  match Number.ofText text with
  | .float x => x.isInf
  | _ => false

/-- How many digits it takes until their value is above a limit. -/
def digitsAbove (limit : Nat) : Nat → List Char → Nat
  | _, [] => 0
  | n, c :: cs =>
    let n := n * 10 + (c.toNat - 48)
    if limit < n then 1 else digitsAbove limit n cs + 1

/-- How much of a number's text is read when its exponent turns out too large: all up to the digit
that brings the exponent above 31 bits. -/
def exponentStop (text : List Char) : Nat :=
  let mantissa := text.takeWhile fun c => c != 'e' && c != 'E'
  let behind := text.drop (mantissa.length + 1)
  let sign := behind.takeWhile fun c => !c.isDigit
  mantissa.length + 1 + sign.length + digitsAbove 0x7FFFFFFF 0 (behind.drop sign.length)

/-- Reads a number. -/
def number (cs : List Char) : Except Fault (String × List Char) := do
  let (sign, body) := match cs with
    | '-' :: r => (['-'], r)
    | _ => ([], cs)
  let (text, rest) ← numberBody true body
  let written := String.ofList (sign ++ text)
  if isTooLarge written then
    .error (.here .numberOutOfRange (text.drop (exponentStop text) ++ rest))
  else .ok (written, rest)

/-! ## Strings -/

def hexDigit? (c : Char) : Option Nat :=
  if c.isDigit then some (c.toNat - 48)
  else if 'a' ≤ c ∧ c ≤ 'f' then some (c.toNat - 87)
  else if 'A' ≤ c ∧ c ≤ 'F' then some (c.toNat - 55)
  else none

/-- Reads four hexadecimal digits. -/
def hexFour (cs : List Char) : Except Fault (Nat × List Char) :=
  match cs with
  | a :: b :: c :: d :: rest =>
    match hexDigit? a, hexDigit? b, hexDigit? c, hexDigit? d with
    | some w, some x, some y, some z => .ok (((w * 16 + x) * 16 + y) * 16 + z, rest)
    | _, _, _, _ => .error ⟨.invalidEscape, cs, 4, true⟩
  | _ =>
    if utf8Size cs < 4 then .error (.here .endInString [])
    else .error ⟨.invalidEscape, cs, 4, true⟩

/-- Reads a code point behind `\u`; one outside the basic plane is written as two halves. -/
def codePoint (cs : List Char) : Except Fault (Char × List Char) := do
  let (n, rest) ← hexFour cs
  if 0xDC00 ≤ n ∧ n ≤ 0xDFFF then .error (.here .loneSurrogate rest)
  else if n < 0xD800 ∨ 0xDBFF < n then .ok (Char.ofNat n, rest)
  else
    match rest with
    | [] => .error (.here .endInString [])
    | '\\' :: [] => .error (.here .endInString [])
    | '\\' :: 'u' :: rest =>
      let (m, rest) ← hexFour rest
      if m < 0xDC00 ∨ 0xDFFF < m then .error (.here .loneSurrogate rest)
      else .ok (Char.ofNat (0x10000 + (n - 0xD800) * 0x400 + (m - 0xDC00)), rest)
    | '\\' :: rest => .error (.next .endOfHexEscape rest)
    | rest => .error (.next .endOfHexEscape rest)

/-- The character that an escape of one letter stands for. -/
def shortEscape? (c : Char) : Option Char :=
  match c with
  | '"' => some '"'
  | '\\' => some '\\'
  | '/' => some '/'
  | 'b' => some '\x08'
  | 'f' => some '\x0c'
  | 'n' => some '\n'
  | 'r' => some '\r'
  | 't' => some '\t'
  | _ => none

/-- Reads an escape behind its backslash. -/
def escape : List Char → Except Fault (Char × List Char)
  | [] => .error (.here .endInString [])
  | 'u' :: cs => codePoint cs
  | c :: cs =>
    match shortEscape? c with
    | some e => .ok (e, cs)
    | none => .error (.next .invalidEscape (c :: cs))

/-- Steps over an escape behind its backslash. -/
def skipEscape : List Char → Except Fault (List Char)
  | [] => .error (.here .endInString [])
  | 'u' :: cs => (hexFour cs).map (·.2)
  | c :: cs =>
    match shortEscape? c with
    | some _ => .ok cs
    | none => .error (.next .invalidEscape (c :: cs))

theorem hexFour_shorter {cs r : List Char} {n : Nat} (h : hexFour cs = .ok (n, r)) :
    r.length < cs.length := by
  unfold hexFour at h
  split at h
  · split at h
    · simp only [Except.ok.injEq, Prod.mk.injEq] at h
      simp only [← h.2, List.length_cons]
      omega
    · cases h
  · split at h <;> cases h

theorem codePoint_shorter {cs r : List Char} {c : Char} (h : codePoint cs = .ok (c, r)) :
    r.length < cs.length := by
  unfold codePoint at h
  cases h1 : hexFour cs with
  | error e => simp [h1, bind, Except.bind] at h
  | ok p =>
    obtain ⟨n, rest⟩ := p
    have hlt := hexFour_shorter h1
    simp only [h1, bind, Except.bind] at h
    split at h
    · cases h
    · split at h
      · simp only [Except.ok.injEq, Prod.mk.injEq] at h
        simpa [← h.2] using hlt
      · split at h
        · cases h
        · cases h
        · rename_i rest'
          cases h2 : hexFour rest' with
          | error e => simp [h2] at h
          | ok q =>
            obtain ⟨m, rest2⟩ := q
            have hlt2 := hexFour_shorter h2
            simp only [h2] at h
            split at h
            · cases h
            · simp only [Except.ok.injEq, Prod.mk.injEq] at h
              simp only [List.length_cons] at hlt
              simp only [← h.2]
              omega
        · cases h
        · cases h

theorem escape_shorter {cs r : List Char} {c : Char} (h : escape cs = .ok (c, r)) :
    r.length < cs.length := by
  unfold escape at h
  split at h
  · cases h
  · have := codePoint_shorter h
    simp only [List.length_cons]
    omega
  · split at h
    · simp only [Except.ok.injEq, Prod.mk.injEq] at h
      simp [← h.2]
    · cases h

theorem skipEscape_shorter {cs r : List Char} (h : skipEscape cs = .ok r) :
    r.length < cs.length := by
  unfold skipEscape at h
  split at h
  · cases h
  · rename_i cs'
    cases h1 : hexFour cs' with
    | error e => simp [h1, Except.map] at h
    | ok p =>
      have := hexFour_shorter (n := p.1) (r := p.2) h1
      simp only [h1, Except.map, Except.ok.injEq] at h
      simp only [← h, List.length_cons]
      omega
  · split at h
    · simp only [Except.ok.injEq] at h
      simp [← h]
    · cases h

/-- Characters that may not stand in a string as they are. -/
def isControl (c : Char) : Bool := c.toNat < 32

/-- Reads a string behind its opening quote; `read` holds what was read of it, last first. -/
def stringTail (read : List Char) : List Char → Except Fault (String × List Char)
  | [] => .error (.here .endInString [])
  | '"' :: cs => .ok (String.ofList read.reverse, cs)
  | '\\' :: cs =>
    match h : escape cs with
    | .error f => .error f
    | .ok (c, rest) =>
      have := escape_shorter h
      stringTail (c :: read) rest
  | c :: cs =>
    if isControl c then .error (.next .controlCharacter (c :: cs)) else stringTail (c :: read) cs
termination_by cs => cs.length
decreasing_by all_goals simp only [List.length_cons]; omega

/-- Steps over a string behind its opening quote. -/
def skipString : List Char → Except Fault (List Char)
  | [] => .error (.here .endInString [])
  | '"' :: cs => .ok cs
  | '\\' :: cs =>
    match h : skipEscape cs with
    | .error f => .error f
    | .ok rest =>
      have := skipEscape_shorter h
      skipString rest
  | c :: cs => if isControl c then .error (.here .controlCharacter (c :: cs)) else skipString cs
termination_by cs => cs.length
decreasing_by all_goals simp only [List.length_cons]; omega

/-! ## Arrays and objects -/

/-- Whether another item follows in an array: the text at it, or the text at the closing bracket.
`first` says that no item was read yet. -/
def nextItem (first : Bool) (cs : List Char) : Except Fault (Bool × List Char) :=
  match skipSpace cs with
  | [] => .error (.here .endInList [])
  | ']' :: rest => .ok (false, ']' :: rest)
  | c :: rest =>
    if first then .ok (true, c :: rest)
    else if c == ',' then
      match skipSpace rest with
      | [] => .error (.here .endInValue [])
      | ']' :: r => .error (.next .trailingComma (']' :: r))
      | r => .ok (true, r)
    else .error (.next .expectedListCommaOrEnd (c :: rest))

/-- Reads the items of an array up to its closing bracket; `fuel` bounds their number. -/
def items {α : Type} (item : List Char → Except Fault (α × List Char)) :
    Nat → Bool → List α → List Char → Except Fault (List α × List Char)
  | 0, _, _, cs => .error (.here .endInList cs)
  | fuel + 1, first, read, cs => do
    match ← nextItem first cs with
    | (false, rest) => .ok (read.reverse, rest)
    | (true, rest) =>
      let (a, rest) ← item rest
      items item fuel false (a :: read) rest

/-- Closes an array behind its last item. -/
def closeArray (cs : List Char) : Except Fault (List Char) :=
  match skipSpace cs with
  | [] => .error (.here .endInList [])
  | ']' :: rest => .ok rest
  | ',' :: rest =>
    match skipSpace rest with
    | ']' :: r => .error (.next .trailingComma (']' :: r))
    | r => .error (.next .trailingCharacters r)
  | rest => .error (.next .trailingCharacters rest)

/-- Where the reader of an array stands after a fault in it. -/
def leaveArray (cs : List Char) : List Char :=
  match skipSpace cs with
  | ']' :: rest => rest
  | ',' :: rest => skipSpace rest
  | rest => rest

/-- Whether another member follows in an object: the text at its key, or at the closing brace. -/
def nextMember (first : Bool) (cs : List Char) : Except Fault (Bool × List Char) :=
  match skipSpace cs with
  | [] => .error (.here .endInObject [])
  | '}' :: rest => .ok (false, '}' :: rest)
  | c :: rest =>
    if first then
      if c == '"' then .ok (true, c :: rest) else .error (.next .keyMustBeString (c :: rest))
    else if c == ',' then
      match skipSpace rest with
      | [] => .error (.here .endInValue [])
      | '"' :: r => .ok (true, '"' :: r)
      | '}' :: r => .error (.next .trailingComma ('}' :: r))
      | r => .error (.next .keyMustBeString r)
    else .error (.next .expectedObjectCommaOrEnd (c :: rest))

/-- Reads the colon between a key and its value. -/
def colon (cs : List Char) : Except Fault (List Char) :=
  match skipSpace cs with
  | [] => .error (.here .endInObject [])
  | ':' :: rest => .ok rest
  | rest => .error (.next .expectedColon rest)

/-- Reads the members of an object up to its closing brace into a state; `fuel` bounds their
number. The reader of a member is given the key and stands before the colon. -/
def members {σ : Type} (member : String → σ → List Char → Except Fault (σ × List Char)) :
    Nat → Bool → σ → List Char → Except Fault (σ × List Char)
  | 0, _, _, cs => .error (.here .endInObject cs)
  | fuel + 1, first, state, cs => do
    match ← nextMember first cs with
    | (false, rest) => .ok (state, rest)
    | (true, rest) =>
      let (key, rest) ← stringTail [] rest.tail
      let (state, rest) ← member key state rest
      members member fuel false state rest

/-- Closes an object behind its last member. -/
def closeObject (cs : List Char) : Except Fault (List Char) :=
  match skipSpace cs with
  | [] => .error (.here .endInObject [])
  | '}' :: rest => .ok rest
  | ',' :: rest => .error (.next .trailingComma (',' :: rest))
  | rest => .error (.next .trailingCharacters rest)

/-- Where the reader of an object stands after a fault in it. -/
def leaveObject (cs : List Char) : List Char :=
  match skipSpace cs with
  | '}' :: rest => rest
  | rest => rest

/-- Reads an array behind its bracket with a reader for its inside. -/
def inArray {α : Type} (inside : List Char → Except Fault (α × List Char)) (cs : List Char) :
    Except Fault (α × List Char) :=
  match inside cs with
  | .error f => .error (f.settle leaveArray)
  | .ok (a, rest) => do
    let rest ← closeArray rest
    .ok (a, rest)

/-- Reads an object behind its brace with a reader for its inside. -/
def inObject {α : Type} (inside : List Char → Except Fault (α × List Char)) (cs : List Char) :
    Except Fault (α × List Char) :=
  match inside cs with
  | .error f => .error (f.settle leaveObject)
  | .ok (a, rest) => do
    let rest ← closeObject rest
    .ok (a, rest)

/-! ## Values -/

/-- The depth to which arrays and objects may nest. -/
def maxDepth : Nat := 127

/-- Reads a value that is no array and no object; `none` for those two. The text begins with the
value. -/
def scalar? (cs : List Char) : Option (Except Fault (Json × List Char)) :=
  match cs with
  | [] => some (.error (.here .endInValue []))
  | 'n' :: r => some do
    let r ← word ['u', 'l', 'l'] r
    .ok (.null, r)
  | 't' :: r => some do
    let r ← word ['r', 'u', 'e'] r
    .ok (.bool true, r)
  | 'f' :: r => some do
    let r ← word ['a', 'l', 's', 'e'] r
    .ok (.bool false, r)
  | '"' :: r => some do
    let (s, r) ← stringTail [] r
    .ok (.string s, r)
  | '[' :: _ => none
  | '{' :: _ => none
  | c :: r => some <|
    if c == '-' || c.isDigit then do
      let (t, rest) ← number (c :: r)
      .ok (.number t, rest)
    else .error (.next .expectedValue (c :: r))

/-- Reads a value in which arrays and objects nest no deeper than given. -/
def value : Nat → List Char → Except Fault (Json × List Char)
  | depth, cs =>
    let cs := skipSpace cs
    match scalar? cs with
    | some r => r
    | none =>
      match depth with
      | 0 => .error (.next .nestedTooDeeply cs)
      | depth + 1 =>
        if cs.head? == some '[' then do
          let (vs, rest) ← inArray (items (value depth) cs.length true []) cs.tail
          .ok (.array vs, rest)
        else do
          let member (key : String) (read : List (String × Json)) (r : List Char) :
              Except Fault (List (String × Json) × List Char) := do
            let r ← colon r
            let (v, r) ← value depth r
            .ok ((key, v) :: read, r)
          let (ms, rest) ← inObject (members member cs.length true []) cs.tail
          .ok (.object ms.reverse, rest)

/-- Nothing but white space may follow. -/
def atEnd (cs : List Char) : Except Fault Unit :=
  match skipSpace cs with
  | [] => .ok ()
  | rest => .error (.next .trailingCharacters rest)

/-- Reads a whole text with a reader. -/
def readAll {α : Type} (reader : List Char → Except Fault (α × List Char)) (text : String) :
    Except Fault α := do
  let (a, rest) ← reader text.toList
  atEnd rest
  .ok a

/-! ## Stepping over a value -/

/-- Steps over a scalar; `none` for an array or an object. -/
def skipScalar? (cs : List Char) : Option (Except Fault (List Char)) :=
  match cs with
  | [] => some (.error (.here .endInValue []))
  | 'n' :: r => some (word ['u', 'l', 'l'] r)
  | 't' :: r => some (word ['r', 'u', 'e'] r)
  | 'f' :: r => some (word ['a', 'l', 's', 'e'] r)
  | '"' :: r => some (skipString r)
  | '-' :: r => some ((numberBody false r).map (·.2))
  | '[' :: _ => none
  | '{' :: _ => none
  | c :: r => some <|
    if c.isDigit then (numberBody false (c :: r)).map (·.2)
    else .error (.next .expectedValue (c :: r))

/-- Steps over a key and its colon. -/
def skipKey (cs : List Char) : Except Fault (List Char) :=
  match skipSpace cs with
  | [] => .error (.here .endInObject [])
  | '"' :: r => do colon (← skipString r)
  | r => .error (.next .keyMustBeString r)

/-- Steps behind the brackets that close, and a comma if one follows; `open_` holds the brackets
that are open, innermost first, and `comma` says whether a comma may stand. An empty stack means
that the value is over. -/
def skipClosing (fuel : Nat) (comma : Bool) (open_ : List Bool) (cs : List Char) :
    Except Fault (List Bool × List Char) :=
  match fuel, open_ with
  | _, [] => .ok ([], cs)
  | 0, _ => .error (.here .endInValue cs)
  | fuel + 1, isArray :: outer =>
    match skipSpace cs with
    | [] => .error (.here (if isArray then .endInList else .endInObject) [])
    | c :: rest =>
      if c == (if isArray then ']' else '}') then skipClosing fuel true outer rest
      else if comma then
        if c == ',' then .ok (open_, rest)
        else .error (.next
          (if isArray then .expectedListCommaOrEnd else .expectedObjectCommaOrEnd) (c :: rest))
      else .ok (open_, c :: rest)

/-- Steps over values until no bracket is open; `fuel` bounds the number of values. -/
def skipValues : Nat → List Bool → List Char → Except Fault (List Char)
  | 0, _, cs => .error (.here .endInValue cs)
  | fuel + 1, open_, cs => do
    let cs := skipSpace cs
    let (stack, rest) ← match skipScalar? cs with
      | some r => do skipClosing (cs.length + 1) true open_ (← r)
      | none => skipClosing (cs.length + 1) false ((cs.head? == some '[') :: open_) cs.tail
    match stack with
    | [] => .ok rest
    | isArray :: _ => do
      let rest ← if isArray then .ok rest else skipKey rest
      skipValues fuel stack rest

/-- Steps over a value of any depth. -/
def skipValue (cs : List Char) : Except Fault (List Char) := skipValues (cs.length + 1) [] cs

end Reader

/-- Reads a document. -/
def ofText (text : String) : Except Fault Json := Reader.readAll (Reader.value Reader.maxDepth) text

end ClassAtlas.Json
