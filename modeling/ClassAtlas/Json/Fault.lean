/-!
# Faults in a JSON text

A fault has a code and a mark: the text left at the point where it was found, and how many bytes
beyond that point it is counted. Its position is a line and a column in bytes. A fault found in the
meaning of a value rather than in its text has no mark of its own at first; it takes the place
where the reader stands once the value around it is closed (`Fault.settle`).
-/
namespace ClassAtlas.Json

/-- What is wrong. -/
inductive Code where
  | endInList
  | endInObject
  | endInString
  | endInValue
  | expectedColon
  | expectedListCommaOrEnd
  | expectedObjectCommaOrEnd
  | expectedIdent
  | expectedValue
  | invalidEscape
  | invalidNumber
  | numberOutOfRange
  | loneSurrogate
  | endOfHexEscape
  | controlCharacter
  | keyMustBeString
  | trailingComma
  | trailingCharacters
  | nestedTooDeeply
  /-- The text is JSON and means something else than was asked for. -/
  | meaning (message : String)
deriving BEq, DecidableEq, Repr, Inhabited

def Code.message : Code → String
  | .endInList => "EOF while parsing a list"
  | .endInObject => "EOF while parsing an object"
  | .endInString => "EOF while parsing a string"
  | .endInValue => "EOF while parsing a value"
  | .expectedColon => "expected `:`"
  | .expectedListCommaOrEnd => "expected `,` or `]`"
  | .expectedObjectCommaOrEnd => "expected `,` or `\x7d`"
  | .expectedIdent => "expected ident"
  | .expectedValue => "expected value"
  | .invalidEscape => "invalid escape"
  | .invalidNumber => "invalid number"
  | .numberOutOfRange => "number out of range"
  | .loneSurrogate => "lone leading surrogate in hex escape"
  | .endOfHexEscape => "unexpected end of hex escape"
  | .controlCharacter => "control character (\\u0000-\\u001F) found while parsing a string"
  | .keyMustBeString => "key must be a string"
  | .trailingComma => "trailing comma"
  | .trailingCharacters => "trailing characters"
  | .nestedTooDeeply => "recursion limit exceeded"
  | .meaning m => m

/-- A fault and the place where it was found. -/
structure Fault where
  code : Code
  /-- The text from the place on. -/
  rest : List Char
  /-- Bytes of `rest` that still count as read. -/
  ahead : Nat
  /-- Whether the place is final. -/
  settled : Bool
deriving BEq, DecidableEq, Repr, Inhabited

namespace Fault

/-- A fault at the point where the reader stands. -/
def here (code : Code) (rest : List Char) : Fault := ⟨code, rest, 0, true⟩

/-- A fault at the character that comes next. -/
def next (code : Code) (rest : List Char) : Fault := ⟨code, rest, 1, true⟩

/-- A fault in the meaning of the value being read. -/
def meaning (message : String) (rest : List Char) : Fault := ⟨.meaning message, rest, 0, false⟩

/-- Gives a fault without a place the one that `close` leads to. -/
def settle (f : Fault) (close : List Char → List Char) : Fault :=
  if f.settled then f else { f with rest := close f.rest, settled := true }

end Fault

/-- Line and column; lines count from one, columns are the bytes since the last line break. -/
structure Position where
  line : Nat
  column : Nat
deriving BEq, DecidableEq, Repr, Inhabited

/-- The position behind some bytes. -/
def Position.behind (bytes : List UInt8) : Position :=
  bytes.foldl (fun p b => if b == 10 then ⟨p.line + 1, 0⟩ else ⟨p.line, p.column + 1⟩) ⟨1, 0⟩

def utf8Size (cs : List Char) : Nat := cs.foldl (fun n c => n + c.utf8Size) 0

/-- The position of a fault found in a text. -/
def Fault.position (f : Fault) (text : String) : Position :=
  let size := text.utf8ByteSize
  Position.behind (text.toUTF8.toList.take (min size (size - utf8Size f.rest + f.ahead)))

/-- The message for a fault found in a text. -/
def Fault.message (f : Fault) (text : String) : String :=
  let p := f.position text
  f.code.message ++ " at line " ++ toString p.line ++ " column " ++ toString p.column

end ClassAtlas.Json
