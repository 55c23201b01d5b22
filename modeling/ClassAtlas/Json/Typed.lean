import ClassAtlas.Json.Reader
/-!
# Reading values of a known shape

Readers for strings, truth values, optional values, lists and records. A value of another shape is a
fault that names what was found and what was expected. A record may be written as an object, or as
an array of its fields in their order. Descriptors are read with it (`Project::load`).
-/
namespace ClassAtlas.Json.Reader

/-- The fault for a value of the wrong shape; a scalar is read first. The text begins with the
value. -/
def wrongShape (expected : String) (cs : List Char) : Fault :=
  let say (v : Json) (rest : List Char) : Fault :=
    .here (.meaning ("invalid type: " ++ v.kindText ++ ", expected " ++ expected)) rest
  match scalar? cs with
  | some (.error f) => f
  | some (.ok (v, rest)) => say v rest
  | none => say (if cs.head? == some '[' then .array [] else .object []) cs

/-- Reads a string. -/
def string (cs : List Char) : Except Fault (String × List Char) :=
  match skipSpace cs with
  | '"' :: r => stringTail [] r
  | cs => .error (wrongShape "a string" cs)

/-- Reads a truth value. -/
def truth (cs : List Char) : Except Fault (Bool × List Char) :=
  match skipSpace cs with
  | 't' :: r => (word ['r', 'u', 'e'] r).map (true, ·)
  | 'f' :: r => (word ['a', 'l', 's', 'e'] r).map (false, ·)
  | cs => .error (wrongShape "a boolean" cs)

/-- Reads `null` or a value. -/
def optional {α : Type} (reader : List Char → Except Fault (α × List Char)) (cs : List Char) :
    Except Fault (Option α × List Char) :=
  match skipSpace cs with
  | 'n' :: r => (word ['u', 'l', 'l'] r).map (none, ·)
  | cs => (reader cs).map fun (a, rest) => (some a, rest)

/-- Reads a list. -/
def list {α : Type} (item : List Char → Except Fault (α × List Char)) (depth : Nat)
    (cs : List Char) : Except Fault (List α × List Char) :=
  match skipSpace cs with
  | '[' :: r =>
    if depth == 0 then .error (.next .nestedTooDeeply ('[' :: r))
    else inArray (items item (r.length + 1) true []) r
  | cs => .error (wrongShape "a sequence" cs)

/-- Reads one more item of an array if there is one. -/
def item? {α : Type} (first : Bool) (item : List Char → Except Fault (α × List Char))
    (cs : List Char) : Except Fault (Option α × List Char) := do
  match ← nextItem first cs with
  | (false, rest) => .ok (none, rest)
  | (true, rest) =>
    let (a, rest) ← item rest
    .ok (some a, rest)

/-- Reads a record: an object by its members, which change a state, or an array by its fields. -/
def record {σ : Type} (expected : String) (depth : Nat)
    (member : String → σ → List Char → Except Fault (σ × List Char)) (start : σ)
    (fields : List Char → Except Fault (σ × List Char)) (cs : List Char) :
    Except Fault (σ × List Char) :=
  match skipSpace cs with
  | '[' :: r =>
    if depth == 0 then .error (.next .nestedTooDeeply ('[' :: r)) else inArray fields r
  | '{' :: r =>
    if depth == 0 then .error (.next .nestedTooDeeply ('{' :: r))
    else inObject (members member (r.length + 1) true start) r
  | cs => .error (wrongShape expected cs)

/-- The fault for a key that was there before; the text is that behind the key. -/
def duplicateField (name : String) (cs : List Char) : Fault :=
  .meaning ("duplicate field `" ++ name ++ "`") cs

/-- Reads the value of a field that was not there before. -/
def field {α : Type} (name : String) (old : Option α)
    (reader : List Char → Except Fault (α × List Char)) (cs : List Char) :
    Except Fault (Option α × List Char) := do
  if old.isSome then .error (duplicateField name cs)
  let (a, rest) ← reader (← colon cs)
  .ok (some a, rest)

end ClassAtlas.Json.Reader
