import ClassAtlas.Json.Typed
/-!
# Reading tagged values

A tagged value is an object of two members, `event` with the name of a variant and `data` with its
contents, in either order and beside any others; or an array of these two. Contents that come before
the name are kept as a document until the name is known. Messages on the wire have this form
(`ServerMessage`, `ClientMessage`).
-/
namespace ClassAtlas.Json.Reader

/-- How the contents of a variant are read: from a text, and from a document. -/
structure Variant (α : Type) where
  name : String
  read : Nat → List Char → Except Fault (α × List Char)
  ofJson : Json → Except String α

/-- The names of a type of tagged values and of its variants. -/
structure Tagged (α : Type) where
  name : String
  variants : List (Variant α)

/-- Names in a message: each in backquotes, two joined by `or`. -/
def oneOf : List String → String
  | [] => "there are no variants"
  | [a] => "expected `" ++ a ++ "`"
  | [a, b] => "expected `" ++ a ++ "` or `" ++ b ++ "`"
  | names => "expected one of " ++ String.intercalate ", " (names.map fun n => "`" ++ n ++ "`")

namespace Tagged

variable {α : Type} (t : Tagged α)

def expected : String := "adjacently tagged enum " ++ t.name

/-- Reads the name of a variant as a string. -/
def variantName (cs : List Char) : Except Fault (Variant α × List Char) :=
  match skipSpace cs with
  | '"' :: r => do
    let (s, r) ← stringTail [] r
    match t.variants.find? (·.name == s) with
    | some v => .ok (v, r)
    | none =>
      .error (.here (.meaning
        ("unknown variant `" ++ s ++ "`, " ++ oneOf (t.variants.map (·.name)))) r)
  | cs => .error (wrongShape "variant identifier" cs)

/-- Reads the name of a variant: a string, or an object that gives it the value `null`. -/
def variant (depth : Nat) (cs : List Char) : Except Fault (Variant α × List Char) :=
  match skipSpace cs with
  | [] => .error (.here .endInValue [])
  | '"' :: r => t.variantName ('"' :: r)
  | '{' :: r =>
    if depth == 0 then .error (.next .nestedTooDeeply ('{' :: r))
    else do
      let (v, r) ← t.variantName r
      let r := skipSpace (← colon r)
      let r ← match r with
        | 'n' :: r => word ['u', 'l', 'l'] r
        | r => .error (wrongShape "unit" r)
      match skipSpace r with
      | [] => .error (.here .endInObject [])
      | '}' :: r => .ok (v, r)
      | r => .error (.here .expectedValue r)
  | r => .error (.next .expectedValue r)

/-- What was read of a tagged value. -/
inductive Progress (α : Type) where
  | nothing
  | named (v : Variant α)
  | contents (j : Json)
  | whole (a : α)

/-- Reads a member into what was read before. -/
def member (depth : Nat) (key : String) (p : Progress α) (cs : List Char) :
    Except Fault (Progress α × List Char) := do
  match key, p with
  | "event", .nothing =>
    let (v, rest) ← t.variant depth (← colon cs)
    .ok (.named v, rest)
  | "event", .contents j =>
    let (v, rest) ← t.variant depth (← colon cs)
    match v.ofJson j with
    | .ok a => .ok (.whole a, rest)
    | .error message => .error (.meaning message rest)
  | "event", _ => .error (duplicateField key cs)
  | "data", .nothing =>
    let (j, rest) ← value depth (← colon cs)
    .ok (.contents j, rest)
  | "data", .named v =>
    let (a, rest) ← v.read depth (← colon cs)
    .ok (.whole a, rest)
  | "data", _ => .error (duplicateField key cs)
  | _, p =>
    let rest ← skipValue (← colon cs)
    .ok (p, rest)

def missing (name : String) : String := "missing field `" ++ name ++ "`"

/-- The value of a finished object. -/
def finish (p : Progress α) (rest : List Char) : Except Fault (α × List Char) :=
  match p with
  | .whole a => .ok (a, rest)
  | .named _ => .error (.meaning (missing "data") rest)
  | .nothing => .error (.meaning (missing "event") rest)
  | .contents _ => .error (.meaning (missing "event") rest)

/-- Reads the inside of an object. -/
def inside (depth : Nat) (cs : List Char) : Except Fault (α × List Char) := do
  let (p, rest) ← members (t.member depth) (cs.length + 1) true .nothing cs
  finish p rest

def tooShort (n : Nat) : String :=
  "invalid length " ++ toString n ++ ", expected " ++ t.expected

/-- Reads the inside of an array. -/
def elements (depth : Nat) (cs : List Char) : Except Fault (α × List Char) := do
  match ← item? true (t.variant depth) cs with
  | (none, rest) => .error (.meaning (t.tooShort 0) rest)
  | (some v, rest) =>
    match ← item? false (v.read depth) rest with
    | (none, rest) => .error (.meaning (t.tooShort 1) rest)
    | (some a, rest) => .ok (a, rest)

/-- Reads a tagged value. -/
def read (cs : List Char) : Except Fault (α × List Char) :=
  match skipSpace cs with
  | '[' :: r => inArray (t.elements (maxDepth - 1)) r
  | '{' :: r => inObject (t.inside (maxDepth - 1)) r
  | cs => .error (wrongShape t.expected cs)

/-- The tagged value of a text. -/
def ofText (text : String) : Except Fault α := readAll t.read text

end Tagged

/-- Contents that are a string. -/
def stringVariant {α : Type} (name : String) (make : String → α) : Variant α :=
  { name
    read := fun _ cs => (string cs).map fun (s, rest) => (make s, rest)
    ofJson := fun
      | .string s => .ok (make s)
      | j => .error ("invalid type: " ++ j.kindText ++ ", expected a string") }

/-- Reads the inside of an object with one field, a string. -/
def soleField (field : String) (cs : List Char) : Except Fault (String × List Char) := do
  let member (key : String) (old : Option String) (cs : List Char) :
      Except Fault (Option String × List Char) := do
    if key == field then Reader.field key old string cs
    else
      let rest ← skipValue (← colon cs)
      .ok (old, rest)
  match ← members member (cs.length + 1) true none cs with
  | (some s, rest) => .ok (s, rest)
  | (none, rest) => .error (.meaning (Tagged.missing field) rest)

/-- The one field of an object that was read before. -/
def soleFieldOf (field : String) : Option String → List (String × Json) → Except String String
  | some s, [] => .ok s
  | none, [] => .error (Tagged.missing field)
  | old, (k, j) :: ms =>
    if k == field then
      match old, j with
      | some _, _ => .error ("duplicate field `" ++ k ++ "`")
      | none, .string s => soleFieldOf field (some s) ms
      | none, j => .error ("invalid type: " ++ j.kindText ++ ", expected a string")
    else soleFieldOf field old ms

/-- Contents that are an object with one field, a string. -/
def recordVariant {α : Type} (name expected field : String) (make : String → α) : Variant α :=
  { name
    read := fun depth cs =>
      match skipSpace cs with
      | '[' :: r =>
        if depth == 0 then .error (.next .nestedTooDeeply ('[' :: r))
        else inArray (fun r =>
          .error (.meaning ("invalid type: sequence, expected " ++ expected) r)) r
      | '{' :: r =>
        if depth == 0 then .error (.next .nestedTooDeeply ('{' :: r))
        else (inObject (soleField field) r).map fun (s, rest) => (make s, rest)
      | cs => .error (wrongShape expected cs)
    ofJson := fun
      | .object ms => (soleFieldOf field none ms).map make
      | j => .error ("invalid type: " ++ j.kindText ++ ", expected " ++ expected) }

end ClassAtlas.Json.Reader
