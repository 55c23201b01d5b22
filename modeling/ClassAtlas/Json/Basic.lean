import ClassAtlas.Decimal.Shortest
import ClassAtlas.Text.Quoted
/-!
# JSON values

A number is kept as it is written; `Number.ofText` says which kind of number that is. The texts
`Json.kindText` and `Number.text` describe a value inside a message.
-/
namespace ClassAtlas

/-- A JSON document. -/
inductive Json where
  | null
  | bool (b : Bool)
  | number (text : String)
  | string (s : String)
  | array (items : List Json)
  | object (members : List (String × Json))
deriving Inhabited

namespace Json

/-- The kinds of number a text can denote. -/
inductive Number where
  | natural (n : Nat)
  | negative (n : Nat)
  | float (x : Float)
deriving Inhabited

namespace Number

def digitsOf (cs : List Char) : Nat := cs.foldl (fun n c => n * 10 + (c.toNat - 48)) 0

def maxNatural : Nat := 0xFFFFFFFFFFFFFFFF

def maxNegative : Nat := 0x8000000000000000

/-- Splits off the leading digits that fit into 64 bits. -/
def significand (value : Nat) : List Char → Nat × List Char
  | [] => (value, [])
  | c :: cs =>
    let next := value * 10 + (c.toNat - 48)
    if next ≤ maxNatural then significand next cs else (value, c :: cs)

/-- `value · 10^exponent`, by the powers of ten that a floating-point number can hold. -/
def scale (value : Float) (exponent : Int) : Nat → Float
  | 0 => value
  | fuel + 1 =>
    if 308 < exponent.natAbs then
      if value == 0 then value
      else if 0 ≤ exponent then 1.0 / 0.0
      else scale (value / Float.ofScientific 1 false 308) (exponent + 308) fuel
    else if 0 ≤ exponent then value * Float.ofScientific 1 false exponent.natAbs
    else value / Float.ofScientific 1 false exponent.natAbs

/-- The parts of a number's text: sign, whole digits, digits behind the point, exponent. -/
def parts (text : String) : Bool × List Char × List Char × Option Int :=
  let cs := text.toList
  let (minus, cs) := match cs with
    | '-' :: r => (true, r)
    | _ => (false, cs)
  let (whole, cs) := cs.span Char.isDigit
  let (fraction, cs) := match cs with
    | '.' :: r => r.span Char.isDigit
    | _ => ([], cs)
  let exponent := match cs with
    | _ :: '-' :: r => some (-(digitsOf r : Int))
    | _ :: '+' :: r => some (digitsOf r : Int)
    | _ :: r => some (digitsOf r : Int)
    | [] => none
  (minus, whole, fraction, exponent)

/-- The value of digits with a fraction or an exponent. Digits beyond 64 bits are dropped; of the
whole part they still count as places. -/
def toFloat (whole fraction : List Char) (exponent : Int) : Float :=
  let (value, dropped) := significand 0 whole
  let (value, shift) :=
    if dropped.isEmpty then
      let (v, left) := significand value fraction
      (v, -((fraction.length - left.length : Nat) : Int))
    else
      let (v, left) := significand value fraction
      (v, (dropped.length : Int) - ((fraction.length - left.length : Nat) : Int))
  scale (Float.ofNat value) (max (-100000) (min 100000 (shift + exponent))) 400

/-- The number that a text denotes. -/
def ofText (text : String) : Number :=
  let (minus, whole, fraction, exponent) := parts text
  let value := digitsOf whole
  let isFloat := text.toList.any fun c => c == '.' || c == 'e' || c == 'E'
  if isFloat || (maxNatural < value) || (minus && (value == 0 || maxNegative < value)) then
    let x := toFloat whole fraction (exponent.getD 0)
    .float (if minus then -x else x)
  else if minus then .negative value
  else .natural value

/-- A number inside a message. -/
def text : Number → String
  | .natural n => "integer `" ++ toString n ++ "`"
  | .negative n => "integer `-" ++ toString n ++ "`"
  | .float x => "floating point `" ++ Decimal.scientific.ofFloat x ++ "`"

end Number

/-- A value inside a message. -/
def kindText : Json → String
  | .null => "null"
  | .bool b => "boolean `" ++ (if b then "true" else "false") ++ "`"
  | .number t => (Number.ofText t).text
  | .string s => "string " ++ Text.quote s
  | .array _ => "sequence"
  | .object _ => "map"

end Json
end ClassAtlas
