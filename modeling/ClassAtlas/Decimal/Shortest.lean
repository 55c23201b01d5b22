/-!
# The fewest digits of a floating-point number

A finite number is `m · 2^e`; the reals that round to it form an interval around it, with its ends
if `m` is even. Among the decimals in the interval those with the fewest digits are taken, of these
the nearest to the number, and of two equally near ones the even one. All of it is counted in
natural numbers: twice the unit in the last place is split into eight, so that the ends of the
interval are whole.
-/
namespace ClassAtlas.Decimal

/-- A positive number `m · 2^e` and the distance to its lower neighbour, which is half of that to
the upper one at a power of two. -/
structure Binary where
  m : Nat
  e : Int
  halfBelow : Bool
deriving BEq, DecidableEq, Repr, Inhabited

/-- A decimal `digits · 10^exponent`. -/
structure Digits where
  digits : Nat
  exponent : Int
deriving BEq, DecidableEq, Repr, Inhabited

/-- The magnitude of a finite number other than zero. -/
def Binary.ofFloat (x : Float) : Binary :=
  let bits : Nat := x.toBits.toNat
  let fraction : Nat := bits % Nat.pow 2 52
  let power : Nat := bits / Nat.pow 2 52 % Nat.pow 2 11
  if power == 0 then ⟨fraction, -1074, false⟩
  else ⟨Nat.pow 2 52 + fraction, (power : Int) - 1075, fraction == 0 && 1 < power⟩

/-- `10^k` as a factor of one side of a comparison. -/
def tenPow (k : Int) : Nat := Nat.pow 10 k.toNat

def twoPow (k : Int) : Nat := Nat.pow 2 k.toNat

namespace Binary

/-- A number of quarter units on the scale on which `decimalSide` counts. -/
def binarySide (b : Binary) (quarters : Nat) (s : Int) : Nat :=
  quarters * twoPow (b.e - 2) * tenPow (-s)

/-- `c · 10^s` on the scale on which `binarySide` counts. -/
def decimalSide (b : Binary) (c : Nat) (s : Int) : Nat := c * tenPow s * twoPow (2 - b.e)

/-- Whether `c · 10^s` rounds to the number. -/
def holds (b : Binary) (c : Nat) (s : Int) : Bool :=
  let x := b.decimalSide c s
  let low := b.binarySide (4 * b.m - if b.halfBelow then 1 else 2) s
  let high := b.binarySide (4 * b.m + 2) s
  if b.m % 2 == 0 then low ≤ x && x ≤ high else low < x && x < high

/-- The digits before the decimal point of the number: the least `k` with a value below `10^k`. -/
def magnitude (b : Binary) : Int :=
  (((List.range 640).map fun (n : Nat) => (n : Int) - 325).find? fun k =>
    b.binarySide (4 * b.m) k < b.decimalSide 1 k).getD 310

/-- The better of the two decimals with step `10^s` that enclose the number, if one rounds to
it. -/
def onGrid? (b : Binary) (s : Int) : Option Digits :=
  let value := b.binarySide (4 * b.m) s
  let c := value / b.decimalSide 1 s
  let below := value - b.decimalSide c s
  let above := b.decimalSide (c + 1) s - value
  match b.holds c s, b.holds (c + 1) s with
  | true, true =>
    some (if below < above || (below == above && c % 2 == 0) then ⟨c, s⟩ else ⟨c + 1, s⟩)
  | true, false => some ⟨c, s⟩
  | false, true => some ⟨c + 1, s⟩
  | false, false => none

/-- The shortest decimal. -/
def shortest (b : Binary) : Digits :=
  let k := b.magnitude
  ((List.range 17).findSome? fun (n : Nat) => b.onGrid? (k - ((n : Int) + 1))).getD ⟨b.m, 0⟩

end Binary

/-- Digits without zeros at their end; `fuel` bounds their number. -/
def Digits.trim : Nat → Digits → Digits
  | 0, d => d
  | fuel + 1, d =>
    if d.digits ≠ 0 ∧ d.digits % 10 = 0 then trim fuel ⟨d.digits / 10, d.exponent + 1⟩ else d

/-- How a number is laid out: at least one digit stands behind the point. Numbers whose point would
stand more than `wholeLimit` digits to the right or more than `leadingZeros` zeros to the left of
the first digit are written with an exponent. -/
structure Layout where
  wholeLimit : Nat
  leadingZeros : Nat
deriving BEq, DecidableEq, Repr, Inhabited

def zeros (n : Int) : String := String.ofList (List.replicate n.toNat '0')

/-- The text of a decimal other than zero. -/
def Layout.render (l : Layout) (d : Digits) : String :=
  let d := d.trim 20
  let text := toString d.digits
  let point := (text.length : Int) + d.exponent
  let cut (n : Nat) :=
    String.ofList (text.toList.take n) ++ "." ++ String.ofList (text.toList.drop n)
  if 0 ≤ d.exponent && point ≤ l.wholeLimit then text ++ zeros d.exponent ++ ".0"
  else if 0 < point && point ≤ l.wholeLimit then cut point.toNat
  else if -(l.leadingZeros : Int) ≤ point && point ≤ 0 then "0." ++ zeros (-point) ++ text
  else
    (if text.length == 1 then text else cut 1) ++ "e" ++ toString (point - 1)

/-- The text of a number. -/
def Layout.ofFloat (l : Layout) (x : Float) : String :=
  let sign := if x.toBits.toNat < Nat.pow 2 63 then "" else "-"
  if x.isNaN then "NaN"
  else if x.isInf then sign ++ "inf"
  else if x == 0 then sign ++ "0.0"
  else sign ++ l.render (Binary.ofFloat x).shortest

/-- Exponents from the seventeenth digit on and behind four leading zeros. -/
def scientific : Layout := ⟨16, 4⟩

/-- No exponents. -/
def positional : Layout := ⟨400, 400⟩

end ClassAtlas.Decimal
