/-!
# Character sets

A finite union of inclusive ranges of code points. Token patterns are built from these sets, and
the only question ever asked of one is membership.
-/
namespace ClassAtlas.Grammar

/-- A union of inclusive ranges of code points. -/
structure CharSet where
  ranges : List (Nat × Nat)
deriving BEq, DecidableEq, Hashable, Inhabited

namespace CharSet

/-- The largest code point. -/
def maxCode : Nat := 0x10FFFF

def empty : CharSet := ⟨[]⟩

def all : CharSet := ⟨[(0, maxCode)]⟩

def range (a b : Char) : CharSet := ⟨[(a.toNat, b.toNat)]⟩

def codes (a b : Nat) : CharSet := ⟨[(a, b)]⟩

def single (c : Char) : CharSet := range c c

def union (s t : CharSet) : CharSet := ⟨s.ranges ++ t.ranges⟩

/-- The set of the characters of a text. -/
def ofString (text : String) : CharSet := ⟨text.toList.map fun c => (c.toNat, c.toNat)⟩

def contains (s : CharSet) (code : Nat) : Bool :=
  s.ranges.any fun r => r.1 ≤ code && code ≤ r.2

/-- Gaps between ascending ranges, starting at `lower`. -/
def gaps (lower : Nat) : List (Nat × Nat) → List (Nat × Nat)
  | [] => if lower ≤ maxCode then [(lower, maxCode)] else []
  | (a, b) :: rest =>
    if lower < a then (lower, a - 1) :: gaps (b + 1) rest else gaps (max lower (b + 1)) rest

/-- Every other character but NUL, which no token but one that names it may hold. -/
def complement (s : CharSet) : CharSet :=
  ⟨gaps 1 (s.ranges.mergeSort fun r t => r.1 ≤ t.1)⟩

end CharSet
end ClassAtlas.Grammar
