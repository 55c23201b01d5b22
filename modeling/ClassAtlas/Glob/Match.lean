import ClassAtlas.Glob.Pattern
/-!
# Matching paths

A pattern is matched against the bytes of a path. `rests` gives what is left of a text after each
way in which a token can match its beginning; a path matches if nothing is left in one of the ways
to match all tokens.
-/
namespace ClassAtlas.Glob

/-- The byte of the separator. -/
def slash : UInt8 := 47

def charBytes (c : Char) : List UInt8 := String.utf8EncodeChar c

/-- What is left of a text behind a word at its beginning. -/
def dropWord? : List UInt8 → List UInt8 → Option (List UInt8)
  | [], s => some s
  | _ :: _, [] => none
  | w :: ws, b :: s => if w == b then dropWord? ws s else none

/-- A text and all it ends in. -/
def suffixes : List UInt8 → List (List UInt8)
  | [] => [[]]
  | b :: s => (b :: s) :: suffixes s

/-- What is left behind any number of bytes that are no separators. -/
def segmentRests : List UInt8 → List (List UInt8)
  | [] => [[]]
  | b :: s => if b == slash then [b :: s] else (b :: s) :: segmentRests s

/-- What is left behind any text that ends in a separator. -/
def directoryRests : List UInt8 → List (List UInt8)
  | [] => []
  | b :: s => if b == slash then s :: directoryRests s else directoryRests s

/-- The ranges of bytes of a character class: a character of several bytes adds each of them. -/
def byteRanges (ranges : List (Char × Char)) : List (UInt8 × UInt8) :=
  ranges.flatMap fun (a, b) =>
    if a == b then (charBytes a).map fun x => (x, x)
    else
      let first := charBytes a
      let last := charBytes b
      (first.dropLast.map fun x => (x, x)) ++ [(first.getLastD 0, last.headD 0)]
        ++ (last.tail.map fun x => (x, x))

def inClass (negated : Bool) (ranges : List (Char × Char)) (b : UInt8) : Bool :=
  ((byteRanges ranges).any fun r => r.1 ≤ b && b ≤ r.2) != negated

/-- Each rest once; rests of one text are told apart by their length. -/
def distinct (rests : List (List UInt8)) : List (List UInt8) :=
  rests.foldl (fun kept s => if kept.any (·.length == s.length) then kept else s :: kept) []
    |>.reverse

mutual

/-- What is left of a text behind a token. -/
def Token.rests : Token → List UInt8 → List (List UInt8)
  | .literal c, s => (dropWord? (charBytes c) s).toList
  | .any, s =>
    match s with
    | b :: r => if b == slash then [] else [r]
    | [] => []
  | .star, s => segmentRests s
  | .anyPrefix, s => s :: directoryRests s
  | .anySuffix, s =>
    match s with
    | b :: r => if b == slash then suffixes r else []
    | [] => []
  | .anyMiddle, s =>
    match s with
    | b :: r => if b == slash then r :: directoryRests r else []
    | [] => []
  | .charClass negated ranges, s =>
    match s with
    | b :: r => if inClass negated ranges b then [r] else []
    | [] => []
  | .alternatives branches, s => if noBranch branches then [s] else branchRests branches s

/-- What is left of some texts behind all tokens of a sequence. -/
def sequenceRests : List Token → List (List UInt8) → List (List UInt8)
  | [], texts => texts
  | t :: ts, texts => sequenceRests ts (distinct (texts.flatMap fun s => t.rests s))

/-- What is left behind one of several sequences; an empty one does not count. -/
def branchRests : List (List Token) → List UInt8 → List (List UInt8)
  | [], _ => []
  | ts :: rest, s =>
    if isBlank ts then branchRests rest s else sequenceRests ts [s] ++ branchRests rest s

/-- Whether nothing is asked of a text. -/
def isBlank : List Token → Bool
  | [] => true
  | .alternatives branches :: ts => noBranch branches && isBlank ts
  | _ :: _ => false

/-- Whether no branch asks anything. -/
def noBranch : List (List Token) → Bool
  | [] => true
  | ts :: rest => isBlank ts && noBranch rest

end

/-- Whether a path matches. Two stars alone match every path. Mirrors `GlobSet::is_match`, with
separators literal. -/
def Pattern.matches (p : Pattern) (path : String) : Bool :=
  match p with
  | [.anyPrefix] => true
  | _ => (sequenceRests p [path.toUTF8.toList]).any (·.isEmpty)

end ClassAtlas.Glob
