/-!
# Content digests

The BLAKE3 digest of a file's bytes. The bytes are cut into chunks of 1024; each chunk is a chain of
compressed blocks of 64, and the chunks are the leaves of a binary tree whose left side is always
the largest full tree that leaves something for the right. What is compressed last is compressed as
the root.
-/
namespace ClassAtlas

/-- A digest of 32 bytes, as words. Mirrors `ContentHash`. -/
structure Digest where
  words : List UInt32
deriving BEq, ReflBEq, LawfulBEq, DecidableEq, Repr, Inhabited

namespace Digest

/-- The initial chaining value. -/
def start : Array UInt32 :=
  #[0x6A09E667, 0xBB67AE85, 0x3C6EF372, 0xA54FF53A, 0x510E527F, 0x9B05688C, 0x1F83D9AB, 0x5BE0CD19]

/-- Where the words of a block go between rounds. -/
def permutation : Array Nat := #[2, 6, 3, 10, 7, 0, 4, 13, 1, 11, 12, 5, 9, 14, 15, 8]

def chunkStart : UInt32 := 1

def chunkEnd : UInt32 := 2

def parentNode : UInt32 := 4

def rootNode : UInt32 := 8

def rotateRight (x : UInt32) (n : UInt32) : UInt32 := (x >>> n) ||| (x <<< (32 - n))

/-- Mixes two words into four words of the state. -/
def mix (v : Array UInt32) (a b c d : Nat) (x y : UInt32) : Array UInt32 :=
  let at_ (i : Nat) := v.getD i 0
  let a1 := at_ a + at_ b + x
  let d1 := rotateRight (at_ d ^^^ a1) 16
  let c1 := at_ c + d1
  let b1 := rotateRight (at_ b ^^^ c1) 12
  let a2 := a1 + b1 + y
  let d2 := rotateRight (d1 ^^^ a2) 8
  let c2 := c1 + d2
  let b2 := rotateRight (b1 ^^^ c2) 7
  (((v.setIfInBounds a a2).setIfInBounds b b2).setIfInBounds c c2).setIfInBounds d d2

/-- A round: the columns of the state, then its diagonals. -/
def round (v block : Array UInt32) : Array UInt32 :=
  let w (i : Nat) := block.getD i 0
  let v := mix v 0 4 8 12 (w 0) (w 1)
  let v := mix v 1 5 9 13 (w 2) (w 3)
  let v := mix v 2 6 10 14 (w 4) (w 5)
  let v := mix v 3 7 11 15 (w 6) (w 7)
  let v := mix v 0 5 10 15 (w 8) (w 9)
  let v := mix v 1 6 11 12 (w 10) (w 11)
  let v := mix v 2 7 8 13 (w 12) (w 13)
  mix v 3 4 9 14 (w 14) (w 15)

def permute (block : Array UInt32) : Array UInt32 := permutation.map fun i => block.getD i 0

def rounds : Nat → Array UInt32 → Array UInt32 → Array UInt32
  | 0, v, _ => v
  | n + 1, v, block => rounds n (round v block) (permute block)

/-- A block that is ready to be compressed. -/
structure Block where
  chain : Array UInt32
  words : Array UInt32
  counter : Nat
  size : Nat
  flags : UInt32
deriving Inhabited

/-- The chaining value of a block. -/
def Block.compress (b : Block) (flags : UInt32) : Array UInt32 :=
  let v := b.chain ++ start.extract 0 4 ++
    #[UInt32.ofNat b.counter, UInt32.ofNat (b.counter / 0x100000000), UInt32.ofNat b.size,
      b.flags ||| flags]
  let v := rounds 7 v b.words
  (Array.range 8).map fun i => v.getD i 0 ^^^ v.getD (i + 8) 0

def byte (content : ByteArray) (i : Nat) : UInt32 :=
  if h : i < content.size then content[i].toUInt32 else 0

/-- The 16 words of a block from an offset on; what lies behind the end is zero. -/
def wordsAt (content : ByteArray) (offset stop : Nat) : Array UInt32 :=
  (Array.range 16).map fun k =>
    let i := offset + 4 * k
    let b (j : Nat) := if i + j < stop then byte content (i + j) else 0
    b 0 ||| (b 1 <<< 8) ||| (b 2 <<< 16) ||| (b 3 <<< 24)

/-- The last block of a chunk, behind the blocks before it. -/
def lastBlock (content : ByteArray) (counter stop : Nat) :
    Nat → Nat → Array UInt32 → UInt32 → Block
  | 0, offset, chain, flags =>
    ⟨chain, wordsAt content offset stop, counter, stop - offset, flags ||| chunkEnd⟩
  | left + 1, offset, chain, flags =>
    let b : Block := ⟨chain, wordsAt content offset stop, counter, 64, flags⟩
    lastBlock content counter stop left (offset + 64) (b.compress 0) 0

def chunkSize : Nat := 1024

/-- The last block of a chunk. -/
def chunk (content : ByteArray) (index : Nat) : Block :=
  let offset := index * chunkSize
  let stop := min content.size (offset + chunkSize)
  lastBlock content index stop ((stop - offset - 1) / 64) offset start chunkStart

/-- The chunks on the left of a node with more than one. -/
def leftSize (n : Nat) : Nat := Nat.pow 2 (n - 1).log2

theorem leftSize_pos (n : Nat) : 0 < leftSize n := Nat.two_pow_pos _

theorem leftSize_lt {n : Nat} (h : 1 < n) : leftSize n < n := by
  have : leftSize n ≤ n - 1 := Nat.log2_self_le (n := n - 1) (by omega)
  omega

/-- The block of the node over `n` chunks from a chunk on. -/
def node (content : ByteArray) (first n : Nat) : Block :=
  if _ : 1 < n then
    let left := (node content first (leftSize n)).compress 0
    let right := (node content (first + leftSize n) (n - leftSize n)).compress 0
    ⟨start, left ++ right, 0, 64, parentNode⟩
  else chunk content first
termination_by n
decreasing_by
  · exact leftSize_lt ‹1 < n›
  · exact Nat.sub_lt (Nat.lt_of_succ_lt ‹1 < n›) (leftSize_pos n)

/-- The digest of some bytes. Mirrors `content_hash`. -/
def ofBytes (content : ByteArray) : Digest :=
  let chunks := max 1 ((content.size + chunkSize - 1) / chunkSize)
  ⟨((node content 0 chunks).compress rootNode).toList⟩

def hexByte (n : Nat) : List Char := [Nat.digitChar (n / 16), Nat.digitChar (n % 16)]

/-- The digest in hexadecimal. -/
def toHex (d : Digest) : String :=
  String.ofList (d.words.flatMap fun w =>
    let n := w.toNat
    hexByte (n % 256) ++ hexByte (n / 0x100 % 256) ++ hexByte (n / 0x10000 % 256)
      ++ hexByte (n / 0x1000000 % 256))

end Digest
end ClassAtlas
