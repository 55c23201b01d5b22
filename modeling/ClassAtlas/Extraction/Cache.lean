import ClassAtlas.Extraction.Digest
import ClassAtlas.Model.Basic
import ClassAtlas.Path
/-!
# The extraction cache

What was last extracted from each file, with the digest of the bytes it was extracted from. An
entry answers only for the same digest. Entries are kept by the components of their paths, so all
spellings of a path share one.
-/
namespace ClassAtlas

/-- What is kept of a file. Mirrors `CachedFile`. -/
structure CacheEntry where
  key : List Component
  digest : Digest
  model : Model
deriving BEq, DecidableEq, Repr, Inhabited

/-- The entries, one for each path, and how often one was of use. Mirrors `ExtractionCache`. -/
structure Cache where
  entries : List CacheEntry
  hits : Nat
deriving BEq, DecidableEq, Repr, Inhabited

namespace Cache

/-- Mirrors `ExtractionCache::new`. -/
def empty : Cache := ⟨[], 0⟩

/-- The entry of a path. -/
def find? (c : Cache) (p : FilePath) : Option CacheEntry := c.entries.find? fun e => e.key == p.key

/-- The model of a path whose bytes have not changed. -/
def lookup? (c : Cache) (p : FilePath) (d : Digest) : Option Model :=
  match c.find? p with
  | some e => if e.digest == d then some e.model else none
  | none => none

/-- Looks a path up and counts it if it is of use. Mirrors `ExtractionCache::get`. -/
def get (c : Cache) (p : FilePath) (d : Digest) : Option Model × Cache :=
  match c.lookup? p d with
  | some m => (some m, { c with hits := c.hits + 1 })
  | none => (none, c)

/-- Mirrors `ExtractionCache::remove`. -/
def remove (c : Cache) (p : FilePath) : Cache :=
  { c with entries := c.entries.filter fun e => e.key != p.key }

/-- Mirrors `ExtractionCache::insert`. -/
def insert (c : Cache) (p : FilePath) (d : Digest) (m : Model) : Cache :=
  { c with entries := ⟨p.key, d, m⟩ :: (c.remove p).entries }

/-- Keeps the entries of the given paths alone. Mirrors `ExtractionCache::retain_files`. -/
def retain (c : Cache) (ps : List FilePath) : Cache :=
  let keys := ps.map (·.key)
  { c with entries := c.entries.filter fun e => keys.contains e.key }

/-- Mirrors `ExtractionCache::len`. -/
def size (c : Cache) : Nat := c.entries.length

def isEmpty (c : Cache) : Bool := c.entries.isEmpty

end Cache
end ClassAtlas
