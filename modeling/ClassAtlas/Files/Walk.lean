import ClassAtlas.Files.Disk
/-!
# The files below a directory

`filesBelow` walks from a directory, entry by entry in the order of their names whatever order the
disk keeps them in, and goes into a directory as it comes to it. The walk does not follow links,
passes over names that begin with a dot, and does not enter directories with certain names. It gives
the regular files it meets, by the names that lead to them.

A walk from a path (`walkFrom`) finds nothing if the path is no directory, nor if it is written `-`:
that is taken for the standard input, and a directory of this name is walked in other spellings
only. The walk is that of `discover`.
-/
namespace ClassAtlas.Files.Disk

/-- The name of what stands in a directory; everything else has none there. -/
def entryIn? (at_ : Location) (e : Location × Node) : Option (String × Node) :=
  if e.1.dropLast = at_ then e.1.getLast?.map (·, e.2) else none

/-- The names in a directory and what stands there, in the order of the disk. -/
def entries (d : Disk) (at_ : Location) : List (String × Node) := d.nodes.filterMap (entryIn? at_)

/-- The length of the longest location. -/
def height (d : Disk) : Nat := (d.nodes.map (·.1.length)).foldr max 0

/-- The entries of a directory by name. -/
def sortedEntries (d : Disk) (at_ : Location) : List (String × Node) :=
  (d.entries at_).mergeSort fun a b => decide (a.1 ≤ b.1)

theorem entryIn?_eq_some_iff {at_ l : Location} {name : String} {m n : Node} :
    entryIn? at_ (l, m) = some (name, n) ↔ l = at_ ++ [name] ∧ m = n := by
  unfold entryIn?
  constructor
  · intro h
    split at h
    · rename_i hl
      obtain ⟨s, hs, heq⟩ := Option.map_eq_some_iff.1 h
      obtain ⟨rfl, rfl⟩ := Prod.mk.inj heq
      obtain ⟨above, rfl⟩ : ∃ above, l = above ++ [s] := List.getLast?_eq_some_iff.1 hs
      rw [← hl, List.dropLast_concat]
      exact ⟨rfl, rfl⟩
    · cases h
  · rintro ⟨rfl, rfl⟩
    simp

theorem mem_entries {d : Disk} {at_ : Location} {name : String} {n : Node} :
    (name, n) ∈ d.entries at_ ↔ (at_ ++ [name], n) ∈ d.nodes := by
  unfold entries
  simp [List.mem_filterMap, entryIn?_eq_some_iff]

theorem mem_sortedEntries {d : Disk} {at_ : Location} {name : String} {n : Node} :
    (name, n) ∈ d.sortedEntries at_ ↔ (at_ ++ [name], n) ∈ d.nodes :=
  List.mem_mergeSort.trans mem_entries

theorem length_le_height {d : Disk} {l : Location} {n : Node} (h : (l, n) ∈ d.nodes) :
    l.length ≤ d.height := by
  unfold height
  generalize d.nodes = nodes at h
  induction nodes with
  | nil => cases h
  | cons e rest ih =>
    rw [List.map_cons, List.foldr_cons]
    rcases List.mem_cons.1 h with rfl | h
    · exact Nat.le_max_left _ _
    · exact Nat.le_trans (ih h) (Nat.le_max_right _ _)

/-- The names below a location that lead to regular files met by a walk. -/
def filesBelow (d : Disk) (skipped : List String) (at_ : Location) : List Location :=
  (d.sortedEntries at_).attach.flatMap fun ⟨(name, n), h⟩ =>
    if isHiddenName name then []
    else
      match n with
      | .file _ => [[name]]
      | .link _ => []
      | .directory =>
        if skipped.contains name then []
        else
          have : at_.length < d.height := by
            simpa [Nat.succ_le_iff] using length_le_height (mem_sortedEntries.1 h)
          (filesBelow d skipped (at_ ++ [name])).map (name :: ·)
termination_by d.height - at_.length
decreasing_by
  rw [List.length_append, List.length_singleton]
  omega

/-- The files a walk from a path meets; there are none if the path is no directory or stands for the
standard input. Mirrors the walk of `discover`. -/
def walkFrom (d : Disk) (root : FilePath) (skipped : List String) : List Location :=
  if root.isStandardInput then []
  else
    match d.locate root true with
    | .ok top => if d.isDirectoryAt top then d.filesBelow skipped top else []
    | .error _ => []

/-- An empty path is found nowhere. -/
theorem walkFrom_of_empty (d : Disk) {root : FilePath} (h : root.text = "")
    (skipped : List String) : d.walkFrom root skipped = [] := by
  obtain rfl : root = ⟨""⟩ := congrArg FilePath.mk h
  rfl

theorem walkFrom_of_isStandardInput (d : Disk) {root : FilePath} (h : root.isStandardInput = true)
    (skipped : List String) : d.walkFrom root skipped = [] := if_pos h

end ClassAtlas.Files.Disk
