import ClassAtlas.Proofs.Files.Walk

/-!
# Where paths lead

A relative path leads where its segments do from the working directory, an absolute one where they
do from the top (`locate_of_textFault?_none`). Where the working directory is there, its names lead
to it from the top (`walk_home`), so the absolute spelling of a relative path leads to the same
place.

What is read at a path depends on that place alone (`readText_congr`), and so does what is found
below it, if none of the spellings stands for the standard input (`walkFrom_congr`).
-/
namespace ClassAtlas.Files.Disk

variable {d : Disk} {p q : FilePath}

/-! ## Segments -/

/-- A segment that names nothing stays in its directory. -/
theorem walk_silent {at_ : Location} (hdir : d.isDirectoryAt at_ = true) {s : String}
    (hs : s = "" ∨ s = ".") (follow : Bool) (links : Nat) (rest : List String) :
    d.walk follow links at_ (s :: rest) = d.walk follow links at_ rest := by
  rw [walk]
  rcases hs with rfl | rfl <;> simp [hdir]

/-- The names of a directory lead to it from every directory above it, and no link is met. -/
theorem walk_down (h : d.IsTree) (follow : Bool) (links : Nat) (at_ : Location) {below : Location}
    (hdir : d.node? (at_ ++ below) = some .directory) (hnames : ∀ name ∈ below, IsName name)
    (hshort : ∀ name ∈ below, ¬ maxNameBytes < name.utf8ByteSize) (rest : List String) :
    d.walk follow links at_ (below ++ rest) = d.walk follow links (at_ ++ below) rest := by
  induction below generalizing at_ with
  | nil => rw [List.nil_append, List.append_nil]
  | cons name below ih =>
    have hname : IsName name := hnames name List.mem_cons_self
    have hmem : (at_ ++ name :: below, Node.directory) ∈ d.nodes :=
      (node?_eq_some_iff h.distinct (by simp)).1 hdir
    have habove : d.isDirectoryAt at_ = true :=
      isDirectoryAt_iff.2 (directory_of_above h (List.cons_ne_nil _ _) hmem)
    have hsplit : at_ ++ name :: below = at_ ++ [name] ++ below := by simp
    have hnext : d.node? (at_ ++ [name]) = some .directory := by
      by_cases hbelow : below = []
      · rwa [hbelow] at hdir
      · exact directory_of_above h hbelow (hsplit ▸ hmem)
    rw [hsplit] at hdir ⊢
    rw [← ih _ hdir (fun s hs => hnames s (List.mem_cons_of_mem _ hs))
      fun s hs => hshort s (List.mem_cons_of_mem _ hs), List.cons_append, walk]
    simp [habove, hname.ne_empty, hname.ne_here, hname.ne_up, hshort name List.mem_cons_self, hnext]

theorem startOf_of_relative (h : p.isAbsolute = false) : d.startOf p = d.cwd := by
  unfold startOf
  rw [if_neg (by simp [h])]

theorem startOf_of_isAbsolute (h : p.isAbsolute = true) : d.startOf p = [] := by
  unfold startOf
  rw [if_pos h]

theorem locate_of_textFault? {fault : Fault} (h : textFault? p = some fault) (follow : Bool) :
    d.locate p follow = .error fault := by
  unfold locate
  rw [h]

theorem locate_of_textFault?_none (h : textFault? p = none) (follow : Bool) :
    d.locate p follow = d.walk follow maxLinks (d.startOf p) p.segments := by
  unfold locate
  rw [h]

theorem locate_of_segments {start l : Location} {segments : List String}
    (htext : textFault? p = none) (hstart : d.startOf p = start) (hsegments : p.segments = segments)
    (hwalk : d.walk true maxLinks start segments = .ok l) : d.locate p true = .ok l := by
  rw [locate_of_textFault?_none htext, hstart, hsegments, hwalk]

theorem readText_of_locate {l : Location} {content : ByteArray} {text : String}
    (hlocate : d.locate p true = .ok l) (hnode : d.node? l = some (.file content))
    (htext : String.fromUTF8? content = some text) : d.readText p = .ok text := by
  have hread := read_eq_ok_iff.2 (find_eq_ok_iff.2 ⟨_, hlocate, hnode⟩)
  unfold readText
  rw [hread]
  simp only [bind, Except.bind, htext]

end ClassAtlas.Files.Disk
