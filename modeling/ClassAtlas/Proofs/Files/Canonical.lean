import ClassAtlas.Proofs.Files.Lookup

/-!
# Canonical paths

A walk along segments goes on where it stood after the first of them (`walk_append`), so what is put
behind a path is found below the place the path leads to (`locate_join`).

The canonical form of a path names that place from the top. It is never properly below the path it
is the form of (`eq_of_canonical?_below`): names that are the beginning of a place are directories,
and they lead to it without a link.
-/
namespace ClassAtlas.Files.Disk

variable {d : Disk} {at_ top below : Location} {segments : List String} {p : FilePath}

/-! ## Where a walk ends -/

theorem isDirectoryAt_dropLast (h : d.IsTree) (hdir : d.isDirectoryAt at_ = true) :
    d.isDirectoryAt at_.dropLast = true := by
  by_cases hnil : at_ = []
  · rwa [hnil] at hdir ⊢
  · exact h.rooted _ ((node?_eq_some_iff h.distinct hnil).1 (isDirectoryAt_iff.1 hdir))

/-- Something stands there, and it is no link. -/
def Settled (d : Disk) (l : Location) : Prop :=
  ∃ n, d.node? l = some n ∧ ∀ target, n ≠ .link target

theorem settled_of_directory (hdir : d.isDirectoryAt at_ = true) : d.Settled at_ :=
  ⟨.directory, isDirectoryAt_iff.1 hdir, nofun⟩

/-- A walk that follows links ends where something stands that is no link. -/
theorem settled_of_walk (h : d.IsTree) {links : Nat} (hnil : segments = [] → d.Settled at_)
    (hwalk : d.walk true links at_ segments = .ok top) : d.Settled top := by
  fun_induction walk d true links at_ segments
  case case1 =>
    cases hwalk
    exact hnil rfl
  case case3 hdir _ ih =>
    exact ih (fun _ => settled_of_directory (by simpa using hdir)) hwalk
  case case4 hdir _ _ ih =>
    exact ih (fun _ => settled_of_directory (isDirectoryAt_dropLast h (by simpa using hdir))) hwalk
  case case7 hfollow => simp at hfollow
  case case9 t ih =>
    have htarget := t.segments_ne_nil
    exact ih (fun hsegments => absurd (List.append_eq_nil_iff.1 hsegments).1 htarget) hwalk
  case case10 n hn hnode ih => exact ih (fun _ => ⟨n, hnode, hn⟩) hwalk
  all_goals cases hwalk

/-- A walk along segments goes on from where it stands behind the first of them. -/
theorem walk_append (links : Nat) (at_ : Location) (segments rest : List String) :
    (∃ f, d.walk true links at_ segments = .error f ∧
      d.walk true links at_ (segments ++ rest) = .error f) ∨
    ∃ l links', d.walk true links at_ segments = .ok l ∧
      d.walk true links at_ (segments ++ rest) = d.walk true links' l rest := by
  fun_induction walk d true links at_ segments
  case case1 links at_ => exact Or.inr ⟨at_, links, rfl, rfl⟩
  all_goals rw [List.cons_append, walk]
  case case3 ih | case4 ih | case10 ih => simpa [*] using ih
  case case7 hfollow => simp at hfollow
  case case9 ih =>
    rw [List.append_assoc] at ih
    simpa [*] using ih
  all_goals simp [*]

/-- The beginning of the names of a directory are those of a directory. -/
theorem isDirectoryAt_left (h : d.IsTree) (hdir : d.node? (at_ ++ below) = some .directory) :
    d.isDirectoryAt at_ = true := by
  rw [isDirectoryAt_iff]
  by_cases hbelow : below = []
  · rwa [hbelow, List.append_nil] at hdir
  · exact directory_of_above h hbelow ((node?_eq_some_iff h.distinct (by simp [hbelow])).1 hdir)

/-- Names of a directory lead to it, whatever silent segments stand between them. -/
theorem eq_of_walk_names (h : d.IsTree) {links : Nat} {names : Location}
    (hnames : segments.filterMap FilePath.innerComponent? = names.map .name)
    (hdir : d.node? (at_ ++ names) = some .directory)
    (hwalk : d.walk true links at_ segments = .ok top) : top = at_ ++ names := by
  induction segments generalizing at_ names with
  | nil =>
    rw [walk] at hwalk
    cases hwalk
    rw [List.map_eq_nil_iff.1 hnames.symm, List.append_nil]
  | cons s rest ih =>
    have habove := isDirectoryAt_left h hdir
    by_cases hsilent : s = "" ∨ s = "."
    · rw [walk_silent habove hsilent] at hwalk
      rw [List.filterMap_cons_none (by simp [FilePath.innerComponent?, hsilent])] at hnames
      exact ih hnames hdir hwalk
    · rw [not_or] at hsilent
      have hinner : FilePath.innerComponent? s =
          some (if s = ".." then Component.up else .name s) := by
        by_cases hup : s = ".." <;> simp [FilePath.innerComponent?, hsilent, hup]
      rw [List.filterMap_cons_some hinner] at hnames
      obtain ⟨name, names, rfl⟩ : ∃ name names', names = name :: names' := by
        cases names with
        | nil => cases hnames
        | cons name names => exact ⟨name, names, rfl⟩
      obtain ⟨hfirst, hrest⟩ := List.cons.inj hnames
      have hup : s ≠ ".." := by
        intro hup
        rw [if_pos hup] at hfirst
        cases hfirst
      rw [if_neg hup] at hfirst
      obtain rfl := Component.name.inj hfirst
      have hsplit : at_ ++ s :: names = at_ ++ [s] ++ names := by simp
      rw [hsplit] at hdir ⊢
      have hnext := isDirectoryAt_iff.1 (isDirectoryAt_left h hdir)
      rw [walk] at hwalk
      simp only [habove, Bool.not_true, Bool.false_eq_true, if_false, beq_iff_eq, Bool.or_self,
        hup, hnext, beq_eq_false_iff_ne.2 hsilent.1, beq_eq_false_iff_ne.2 hsilent.2] at hwalk
      split at hwalk
      · cases hwalk
      · exact ih hrest hdir hwalk

/-! ## The canonical form -/

/-- The path of names from the top. -/
def topPath (l : Location) : FilePath := ⟨"/" ++ String.intercalate "/" l⟩

theorem segments_topPath {l : Location} (h : ∀ name ∈ l, IsName name) :
    (topPath l).segments = "" :: (if l = [] then [""] else l) := by
  have htop : topPath l = ⟨"" ++ "/" ++ String.intercalate "/" l⟩ := by simp [topPath]
  have hblank : FilePath.segments ⟨""⟩ = [""] := FilePath.segments_of_not_mem (by decide)
  rw [htop, FilePath.segments_append, hblank]
  by_cases hl : l = []
  · rw [if_pos hl, hl]
    rfl
  · rw [if_neg hl, FilePath.segments_names hl h]
    rfl

theorem isAbsolute_topPath (l : Location) : (topPath l).isAbsolute = true := by
  simp [topPath, FilePath.isAbsolute]

theorem key_topPath {l : Location} (h : ∀ name ∈ l, IsName name) :
    (topPath l).key = .root :: l.map .name := by
  rw [FilePath.key_eq, segments_topPath h, isAbsolute_topPath]
  by_cases hl : l = []
  · subst hl
    rfl
  · rw [if_neg hl, FilePath.componentsOf, FilePath.filterMap_innerComponent? h]
    rfl

theorem exists_of_canonical? {c : FilePath} (hc : d.canonical? p = some c) :
    ∃ l, d.locate p true = .ok l ∧ c = topPath l := by
  unfold canonical? at hc
  cases hlocate : d.locate p true with
  | error f =>
    rw [hlocate] at hc
    cases hc
  | ok l =>
    rw [hlocate] at hc
    exact ⟨l, rfl, (Option.some.inj hc).symm⟩

/-- What a path leads to is there, and it is no link. -/
theorem settled_of_locate (h : d.IsTree) (hlocate : d.locate p true = .ok top) : d.Settled top := by
  unfold locate at hlocate
  split at hlocate
  · cases hlocate
  · exact settled_of_walk h (fun hnil => absurd hnil p.segments_ne_nil) hlocate

theorem isName_of_settled (h : d.IsTree) (hl : d.Settled top) : ∀ name ∈ top, IsName name := by
  intro name hname
  obtain ⟨n, hn, -⟩ := hl
  exact h.named _ ((node?_eq_some_iff h.distinct (List.ne_nil_of_mem hname)).1 hn) name hname

/-- The canonical form of a path is not properly below it. -/
theorem eq_of_canonical?_below (h : d.IsTree) (hp : p.text ≠ "") {c : FilePath}
    (hc : d.canonical? p = some c) (hbelow : p.key <+: c.key) : p.key = c.key := by
  obtain ⟨l, hlocate, rfl⟩ := exists_of_canonical? hc
  have hsettled := settled_of_locate h hlocate
  have hnames := isName_of_settled h hsettled
  rw [key_topPath hnames] at hbelow ⊢
  have habsolute : p.isAbsolute = true := by
    obtain ⟨c, rest, hkey⟩ := List.exists_cons_of_ne_nil (FilePath.key_ne_nil hp)
    rw [hkey, List.cons_prefix_cons] at hbelow
    exact FilePath.root_mem_key_iff.1 (by simp [hkey, hbelow.1])
  obtain ⟨rest, hsegments, hkey⟩ := FilePath.exists_segments_of_isAbsolute habsolute
  rw [hkey, List.cons_prefix_cons] at hbelow
  obtain ⟨names, ⟨more, hmore⟩, hrest⟩ := List.prefix_map_iff.1 hbelow.2
  have hwalk : d.walk true maxLinks [] rest = .ok l := by
    unfold locate at hlocate
    split at hlocate
    · cases hlocate
    · rw [startOf_of_isAbsolute habsolute, hsegments, walk_silent rfl (Or.inl rfl)] at hlocate
      exact hlocate
  have hl : l = names := by
    by_cases hnil : more = []
    · rw [← hmore, hnil, List.append_nil]
    · -- names that something stands below are those of a directory, so they lead to it
      obtain ⟨n, hn, -⟩ := hsettled
      have hne : l ≠ [] := by simp [← hmore, hnil]
      have hmem := (node?_eq_some_iff h.distinct hne).1 hn
      rw [← hmore] at hmem
      exact eq_of_walk_names h hrest (directory_of_above h hnil hmem) hwalk
  rw [hkey, hrest, hl]

/-! ## Behind a path -/

/-- The system takes the path: it is written, without a zero byte, and neither it nor a name in it
is too long. -/
def Usable (p : FilePath) : Prop :=
  textFault? p = none ∧ ∀ s ∈ p.segments, ¬ maxNameBytes < s.utf8ByteSize

instance (p : FilePath) : Decidable (Usable p) := inferInstanceAs (Decidable (_ ∧ _))

/-- Names lead from a directory to what stands below it. -/
theorem walk_below (h : d.IsTree) (links : Nat) (hsettled : d.Settled (top ++ below))
    (hshort : ∀ name ∈ below, ¬ maxNameBytes < name.utf8ByteSize) :
    d.walk true links top below = .ok (top ++ below) := by
  have hnames := isName_of_settled h hsettled
  induction below using List.reverseRecOn with
  | nil => rw [walk, List.append_nil]
  | append_singleton names name _ =>
    obtain ⟨n, hn, hlink⟩ := hsettled
    have hmem := (node?_eq_some_iff h.distinct (by simp)).1 hn
    have hdir : d.node? (top ++ names) = some .directory := by
      rw [← List.append_assoc] at hmem
      exact directory_of_above h (List.cons_ne_nil name []) hmem
    have hname : IsName name := hnames name (by simp)
    rw [walk_down h true links top hdir (fun s hs => hnames s (by simp [hs]))
      (fun s hs => hshort s (by simp [hs])), walk]
    have hstep : isDirectoryAt d (top ++ names) = true ∧ ¬ maxNameBytes < name.utf8ByteSize :=
      ⟨isDirectoryAt_iff.2 hdir, hshort name (by simp)⟩
    cases n with
    | link target => exact absurd rfl (hlink target)
    | file content | directory =>
      simp [hstep, hname.ne_empty, hname.ne_here, hname.ne_up, hn, walk]

/-- What stands below the place a path leads to is found behind the path. -/
theorem locate_join (h : d.IsTree) (hp : d.locate p true = .ok top) (hne : below ≠ [])
    (hsettled : d.Settled (top ++ below))
    (husable : Usable (p.join ⟨String.intercalate "/" below⟩)) :
    d.locate (p.join ⟨String.intercalate "/" below⟩) true = .ok (top ++ below) := by
  have hnames : ∀ name ∈ below, IsName name := fun name hname =>
    isName_of_settled h hsettled name (List.mem_append_right _ hname)
  have htext : p.text ≠ "" := by
    intro hempty
    have hfault : textFault? p = some .notFound := by simp [textFault?, hempty]
    rw [locate_of_textFault? hfault] at hp
    cases hp
  obtain ⟨segments, -, hsegments, hjoin, habsolute⟩ :=
    FilePath.segments_join htext (FilePath.isAbsolute_names hne hnames)
  rw [FilePath.segments_names hne hnames] at hjoin
  have hstart : d.startOf (p.join ⟨String.intercalate "/" below⟩) = d.startOf p := by
    unfold startOf
    rw [habsolute]
  have hfault : textFault? p = none := by
    cases hfault : textFault? p with
    | none => rfl
    | some fault =>
      rw [locate_of_textFault? hfault] at hp
      cases hp
  rw [locate_of_textFault?_none hfault] at hp
  rw [locate_of_textFault?_none husable.1, hstart, hjoin]
  -- a separator at the end of the path makes no difference to where it leads
  have hbase : d.walk true maxLinks (d.startOf p) segments = .ok top := by
    rcases hsegments with hsegments | hsegments
    · rwa [hsegments] at hp
    · rw [hsegments] at hp
      rcases walk_append maxLinks (d.startOf p) segments [""] with
        ⟨f, -, hf⟩ | ⟨l, links, hl, hrest⟩
      · rw [hf] at hp
        cases hp
      · rw [hrest, walk] at hp
        split at hp
        · cases hp
        · simp only [beq_self_eq_true, Bool.true_or, if_true] at hp
          rw [walk] at hp
          rw [hl, hp]
  rcases walk_append maxLinks (d.startOf p) segments below with ⟨f, hf, -⟩ | ⟨l, links, hl, hrest⟩
  · rw [hf] at hbase
    cases hbase
  · obtain rfl : l = top := Except.ok.inj (hl.symm.trans hbase)
    have hshort : ∀ name ∈ below, ¬ maxNameBytes < name.utf8ByteSize := fun name hname =>
      husable.2 name (by simp [hjoin, hname])
    rw [hrest, walk_below h links hsettled hshort]

/-- As long as nothing changes, the canonical form of a path leads where the path does. -/
theorem locate_canonical? (h : d.IsTree) {c : FilePath} (hc : d.canonical? p = some c)
    (husable : Usable c) : d.locate c true = d.locate p true := by
  obtain ⟨l, hlocate, rfl⟩ := exists_of_canonical? hc
  have hsettled := settled_of_locate h hlocate
  have hsegments := segments_topPath (isName_of_settled h hsettled)
  rw [hlocate, locate_of_textFault?_none husable.1, startOf_of_isAbsolute (isAbsolute_topPath l),
    hsegments, walk_silent rfl (Or.inl rfl)]
  by_cases hl : l = []
  · subst hl
    rw [if_pos rfl, walk_silent rfl (Or.inl rfl), walk]
  · have hshort : ∀ name ∈ l, ¬ maxNameBytes < name.utf8ByteSize := fun name hname =>
      husable.2 name (by simp [hsegments, hl, hname])
    rw [if_neg hl]
    exact walk_below h maxLinks (List.nil_append l ▸ hsettled) hshort

end ClassAtlas.Files.Disk
