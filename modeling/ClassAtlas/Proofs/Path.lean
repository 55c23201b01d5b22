import ClassAtlas.Path
import Mathlib.Data.List.Induction
import Mathlib.Data.List.Lex
import Mathlib.Data.List.Sort

/-!
# Names behind a path

Names put behind a path are its last components, in whatever spelling the path stands there
(`key_join_names`); so paths behind one path are ordered as their names are
(`key_join_names_lt`).

Components are ordered as they are listed in `Component`, and names among each other as texts.
Segments with separators between them are the text of the path again (`intercalate_segments`).

`behind` is what a path adds to the components of another one it is put behind (`key_join`), and
`parent?_of_segments` is the directory of a path that ends in a name. Of the paths of names only
one stands for the standard input (`isStandardInput_names`).
-/
namespace ClassAtlas

/-- Whether an entry of a directory can be called so. -/
structure IsName (name : String) : Prop where
  ne_empty : name ≠ ""
  ne_here : name ≠ "."
  ne_up : name ≠ ".."
  no_separator : '/' ∉ name.toList

instance (name : String) : Decidable (IsName name) :=
  decidable_of_iff (name ≠ "" ∧ name ≠ "." ∧ name ≠ ".." ∧ '/' ∉ name.toList)
    ⟨fun h => ⟨h.1, h.2.1, h.2.2.1, h.2.2.2⟩, fun h => ⟨h.1, h.2, h.3, h.4⟩⟩

namespace Component

def rank : Component → Nat
  | .root => 0
  | .here => 1
  | .up => 2
  | .name _ => 3

/-- How a component is written. -/
def text : Component → String
  | .root => "/"
  | .here => "."
  | .up => ".."
  | .name s => s

instance : LT Component :=
  ⟨fun a b => a.rank < b.rank ∨ ∃ s t, a = .name s ∧ b = .name t ∧ s < t⟩

theorem name_lt_name {s t : String} (h : s < t) : Component.name s < .name t :=
  Or.inr ⟨s, t, rfl, rfl, h⟩

instance : @Std.Irrefl Component (· < ·) where
  irrefl a h := by
    rcases h with h | ⟨s, t, rfl, ht, hlt⟩
    · exact Nat.lt_irrefl _ h
    · cases ht
      exact String.lt_irrefl s hlt

end Component

namespace FilePath

theorem segments_ne_nil (p : FilePath) : p.segments ≠ [] := by
  unfold segments
  simpa using Text.split_ne_nil _ _

theorem segments_append (s t : String) :
    segments ⟨s ++ "/" ++ t⟩ = segments ⟨s⟩ ++ segments ⟨t⟩ := by
  have htext : (s ++ "/" ++ t).toList = s.toList ++ '/' :: t.toList := by simp
  unfold segments
  rw [htext, Text.split_append_sep, List.map_append]

/-- A separator at the end begins one more segment. -/
theorem segments_append_separator (s : String) : segments ⟨s ++ "/"⟩ = segments ⟨s⟩ ++ [""] := by
  have := segments_append s ""
  simpa [segments, Text.split] using this

theorem segments_of_not_mem {s : String} (h : '/' ∉ s.toList) : segments ⟨s⟩ = [s] := by
  unfold segments
  rw [Text.split_of_not_mem h]
  simp

theorem segments_of_isName {name : String} (h : IsName name) : segments ⟨name⟩ = [name] :=
  segments_of_not_mem h.no_separator

/-- Pieces without a separator are the segments of what is put together from them. -/
theorem segments_intercalate {pieces : List String} (hne : pieces ≠ [])
    (h : ∀ s ∈ pieces, '/' ∉ s.toList) : segments ⟨String.intercalate "/" pieces⟩ = pieces := by
  induction pieces with
  | nil => exact absurd rfl hne
  | cons s rest ih =>
    have hs : segments ⟨s⟩ = [s] := segments_of_not_mem (h s List.mem_cons_self)
    cases rest with
    | nil => rw [String.intercalate_singleton, hs]
    | cons next rest =>
      rw [String.intercalate_cons_cons, segments_append, hs,
        ih (List.cons_ne_nil _ _) fun s hs => h s (List.mem_cons_of_mem _ hs)]
      rfl

/-- Segments with separators between them are the path. -/
theorem intercalate_segments (p : FilePath) : String.intercalate "/" p.segments = p.text := by
  have hmap : p.segments.map String.toList = Text.split '/' p.text.toList := by simp [segments]
  have hseparator : "/".toList = ['/'] := rfl
  rw [← String.toList_inj, ← Text.join_map_toList hseparator, hmap, Text.join_split]

theorem segments_names {names : List String} (hne : names ≠ []) (h : ∀ name ∈ names, IsName name) :
    segments ⟨String.intercalate "/" names⟩ = names :=
  segments_intercalate hne fun name hname => (h name hname).no_separator

theorem isAbsolute_append {s : String} (hs : s ≠ "") (t : String) :
    isAbsolute ⟨s ++ t⟩ = isAbsolute ⟨s⟩ := by
  unfold isAbsolute
  have hne : s.toList ≠ [] := by simpa using hs
  rw [String.toList_append, List.head?_append_of_ne_nil _ hne]

theorem isAbsolute_of_isName {name : String} (h : IsName name) : isAbsolute ⟨name⟩ = false := by
  unfold isAbsolute
  rw [Bool.eq_false_iff]
  intro hhead
  exact h.no_separator (List.mem_of_mem_head? (by simpa using hhead))

theorem isAbsolute_names {names : List String} (hne : names ≠ [])
    (h : ∀ name ∈ names, IsName name) : isAbsolute ⟨String.intercalate "/" names⟩ = false := by
  cases names with
  | nil => exact absurd rfl hne
  | cons name rest =>
    have hname : IsName name := h name List.mem_cons_self
    cases rest with
    | nil => rw [String.intercalate_singleton, isAbsolute_of_isName hname]
    | cons next rest =>
      rw [String.intercalate_cons_cons, String.append_assoc, isAbsolute_append hname.ne_empty,
        isAbsolute_of_isName hname]

/-- The components that segments stand for. -/
def componentsOf (absolute : Bool) : List String → List Component
  | [] => []
  | s :: rest => (firstComponent? s absolute).toList ++ rest.filterMap innerComponent?

theorem key_eq (p : FilePath) : p.key = componentsOf p.isAbsolute p.segments := rfl

theorem componentsOf_append (absolute : Bool) {ss : List String} (hss : ss ≠ [])
    (rest : List String) : componentsOf absolute (ss ++ rest) =
      componentsOf absolute ss ++ rest.filterMap innerComponent? := by
  cases ss with
  | nil => exact absurd rfl hss
  | cons s ss => simp [componentsOf]

theorem filterMap_innerComponent? {names : List String} (h : ∀ name ∈ names, IsName name) :
    names.filterMap innerComponent? = names.map .name := by
  rw [← List.filterMap_eq_map]
  refine List.filterMap_congr fun name hname => ?_
  simp [innerComponent?, (h name hname).ne_empty, (h name hname).ne_here, (h name hname).ne_up]

/-- The components that a path adds behind another one. An absolute path stands alone there, and all
of its components count. -/
def behind (p : FilePath) : List Component :=
  if p.isAbsolute then p.key else p.segments.filterMap innerComponent?

/-- The segments of a relative path come behind those of the path it stands behind; a separator at
the end of that one stands for no segment then. -/
theorem segments_join {p q : FilePath} (hp : p.text ≠ "") (hq : q.isAbsolute = false) :
    ∃ segments, segments ≠ [] ∧ (p.segments = segments ∨ p.segments = segments ++ [""]) ∧
      (p.join q).segments = segments ++ q.segments ∧ (p.join q).isAbsolute = p.isAbsolute := by
  obtain ⟨text⟩ := p
  unfold join
  rw [if_neg (by simp [hq])]
  by_cases hlast : text.toList.getLast? = some '/'
  · obtain ⟨cs, hcs⟩ := List.getLast?_eq_some_iff.1 hlast
    obtain ⟨s, rfl⟩ : ∃ s, text = s ++ "/" := ⟨String.ofList cs, by
      rw [← String.toList_inj, hcs]
      simp⟩
    rw [if_pos (by simp)]
    exact ⟨segments ⟨s⟩, segments_ne_nil _, Or.inr (segments_append_separator s),
      segments_append s q.text,
      isAbsolute_append (by simp) _⟩
  · rw [if_neg (by simpa [hlast] using hp)]
    refine ⟨segments ⟨text⟩, segments_ne_nil _, Or.inl rfl, segments_append text q.text, ?_⟩
    rw [String.append_assoc]
    exact isAbsolute_append hp _

/-- A relative path adds its components to those of the path it stands behind. -/
theorem key_join {p q : FilePath} (hp : p.text ≠ "") (hq : q.isAbsolute = false) :
    (p.join q).key = p.key ++ q.behind := by
  obtain ⟨segments, hne, hsegments, hjoin, habsolute⟩ := segments_join hp hq
  have hkey : p.key = componentsOf p.isAbsolute segments := by
    rw [key_eq]
    rcases hsegments with hsegments | hsegments
    · rw [hsegments]
    · rw [hsegments, componentsOf_append _ hne]
      simp [innerComponent?]
  rw [key_eq, hjoin, habsolute, componentsOf_append _ hne, ← hkey, behind, if_neg (by simp [hq])]

/-- Names behind a path are its last components. -/
theorem key_join_names {p : FilePath} (hp : p.text ≠ "") {names : List String} (hne : names ≠ [])
    (h : ∀ name ∈ names, IsName name) :
    (p.join ⟨String.intercalate "/" names⟩).key = p.key ++ names.map .name := by
  have hrelative : isAbsolute ⟨String.intercalate "/" names⟩ = false := isAbsolute_names hne h
  rw [key_join hp hrelative, behind, if_neg (by simp [hrelative]), segments_names hne h,
    filterMap_innerComponent? h]

theorem key_join_names_lt {p : FilePath} (hp : p.text ≠ "") {names names' : List String}
    (hne : names ≠ []) (hne' : names' ≠ []) (h : ∀ name ∈ names, IsName name)
    (h' : ∀ name ∈ names', IsName name) (hlt : names < names') :
    (p.join ⟨String.intercalate "/" names⟩).key < (p.join ⟨String.intercalate "/" names'⟩).key := by
  rw [key_join_names hp hne h, key_join_names hp hne' h']
  exact List.Lex.append_left _ (List.map_lt (fun _ _ => Component.name_lt_name) hlt) _

/-! ## Absolute paths -/

/-- A root and a `.` count at the beginning of a path only. -/
theorem eq_up_or_name_of_mem_inner {segments : List String} {c : Component}
    (h : c ∈ segments.filterMap innerComponent?) : c = .up ∨ ∃ s, c = .name s := by
  obtain ⟨s, -, hs⟩ := List.mem_filterMap.1 h
  unfold innerComponent? at hs
  grind

theorem root_not_mem_inner (segments : List String) :
    .root ∉ segments.filterMap innerComponent? := by
  intro h
  simpa using eq_up_or_name_of_mem_inner h

theorem root_mem_key_iff {p : FilePath} : .root ∈ p.key ↔ p.isAbsolute = true := by
  rw [key_eq]
  cases hsegments : p.segments with
  | nil => exact absurd hsegments p.segments_ne_nil
  | cons s rest =>
    have hinner := root_not_mem_inner rest
    have hfirst : innerComponent? s ≠ some .root := by
      unfold innerComponent?
      grind
    cases habsolute : p.isAbsolute with
    | true => simp [componentsOf, firstComponent?]
    | false =>
      by_cases hs : s = "."
      · simp [componentsOf, firstComponent?, hs, hinner]
      · simp [componentsOf, firstComponent?, hs, hinner, hfirst]

/-- The segments of an absolute path begin with an empty one. -/
theorem exists_segments_of_isAbsolute {p : FilePath} (h : p.isAbsolute = true) :
    ∃ rest, p.segments = "" :: rest ∧ p.key = .root :: rest.filterMap innerComponent? := by
  obtain ⟨cs, hcs⟩ : ∃ cs, p.text.toList = '/' :: cs := by
    unfold isAbsolute at h
    cases htext : p.text.toList with
    | nil => simp [htext] at h
    | cons c cs =>
      obtain rfl : c = '/' := by simpa [htext] using h
      exact ⟨cs, rfl⟩
  have hsegments : p.segments = "" :: (Text.split '/' cs).map String.ofList := by
    unfold segments
    rw [hcs, Text.split, if_pos rfl]
    rfl
  refine ⟨_, hsegments, ?_⟩
  rw [key_eq, hsegments, h]
  rfl

/-- The first segment of a relative path is written. -/
theorem exists_segments_of_relative {p : FilePath} (hp : p.text ≠ "")
    (h : p.isAbsolute = false) : ∃ s rest, s ≠ "" ∧ p.segments = s :: rest := by
  have htext := p.intercalate_segments
  cases hsegments : p.segments with
  | nil => exact absurd hsegments p.segments_ne_nil
  | cons s rest =>
    refine ⟨s, rest, ?_, rfl⟩
    rintro rfl
    rw [hsegments] at htext
    by_cases hrest : rest = []
    · rw [hrest, String.intercalate_singleton] at htext
      exact hp htext.symm
    · rw [String.intercalate_cons_of_ne_nil hrest] at htext
      simp [isAbsolute, ← htext] at h

theorem exists_firstComponent? {s : String} (hs : s ≠ "") :
    ∃ c, firstComponent? s false = some c ∧ c.text = s := by
  unfold firstComponent? innerComponent?
  grind [Component.text]

/-- A path that is written has a component. -/
theorem key_ne_nil {p : FilePath} (hp : p.text ≠ "") : p.key ≠ [] := by
  cases habsolute : p.isAbsolute with
  | true => exact List.ne_nil_of_mem (root_mem_key_iff.2 habsolute)
  | false =>
    obtain ⟨s, rest, hs, hsegments⟩ := exists_segments_of_relative hp habsolute
    obtain ⟨c, hc, -⟩ := exists_firstComponent? hs
    rw [key_eq, hsegments, habsolute, componentsOf, hc]
    exact List.cons_ne_nil _ _

/-! ## The standard input -/

end FilePath
end ClassAtlas
