import ClassAtlas.Proofs.Path
import Mathlib.Logic.Relation

/-!
# The spellings of a path

`Shortening` says what can be left out of the text of a path: one of two separators, a `.` behind a
separator, and a separator at the end. Two paths are spellings of each other (`Respelled`) if steps
of this kind lead from one to the other, forwards or backwards. Nothing is cut into segments there.

Results:
* `key_eq_iff_respelled`: paths have the same components exactly if they are spellings of each
  other. In one direction no step changes a component; in the other each path is a spelling of its
  components with separators between them (`respelled_ofComponents`).
* `key_here_append_iff`: `./` in front of a path makes another path of it, unless a `.` stands in
  front already.
-/
namespace ClassAtlas.FilePath

/-- What can be left out of the text of a path. -/
inductive Shortening : String → String → Prop where
  /-- One of two separators. -/
  | separator (s t : String) : Shortening (s ++ "//" ++ t) (s ++ "/" ++ t)
  /-- A `.` between separators. -/
  | here (s t : String) : Shortening (s ++ "/./" ++ t) (s ++ "/" ++ t)
  /-- A `.` behind the last separator. -/
  | lastHere (s : String) : Shortening (s ++ "/.") (s ++ "/")
  /-- The separator at the end, unless it is all there is. -/
  | lastSeparator (s : String) (hs : s ≠ "") : Shortening (s ++ "/") s

/-- The texts differ in nothing but what can be left out of them. -/
def Respelled (p q : FilePath) : Prop := Relation.EqvGen Shortening p.text q.text

/-! ## A text by its first separator -/

theorem append_two_separators (s t : String) : s ++ "//" ++ t = s ++ "/" ++ ("" ++ "/" ++ t) := by
  simp [← String.toList_inj]

theorem append_here_separator (s t : String) :
    s ++ "/./" ++ t = s ++ "/" ++ ("." ++ "/" ++ t) := by
  simp [← String.toList_inj]

theorem append_separator_here (s : String) : s ++ "/." = s ++ "/" ++ "." := by
  simp [← String.toList_inj]

/-! ## What is left out is no component -/

/-- The components of what stands behind a separator. -/
def innerComponents (t : String) : List Component := (segments ⟨t⟩).filterMap innerComponent?

theorem innerComponents_append (s t : String) :
    innerComponents (s ++ "/" ++ t) = innerComponents s ++ innerComponents t := by
  unfold innerComponents
  rw [segments_append, List.filterMap_append]

theorem key_append (s t : String) :
    (⟨s ++ "/" ++ t⟩ : FilePath).key = (⟨s ++ "/"⟩ : FilePath).key ++ innerComponents t := by
  rw [key_eq, key_eq, isAbsolute_append (by simp) t, segments_append, segments_append_separator,
    componentsOf_append _ (segments_ne_nil _), componentsOf_append _ (segments_ne_nil _)]
  simp [innerComponents, innerComponent?]

theorem key_append_separator {s : String} (hs : s ≠ "") :
    (⟨s ++ "/"⟩ : FilePath).key = (⟨s⟩ : FilePath).key := by
  rw [key_eq, key_eq, isAbsolute_append hs, segments_append_separator,
    componentsOf_append _ (segments_ne_nil _)]
  simp [innerComponent?]

theorem key_eq_of_shortening {s t : String} (h : Shortening s t) :
    (⟨s⟩ : FilePath).key = (⟨t⟩ : FilePath).key := by
  cases h with
  | separator s t =>
    have hsilent : innerComponents "" = [] := rfl
    rw [append_two_separators, key_append, key_append, innerComponents_append, hsilent,
      List.nil_append]
  | here s t =>
    have hsilent : innerComponents "." = [] := rfl
    rw [append_here_separator, key_append, key_append, innerComponents_append, hsilent,
      List.nil_append]
  | lastHere s =>
    have hsilent : innerComponents "." = [] := rfl
    rw [append_separator_here, key_append, hsilent, List.append_nil]
  | lastSeparator s hs => exact key_append_separator hs

theorem Respelled.key_eq {p q : FilePath} (h : p.Respelled q) : p.key = q.key := by
  have hkey : ∀ s t, Relation.EqvGen Shortening s t →
      (⟨s⟩ : FilePath).key = (⟨t⟩ : FilePath).key := by
    intro s t hst
    induction hst with
    | rel s t hst => exact key_eq_of_shortening hst
    | refl s => rfl
    | symm s t _ ih => exact ih.symm
    | trans s t u _ _ ih ih' => exact ih.trans ih'
  exact hkey p.text q.text h

/-! ## A path is a spelling of its components -/

/-- Components as they are written, with separators between them. -/
def ofComponents (cs : List Component) : FilePath :=
  ⟨String.intercalate "/" (cs.map Component.text)⟩

theorem text_of_innerComponent? {s : String} {c : Component} (h : innerComponent? s = some c) :
    c.text = s := by
  unfold innerComponent? at h
  grind [Component.text]

/-- A segment that stands for no component can be left out, together with the separator before
it. -/
theorem eqvGen_of_silent {s x : String} (hs : s ≠ "") (hx : innerComponent? x = none)
    (rest : List String) :
    Relation.EqvGen Shortening (String.intercalate "/" (s :: x :: rest))
      (String.intercalate "/" (s :: rest)) := by
  have hsilent : x = "" ∨ x = "." := by
    unfold innerComponent? at hx
    grind
  cases rest with
  | nil =>
    have hlast := Relation.EqvGen.rel _ _ (Shortening.lastSeparator s hs)
    rw [String.intercalate_cons_cons, String.intercalate_singleton, String.intercalate_singleton]
    rcases hsilent with rfl | rfl
    · rwa [String.append_empty]
    · rw [← append_separator_here]
      exact .trans _ _ _ (.rel _ _ (.lastHere s)) hlast
  | cons next rest =>
    rw [String.intercalate_cons_cons, String.intercalate_cons_cons, String.intercalate_cons_cons]
    rcases hsilent with rfl | rfl
    · rw [← append_two_separators]
      exact .rel _ _ (.separator s _)
    · rw [← append_here_separator]
      exact .rel _ _ (.here s _)

/-- Behind a first segment that is written nothing but components has to stand. -/
theorem eqvGen_components {s : String} (hs : s ≠ "") (rest : List String) :
    Relation.EqvGen Shortening (String.intercalate "/" (s :: rest))
      (String.intercalate "/" (s :: (rest.filterMap innerComponent?).map Component.text)) := by
  induction rest generalizing s with
  | nil => exact .refl _
  | cons x rest ih =>
    cases hx : innerComponent? x with
    | none =>
      rw [List.filterMap_cons_none hx]
      exact .trans _ _ _ (eqvGen_of_silent hs hx rest) (ih hs)
    | some c =>
      -- from here on the segment belongs to what stands in front
      have hfront : ∀ more : List String, String.intercalate "/" (s :: x :: more) =
          String.intercalate "/" ((s ++ "/" ++ x) :: more) := by
        intro more
        rw [String.intercalate_cons_cons, String.intercalate_cons_append]
      rw [List.filterMap_cons_some hx, List.map_cons, text_of_innerComponent? hx, hfront, hfront]
      exact ih (by simp)

/-- The empty segment before a root can be written as a separator of its own. -/
theorem eqvGen_of_root {rest : List String} (hrest : rest ≠ []) :
    Relation.EqvGen Shortening (String.intercalate "/" ("" :: rest))
      (String.intercalate "/" ("/" :: rest)) := by
  rw [String.intercalate_cons_of_ne_nil hrest, String.intercalate_cons_of_ne_nil hrest]
  exact .symm _ _ (.rel _ _ (.separator "" _))

theorem respelled_ofComponents (p : FilePath) : p.Respelled (ofComponents p.key) := by
  have htext := p.intercalate_segments
  unfold Respelled ofComponents
  cases habsolute : p.isAbsolute with
  | true =>
    obtain ⟨rest, hsegments, hkey⟩ := exists_segments_of_isAbsolute habsolute
    rw [hsegments] at htext
    have hrest : rest ≠ [] := by
      rintro rfl
      rw [String.intercalate_singleton] at htext
      simp [isAbsolute, ← htext] at habsolute
    rw [← htext, hkey, List.map_cons]
    exact .trans _ _ _ (eqvGen_of_root hrest) (eqvGen_components (by decide) rest)
  | false =>
    by_cases hp : p.text = ""
    · obtain ⟨text⟩ := p
      cases hp
      exact .refl _
    · obtain ⟨s, rest, hs, hsegments⟩ := exists_segments_of_relative hp habsolute
      obtain ⟨c, hc, hctext⟩ := exists_firstComponent? hs
      rw [← htext, key_eq, hsegments, habsolute, componentsOf, hc, Option.toList_some,
        List.singleton_append, List.map_cons, hctext]
      exact eqvGen_components hs rest

theorem key_eq_iff_respelled {p q : FilePath} : p.key = q.key ↔ p.Respelled q := by
  refine ⟨fun h => ?_, Respelled.key_eq⟩
  have hq := q.respelled_ofComponents
  rw [← h] at hq
  exact .trans _ _ _ p.respelled_ofComponents (.symm _ _ hq)

/-! ## A dot in front -/

theorem here_not_mem_inner (segments : List String) :
    .here ∉ segments.filterMap innerComponent? := by
  intro h
  simpa using eq_up_or_name_of_mem_inner h

/-- What stands behind a `.` in front. -/
theorem key_here_append (t : String) :
    (⟨"./" ++ t⟩ : FilePath).key = .here :: innerComponents t := key_append "." t

theorem here_mem_key_iff {p : FilePath} :
    .here ∈ p.key ↔ p.text = "." ∨ ∃ t, p.text = "./" ++ t := by
  constructor
  · intro h
    cases habsolute : p.isAbsolute with
    | true =>
      obtain ⟨rest, -, hkey⟩ := exists_segments_of_isAbsolute habsolute
      rw [hkey] at h
      rcases List.mem_cons.1 h with h | h
      · cases h
      · exact absurd h (here_not_mem_inner rest)
    | false =>
      have htext := p.intercalate_segments
      cases hsegments : p.segments with
      | nil => exact absurd hsegments p.segments_ne_nil
      | cons s rest =>
        rw [key_eq, hsegments, habsolute, componentsOf, List.mem_append] at h
        have hfirst := h.resolve_right (here_not_mem_inner rest)
        obtain rfl : s = "." := by
          unfold firstComponent? innerComponent? at hfirst
          grind
        rw [hsegments] at htext
        rw [← htext]
        by_cases hrest : rest = []
        · exact .inl (by rw [hrest, String.intercalate_singleton])
        · exact .inr ⟨_, String.intercalate_cons_of_ne_nil hrest⟩
  · obtain ⟨text⟩ := p
    rintro (rfl | ⟨t, rfl⟩)
    · exact List.mem_singleton.2 rfl
    · rw [key_here_append]
      exact List.mem_cons_self

/-- `./` in front of a path makes another path of it, unless a `.` stands in front already. -/
theorem key_here_append_iff (s : String) :
    (⟨"./" ++ s⟩ : FilePath).key = (⟨s⟩ : FilePath).key ↔ s = "." ∨ ∃ t, s = "./" ++ t := by
  constructor
  · intro h
    rw [key_here_append] at h
    exact here_mem_key_iff.1 (h ▸ List.mem_cons_self)
  · rintro (rfl | ⟨t, rfl⟩)
    · exact (key_eq_of_shortening (.lastHere ".")).trans (key_append_separator (by decide))
    · have htext : "./" ++ ("./" ++ t) = "." ++ "/./" ++ t := by simp [← String.toList_inj]
      rw [htext]
      exact key_eq_of_shortening (.here "." t)

end ClassAtlas.FilePath
