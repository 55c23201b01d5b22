/-!
# Cutting a text at a character

`split` cuts at every occurrence of a separator and keeps empty pieces, so a text with `n`
separators gives `n + 1` pieces and `join` puts them together again.

Main results: `join_split` (nothing is lost), `length_split` (the number of pieces),
`split_append_sep` (texts with a separator between them). `join_map_toList` is for pieces that are
texts.
-/
namespace ClassAtlas.Text

/-- The pieces of a text between the occurrences of `sep`. -/
def split (sep : Char) : List Char → List (List Char)
  | [] => [[]]
  | c :: cs =>
    if c = sep then [] :: split sep cs
    else match split sep cs with
      | [] => [[c]]
      | piece :: rest => (c :: piece) :: rest

/-- Pieces with the separator between them. -/
def join (sep : Char) : List (List Char) → List Char
  | [] => []
  | [piece] => piece
  | piece :: rest => piece ++ sep :: join sep rest

theorem split_ne_nil (sep : Char) (cs : List Char) : split sep cs ≠ [] := by
  cases cs with
  | nil => simp [split]
  | cons c cs =>
    simp only [split]
    split
    · simp
    · split <;> simp

theorem join_split (sep : Char) (cs : List Char) : join sep (split sep cs) = cs := by
  induction cs with
  | nil => rfl
  | cons c cs ih =>
    simp only [split]
    have hne := split_ne_nil sep cs
    cases h : split sep cs with
    | nil => exact absurd h hne
    | cons piece rest =>
      rw [h] at ih
      by_cases hc : c = sep
      · simp [hc, join, ih]
      · cases rest with
        | nil => simpa [hc, join] using ih
        | cons r rs => simpa [hc, join] using ih

theorem length_split (sep : Char) (cs : List Char) : (split sep cs).length = cs.count sep + 1 := by
  induction cs with
  | nil => rfl
  | cons c cs ih =>
    simp only [split]
    by_cases hc : c = sep
    · simp [hc, ih]
    · cases hs : split sep cs with
      | nil => exact absurd hs (split_ne_nil sep cs)
      | cons p rest =>
        rw [hs] at ih
        simpa [hc, List.count_cons] using ih

theorem split_of_not_mem {sep : Char} {cs : List Char} (h : sep ∉ cs) : split sep cs = [cs] := by
  induction cs with
  | nil => rfl
  | cons c cs ih =>
    rw [List.mem_cons, not_or] at h
    simp [split, Ne.symm h.1, ih h.2]

theorem split_append_sep (sep : Char) (cs ds : List Char) :
    split sep (cs ++ sep :: ds) = split sep cs ++ split sep ds := by
  induction cs with
  | nil => simp [split]
  | cons c cs ih =>
    rw [List.cons_append, split, split, ih]
    cases h : split sep cs with
    | nil => exact absurd h (split_ne_nil sep cs)
    | cons piece rest => by_cases hc : c = sep <;> simp [hc]

/-- Joining pieces as characters is joining them as texts. -/
theorem join_map_toList {sep : Char} {text : String} (h : text.toList = [sep])
    (pieces : List String) :
    join sep (pieces.map String.toList) = (text.intercalate pieces).toList := by
  induction pieces with
  | nil => rfl
  | cons piece rest ih =>
    cases rest with
    | nil => simp [join]
    | cons next rest =>
      rw [List.map_cons, List.map_cons, join, ← List.map_cons, ih]
      · simp [String.intercalate_cons_cons, h]
      · exact List.cons_ne_nil _ _

end ClassAtlas.Text
