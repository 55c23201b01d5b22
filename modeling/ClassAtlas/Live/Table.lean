/-!
# Tables by key

A table holds at most one value for each key, as a list of pairs. What a table says is what `get?`
answers; `get?_set` and `get?_erase` say how the two changes act on it, and `keys_set_nodup` and
`keys_erase_nodup` that no key comes twice.
-/
namespace ClassAtlas.Live

/-- Values by key. -/
abbrev Table (κ α : Type) := List (κ × α)

namespace Table

variable {κ α : Type} [DecidableEq κ]

def get? (t : Table κ α) (k : κ) : Option α := (t.find? fun e => e.1 = k).map (·.2)

def keys (t : Table κ α) : List κ := t.map (·.1)

def erase (t : Table κ α) (k : κ) : Table κ α := t.filter fun e => e.1 ≠ k

/-- Gives a key its value; a new key comes last. -/
def set (t : Table κ α) (k : κ) (a : α) : Table κ α :=
  if t.any fun e => e.1 = k then t.map fun e => if e.1 = k then (k, a) else e
  else t ++ [(k, a)]

theorem get?_erase (t : Table κ α) (k j : κ) :
    (t.erase k).get? j = if j = k then none else t.get? j := by
  unfold get? erase
  induction t with
  | nil => simp
  | cons e t ih => grind

theorem get?_eq_none_of_not_any {t : Table κ α} {k : κ} (h : (t.any fun e => e.1 = k) = false) :
    t.get? k = none := by
  simp only [get?, Option.map_eq_none_iff, List.find?_eq_none, decide_eq_true_eq]
  simpa using h

theorem get?_map_set (t : Table κ α) (k j : κ) (a : α) :
    get? (t.map fun e => if e.1 = k then (k, a) else e) j
      = if j = k then (t.get? k).map fun _ => a else t.get? j := by
  unfold get?
  induction t with
  | nil => simp
  | cons e t ih => grind

theorem get?_append_single (t : Table κ α) (k j : κ) (a : α) :
    get? (t ++ [(k, a)]) j = (t.get? j <|> if j = k then some a else none) := by
  unfold get?
  induction t with
  | nil => by_cases h : k = j <;> simp [h, eq_comm]
  | cons e t ih => grind

theorem get?_set (t : Table κ α) (k j : κ) (a : α) :
    (t.set k a).get? j = if j = k then some a else t.get? j := by
  unfold set
  split
  next h =>
    rw [get?_map_set]
    split
    · have : (t.get? k).isSome := by
        simp only [get?, Option.isSome_map, List.find?_isSome]
        simpa using h
      obtain ⟨b, hb⟩ := Option.isSome_iff_exists.1 this
      simp [hb]
    · rfl
  next h =>
    rw [get?_append_single]
    split
    next hj =>
      subst hj
      simp [get?_eq_none_of_not_any (Bool.eq_false_iff.2 h)]
    next => simp

theorem keys_erase_nodup {t : Table κ α} (h : t.keys.Nodup) (k : κ) : (t.erase k).keys.Nodup :=
  (List.filter_sublist.map _).nodup h

theorem keys_map_set (t : Table κ α) (k : κ) (a : α) :
    keys (t.map fun e => if e.1 = k then (k, a) else e) = t.keys := by
  unfold keys
  induction t with
  | nil => rfl
  | cons e t ih => grind

theorem keys_set_nodup {t : Table κ α} (h : t.keys.Nodup) (k : κ) (a : α) :
    (t.set k a).keys.Nodup := by
  unfold set
  split
  · rwa [keys_map_set]
  next hk =>
    have hk : k ∉ t.keys := by simpa [keys] using hk
    simp only [keys, List.map_append, List.map_cons, List.map_nil]
    exact List.nodup_append.2 ⟨h, by simp, by rintro a ha b hb rfl; simp_all [keys]⟩

end Table
end ClassAtlas.Live
