import ClassAtlas.Json.Tagged
import ClassAtlas.Proofs.Json.Skipping

/-!
# Tagged values, however they are written

A tagged value has a member `event`, which names a variant, and a member `data` with its contents.
The reader takes the members as they come: contents before the name are kept as a document, contents
behind it are read from the text, and all other members are stepped over. `toOption_ofText`: for a
page that holds an object the result depends on the values of these two keys alone, of which there
must be one each (`Tagged.outcome`).

The one difference between the two orders is that contents that are kept must fit: they may not nest
too deeply, and their numbers must be held. It shows only where a variant takes such contents, so
the theorem asks that the page fits or that contents are strings.
-/
namespace ClassAtlas.Json

open Reader

/-- The values that an object gives to a key. -/
def values (key : String) (ms : List (String × Json)) : List Json :=
  (ms.filter fun m => m.1 == key).map (·.2)

@[simp] theorem values_nil (key : String) : values key [] = [] := rfl

@[simp] theorem values_cons_self (key : String) (j : Json) (ms : List (String × Json)) :
    values key ((key, j) :: ms) = j :: values key ms := by
  simp [values]

theorem values_cons_of_ne {key key' : String} (h : key' ≠ key) (j : Json)
    (ms : List (String × Json)) : values key ((key', j) :: ms) = values key ms := by
  simp [values, h]

def string? : Json → Option String
  | .string s => some s
  | _ => none

/-- The first character of a value tells strings, `null` and objects from the rest. -/
theorem Written.first_of_kind (s : Style) (w : Written) : ∃ c cs, w.text s = c :: cs ∧
    isSpace c = false ∧ (c = '"' ↔ ∃ letters, w = .scalar (.string letters)) ∧
    (c = 'n' ↔ w = .scalar .null) ∧ (c = '{' ↔ ∃ ms, w.doc = .object ms) := by
  cases w with
  | scalar t =>
    cases t with
    | null => exact ⟨'n', _, by rw [text, Scalar.text], by simp [doc, Scalar.doc, isSpace]⟩
    | bool b =>
      cases b with
      | false => exact ⟨'f', _, by rw [text, Scalar.text], by simp [doc, Scalar.doc, isSpace]⟩
      | true => exact ⟨'t', _, by rw [text, Scalar.text], by simp [doc, Scalar.doc, isSpace]⟩
    | number n =>
      obtain ⟨c, cs, hc, hfirst⟩ := n.exists_first
      have hne : ∀ e : Char, (e == '-' || e.isDigit) = false → c ≠ e := by
        rintro e he rfl
        rw [hfirst] at he
        cases he
      have hspace : isSpace c = false := by
        simp only [isSpace, Bool.or_eq_false_iff, beq_eq_false_iff_ne]
        exact ⟨⟨⟨hne _ rfl, hne _ rfl⟩, hne _ rfl⟩, hne _ rfl⟩
      refine ⟨c, cs, by rw [text, Scalar.text, hc], hspace, ?_, ?_, ?_⟩
      · simp [hne '"' rfl]
      · simp [hne 'n' rfl]
      · simp [hne '{' rfl, doc, Scalar.doc]
    | string letters =>
      exact ⟨'"', _, by rw [text, Scalar.text], by simp [doc, Scalar.doc, isSpace]⟩
  | emptyArray inside => exact ⟨'[', _, by rw [text], by simp [doc, isSpace]⟩
  | array items trailing => exact ⟨'[', _, by rw [text], by simp [doc, isSpace]⟩
  | emptyObject inside => exact ⟨'{', _, by rw [text], by simp [doc, isSpace]⟩
  | object members trailing => exact ⟨'{', _, by rw [text], by simp [doc, isSpace]⟩

theorem Written.string?_doc {w : Written} (h : ¬ ∃ letters, w = .scalar (.string letters)) :
    w.doc.string? = none := by
  cases w with
  | scalar t =>
    cases t with
    | string letters => exact absurd ⟨letters, rfl⟩ h
    | null | bool _ | number _ => rfl
  | emptyArray _ | array _ _ | emptyObject _ | object _ _ => rfl

theorem Written.doc_ne_null {w : Written} (h : w ≠ .scalar .null) : w.doc ≠ .null := by
  cases w with
  | scalar t =>
    cases t with
    | null => exact absurd rfl h
    | string _ | bool _ | number _ => exact nofun
  | emptyArray _ | array _ _ | emptyObject _ | object _ _ => exact nofun

/-- The values of all members are as asked for. -/
def Members.All (fits : Written → Prop) : Members → Prop
  | .last _ v _ => fits v
  | .more _ v _ rest => fits v ∧ rest.All fits

theorem Members.All.of_forall {fits : Written → Prop} (h : ∀ w, fits w) :
    ∀ m : Members, m.All fits
  | .last _ v _ => h v
  | .more _ v _ rest => ⟨h v, of_forall h rest⟩

namespace Reader

variable {α : Type} {s : Style} {ws rest : List Char}

/-! ## Strings -/

theorem skipSpace_text (hws : ∀ c ∈ ws, isSpace c = true) (w : Written) (rest : List Char) :
    skipSpace (ws ++ (w.text s ++ rest)) = w.text s ++ rest := by
  obtain ⟨c, cs, hc, hspace, -⟩ := w.first_of_kind s
  rw [skipSpace_append hws, hc]
  exact skipSpace_cons hspace _

/-- A string is read, and nothing else. -/
theorem toOption_string (hws : ∀ c ∈ ws, isSpace c = true) (w : Written) (rest : List Char) :
    (string (ws ++ (w.text s ++ rest))).toOption = w.doc.string?.map (·, rest) := by
  obtain ⟨c, cs, hc, -, hquote, -⟩ := w.first_of_kind s
  rw [string, skipSpace_text hws]
  by_cases h : c = '"'
  · obtain ⟨letters, rfl⟩ := hquote.1 h
    have htext : (Written.scalar (.string letters)).text s ++ rest =
        '"' :: (lettersText letters ++ '"' :: rest) := by
      simp [Written.text, Scalar.text]
    rw [htext]
    simp only [stringTail_letters]
    rfl
  · rw [Written.string?_doc fun hw => h (hquote.2 hw), hc]
    split
    · rename_i heq
      exact absurd (List.cons.inj heq).1 h
    · rfl

/-! ## Objects, member by member -/

section

variable {σ β : Type} (outcome : σ → List (String × Json) → Option β) (valid : σ → Prop)

/-- What was read of a member leads from one state to another that comes to the same. -/
def Advances (p : σ) (m : String × Json) (rest : List Char)
    (r : Except Fault (σ × List Char)) : Prop :=
  ∃ q : Option σ, r.toOption = q.map (·, rest) ∧ (∀ p' ∈ q, valid p') ∧
    ∀ ms, outcome p (m :: ms) = q.bind (outcome · ms)

/-- A reader of members, and what is made of the state behind the last, keep to an outcome. -/
structure KeepsTo (fits : Written → Prop)
    (member : String → σ → List Char → Except Fault (σ × List Char))
    (finish : σ × List Char → Except Fault (β × List Char)) : Prop where
  member : ∀ {s : Style}, s.IsBare → ∀ {p : σ}, valid p → ∀ (key : Key) {w : Written}, fits w →
    ∀ {rest : List Char}, Ends rest → Advances outcome valid p (key.string, w.doc) rest
      (member key.string p (s.gap key.behind ++ ':' :: (s.gap key.ahead ++ (w.text s ++ rest))))
  finish : ∀ p rest, (finish (p, rest)).toOption = (outcome p []).map (·, rest)

end

section

variable {σ β : Type} {outcome : σ → List (String × Json) → Option β} {valid : σ → Prop}
  {fits : Written → Prop} {member : String → σ → List Char → Except Fault (σ × List Char)}
  {finish : σ × List Char → Except Fault (β × List Char)}

/-- A member that is not read must come to nothing. -/
theorem Advances.of_refused {p : σ} {m : String × Json} {r : Except Fault (σ × List Char)}
    (hr : r.toOption = none) (h : ∀ ms, outcome p (m :: ms) = none) :
    Advances outcome valid p m rest r := ⟨none, hr, nofun, h⟩

theorem KeepsTo.close (h : KeepsTo outcome valid fits member finish) {first : Bool}
    (hws : ∀ c ∈ ws, isSpace c = true) (fuel : Nat) (p : σ) (rest : List Char) :
    (members member (fuel + 1) first p (ws ++ '}' :: rest) >>= finish).toOption =
      (outcome p []).map (·, '}' :: rest) := by
  rw [members_close (nextMember_close first hws rest)]
  exact h.finish p _

/-- One more member. -/
theorem KeepsTo.next (h : KeepsTo outcome valid fits member finish) (hs : s.IsBare) {first : Bool}
    {lead : List Char} (hlead : Leads first lead) (key : Key) {w : Written} (hw : fits w) {p : σ}
    (hp : valid p) (hends : Ends rest) (fuel : Nat) {ms : List (String × Json)} {a : List Char}
    (hrest : ∀ p', valid p' →
      (members member fuel false p' rest >>= finish).toOption = (outcome p' ms).map (·, a)) :
    (members member (fuel + 1) first p (lead ++ (key.text s ++ (w.text s ++ rest))) >>=
      finish).toOption = (outcome p ((key.string, w.doc) :: ms)).map (·, a) := by
  obtain ⟨q, hread, hvalid, houtcome⟩ := h.member hs hp key hw hends
  rw [members_key hs hlead, toOption_bind, toOption_bind, hread, houtcome]
  cases q with
  | none => rfl
  | some p' =>
    have hp' := hrest p' (hvalid p' rfl)
    rw [toOption_bind] at hp'
    exact hp'

/-- The members of an object come to their outcome. -/
theorem KeepsTo.members (h : KeepsTo outcome valid fits member finish) (hs : s.IsBare)
    (hws : ∀ c ∈ ws, isSpace c = true) (rest : List Char) : ∀ (m : Members) {fuel : Nat}
    {first : Bool} {lead : List Char} (_ : Leads first lead) {p : σ} (_ : valid p)
    (_ : m.length < fuel) (_ : m.All fits),
    (Reader.members member fuel first p (lead ++ (m.text s ++ (ws ++ '}' :: rest))) >>=
      finish).toOption = (outcome p m.docs).map (·, '}' :: rest)
  | .last key v behind, fuel, first, lead, hlead, p, hp, hfuel, hfit => by
    rw [Members.length] at hfuel
    obtain ⟨fuel, rfl⟩ : ∃ n, fuel = n + 2 := ⟨fuel - 2, by omega⟩
    have hbehind := spaces_append (hs.gap behind) hws
    have htext : (Members.last key v behind).text s ++ (ws ++ '}' :: rest) =
        key.text s ++ (v.text s ++ (s.gap behind ++ ws ++ '}' :: rest)) := by
      simp [Members.text]
    rw [htext, Members.docs]
    apply h.next hs hlead key hfit hp (ends_of_closing hbehind (Or.inr (Or.inr rfl)) rest)
    intro p' _
    exact h.close hbehind fuel p' rest
  | .more key v behind more, fuel, first, lead, hlead, p, hp, hfuel, hfit => by
    rw [Members.length] at hfuel
    obtain ⟨fuel, rfl⟩ : ∃ n, fuel = n + 1 := ⟨fuel - 1, by omega⟩
    have htext : (Members.more key v behind more).text s ++ (ws ++ '}' :: rest) =
        key.text s ++ (v.text s ++
          (s.gap behind ++ ',' :: (more.text s ++ (ws ++ '}' :: rest)))) := by
      simp [Members.text]
    rw [htext, Members.docs]
    apply h.next hs hlead key hfit.1 hp (ends_of_closing (hs.gap behind) (Or.inl rfl) _)
    intro p' hp'
    have hmore := h.members hs hws rest more (Leads.next _ (hs.gap behind)) hp'
      (Nat.lt_of_succ_lt_succ hfuel) hfit.2
    rwa [List.append_assoc, List.singleton_append] at hmore

end

/-! ## Names of variants -/

/-- The contents of a variant are read from a text as they are from a document. -/
def Variant.Understood (v : Variant α) : Prop :=
  ∀ {s : Style}, s.IsBare → ∀ {ws rest : List Char}, (∀ c ∈ ws, isSpace c = true) → Ends rest →
    ∀ (w : Written) (depth : Nat), (v.read (depth + 1) (ws ++ (w.text s ++ rest))).toOption =
      (v.ofJson w.doc).toOption.map (·, rest)

namespace Tagged

variable {t : Tagged α}

/-- The variant that a value names. -/
def named? (t : Tagged α) : Json → Option (Variant α)
  | .string s => t.variants.find? (·.name == s)
  | .object [(s, .null)] => t.variants.find? (·.name == s)
  | _ => none

theorem named?_of_ne_null {j : Json} (h : j ≠ .null) (key : String) :
    t.named? (.object [(key, j)]) = none := by
  unfold named?
  split
  · contradiction
  · rename_i heq
    simp only [object.injEq, List.cons.injEq, Prod.mk.injEq] at heq
    exact absurd heq.1.2 h
  · rfl

theorem named?_of_two (m m' : String × Json) (ms : List (String × Json)) :
    t.named? (.object (m :: m' :: ms)) = none := by
  unfold named?
  split
  · contradiction
  · rename_i heq
    simp only [object.injEq, List.cons.injEq, reduceCtorEq, and_false] at heq
  · rfl

theorem mem_of_named? {j : Json} {v : Variant α} (h : t.named? j = some v) : v ∈ t.variants := by
  unfold named? at h
  split at h
  · exact List.mem_of_find?_eq_some h
  · exact List.mem_of_find?_eq_some h
  · cases h

theorem toOption_variantName (hws : ∀ c ∈ ws, isSpace c = true) (letters : List Letter)
    (rest : List Char) :
    (t.variantName (ws ++ '"' :: (lettersText letters ++ '"' :: rest))).toOption =
      (t.variants.find? (·.name == lettersString letters)).map (·, rest) := by
  have hread : stringTail [] (lettersText letters ++ '"' :: rest) =
      .ok (lettersString letters, rest) := stringTail_letters letters [] rest
  rw [variantName, skipSpace_append hws, skipSpace_cons rfl]
  simp only [hread, bind, Except.bind]
  cases t.variants.find? (·.name == lettersString letters) <;> rfl

/-- The end of an object that names a variant. -/
def variantEnd (v : Variant α) (cs : List Char) : Except Fault (Variant α × List Char) := do
  let r ← match skipSpace (← colon cs) with
    | 'n' :: r => word ['u', 'l', 'l'] r
    | r => .error (wrongShape "unit" r)
  match skipSpace r with
  | [] => .error (.here .endInObject [])
  | '}' :: r => .ok (v, r)
  | r => .error (.here .expectedValue r)

theorem variant_object (t : Tagged α) (depth : Nat) (cs : List Char) :
    t.variant (depth + 1) ('{' :: cs) = t.variantName cs >>= fun (v, r) => variantEnd v r := by
  rw [variant, skipSpace_cons rfl]
  rfl

theorem toOption_variantEnd_null (v : Variant α) {ws' ws'' : List Char}
    (hws : ∀ c ∈ ws, isSpace c = true) (hws' : ∀ c ∈ ws', isSpace c = true)
    (hws'' : ∀ c ∈ ws'', isSpace c = true) {c : Char} (hc : isSpace c = false) (rest : List Char) :
    (variantEnd v (ws ++ ':' ::
      (ws' ++ ((Written.scalar .null).text s ++ (ws'' ++ c :: rest))))).toOption =
      if c = '}' then some (v, rest) else none := by
  have hnull : (Written.scalar .null).text s ++ (ws'' ++ c :: rest) =
      'n' :: 'u' :: 'l' :: 'l' :: (ws'' ++ c :: rest) := by
    simp [Written.text, Scalar.text]
  have hword : word ['u', 'l', 'l'] ('u' :: 'l' :: 'l' :: (ws'' ++ c :: rest)) =
      .ok (ws'' ++ c :: rest) := by
    simp [word]
  rw [variantEnd, colon_text hws]
  simp only [bind, Except.bind]
  rw [skipSpace_text hws', hnull]
  simp only [hword]
  rw [skipSpace_append hws'', skipSpace_cons hc]
  by_cases h : c = '}'
  · subst h
    rfl
  · rw [if_neg h]
    split
    · contradiction
    · rename_i heq
      exact absurd (List.cons.inj heq).1 h
    · rfl

theorem toOption_variantEnd_other (v : Variant α) {ws' : List Char}
    (hws : ∀ c ∈ ws, isSpace c = true) (hws' : ∀ c ∈ ws', isSpace c = true) {w : Written}
    (hw : w ≠ .scalar .null) (rest : List Char) :
    (variantEnd v (ws ++ ':' :: (ws' ++ (w.text s ++ rest)))).toOption = none := by
  obtain ⟨c, cs, hc, -, -, hnull, -⟩ := w.first_of_kind s
  rw [variantEnd, colon_text hws]
  simp only [bind, Except.bind]
  rw [skipSpace_text hws', hc]
  have hn : c ≠ 'n' := fun h => hw (hnull.1 h)
  split
  · rename_i heq
    exact absurd (List.cons.inj heq).1 hn
  · rfl

theorem toOption_variant_other {c : Char} (hspace : isSpace c = false) (hquote : c ≠ '"')
    (hbrace : c ≠ '{') (depth : Nat) (cs : List Char) :
    (t.variant depth (c :: cs)).toOption = none := by
  rw [variant, skipSpace_cons hspace]
  split
  · contradiction
  · rename_i heq
    exact absurd (List.cons.inj heq).1 hquote
  · rename_i heq
    exact absurd (List.cons.inj heq).1 hbrace
  · rfl

/-- An object names a variant by its only key. -/
theorem toOption_variant_object (hs : s.IsBare) (ms : Members) (hws : ∀ c ∈ ws, isSpace c = true)
    (depth : Nat) (rest : List Char) :
    (t.variant (depth + 1) ('{' :: (ms.text s ++ (ws ++ '}' :: rest)))).toOption =
      (t.named? (.object ms.docs)).map (·, rest) := by
  rw [variant_object, toOption_bind]
  cases ms with
  | last key v behind =>
    have htext : (Members.last key v behind).text s ++ (ws ++ '}' :: rest) =
        s.gap key.before ++ '"' :: (lettersText key.letters ++ '"' :: (s.gap key.behind ++ ':' ::
          (s.gap key.ahead ++ (v.text s ++ (s.gap behind ++ ws ++ '}' :: rest))))) := by
      simp [Members.text, Key.text]
    rw [htext, toOption_variantName (hs.gap key.before), Option.bind_map, Members.docs]
    by_cases hv : v = .scalar .null
    · subst hv
      have hname : t.named? (.object [(key.string, (Written.scalar .null).doc)]) =
          t.variants.find? (·.name == key.string) := rfl
      rw [hname, Key.string]
      cases t.variants.find? (·.name == lettersString key.letters) with
      | none => rfl
      | some variant =>
        exact (toOption_variantEnd_null variant (hs.gap key.behind) (hs.gap key.ahead)
          (spaces_append (hs.gap behind) hws) rfl rest).trans (if_pos rfl)
    · have hname : t.named? (.object [(key.string, v.doc)]) = none :=
        named?_of_ne_null (Written.doc_ne_null hv) _
      rw [hname]
      cases t.variants.find? (·.name == lettersString key.letters) with
      | none => rfl
      | some variant =>
        exact toOption_variantEnd_other variant (hs.gap key.behind) (hs.gap key.ahead) hv _
  | more key v behind more =>
    have htext : (Members.more key v behind more).text s ++ (ws ++ '}' :: rest) =
        s.gap key.before ++ '"' :: (lettersText key.letters ++ '"' :: (s.gap key.behind ++ ':' ::
          (s.gap key.ahead ++ (v.text s ++ (s.gap behind ++ ',' ::
            (more.text s ++ (ws ++ '}' :: rest))))))) := by
      simp [Members.text, Key.text]
    have hname : t.named? (.object (Members.more key v behind more).docs) = none := by
      obtain ⟨m, ms, hmore⟩ : ∃ m ms, more.docs = m :: ms := by
        cases more with
        | last key v behind => exact ⟨_, _, by rw [Members.docs]⟩
        | more key v behind more => exact ⟨_, _, by rw [Members.docs]⟩
      rw [Members.docs, hmore]
      exact named?_of_two _ _ _
    rw [htext, toOption_variantName (hs.gap key.before), Option.bind_map, hname]
    cases t.variants.find? (·.name == lettersString key.letters) with
    | none => rfl
    | some variant =>
      by_cases hv : v = .scalar .null
      · subst hv
        exact (toOption_variantEnd_null variant (hs.gap key.behind) (hs.gap key.ahead)
          (hs.gap behind) rfl _).trans (if_neg (by decide))
      · exact toOption_variantEnd_other variant (hs.gap key.behind) (hs.gap key.ahead) hv _

/-- The name of a variant is read: a string, or an object that gives it the value `null`. -/
theorem toOption_variant (hs : s.IsBare) (hws : ∀ c ∈ ws, isSpace c = true) (w : Written)
    (depth : Nat) (rest : List Char) :
    (t.variant (depth + 1) (ws ++ (w.text s ++ rest))).toOption =
      (t.named? w.doc).map (·, rest) := by
  have hnone : ∀ c ∈ ([] : List Char), isSpace c = true := fun _ h => absurd h List.not_mem_nil
  have hspace : t.variant (depth + 1) (ws ++ (w.text s ++ rest)) =
      t.variant (depth + 1) (w.text s ++ rest) := by
    have hskip : skipSpace (w.text s ++ rest) = w.text s ++ rest := skipSpace_text hnone w rest
    rw [variant, variant, skipSpace_text hws, hskip]
  have hscalar : ∀ r : Scalar, (∀ letters, r ≠ .string letters) →
      (t.variant (depth + 1) ((Written.scalar r).text s ++ rest)).toOption = none := by
    intro r hr
    obtain ⟨c, cs, hc, hspace, hquote, -, hbrace⟩ := Written.first_of_kind s (.scalar r)
    rw [hc]
    refine toOption_variant_other hspace ?_ ?_ _ _
    · intro h
      obtain ⟨letters, hletters⟩ := hquote.1 h
      exact hr letters (Written.scalar.inj hletters)
    · intro h
      obtain ⟨ms, hms⟩ := hbrace.1 h
      cases r <;> simp [Written.doc, Scalar.doc] at hms
  rw [hspace]
  cases w with
  | scalar r =>
    cases r with
    | string letters =>
      have htext : (Written.scalar (.string letters)).text s ++ rest =
          '"' :: (lettersText letters ++ '"' :: rest) := by
        simp [Written.text, Scalar.text]
      rw [htext, variant, skipSpace_cons rfl]
      exact toOption_variantName hnone letters rest
    | null | bool b | number n => exact hscalar _ fun _ h => by cases h
  | emptyArray inside | array items trailing =>
    rw [Written.text, List.cons_append]
    exact toOption_variant_other rfl (by decide) (by decide) _ _
  | emptyObject inside =>
    rw [Written.text, List.cons_append, List.append_assoc, variant_object, variantName,
      skipSpace_append (hs.gap inside)]
    rfl
  | object ms trailing =>
    rw [Written.text, List.cons_append, List.append_assoc, List.append_assoc]
    exact toOption_variant_object hs ms (hs.trailing trailing) depth rest

/-! ## What the members come to -/

/-- What comes of the members that are left to read. -/
def outcome (t : Tagged α) (p : Progress α) (ms : List (String × Json)) : Option α :=
  match p, values "event" ms, values "data" ms with
  | .nothing, [e], [d] => (t.named? e).bind fun v => (v.ofJson d).toOption
  | .contents d, [e], [] => (t.named? e).bind fun v => (v.ofJson d).toOption
  | .named v, [], [d] => (v.ofJson d).toOption
  | .whole a, [], [] => some a
  | _, _, _ => none

section

variable (p : Progress α) (ms : List (String × Json)) (j j' : Json) (v : Variant α) (a : α)

theorem outcome_nil : t.outcome p [] = (match p with
    | .whole a => some a
    | _ => none) := by
  cases p <;> rfl

theorem outcome_other {key : String} (hevent : key ≠ "event") (hdata : key ≠ "data") :
    t.outcome p ((key, j) :: ms) = t.outcome p ms := by
  unfold outcome
  rw [values_cons_of_ne hevent, values_cons_of_ne hdata]

theorem outcome_event (ms : List (String × Json)) : t.outcome p (("event", j) :: ms) = (match p with
    | .nothing => (t.named? j).bind fun v => t.outcome (.named v) ms
    | .contents d => (t.named? j).bind fun v =>
        (v.ofJson d).toOption.bind fun a => t.outcome (.whole a) ms
    | .named _ | .whole _ => none) := by
  have hdata : values "data" (("event", j) :: ms) = values "data" ms :=
    values_cons_of_ne (by decide) j ms
  unfold outcome
  rw [values_cons_self, hdata]
  cases p <;> rcases values "event" ms with _ | ⟨e, es⟩ <;>
    rcases values "data" ms with _ | ⟨d, _ | ⟨d', ds⟩⟩ <;> simp

theorem outcome_data : t.outcome p (("data", j) :: ms) = (match p with
    | .nothing => t.outcome (.contents j) ms
    | .named v => (v.ofJson j).toOption.bind fun a => t.outcome (.whole a) ms
    | .contents _ | .whole _ => none) := by
  have hevent : values "event" (("data", j) :: ms) = values "event" ms :=
    values_cons_of_ne (by decide) j ms
  unfold outcome
  rw [values_cons_self, hevent]
  cases p <;> rcases values "event" ms with _ | ⟨e, _ | ⟨e', es⟩⟩ <;>
    rcases values "data" ms with _ | ⟨d, ds⟩ <;> simp

/-- Contents that no variant takes come to nothing. -/
theorem outcome_of_refused (h : ∀ v ∈ t.variants, (v.ofJson j).toOption = none) :
    t.outcome (.contents j) ms = none := by
  unfold outcome
  rcases values "event" ms with _ | ⟨e, _ | ⟨e', es⟩⟩ <;> rcases values "data" ms with _ | ⟨d, ds⟩
  case cons.nil.nil =>
    cases hv : t.named? e with
    | none => simp only [hv, Option.bind_none]
    | some v => simpa only [hv, Option.bind_some] using h v (mem_of_named? hv)
  all_goals rfl

end

/-! ## Reading the members -/

/-- The contents of all variants are read from a text as they are from a document. -/
def Understood (t : Tagged α) : Prop := ∀ v ∈ t.variants, v.Understood

/-- The contents of all variants are strings. -/
def OfStrings (t : Tagged α) : Prop :=
  ∀ v ∈ t.variants, ∀ j, j.string? = none → (v.ofJson j).toOption = none

/-- A variant that was named is one of the type. -/
def Known (t : Tagged α) (p : Progress α) : Prop :=
  ∀ v, p = .named v → v ∈ t.variants

variable {key : Key} {w : Written} {p : Progress α}

theorem advances_other (hs : s.IsBare) (hevent : key.string ≠ "event")
    (hdata : key.string ≠ "data") (hp : t.Known p) (depth : Nat) (h : Ends rest) :
    Advances t.outcome t.Known p (key.string, w.doc) rest (t.member depth key.string p
      (s.gap key.behind ++ ':' :: (s.gap key.ahead ++ (w.text s ++ rest)))) := by
  have hskip := skipValue_text hs (hs.gap key.ahead) w h
  have hread : t.member depth key.string p
      (s.gap key.behind ++ ':' :: (s.gap key.ahead ++ (w.text s ++ rest))) = .ok (p, rest) := by
    unfold member
    split
    all_goals try contradiction
    rw [colon_text (hs.gap key.behind)]
    simp only [bind, Except.bind, hskip]
  refine ⟨some p, ?_, ?_, ?_⟩
  · rw [hread]
    rfl
  · rintro p' ⟨⟩
    exact hp
  · intro ms
    exact outcome_other p ms w.doc hevent hdata

theorem advances_event (hs : s.IsBare) (hkey : key.string = "event") (p : Progress α)
    (depth : Nat) (rest : List Char) :
    Advances t.outcome t.Known p (key.string, w.doc) rest (t.member (depth + 1) key.string p
      (s.gap key.behind ++ ':' :: (s.gap key.ahead ++ (w.text s ++ rest)))) := by
  have hvariant := toOption_variant (t := t) hs (hs.gap key.ahead) w depth rest
  rw [hkey]
  cases p with
  | nothing =>
    refine ⟨(t.named? w.doc).map .named, ?_, ?_, ?_⟩
    · simp only [member]
      rw [colon_text (hs.gap key.behind), toOption_bind]
      refine (toOption_bind _ _).trans ?_
      rw [hvariant]
      cases t.named? w.doc <;> rfl
    · intro p' hp' v hv
      obtain ⟨v', hv', rfl⟩ := Option.map_eq_some_iff.1 hp'
      cases hv
      exact mem_of_named? hv'
    · intro ms
      rw [outcome_event, Option.bind_map]
      rfl
  | contents j =>
    refine ⟨(t.named? w.doc).bind fun v => (v.ofJson j).toOption.map .whole, ?_, ?_, ?_⟩
    · simp only [member]
      rw [colon_text (hs.gap key.behind), toOption_bind]
      refine (toOption_bind _ _).trans ?_
      rw [hvariant]
      cases t.named? w.doc with
      | none => rfl
      | some v =>
        simp only [Option.map_some, Option.bind_some]
        cases v.ofJson j <;> rfl
    · intro p' hp' v hv
      obtain ⟨v', -, hv'⟩ := Option.bind_eq_some_iff.1 hp'
      obtain ⟨a, -, rfl⟩ := Option.map_eq_some_iff.1 hv'
      cases hv
    · intro ms
      rw [outcome_event]
      cases t.named? w.doc with
      | none => rfl
      | some v =>
        simp only [Option.bind_some, Option.bind_map]
        rfl
  | named v => exact .of_refused rfl fun ms => outcome_event _ _ ms
  | whole a => exact .of_refused rfl fun ms => outcome_event _ _ ms

/-- Contents in front of the name are kept if they can be held. If they cannot, no variant takes
them: all of them take strings, which fit. -/
theorem advances_contents (hs : s.IsBare) {depth : Nat}
    (hfit : t.OfStrings ∨ w.depth ≤ depth + 1 ∧ w.inRange = true) (h : Ends rest) :
    Advances t.outcome t.Known .nothing ("data", w.doc) rest (t.member (depth + 1) "data" .nothing
      (s.gap key.behind ++ ':' :: (s.gap key.ahead ++ (w.text s ++ rest)))) := by
  have hread : (t.member (depth + 1) "data" .nothing
      (s.gap key.behind ++ ':' :: (s.gap key.ahead ++ (w.text s ++ rest)))).toOption =
      if w.depth ≤ depth + 1 ∧ w.inRange = true then some (.contents w.doc, rest) else none := by
    simp only [member]
    rw [colon_text (hs.gap key.behind), toOption_bind]
    refine (toOption_bind _ _).trans ?_
    rw [value_append _ (hs.gap key.ahead), toOption_value hs w h]
    split <;> rfl
  by_cases hheld : w.depth ≤ depth + 1 ∧ w.inRange = true
  · refine ⟨some (.contents w.doc), ?_, ?_, ?_⟩
    · rw [hread, if_pos hheld]
      rfl
    · rintro p' ⟨⟩ v ⟨⟩
    · intro ms
      exact outcome_data _ _ _
  · have hstrings := hfit.resolve_right hheld
    have hstring : w.doc.string? = none := by
      apply Written.string?_doc
      rintro ⟨letters, rfl⟩
      exact hheld ⟨Nat.zero_le _, rfl⟩
    apply Advances.of_refused
    · rw [hread, if_neg hheld]
    · intro ms
      rw [outcome_data]
      exact outcome_of_refused ms w.doc fun v hv => hstrings v hv w.doc hstring

theorem advances_data (ht : t.Understood) (hs : s.IsBare) (hkey : key.string = "data")
    (hp : t.Known p) {depth : Nat}
    (hfit : t.OfStrings ∨ w.depth ≤ depth + 1 ∧ w.inRange = true) (h : Ends rest) :
    Advances t.outcome t.Known p (key.string, w.doc) rest (t.member (depth + 1) key.string p
      (s.gap key.behind ++ ':' :: (s.gap key.ahead ++ (w.text s ++ rest)))) := by
  rw [hkey]
  cases p with
  | nothing => exact advances_contents hs hfit h
  | named v =>
    refine ⟨(v.ofJson w.doc).toOption.map .whole, ?_, ?_, ?_⟩
    · simp only [member]
      rw [colon_text (hs.gap key.behind), toOption_bind]
      refine (toOption_bind _ _).trans ?_
      rw [ht v (hp v rfl) hs (hs.gap key.ahead) h w depth]
      cases v.ofJson w.doc <;> rfl
    · intro p' hp' v' hv'
      obtain ⟨a, -, rfl⟩ := Option.map_eq_some_iff.1 hp'
      cases hv'
    · intro ms
      rw [outcome_data, Option.bind_map]
      rfl
  | contents j => exact .of_refused rfl fun ms => outcome_data _ ms _
  | whole a => exact .of_refused rfl fun ms => outcome_data _ ms _

/-- The value can be held, if that matters. -/
def Fits (t : Tagged α) (depth : Nat) (w : Written) : Prop :=
  t.OfStrings ∨ w.depth ≤ depth ∧ w.inRange = true

theorem all_fits {depth : Nat} : ∀ {m : Members},
    (t.OfStrings ∨ m.depth ≤ depth ∧ m.inRange = true) → m.All (t.Fits depth)
  | .last _ v _, h => by
    rw [Members.depth, Members.inRange] at h
    exact h
  | .more _ v _ rest, h => by
    rw [Members.depth, Members.inRange, Nat.max_le, Bool.and_eq_true] at h
    exact ⟨h.imp_right fun h => ⟨h.1.1, h.2.1⟩, all_fits (h.imp_right fun h => ⟨h.1.2, h.2.2⟩)⟩

theorem keepsTo_outcome (ht : t.Understood) (depth : Nat) :
    KeepsTo t.outcome t.Known (t.Fits (depth + 1)) (t.member (depth + 1))
      fun (p, rest) => finish p rest where
  member := by
    intro s hs p hp key w hfit rest h
    by_cases hevent : key.string = "event"
    · exact advances_event hs hevent p depth rest
    · by_cases hdata : key.string = "data"
      · exact advances_data ht hs hdata hp hfit h
      · exact advances_other hs hevent hdata hp (depth + 1) h
  finish := by
    intro p rest
    rw [outcome_nil]
    cases p <;> rfl

/-- Which tagged value a page says that holds an object: its members have to name a variant once
and give its contents once. -/
theorem toOption_ofText (ht : t.Understood) (hs : s.IsBare) (page : Page)
    {ms : List (String × Json)} (hdoc : page.value.doc = .object ms)
    (hfit : t.OfStrings ∨ page.value.depth ≤ maxDepth ∧ page.value.inRange = true) :
    (t.ofText (String.ofList (page.text s))).toOption = t.outcome .nothing ms := by
  have hnothing : t.Known .nothing := nofun
  have hbehind := hs.gap page.behind
  rw [ofText, readAll, Page.text, String.toList_ofList, toOption_bind]
  -- what stands behind the opening brace, up to the brace that closes
  obtain ⟨inside, htext, hinside⟩ : ∃ inside,
      page.value.text s ++ s.gap page.behind = '{' :: inside ∧
      (t.inside (maxDepth - 1) inside).toOption =
        (t.outcome .nothing ms).map (·, '}' :: s.gap page.behind) := by
    cases hvalue : page.value with
    | emptyObject gap =>
      rw [hvalue, Written.doc] at hdoc
      obtain rfl := object.inj hdoc
      refine ⟨s.gap gap ++ '}' :: s.gap page.behind, by simp [Written.text], ?_⟩
      exact (keepsTo_outcome ht _).close (hs.gap gap) _ _ _
    | object members trailing =>
      rw [hvalue, Written.doc] at hdoc
      obtain rfl := object.inj hdoc
      rw [hvalue, Written.depth, Written.inRange] at hfit
      refine ⟨members.text s ++ (s.trailing trailing ++ '}' :: s.gap page.behind),
        by simp [Written.text], ?_⟩
      have hlength := members.length_le s
      apply (keepsTo_outcome ht _).members hs (hs.trailing trailing) _ members Leads.first hnothing
      · rw [List.length_append]
        omega
      · exact all_fits (hfit.imp_right fun h => ⟨Nat.le_of_succ_le_succ h.1, h.2⟩)
    | scalar r =>
      rw [hvalue, Written.doc] at hdoc
      cases r <;> simp [Scalar.doc] at hdoc
    | emptyArray _ | array _ _ =>
      rw [hvalue, Written.doc] at hdoc
      contradiction
  rw [read, skipSpace_text (hs.gap page.before), htext]
  simp only
  rw [toOption_inObject, hinside]
  cases t.outcome .nothing ms with
  | none => rfl
  | some a =>
    simp only [Option.map_some, Option.bind_some, closeObject_text, Except.toOption,
      atEnd_of_spaces hbehind]
    rfl

end Tagged

/-! ## Contents -/

theorem toOption_map {ε β : Type} (r : Except ε α) (f : α → β) :
    (r.map f).toOption = r.toOption.map f := by
  cases r <;> rfl

theorem stringVariant_understood (name : String) (make : String → α) :
    (stringVariant name make).Understood := by
  intro s _ ws rest hws _ w depth
  have hread := toOption_string (s := s) hws w rest
  simp only [stringVariant, toOption_map]
  rw [hread]
  cases w.doc <;> rfl

/-- Reads a member of a record with one field. -/
def soleMember (field key : String) (old : Option String) (cs : List Char) :
    Except Fault (Option String × List Char) :=
  if key == field then Reader.field key old string cs
  else do
    let rest ← skipValue (← colon cs)
    .ok (old, rest)

/-- The field of a record whose members are over. -/
def soleEnd (field : String) : Option String × List Char → Except Fault (String × List Char)
  | (some s, rest) => .ok (s, rest)
  | (none, rest) => .error (.meaning (Tagged.missing field) rest)

theorem soleField_eq (field : String) (cs : List Char) : soleField field cs =
    members (soleMember field) (cs.length + 1) true none cs >>= soleEnd field := by
  have hend : soleEnd field = fun p => (match p with
      | (some s, rest) => .ok (s, rest)
      | (none, rest) => .error (.meaning (Tagged.missing field) rest)) := by
    funext p
    obtain ⟨_ | s, rest⟩ := p <;> rfl
  rw [hend]
  rfl

theorem soleFieldOf_field (field : String) (old : Option String) (j : Json)
    (ms : List (String × Json)) : (soleFieldOf field old ((field, j) :: ms)).toOption =
      if old.isSome then none
      else j.string?.bind fun s => (soleFieldOf field (some s) ms).toOption := by
  cases old with
  | some s => simp [soleFieldOf, Except.toOption]
  | none => cases j <;> simp [soleFieldOf, Except.toOption, string?]

theorem soleFieldOf_other {field key : String} (h : key ≠ field) (old : Option String) (j : Json)
    (ms : List (String × Json)) :
    soleFieldOf field old ((key, j) :: ms) = soleFieldOf field old ms := by
  cases old <;> simp [soleFieldOf, h]

theorem keepsTo_soleFieldOf (field : String) :
    KeepsTo (fun old ms => (soleFieldOf field old ms).toOption) (fun _ => True) (fun _ => True)
      (soleMember field) (soleEnd field) where
  member := by
    intro s hs old _ key w _ rest h
    by_cases hkey : key.string = field
    · refine ⟨if old.isSome then none else w.doc.string?.map some, ?_, fun _ _ => trivial, ?_⟩
      · rw [soleMember, if_pos (by simpa using hkey), Reader.field]
        cases old with
        | some s => rfl
        | none =>
          have hread := toOption_string (s := s) (hs.gap key.ahead) w rest
          rw [colon_text (hs.gap key.behind)]
          refine (toOption_bind _ _).trans ((toOption_bind _ _).trans ?_)
          rw [hread]
          cases w.doc.string? <;> rfl
      · intro ms
        rw [hkey]
        refine (soleFieldOf_field field old w.doc ms).trans ?_
        cases old with
        | some s => rfl
        | none => cases w.doc.string? <;> rfl
    · refine ⟨some old, ?_, fun _ _ => trivial, ?_⟩
      · rw [soleMember, if_neg (by simpa using hkey), colon_text (hs.gap key.behind)]
        simp only [bind, Except.bind, skipValue_text hs (hs.gap key.ahead) w h]
        rfl
      · intro ms
        exact congrArg Except.toOption (soleFieldOf_other hkey old w.doc ms)
  finish := by
    rintro (_ | s) rest <;> rfl

/-- The text of a value that is no object is no record either. -/
theorem toOption_recordVariant_other {name expected field : String} {make : String → α}
    {c : Char} (hspace : isSpace c = false) (hbrace : c ≠ '{') (depth : Nat) (cs : List Char) :
    ((recordVariant name expected field make).read depth (c :: cs)).toOption = none := by
  simp only [recordVariant]
  rw [skipSpace_cons hspace]
  split
  · split <;> rfl
  · rename_i heq
    exact absurd (List.cons.inj heq).1 hbrace
  · rfl

/-- The text of an object is a record if its members are. -/
theorem toOption_recordVariant_object {name expected field : String} {make : String → α}
    {ms : List (String × Json)} {inside rest : List Char}
    (hread : (soleField field inside).toOption =
      (soleFieldOf field none ms).toOption.map (·, '}' :: rest)) (depth : Nat) :
    ((recordVariant name expected field make).read (depth + 1) ('{' :: inside)).toOption =
      ((recordVariant name expected field make).ofJson (.object ms)).toOption.map (·, rest) := by
  simp only [recordVariant]
  rw [skipSpace_cons rfl]
  simp only
  rw [if_neg (by simp), toOption_map, toOption_map, toOption_inObject, hread]
  cases (soleFieldOf field none ms).toOption with
  | none => rfl
  | some s =>
    simp only [Option.map_some, Option.bind_some, closeObject_text]
    rfl

theorem recordVariant_understood (name expected field : String) (make : String → α) :
    (recordVariant name expected field make).Understood := by
  intro s hs ws rest hws _ w depth
  obtain ⟨c, cs, hc, hspace, -, -, hbrace⟩ := w.first_of_kind s
  have hskip : (recordVariant name expected field make).read (depth + 1)
      (ws ++ (w.text s ++ rest)) =
      (recordVariant name expected field make).read (depth + 1) (w.text s ++ rest) := by
    simp only [recordVariant]
    rw [skipSpace_text hws, hc, List.cons_append, skipSpace_cons hspace]
  rw [hskip]
  cases w with
  | emptyObject gap =>
    rw [Written.text, List.cons_append, List.append_assoc, Written.doc]
    apply toOption_recordVariant_object
    rw [soleField_eq]
    exact (keepsTo_soleFieldOf field).close (hs.gap gap) _ _ _
  | object m trailing =>
    rw [Written.text, List.cons_append, List.append_assoc, List.append_assoc, Written.doc]
    apply toOption_recordVariant_object
    have hlength := m.length_le s
    rw [soleField_eq]
    apply (keepsTo_soleFieldOf field).members hs (hs.trailing trailing) rest m Leads.first trivial
    · rw [List.length_append]
      omega
    · exact Members.All.of_forall (fun _ => trivial) m
  | emptyArray gap | array items trailing =>
    rw [hc, List.cons_append, toOption_recordVariant_other hspace]
    · rfl
    · intro h
      obtain ⟨ms, hms⟩ := hbrace.1 h
      cases hms
  | scalar r =>
    have hdoc : ∀ ms, (Written.scalar r).doc ≠ .object ms := by
      intro ms
      cases r <;> exact nofun
    have hjson : ((recordVariant name expected field make).ofJson
        (Written.scalar r).doc).toOption = none := by
      cases r <;> rfl
    rw [hc, List.cons_append, hjson, toOption_recordVariant_other hspace]
    · rfl
    · intro h
      obtain ⟨ms, hms⟩ := hbrace.1 h
      exact hdoc ms hms

end Reader
end ClassAtlas.Json
