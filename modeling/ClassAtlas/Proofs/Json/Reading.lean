import ClassAtlas.Proofs.Json.Written
import Mathlib.Data.List.TakeDrop
import Mathlib.Data.List.TakeWhile

/-!
# Reading what is written

The reader finds in a text the value that is written there, however it is written
(`value_text`): white space between the tokens, escapes in strings and the spelling of numbers make
no difference. A value is read unless it nests too deeply or has a number that cannot be held.

Where the text ends matters to a number alone, which takes all characters that may belong to it;
`Ends` says that none follows.
-/
namespace ClassAtlas.Json.Reader

/-! ## White space -/

theorem skipSpace_append {ws : List Char} (h : ∀ c ∈ ws, isSpace c = true) (cs : List Char) :
    skipSpace (ws ++ cs) = skipSpace cs := by
  induction ws with
  | nil => rfl
  | cons c ws ih =>
    rw [List.cons_append, skipSpace, if_pos (h c List.mem_cons_self),
      ih fun c hc => h c (List.mem_cons_of_mem _ hc)]

theorem skipSpace_cons {c : Char} (h : isSpace c = false) (cs : List Char) :
    skipSpace (c :: cs) = c :: cs := by
  rw [skipSpace, if_neg (by simp [h])]

theorem isSpace_of_begins {c : Char} (h : Begins c) : isSpace c = false := by
  rw [Bool.eq_false_iff]
  intro hc
  exact absurd (isBlank_of_isSpace hc) (by simp [h.1])

/-! ## Results without places -/

/-- What a reader gives, without the place of a fault. -/
def verdict {α : Type} (r : Except Fault α) : Except Code α := r.mapError (·.code)

section

variable {α β : Type}

@[simp] theorem verdict_ok (a : α) : verdict (.ok a) = .ok a := rfl

@[simp] theorem verdict_error (f : Fault) :
    verdict (.error f : Except Fault α) = .error f.code := rfl

theorem eq_ok_of_verdict {r : Except Fault α} {a : α} (h : verdict r = .ok a) : r = .ok a := by
  cases r with
  | ok b =>
    cases h
    rfl
  | error f => cases h

theorem verdict_bind (r : Except Fault α) (f : α → Except Fault β) :
    verdict (r >>= f) = verdict r >>= fun a => verdict (f a) := by
  cases r <;> rfl

theorem toOption_bind (r : Except Fault α) (f : α → Except Fault β) :
    (r >>= f).toOption = r.toOption.bind fun a => (f a).toOption := by
  cases r <;> rfl

theorem toOption_of_verdict {r : Except Fault α} {b : Bool} {a : α}
    (h : verdict r = ifInRange b a) : r.toOption = if b then some a else none := by
  cases r <;> cases b <;> simp_all [ifInRange, Except.toOption]

theorem ifInRange_bind {b b' : Bool} {a : α} {c : β} {f : α → Except Code β}
    (h : f a = ifInRange b' c) : (ifInRange b a >>= f) = ifInRange (b && b') c := by
  cases b with
  | false => rfl
  | true => exact h

theorem ifInRange_bind_ok {b : Bool} {a : α} {c : β} {f : α → Except Code β} (h : f a = .ok c) :
    (ifInRange b a >>= f) = ifInRange b c := by
  cases b with
  | false => rfl
  | true => exact h

end

/-! ## Numbers -/

/-- No character follows that could belong to a number. -/
def Ends (rest : List Char) : Prop :=
  ∀ c, rest.head? = some c → c.isDigit = false ∧ c ≠ '.' ∧ c ≠ 'e' ∧ c ≠ 'E'

theorem digits_append {ds rest : List Char} (hds : ∀ c ∈ ds, c.isDigit = true)
    (hrest : ∀ c, rest.head? = some c → c.isDigit = false) : digits (ds ++ rest) = (ds, rest) := by
  have hstop : rest.takeWhile Char.isDigit = [] ∧ rest.dropWhile Char.isDigit = rest := by
    cases rest with
    | nil => exact ⟨rfl, rfl⟩
    | cons c cs => simp [hrest c rfl]
  unfold digits
  rw [List.span_eq_takeWhile_dropWhile, List.takeWhile_append_of_pos hds,
    List.dropWhile_append_of_pos hds, hstop.1, hstop.2, List.append_nil]

theorem digits_text (ds : Digits) {rest : List Char} (h : Ends rest) :
    digits (ds.text ++ rest) = (ds.text, rest) :=
  digits_append ds.digits fun c hc => (h c hc).1

theorem ne_of_isDigit {c d : Char} (hd : d.isDigit = true) (hc : c.isDigit = false) : d ≠ c := by
  rintro rfl
  simp [hd] at hc

section

variable {kept : Bool}

theorem exponentPart_text (e : Exponent) {rest : List Char} (h : Ends rest) :
    exponentPart kept (e.sign ++ (e.digits.text ++ rest)) =
      .ok (e.sign ++ e.digits.text, rest) := by
  have hread := digits_text e.digits h
  obtain ⟨d, cs, hd, hdigit⟩ := e.digits.exists_first
  have hplus : d ≠ '+' := ne_of_isDigit hdigit rfl
  have hminus : d ≠ '-' := ne_of_isDigit hdigit rfl
  rw [hd] at hread ⊢
  unfold exponentPart
  rcases e.sign_eq with hs | hs | hs <;> simp_all

/-- The exponent of a number is no part of the digits before it. -/
theorem head_exponentText (n : Numeral) {rest : List Char} (h : Ends rest) (c : Char)
    (hc : (n.exponentText ++ rest).head? = some c) : c.isDigit = false ∧ c ≠ '.' := by
  unfold Numeral.exponentText at hc
  split at hc
  · exact ⟨(h c hc).1, (h c hc).2.1⟩
  · rename_i e _
    have hmarker : e.marker = c := by simpa [Exponent.text] using hc
    rcases e.marker_eq with he | he <;> rw [← hmarker, he] <;> decide

theorem head_fractionText (n : Numeral) {rest : List Char} (h : Ends rest) (c : Char)
    (hc : (n.fractionText ++ (n.exponentText ++ rest)).head? = some c) : c.isDigit = false := by
  unfold Numeral.fractionText at hc
  split at hc
  · exact (head_exponentText n h c hc).1
  · have hpoint : '.' = c := by simpa using hc
    rw [← hpoint]
    rfl

/-- A fraction is read before what stands behind it. -/
theorem numberTail_point (ds : Digits) {rest : List Char}
    (h : ∀ c, rest.head? = some c → c.isDigit = false ∧ c ≠ '.') :
    numberTail kept ('.' :: (ds.text ++ rest)) =
      (numberTail kept rest).map fun read => ('.' :: ds.text ++ read.1, read.2) := by
  have hdigits : digits (ds.text ++ rest) = (ds.text, rest) :=
    digits_append ds.digits fun c hc => (h c hc).1
  obtain ⟨d, cs, hd, -⟩ := ds.exists_first
  rw [hd] at hdigits ⊢
  unfold numberTail
  simp only [hdigits, bind, Except.bind]
  cases rest with
  | nil => simp [Except.map]
  | cons c r =>
    have hpoint : c ≠ '.' := (h c rfl).2
    by_cases he : c = 'e'
    · subst he
      cases hread : exponentPart kept r <;> simp [hread, Except.map]
    · by_cases hE : c = 'E'
      · subst hE
        cases hread : exponentPart kept r <;> simp [hread, Except.map]
      · simp [hpoint, he, hE, Except.map]

theorem numberTail_exponent (n : Numeral) {rest : List Char} (h : Ends rest) :
    numberTail kept (n.exponentText ++ rest) = .ok (n.exponentText, rest) := by
  unfold numberTail Numeral.exponentText
  cases n.exponent with
  | none =>
    cases rest with
    | nil => simp [bind, Except.bind]
    | cons c cs =>
      obtain ⟨-, hpoint, he, hE⟩ := h c rfl
      simp [hpoint, he, hE, bind, Except.bind]
  | some e =>
    have hread : exponentPart kept (e.sign ++ (e.digits.text ++ rest)) = _ := exponentPart_text e h
    rcases e.marker_eq with hm | hm <;> simp [Exponent.text, hm, hread, bind, Except.bind]

theorem numberTail_text (n : Numeral) {rest : List Char} (h : Ends rest) :
    numberTail kept (n.fractionText ++ (n.exponentText ++ rest)) =
      .ok (n.fractionText ++ n.exponentText, rest) := by
  unfold Numeral.fractionText
  cases n.fraction with
  | none => exact numberTail_exponent n h
  | some ds =>
    rw [List.cons_append, numberTail_point ds (head_exponentText n h), numberTail_exponent n h]
    rfl

theorem numberBody_text (n : Numeral) {rest : List Char} (h : Ends rest) :
    numberBody kept (n.body ++ rest) = .ok (n.body, rest) := by
  have hdigits : digits (n.body ++ rest) =
      (n.whole.text, n.fractionText ++ (n.exponentText ++ rest)) := by
    unfold Numeral.body
    rw [List.append_assoc, List.append_assoc]
    exact digits_append n.whole.digits (head_fractionText n h)
  unfold numberBody
  rw [hdigits]
  split
  · rename_i heq
    exact absurd (Prod.mk.inj heq).1 n.whole.ne_nil
  · rename_i heq
    exact absurd (Prod.mk.inj heq).1 (n.no_zero _ _)
  · rename_i heq
    obtain ⟨rfl, rfl⟩ := Prod.mk.inj heq
    rw [numberTail_text n h]
    rfl

end

theorem number_text (n : Numeral) {rest : List Char} (h : Ends rest) :
    verdict (number (n.text ++ rest)) = ifInRange n.inRange (String.ofList n.text, rest) := by
  obtain ⟨d, cs, hd, hdigit⟩ := n.whole.exists_first
  have hminus : d ≠ '-' := ne_of_isDigit hdigit rfl
  have hread : number (n.text ++ rest) =
      if isTooLarge (String.ofList n.text) then
        .error (.here .numberOutOfRange (n.body.drop (exponentStop n.body) ++ rest))
      else .ok (String.ofList n.text, rest) := by
    unfold number Numeral.text
    cases n.minus with
    | false =>
      obtain ⟨ds, hbody⟩ : ∃ ds, n.body = d :: ds := ⟨_, by rw [Numeral.body, hd]; rfl⟩
      have hread : numberBody true (n.body ++ rest) = _ := numberBody_text n h
      rw [hbody, List.cons_append] at hread
      rw [hbody]
      simp [hminus, hread, bind, Except.bind, -String.ofList_cons]
    | true => simp [numberBody_text n h, bind, Except.bind]
  rw [hread]
  unfold Numeral.inRange ifInRange
  cases isTooLarge (String.ofList n.text) <;> rfl

/-! ## Strings -/

theorem hexFour_text (u : CodeUnit) (rest : List Char) :
    hexFour (u.text ++ rest) = .ok (u.value, rest) := by
  simp [hexFour, CodeUnit.text, CodeUnit.value, u.a.h, u.b.h, u.c.h, u.d.h]

theorem codePoint_unit {u : CodeUnit} (h : ¬ u.IsHigh ∧ ¬ u.IsLow) (rest : List Char) :
    codePoint (u.text ++ rest) = .ok (Char.ofNat u.value, rest) := by
  obtain ⟨hhigh, hlow⟩ := h
  unfold CodeUnit.IsHigh at hhigh
  unfold CodeUnit.IsLow at hlow
  unfold codePoint
  rw [hexFour_text]
  simp only [bind, Except.bind]
  rw [if_neg hlow, if_pos (by omega)]

theorem codePoint_pair {high low : CodeUnit} (hh : high.IsHigh) (hl : low.IsLow)
    (rest : List Char) :
    codePoint (high.text ++ '\\' :: 'u' :: (low.text ++ rest)) =
      .ok (Char.ofNat (0x10000 + (high.value - 0xD800) * 0x400 + (low.value - 0xDC00)), rest) := by
  unfold CodeUnit.IsHigh at hh
  unfold CodeUnit.IsLow at hl
  unfold codePoint
  rw [hexFour_text]
  simp only [bind, Except.bind]
  rw [if_neg (by omega), if_neg (by omega), hexFour_text]
  simp only
  rw [if_neg (by omega)]

theorem escape_short {c e : Char} (h : shortEscape? c = some e) (rest : List Char) :
    escape (c :: rest) = .ok (e, rest) := by
  have hu : c ≠ 'u' := by
    rintro rfl
    cases h
  unfold escape
  split
  · contradiction
  · rename_i heq
    exact absurd (List.cons.inj heq).1 hu
  · rename_i heq
    obtain ⟨rfl, rfl⟩ := List.cons.inj heq
    rw [h]

theorem stringTail_escape {cs rest : List Char} {c : Char} (h : escape cs = .ok (c, rest))
    (read : List Char) : stringTail read ('\\' :: cs) = stringTail (c :: read) rest := by
  rw [stringTail]
  split
  · rename_i heq
    rw [h] at heq
    cases heq
  · rename_i heq
    rw [h] at heq
    cases heq
    rfl

theorem stringTail_letter (l : Letter) (read rest : List Char) :
    stringTail read (l.text ++ rest) = stringTail (l.char :: read) rest := by
  cases l with
  | literal c h =>
    obtain ⟨hquote, hescape, hcontrol⟩ := h
    rw [Letter.text, List.singleton_append, stringTail]
    · rw [if_neg (by simp [hcontrol])]
      rfl
    · exact hquote
    · exact hescape
  | short c e h => exact stringTail_escape (escape_short h rest) read
  | unit u h =>
    have hescape : escape ('u' :: (u.text ++ rest)) = .ok (Char.ofNat u.value, rest) :=
      codePoint_unit h rest
    exact stringTail_escape hescape read
  | pair high low hh hl =>
    have hescape : escape ('u' :: (high.text ++ '\\' :: 'u' :: (low.text ++ rest))) =
        .ok ((Letter.pair high low hh hl).char, rest) := codePoint_pair hh hl rest
    have htext : (Letter.pair high low hh hl).text ++ rest =
        '\\' :: 'u' :: (high.text ++ '\\' :: 'u' :: (low.text ++ rest)) := by
      simp [Letter.text]
    rw [htext]
    exact stringTail_escape hescape read

theorem stringTail_letters (letters : List Letter) (read rest : List Char) :
    stringTail read (lettersText letters ++ '"' :: rest) =
      .ok (String.ofList (read.reverse ++ letters.map Letter.char), rest) := by
  induction letters generalizing read with
  | nil =>
    rw [lettersText, List.flatMap_nil, List.nil_append, stringTail]
    simp
  | cons l letters ih =>
    rw [lettersText, List.flatMap_cons, List.append_assoc, stringTail_letter]
    refine (ih _).trans ?_
    simp

/-! ## Scalars -/

theorem scalar?_of_first {c : Char} (hc : (c == '-' || c.isDigit) = true) (cs : List Char) :
    scalar? (c :: cs) = some (number (c :: cs) >>= fun (t, rest) => .ok (.number t, rest)) := by
  have hne : ∀ e : Char, (e == '-' || e.isDigit) = false → c ≠ e := by
    rintro e he rfl
    rw [hc] at he
    cases he
  -- every other token begins with one of these
  have hn : c ≠ 'n' := hne _ rfl
  have ht : c ≠ 't' := hne _ rfl
  have hf : c ≠ 'f' := hne _ rfl
  have hquote : c ≠ '"' := hne _ rfl
  have harray : c ≠ '[' := hne _ rfl
  have hobject : c ≠ '{' := hne _ rfl
  unfold scalar?
  simp only
  rw [if_pos hc]

theorem scalar?_text (s : Scalar) {rest : List Char} (h : Ends rest) :
    ∃ r, scalar? (s.text ++ rest) = some r ∧
      verdict r = ifInRange s.inRange (s.doc, rest) := by
  cases s with
  | null => exact ⟨.ok (.null, rest), by simp [scalar?, Scalar.text, word, bind, Except.bind], rfl⟩
  | bool b =>
    refine ⟨.ok (.bool b, rest), ?_, rfl⟩
    cases b <;> simp [scalar?, Scalar.text, word, bind, Except.bind]
  | string letters =>
    refine ⟨.ok (.string (lettersString letters), rest), ?_, rfl⟩
    simp [scalar?, Scalar.text, stringTail_letters, lettersString, bind, Except.bind]
  | number n =>
    obtain ⟨c, cs, hc, hfirst⟩ := n.exists_first
    refine ⟨number (n.text ++ rest) >>= fun (t, rest) => .ok (.number t, rest), ?_, ?_⟩
    · have htext : (Scalar.number n).text ++ rest = c :: (cs ++ rest) := by
        rw [Scalar.text, hc, List.cons_append]
      rw [htext, scalar?_of_first hfirst, ← List.cons_append, ← hc]
    · rw [verdict_bind, number_text n h]
      exact ifInRange_bind_ok rfl

/-! ## Between the items of an array and the members of an object -/

/-- What stands before an item: nothing before the first, white space and a comma before the
others. -/
inductive Leads : Bool → List Char → Prop where
  | first : Leads true []
  | next (ws : List Char) (h : ∀ c ∈ ws, isSpace c = true) : Leads false (ws ++ [','])

variable {first : Bool} {lead ws : List Char}

theorem nextItem_of_leads (hlead : Leads first lead) (hws : ∀ c ∈ ws, isSpace c = true) {c : Char}
    (hc : isSpace c = false) (hclose : c ≠ ']') (cs : List Char) :
    nextItem first (lead ++ (ws ++ c :: cs)) = .ok (true, c :: cs) := by
  unfold nextItem
  cases hlead with
  | first =>
    rw [List.nil_append, skipSpace_append hws, skipSpace_cons hc]
    simp
  | next ws' hws' =>
    rw [List.append_assoc, skipSpace_append hws', List.singleton_append, skipSpace_cons rfl]
    simp [skipSpace_append hws, skipSpace_cons hc, hclose]

theorem nextItem_close (first : Bool) (hws : ∀ c ∈ ws, isSpace c = true) (rest : List Char) :
    nextItem first (ws ++ ']' :: rest) = .ok (false, ']' :: rest) := by
  unfold nextItem
  rw [skipSpace_append hws, skipSpace_cons rfl]
  rfl

theorem nextMember_of_leads (hlead : Leads first lead) (hws : ∀ c ∈ ws, isSpace c = true)
    (cs : List Char) : nextMember first (lead ++ (ws ++ '"' :: cs)) = .ok (true, '"' :: cs) := by
  have hquote : skipSpace ('"' :: cs) = '"' :: cs := skipSpace_cons rfl cs
  unfold nextMember
  cases hlead with
  | first =>
    rw [List.nil_append, skipSpace_append hws, hquote]
    rfl
  | next ws' hws' =>
    rw [List.append_assoc, skipSpace_append hws', List.singleton_append, skipSpace_cons rfl]
    simp [skipSpace_append hws, hquote]

theorem nextMember_close (first : Bool) (hws : ∀ c ∈ ws, isSpace c = true) (rest : List Char) :
    nextMember first (ws ++ '}' :: rest) = .ok (false, '}' :: rest) := by
  unfold nextMember
  rw [skipSpace_append hws, skipSpace_cons rfl]
  rfl

section

variable {α σ : Type}

theorem items_next {item : List Char → Except Fault (α × List Char)} {cs cs' : List Char}
    (h : nextItem first cs = .ok (true, cs')) (fuel : Nat) (read : List α) :
    items item (fuel + 1) first read cs =
      item cs' >>= fun (a, rest) => items item fuel false (a :: read) rest := by
  rw [items, h]
  rfl

theorem items_close {item : List Char → Except Fault (α × List Char)} {cs cs' : List Char}
    (h : nextItem first cs = .ok (false, cs')) (fuel : Nat) (read : List α) :
    items item (fuel + 1) first read cs = .ok (read.reverse, cs') := by
  rw [items, h]
  rfl

theorem members_next {member : String → σ → List Char → Except Fault (σ × List Char)}
    {cs cs' rest : List Char} {key : String} (h : nextMember first cs = .ok (true, '"' :: cs'))
    (hkey : stringTail [] cs' = .ok (key, rest)) (fuel : Nat) (state : σ) :
    members member (fuel + 1) first state cs =
      member key state rest >>= fun (state, rest) => members member fuel false state rest := by
  rw [members, h]
  simp only [bind, Except.bind, List.tail_cons, hkey]

theorem members_close {member : String → σ → List Char → Except Fault (σ × List Char)}
    {cs cs' : List Char} (h : nextMember first cs = .ok (false, cs')) (fuel : Nat) (state : σ) :
    members member (fuel + 1) first state cs = .ok (state, cs') := by
  rw [members, h]
  rfl

/-- The item that comes next is read where it stands. -/
theorem items_item {s : Style} (hs : s.IsBare)
    {item : List Char → Except Fault (α × List Char)} (hlead : Leads first lead) (before : Gap)
    (v : Written) (fuel : Nat) (read : List α) (rest : List Char) :
    items item (fuel + 1) first read (lead ++ (s.gap before ++ (v.text s ++ rest))) =
      item (v.text s ++ rest) >>= fun (a, rest) => items item fuel false (a :: read) rest := by
  obtain ⟨c, cs, hc, hfirst⟩ := v.exists_first s
  have hnext := nextItem_of_leads hlead (hs.gap before) (isSpace_of_begins hfirst) hfirst.2.1
    (cs ++ rest)
  rw [← List.cons_append, ← hc] at hnext
  exact items_next hnext fuel read

/-- The key of the member that comes next is read up to its colon. -/
theorem members_key {s : Style} (hs : s.IsBare)
    {member : String → σ → List Char → Except Fault (σ × List Char)} (hlead : Leads first lead)
    (key : Key) (fuel : Nat) (state : σ) (cs : List Char) :
    members member (fuel + 1) first state (lead ++ (key.text s ++ cs)) =
      member key.string state (s.gap key.behind ++ ':' :: (s.gap key.ahead ++ cs)) >>=
        fun (state, rest) => members member fuel false state rest := by
  have htext : key.text s ++ cs = s.gap key.before ++ '"' :: (lettersText key.letters ++
      '"' :: (s.gap key.behind ++ ':' :: (s.gap key.ahead ++ cs))) := by
    simp [Key.text]
  have hkey : stringTail [] (lettersText key.letters ++
        '"' :: (s.gap key.behind ++ ':' :: (s.gap key.ahead ++ cs))) =
      .ok (key.string, s.gap key.behind ++ ':' :: (s.gap key.ahead ++ cs)) :=
    stringTail_letters key.letters [] _
  rw [htext]
  exact members_next (nextMember_of_leads hlead (hs.gap key.before) _) hkey fuel state

@[simp] theorem code_settle (f : Fault) (close : List Char → List Char) :
    (f.settle close).code = f.code := by
  unfold Fault.settle
  split <;> rfl

theorem closeArray_text (rest : List Char) : closeArray (']' :: rest) = .ok rest := by
  rw [closeArray, skipSpace_cons rfl]
  rfl

theorem closeObject_text (rest : List Char) : closeObject ('}' :: rest) = .ok rest := by
  rw [closeObject, skipSpace_cons rfl]
  rfl

theorem verdict_inArray {inside : List Char → Except Fault (α × List Char)} {b : Bool} {a : α}
    {cs rest : List Char} (h : verdict (inside cs) = ifInRange b (a, ']' :: rest)) :
    verdict (inArray inside cs) = ifInRange b (a, rest) := by
  unfold inArray
  cases hread : inside cs with
  | error f => cases b <;> simp_all [ifInRange]
  | ok r => cases b <;> simp_all [ifInRange, closeArray_text, bind, Except.bind]

theorem verdict_inObject {inside : List Char → Except Fault (α × List Char)} {b : Bool} {a : α}
    {cs rest : List Char} (h : verdict (inside cs) = ifInRange b (a, '}' :: rest)) :
    verdict (inObject inside cs) = ifInRange b (a, rest) := by
  unfold inObject
  cases hread : inside cs with
  | error f => cases b <;> simp_all [ifInRange]
  | ok r => cases b <;> simp_all [ifInRange, closeObject_text, bind, Except.bind]

theorem toOption_inArray (inside : List Char → Except Fault (α × List Char)) (cs : List Char) :
    (inArray inside cs).toOption =
      (inside cs).toOption.bind fun (a, rest) => (closeArray rest).toOption.map (a, ·) := by
  unfold inArray
  cases inside cs with
  | error f => rfl
  | ok r =>
    obtain ⟨a, rest⟩ := r
    cases hclose : closeArray rest <;> simp [hclose, Except.toOption, bind, Except.bind]

theorem toOption_inObject (inside : List Char → Except Fault (α × List Char)) (cs : List Char) :
    (inObject inside cs).toOption =
      (inside cs).toOption.bind fun (a, rest) => (closeObject rest).toOption.map (a, ·) := by
  unfold inObject
  cases inside cs with
  | error f => rfl
  | ok r =>
    obtain ⟨a, rest⟩ := r
    cases hclose : closeObject rest <;> simp [hclose, Except.toOption, bind, Except.bind]

end

/-! ## Values -/

/-- Reads a member behind its key. -/
def member (depth : Nat) (key : String) (read : List (String × Json)) (cs : List Char) :
    Except Fault (List (String × Json) × List Char) := do
  let cs ← colon cs
  let (v, cs) ← value depth cs
  .ok ((key, v) :: read, cs)

theorem colon_text (hws : ∀ c ∈ ws, isSpace c = true) (cs : List Char) :
    colon (ws ++ ':' :: cs) = .ok cs := by
  unfold colon
  rw [skipSpace_append hws, skipSpace_cons rfl]
  rfl

theorem value_append (depth : Nat) (hws : ∀ c ∈ ws, isSpace c = true) (cs : List Char) :
    value depth (ws ++ cs) = value depth cs := by
  rw [value.eq_def, value.eq_def depth cs]
  simp only [skipSpace_append hws]

theorem value_of_scalar {cs : List Char} {r : Except Fault (Json × List Char)}
    (hcs : skipSpace cs = cs) (h : scalar? cs = some r) (depth : Nat) : value depth cs = r := by
  rw [value.eq_def]
  simp only [hcs, h]

theorem value_array (depth : Nat) (cs : List Char) : value (depth + 1) ('[' :: cs) =
    inArray (items (value depth) (cs.length + 1) true []) cs >>= fun (vs, rest) =>
      .ok (.array vs, rest) := by
  rw [value, skipSpace_cons rfl]
  rfl

theorem value_object (depth : Nat) (cs : List Char) : value (depth + 1) ('{' :: cs) =
    inObject (members (member depth) (cs.length + 1) true []) cs >>= fun (ms, rest) =>
      .ok (.object ms.reverse, rest) := by
  rw [value, skipSpace_cons rfl]
  rfl

theorem ends_cons {c : Char} (h : c.isDigit = false ∧ c ≠ '.' ∧ c ≠ 'e' ∧ c ≠ 'E')
    (cs : List Char) : Ends (c :: cs) := by
  rintro _ ⟨⟩
  exact h

theorem ends_append (hws : ∀ c ∈ ws, isSpace c = true) {cs : List Char} (h : Ends cs) :
    Ends (ws ++ cs) := by
  cases ws with
  | nil => exact h
  | cons c ws =>
    refine ends_cons ?_ _
    have hc := hws c List.mem_cons_self
    simp only [isSpace, Bool.or_eq_true, beq_iff_eq] at hc
    rcases hc with ((rfl | rfl) | rfl) | rfl <;> decide

theorem ends_of_spaces (hws : ∀ c ∈ ws, isSpace c = true) : Ends ws := by
  have hnil : Ends [] := nofun
  simpa using ends_append hws hnil

theorem atEnd_of_spaces (hws : ∀ c ∈ ws, isSpace c = true) : atEnd ws = .ok () := by
  have hskip : skipSpace ws = [] := by simpa [skipSpace] using skipSpace_append hws []
  unfold atEnd
  rw [hskip]

/-- A value that was written does not end before the next comma or bracket. -/
theorem ends_of_closing (hws : ∀ c ∈ ws, isSpace c = true) {c : Char}
    (hc : c = ',' ∨ c = ']' ∨ c = '}') (cs : List Char) : Ends (ws ++ c :: cs) := by
  refine ends_append hws (ends_cons ?_ cs)
  rcases hc with rfl | rfl | rfl <;> decide

theorem spaces_append {ws ws' : List Char} (h : ∀ c ∈ ws, isSpace c = true)
    (h' : ∀ c ∈ ws', isSpace c = true) : ∀ c ∈ ws ++ ws', isSpace c = true := by
  intro c hc
  rcases List.mem_append.1 hc with hc | hc
  · exact h c hc
  · exact h' c hc

variable {s : Style} {depth fuel : Nat} {rest : List Char}

/-- A value is read as it is written, wherever it stands. -/
def Reads (s : Style) (depth : Nat) (v : Written) : Prop :=
  ∀ rest, Ends rest → verdict (value depth (v.text s ++ rest)) = ifInRange v.inRange (v.doc, rest)

/-- One more item. -/
theorem items_value (hs : s.IsBare) {v : Written} (hv : Reads s depth v) (hlead : Leads first lead)
    (before : Gap) (hrest : Ends rest) (read : List Json) :
    verdict (items (value depth) (fuel + 1) first read
      (lead ++ (s.gap before ++ (v.text s ++ rest)))) =
    ifInRange v.inRange (v.doc, rest) >>= fun (a, rest) =>
      verdict (items (value depth) fuel false (a :: read) rest) := by
  rw [items_item hs hlead, verdict_bind, hv rest hrest]

theorem member_value (hs : s.IsBare) (key : Key) (read : List (String × Json)) (cs : List Char) :
    member depth key.string read (s.gap key.behind ++ ':' :: (s.gap key.ahead ++ cs)) =
      value depth cs >>= fun (v, rest) => .ok ((key.string, v) :: read, rest) := by
  unfold member
  rw [colon_text (hs.gap key.behind)]
  simp only [bind, Except.bind]
  rw [value_append depth (hs.gap key.ahead)]

/-- One more member. -/
theorem members_value (hs : s.IsBare) {v : Written} (hv : Reads s depth v)
    (hlead : Leads first lead) (key : Key) (hrest : Ends rest) (read : List (String × Json)) :
    verdict (members (member depth) (fuel + 1) first read
      (lead ++ (key.text s ++ (v.text s ++ rest)))) =
    ifInRange v.inRange (v.doc, rest) >>= fun (a, rest) =>
      verdict (members (member depth) fuel false ((key.string, a) :: read) rest) := by
  rw [members_key hs hlead, member_value hs key, verdict_bind, verdict_bind, hv rest hrest]
  cases v.inRange <;> rfl

mutual

/-- A value that is written is read. -/
theorem value_text (hs : s.IsBare) (w : Written) {depth : Nat} (h : w.depth ≤ depth) :
    Reads s depth w := by
  intro rest hrest
  cases w with
  | scalar t =>
    obtain ⟨c, cs, hc, hfirst⟩ := t.exists_first
    obtain ⟨r, hr, hverdict⟩ := scalar?_text t hrest
    have hspace : skipSpace (t.text ++ rest) = t.text ++ rest := by
      rw [hc]
      exact skipSpace_cons (isSpace_of_begins hfirst) _
    rw [Written.text, value_of_scalar hspace hr depth, hverdict]
    rfl
  | emptyArray inside =>
    obtain ⟨depth, rfl⟩ : ∃ n, depth = n + 1 := ⟨depth - 1, by rw [Written.depth] at h; omega⟩
    have htext : (Written.emptyArray inside).text s ++ rest =
        '[' :: (s.gap inside ++ ']' :: rest) := by
      simp [Written.text]
    have hitems : verdict (items (value depth) ((s.gap inside ++ ']' :: rest).length + 1) true []
        (s.gap inside ++ ']' :: rest)) = ifInRange true ([], ']' :: rest) := by
      rw [items_close (nextItem_close true (hs.gap inside) rest)]
      rfl
    rw [htext, value_array, verdict_bind, verdict_inArray hitems]
    rfl
  | array i trailing =>
    obtain ⟨depth, rfl⟩ : ∃ n, depth = n + 1 := ⟨depth - 1, by rw [Written.depth] at h; omega⟩
    have htext : (Written.array i trailing).text s ++ rest =
        '[' :: (i.text s ++ (s.trailing trailing ++ ']' :: rest)) := by
      simp [Written.text]
    have hfuel : i.length < (i.text s ++ (s.trailing trailing ++ ']' :: rest)).length + 1 := by
      have hlength := i.length_le s
      rw [List.length_append]
      omega
    have hitems := items_text hs i (Nat.le_of_succ_le_succ h) hfuel Leads.first
      (hs.trailing trailing) [] rest
    rw [List.nil_append] at hitems
    rw [htext, value_array, verdict_bind, verdict_inArray hitems]
    exact ifInRange_bind_ok rfl
  | emptyObject inside =>
    obtain ⟨depth, rfl⟩ : ∃ n, depth = n + 1 := ⟨depth - 1, by rw [Written.depth] at h; omega⟩
    have htext : (Written.emptyObject inside).text s ++ rest =
        '{' :: (s.gap inside ++ '}' :: rest) := by
      simp [Written.text]
    have hmembers : verdict (members (member depth) ((s.gap inside ++ '}' :: rest).length + 1)
        true [] (s.gap inside ++ '}' :: rest)) = ifInRange true ([], '}' :: rest) := by
      rw [members_close (nextMember_close true (hs.gap inside) rest)]
      rfl
    rw [htext, value_object, verdict_bind, verdict_inObject hmembers]
    rfl
  | object m trailing =>
    obtain ⟨depth, rfl⟩ : ∃ n, depth = n + 1 := ⟨depth - 1, by rw [Written.depth] at h; omega⟩
    have htext : (Written.object m trailing).text s ++ rest =
        '{' :: (m.text s ++ (s.trailing trailing ++ '}' :: rest)) := by
      simp [Written.text]
    have hfuel : m.length < (m.text s ++ (s.trailing trailing ++ '}' :: rest)).length + 1 := by
      have hlength := m.length_le s
      rw [List.length_append]
      omega
    have hmembers := members_text hs m (Nat.le_of_succ_le_succ h) hfuel Leads.first
      (hs.trailing trailing) [] rest
    rw [List.nil_append] at hmembers
    rw [htext, value_object, verdict_bind, verdict_inObject hmembers]
    refine ifInRange_bind_ok ?_
    simp [Written.doc]

theorem items_text (hs : s.IsBare) (i : Items) {depth : Nat} (h : i.depth ≤ depth)
    {fuel : Nat} (hfuel : i.length < fuel) {first : Bool} {lead ws : List Char}
    (hlead : Leads first lead) (hws : ∀ c ∈ ws, isSpace c = true) (read : List Json)
    (rest : List Char) :
    verdict (items (value depth) fuel first read (lead ++ (i.text s ++ (ws ++ ']' :: rest)))) =
      ifInRange i.inRange (read.reverse ++ i.docs, ']' :: rest) := by
  cases i with
  | last before v behind =>
    rw [Items.depth] at h
    rw [Items.length] at hfuel
    obtain ⟨fuel, rfl⟩ : ∃ n, fuel = n + 2 := ⟨fuel - 2, by omega⟩
    have hbehind := spaces_append (hs.gap behind) hws
    have htext : (Items.last before v behind).text s ++ (ws ++ ']' :: rest) =
        s.gap before ++ (v.text s ++ (s.gap behind ++ ws ++ ']' :: rest)) := by
      simp [Items.text]
    rw [htext, items_value hs (value_text hs v h) hlead before
      (ends_of_closing hbehind (Or.inr (Or.inl rfl)) rest)]
    refine ifInRange_bind_ok ?_
    simp only
    rw [items_close (nextItem_close false hbehind rest)]
    simp [Items.docs]
  | more before v behind more =>
    rw [Items.depth, Nat.max_le] at h
    rw [Items.length] at hfuel
    obtain ⟨fuel, rfl⟩ : ∃ n, fuel = n + 1 := ⟨fuel - 1, by omega⟩
    have htext : (Items.more before v behind more).text s ++ (ws ++ ']' :: rest) =
        s.gap before ++ (v.text s ++
          (s.gap behind ++ ',' :: (more.text s ++ (ws ++ ']' :: rest)))) := by
      simp [Items.text]
    have hmore := items_text hs more h.2 (Nat.lt_of_succ_lt_succ hfuel)
      (Leads.next _ (hs.gap behind)) hws (v.doc :: read) rest
    rw [List.append_assoc, List.singleton_append] at hmore
    rw [htext, items_value hs (value_text hs v h.1) hlead before
      (ends_of_closing (hs.gap behind) (Or.inl rfl) _)]
    refine ifInRange_bind ?_
    simp only
    rw [hmore]
    simp [Items.docs]

theorem members_text (hs : s.IsBare) (m : Members) {depth : Nat} (h : m.depth ≤ depth)
    {fuel : Nat} (hfuel : m.length < fuel) {first : Bool} {lead ws : List Char}
    (hlead : Leads first lead) (hws : ∀ c ∈ ws, isSpace c = true) (read : List (String × Json))
    (rest : List Char) :
    verdict (members (member depth) fuel first read (lead ++ (m.text s ++ (ws ++ '}' :: rest)))) =
      ifInRange m.inRange (m.docs.reverse ++ read, '}' :: rest) := by
  cases m with
  | last key v behind =>
    rw [Members.depth] at h
    rw [Members.length] at hfuel
    obtain ⟨fuel, rfl⟩ : ∃ n, fuel = n + 2 := ⟨fuel - 2, by omega⟩
    have hbehind := spaces_append (hs.gap behind) hws
    have htext : (Members.last key v behind).text s ++ (ws ++ '}' :: rest) =
        key.text s ++ (v.text s ++ (s.gap behind ++ ws ++ '}' :: rest)) := by
      simp [Members.text]
    rw [htext, members_value hs (value_text hs v h) hlead key
      (ends_of_closing hbehind (Or.inr (Or.inr rfl)) rest)]
    refine ifInRange_bind_ok ?_
    simp only
    rw [members_close (nextMember_close false hbehind rest)]
    simp [Members.docs]
  | more key v behind more =>
    rw [Members.depth, Nat.max_le] at h
    rw [Members.length] at hfuel
    obtain ⟨fuel, rfl⟩ : ∃ n, fuel = n + 1 := ⟨fuel - 1, by omega⟩
    have htext : (Members.more key v behind more).text s ++ (ws ++ '}' :: rest) =
        key.text s ++ (v.text s ++
          (s.gap behind ++ ',' :: (more.text s ++ (ws ++ '}' :: rest)))) := by
      simp [Members.text]
    have hmore := members_text hs more h.2 (Nat.lt_of_succ_lt_succ hfuel)
      (Leads.next _ (hs.gap behind)) hws ((key.string, v.doc) :: read) rest
    rw [List.append_assoc, List.singleton_append] at hmore
    rw [htext, members_value hs (value_text hs v h.1) hlead key
      (ends_of_closing (hs.gap behind) (Or.inl rfl) _)]
    refine ifInRange_bind ?_
    simp only
    rw [hmore]
    simp [Members.docs]

end

/-! ## Values that nest too deeply -/

mutual

/-- A value that nests too deeply is not read. -/
theorem value_deep (hs : s.IsBare) (w : Written) {depth : Nat} (h : depth < w.depth)
    (rest : List Char) : (value depth (w.text s ++ rest)).toOption = none := by
  cases w with
  | scalar t => exact absurd h (Nat.not_lt_zero _)
  | emptyArray inside =>
    obtain rfl : depth = 0 := by
      rw [Written.depth] at h
      omega
    rw [Written.text, List.cons_append, value, skipSpace_cons rfl]
    rfl
  | emptyObject inside =>
    obtain rfl : depth = 0 := by
      rw [Written.depth] at h
      omega
    rw [Written.text, List.cons_append, value, skipSpace_cons rfl]
    rfl
  | array i trailing =>
    rw [Written.text, List.cons_append, List.append_assoc]
    rw [Written.depth] at h
    cases depth with
    | zero =>
      rw [value, skipSpace_cons rfl]
      rfl
    | succ depth =>
      rw [value_array, toOption_bind, toOption_inArray, ← List.nil_append (i.text s ++ _),
        items_deep hs i (Nat.lt_of_succ_lt_succ h) Leads.first]
      rfl
  | object m trailing =>
    rw [Written.text, List.cons_append, List.append_assoc]
    rw [Written.depth] at h
    cases depth with
    | zero =>
      rw [value, skipSpace_cons rfl]
      rfl
    | succ depth =>
      rw [value_object, toOption_bind, toOption_inObject, ← List.nil_append (m.text s ++ _),
        members_deep hs m (Nat.lt_of_succ_lt_succ h) Leads.first]
      rfl

theorem items_deep (hs : s.IsBare) (i : Items) {depth : Nat} (h : depth < i.depth)
    {first : Bool} {lead : List Char} (hlead : Leads first lead) (fuel : Nat) (read : List Json)
    (rest : List Char) :
    (items (value depth) fuel first read (lead ++ (i.text s ++ rest))).toOption = none := by
  cases fuel with
  | zero => rfl
  | succ fuel =>
    cases i with
    | last before v behind =>
      rw [Items.text, List.append_assoc, List.append_assoc, items_item hs hlead, toOption_bind,
        value_deep hs v h]
      rfl
    | more before v behind more =>
      have htext : (Items.more before v behind more).text s ++ rest =
          s.gap before ++ (v.text s ++ (s.gap behind ++ ',' :: (more.text s ++ rest))) := by
        simp [Items.text]
      rw [htext, items_item hs hlead, toOption_bind]
      by_cases hv : depth < v.depth
      · rw [value_deep hs v hv]
        rfl
      · have hmore : depth < more.depth := by
          rw [Items.depth] at h
          omega
        have hread := value_text hs v (Nat.not_lt.1 hv) _
          (ends_of_closing (hs.gap behind) (Or.inl rfl) (more.text s ++ rest))
        rw [toOption_of_verdict hread]
        cases v.inRange with
        | false => rfl
        | true =>
          have hdeep := items_deep hs more hmore (Leads.next _ (hs.gap behind)) fuel
            (v.doc :: read) rest
          rw [List.append_assoc, List.singleton_append] at hdeep
          exact hdeep

theorem members_deep (hs : s.IsBare) (m : Members) {depth : Nat} (h : depth < m.depth)
    {first : Bool} {lead : List Char} (hlead : Leads first lead) (fuel : Nat)
    (read : List (String × Json)) (rest : List Char) :
    (members (member depth) fuel first read (lead ++ (m.text s ++ rest))).toOption = none := by
  cases fuel with
  | zero => rfl
  | succ fuel =>
    cases m with
    | last key v behind =>
      rw [Members.text, List.append_assoc, List.append_assoc, members_key hs hlead,
        member_value hs key, toOption_bind, toOption_bind, value_deep hs v h]
      rfl
    | more key v behind more =>
      have htext : (Members.more key v behind more).text s ++ rest =
          key.text s ++ (v.text s ++ (s.gap behind ++ ',' :: (more.text s ++ rest))) := by
        simp [Members.text]
      rw [htext, members_key hs hlead, member_value hs key, toOption_bind, toOption_bind]
      by_cases hv : depth < v.depth
      · rw [value_deep hs v hv]
        rfl
      · have hmore : depth < more.depth := by
          rw [Members.depth] at h
          omega
        have hread := value_text hs v (Nat.not_lt.1 hv) _
          (ends_of_closing (hs.gap behind) (Or.inl rfl) (more.text s ++ rest))
        rw [toOption_of_verdict hread]
        cases v.inRange with
        | false => rfl
        | true =>
          have hdeep := members_deep hs more hmore (Leads.next _ (hs.gap behind)) fuel
            ((key.string, v.doc) :: read) rest
          rw [List.append_assoc, List.singleton_append] at hdeep
          exact hdeep

end

/-- Which values that are written are read. -/
theorem toOption_value (hs : s.IsBare) (w : Written) (h : Ends rest) :
    (value depth (w.text s ++ rest)).toOption =
      if w.depth ≤ depth ∧ w.inRange = true then some (w.doc, rest) else none := by
  by_cases hdepth : w.depth ≤ depth
  · rw [toOption_of_verdict (value_text hs w hdepth rest h)]
    simp only [hdepth, true_and]
  · rw [value_deep hs w (Nat.lt_of_not_le hdepth), if_neg fun hread => hdepth hread.1]

end ClassAtlas.Json.Reader

namespace ClassAtlas.Json

open Reader

/-- A page is read. -/
theorem ofText_page {s : Style} (hs : s.IsBare) (p : Page) (h : p.value.depth ≤ maxDepth) :
    verdict (ofText (String.ofList (p.text s))) = ifInRange p.value.inRange p.value.doc := by
  unfold ofText readAll Page.text
  rw [String.toList_ofList, value_append _ (hs.gap p.before), verdict_bind,
    value_text hs p.value h _ (ends_of_spaces (hs.gap p.behind))]
  refine ifInRange_bind_ok ?_
  simp only [atEnd_of_spaces (hs.gap p.behind)]
  rfl

end ClassAtlas.Json
