import ClassAtlas.Proofs.Json.Reading

/-!
# Stepping over what is written

A value that nobody asks for is stepped over and not kept. The steps go from value to value with the
open brackets on a stack, so nothing limits how deep they may nest, and numbers need not be held.
`skipValue_text`: they lead behind any value that is written.

For the induction a value stands inside of open brackets. Behind it the brackets that close are
taken from the stack (`closing`), and then the steps go on with the next value, or are over
(`onward`). So the value itself takes `Written.count` steps and leaves the stack as it was.
-/
namespace ClassAtlas.Json

/-! ## How many steps a value takes -/

mutual

/-- The scalars and the brackets that open. -/
def Written.count : Written → Nat
  | .scalar _ | .emptyArray _ | .emptyObject _ => 1
  | .array items _ => items.count + 1
  | .object members _ => members.count + 1

def Items.count : Items → Nat
  | .last _ v _ => v.count
  | .more _ v _ rest => v.count + rest.count

def Members.count : Members → Nat
  | .last _ v _ => v.count
  | .more _ v _ rest => v.count + rest.count

end

mutual

theorem Written.count_pos (w : Written) : 0 < w.count := by
  cases w with
  | scalar _ | emptyArray _ | emptyObject _ => exact Nat.one_pos
  | array items _ => exact Nat.succ_pos _
  | object members _ => exact Nat.succ_pos _

theorem Items.count_pos (i : Items) : 0 < i.count := by
  cases i with
  | last before v behind => exact v.count_pos
  | more before v behind rest => exact Nat.add_pos_left v.count_pos _

theorem Members.count_pos (m : Members) : 0 < m.count := by
  cases m with
  | last key v behind => exact v.count_pos
  | more key v behind rest => exact Nat.add_pos_left v.count_pos _

end

mutual

theorem Written.count_le (s : Style) (w : Written) : w.count ≤ (w.text s).length := by
  cases w with
  | scalar t =>
    obtain ⟨c, cs, hc, -⟩ := t.exists_first
    simp [Written.count, Written.text, hc]
  | emptyArray inside => simp [Written.count, Written.text]
  | emptyObject inside => simp [Written.count, Written.text]
  | array items trailing =>
    have hitems := items.count_le s
    simp only [Written.count, Written.text, List.length_cons, List.length_append]
    omega
  | object members trailing =>
    have hmembers := members.count_le s
    simp only [Written.count, Written.text, List.length_cons, List.length_append]
    omega

theorem Items.count_le (s : Style) (i : Items) : i.count ≤ (i.text s).length := by
  cases i with
  | last before v behind =>
    have hv := v.count_le s
    simp only [Items.count, Items.text, List.length_append]
    omega
  | more before v behind rest =>
    have hv := v.count_le s
    have hrest := rest.count_le s
    simp only [Items.count, Items.text, List.length_append, List.length_cons]
    omega

theorem Members.count_le (s : Style) (m : Members) : m.count ≤ (m.text s).length := by
  cases m with
  | last key v behind =>
    have hv := v.count_le s
    simp only [Members.count, Members.text, List.length_append]
    omega
  | more key v behind rest =>
    have hv := v.count_le s
    have hrest := rest.count_le s
    simp only [Members.count, Members.text, List.length_append, List.length_cons]
    omega

end

namespace Reader

variable {s : Style} {ws rest : List Char} {open_ : List Bool} {fuel : Nat}

theorem skipSpace_skipSpace (cs : List Char) : skipSpace (skipSpace cs) = skipSpace cs := by
  induction cs with
  | nil => rfl
  | cons c cs ih =>
    by_cases hc : isSpace c = true
    · rw [skipSpace, if_pos hc, ih]
    · rw [skipSpace_cons (by simpa using hc), skipSpace_cons (by simpa using hc)]

/-! ## Scalars -/

theorem skipEscape_unit (u : CodeUnit) (rest : List Char) :
    skipEscape ('u' :: (u.text ++ rest)) = .ok rest := by
  rw [skipEscape, hexFour_text]
  rfl

theorem skipEscape_short {c e : Char} (h : shortEscape? c = some e) (rest : List Char) :
    skipEscape (c :: rest) = .ok rest := by
  have hu : c ≠ 'u' := by
    rintro rfl
    cases h
  rw [skipEscape]
  · rw [h]
  · exact hu

theorem skipString_escape {cs : List Char} (h : skipEscape cs = .ok rest) :
    skipString ('\\' :: cs) = skipString rest := by
  rw [skipString]
  split
  · rename_i heq
    rw [h] at heq
    cases heq
  · rename_i heq
    rw [h] at heq
    cases heq
    rfl

theorem skipString_letter (l : Letter) (rest : List Char) :
    skipString (l.text ++ rest) = skipString rest := by
  cases l with
  | literal c h =>
    obtain ⟨hquote, hescape, hcontrol⟩ := h
    rw [Letter.text, List.singleton_append, skipString]
    · rw [if_neg (by simp [hcontrol])]
    · exact hquote
    · exact hescape
  | short c e h => exact skipString_escape (skipEscape_short h rest)
  | unit u h => exact skipString_escape (skipEscape_unit u rest)
  | pair high low hh hl =>
    -- each half is stepped over as an escape of its own
    have htext : (Letter.pair high low hh hl).text ++ rest =
        '\\' :: 'u' :: (high.text ++ '\\' :: 'u' :: (low.text ++ rest)) := by
      simp [Letter.text]
    rw [htext, skipString_escape (skipEscape_unit high _),
      skipString_escape (skipEscape_unit low rest)]

theorem skipString_letters (letters : List Letter) (rest : List Char) :
    skipString (lettersText letters ++ '"' :: rest) = .ok rest := by
  induction letters with
  | nil =>
    rw [lettersText, List.flatMap_nil, List.nil_append, skipString]
  | cons l letters ih =>
    rw [lettersText, List.flatMap_cons, List.append_assoc, skipString_letter]
    exact ih

theorem skipScalar?_number (n : Numeral) (h : Ends rest) :
    skipScalar? (n.text ++ rest) = some (.ok rest) := by
  obtain ⟨d, cs, hd, hdigit⟩ := n.whole.exists_first
  have hread : numberBody false (n.body ++ rest) = .ok (n.body, rest) := numberBody_text n h
  unfold Numeral.text
  cases n.minus with
  | true =>
    rw [if_pos rfl, List.singleton_append, List.cons_append, skipScalar?, hread]
    rfl
  | false =>
    obtain ⟨ds, hbody⟩ : ∃ ds, n.body = d :: ds := ⟨_, by rw [Numeral.body, hd]; rfl⟩
    rw [hbody, List.cons_append] at hread
    -- no other token begins with a digit
    have hn : d ≠ 'n' := ne_of_isDigit hdigit rfl
    have ht : d ≠ 't' := ne_of_isDigit hdigit rfl
    have hf : d ≠ 'f' := ne_of_isDigit hdigit rfl
    have hquote : d ≠ '"' := ne_of_isDigit hdigit rfl
    have hminus : d ≠ '-' := ne_of_isDigit hdigit rfl
    have harray : d ≠ '[' := ne_of_isDigit hdigit rfl
    have hobject : d ≠ '{' := ne_of_isDigit hdigit rfl
    rw [if_neg Bool.false_ne_true, List.nil_append, hbody, List.cons_append]
    unfold skipScalar?
    simp only
    rw [if_pos hdigit, hread]
    rfl

theorem skipScalar?_text (t : Scalar) (h : Ends rest) :
    skipScalar? (t.text ++ rest) = some (.ok rest) := by
  cases t with
  | null => simp [skipScalar?, Scalar.text, word]
  | bool b => cases b <;> simp [skipScalar?, Scalar.text, word]
  | number n => exact skipScalar?_number n h
  | string letters => simp [skipScalar?, Scalar.text, skipString_letters]

/-! ## Brackets that close -/

/-- More fuel than there is text makes no difference. -/
theorem skipClosing_eq {cs : List Char} {fuel' : Nat} (h : cs.length < fuel)
    (h' : cs.length < fuel') (comma : Bool) (open_ : List Bool) :
    skipClosing fuel comma open_ cs = skipClosing fuel' comma open_ cs := by
  induction fuel generalizing cs fuel' comma open_ with
  | zero => exact absurd h (Nat.not_lt_zero _)
  | succ fuel ih =>
    obtain ⟨fuel', rfl⟩ : ∃ n, fuel' = n + 1 := ⟨fuel' - 1, by omega⟩
    cases open_ with
    | nil => rw [skipClosing, skipClosing]
    | cons isArray outer =>
      rw [skipClosing, skipClosing]
      have hspace := length_skipSpace_le cs
      cases hcs : skipSpace cs with
      | nil => rfl
      | cons c rest =>
        rw [hcs, List.length_cons] at hspace
        simp only
        rw [@ih rest fuel' (by omega) (by omega)]

/-- Steps behind the brackets that close. -/
def closing (comma : Bool) (open_ : List Bool) (cs : List Char) :
    Except Fault (List Bool × List Char) :=
  skipClosing (cs.length + 1) comma open_ cs

def bracket (isArray : Bool) : Char := if isArray then ']' else '}'

/-- A value that was written does not end before a bracket. -/
theorem ends_of_bracket (hws : ∀ c ∈ ws, isSpace c = true) (isArray : Bool) :
    Ends (ws ++ bracket isArray :: rest) :=
  ends_of_closing hws (Or.inr (by cases isArray <;> decide)) rest

theorem closing_nil (comma : Bool) (cs : List Char) : closing comma [] cs = .ok ([], cs) := by
  rw [closing, skipClosing]

theorem closing_bracket (hws : ∀ c ∈ ws, isSpace c = true) (comma isArray : Bool) :
    closing comma (isArray :: open_) (ws ++ bracket isArray :: rest) =
      closing true open_ rest := by
  have hclose : isSpace (bracket isArray) = false := by cases isArray <;> rfl
  rw [closing, skipClosing, skipSpace_append hws, skipSpace_cons hclose]
  simp only
  rw [if_pos (by cases isArray <;> rfl)]
  exact skipClosing_eq (by simp; omega) (Nat.lt_succ_self _) true open_

theorem closing_comma (hws : ∀ c ∈ ws, isSpace c = true) (isArray : Bool) :
    closing true (isArray :: open_) (ws ++ ',' :: rest) = .ok (isArray :: open_, rest) := by
  rw [closing, skipClosing, skipSpace_append hws, skipSpace_cons rfl]
  cases isArray <;> rfl

theorem closing_first {c : Char} {cs : List Char} (hcs : skipSpace cs = c :: rest)
    (hc : Begins c) (isArray : Bool) :
    closing false (isArray :: open_) cs = .ok (isArray :: open_, c :: rest) := by
  rw [closing, skipClosing, hcs]
  cases isArray <;> simp [hc.2.1, hc.2.2]

/-! ## Values -/

/-- What is left to do behind a value, once the brackets behind it are closed. -/
def onward (fuel : Nat) : List Bool × List Char → Except Fault (List Char)
  | ([], rest) => .ok rest
  | (true :: outer, rest) => skipValues fuel (true :: outer) rest
  | (false :: outer, rest) => skipKey rest >>= skipValues fuel (false :: outer)

theorem skipValues_succ (fuel : Nat) (open_ : List Bool) (cs : List Char) :
    skipValues (fuel + 1) open_ cs =
      (match skipScalar? (skipSpace cs) with
        | some r => do skipClosing ((skipSpace cs).length + 1) true open_ (← r)
        | none => skipClosing ((skipSpace cs).length + 1) false
            (((skipSpace cs).head? == some '[') :: open_) (skipSpace cs).tail) >>= onward fuel := by
  rw [skipValues]
  cases skipScalar? (skipSpace cs) with
  | none =>
    -- what is done behind a closing bracket is told by what is left open
    simp only
    generalize skipClosing _ _ _ _ = r
    rcases r with f | ⟨_ | ⟨_ | _, outer⟩, rest⟩ <;> rfl
  | some r =>
    rcases r with f | rest
    · rfl
    · simp only [bind, Except.bind]
      generalize skipClosing _ _ _ _ = r
      rcases r with f | ⟨_ | ⟨_ | _, outer⟩, rest⟩ <;> rfl

theorem skipValues_append (hws : ∀ c ∈ ws, isSpace c = true) (hfuel : 0 < fuel)
    (open_ : List Bool) (cs : List Char) :
    skipValues fuel open_ (ws ++ cs) = skipValues fuel open_ cs := by
  obtain ⟨fuel, rfl⟩ := Nat.exists_eq_add_one.2 hfuel
  rw [skipValues_succ, skipValues_succ, skipSpace_append hws]

theorem onward_skipSpace (hfuel : 0 < fuel) (isArray : Bool) (cs : List Char) :
    onward fuel (isArray :: open_, skipSpace cs) = onward fuel (isArray :: open_, cs) := by
  cases isArray with
  | true =>
    obtain ⟨fuel, rfl⟩ := Nat.exists_eq_add_one.2 hfuel
    rw [onward, onward, skipValues_succ, skipValues_succ, skipSpace_skipSpace]
  | false => rw [onward, onward, skipKey, skipKey, skipSpace_skipSpace]

theorem skipValues_scalar (t : Scalar) (h : Ends rest) :
    skipValues (fuel + 1) open_ (t.text ++ rest) = closing true open_ rest >>= onward fuel := by
  obtain ⟨c, cs, hc, hfirst⟩ := t.exists_first
  have hspace : skipSpace (t.text ++ rest) = t.text ++ rest := by
    rw [hc]
    exact skipSpace_cons (isSpace_of_begins hfirst) _
  rw [skipValues_succ, hspace, skipScalar?_text t h]
  refine congrArg (· >>= onward fuel) ?_
  exact skipClosing_eq (by simp [hc]; omega) (Nat.lt_succ_self _) true open_

/-- A bracket that opens. -/
theorem skipValues_open (isArray : Bool) (cs : List Char) :
    skipValues (fuel + 1) open_ ((if isArray then '[' else '{') :: cs) =
      closing false (isArray :: open_) cs >>= onward fuel := by
  cases isArray with
  | true =>
    rw [if_pos rfl, skipValues_succ, skipSpace_cons rfl]
    refine congrArg (· >>= onward fuel) ?_
    exact skipClosing_eq (by rw [List.tail_cons, List.length_cons]; omega) (Nat.lt_succ_self _)
      false _
  | false =>
    rw [if_neg Bool.false_ne_true, skipValues_succ, skipSpace_cons rfl]
    refine congrArg (· >>= onward fuel) ?_
    exact skipClosing_eq (by rw [List.tail_cons, List.length_cons]; omega) (Nat.lt_succ_self _)
      false _

theorem skipKey_text (hs : s.IsBare) (key : Key) (cs : List Char) :
    skipKey (key.text s ++ cs) = .ok (s.gap key.ahead ++ cs) := by
  have htext : key.text s ++ cs = s.gap key.before ++ '"' ::
      (lettersText key.letters ++ '"' :: (s.gap key.behind ++ ':' :: (s.gap key.ahead ++ cs))) := by
    simp [Key.text]
  rw [htext, skipKey, skipSpace_append (hs.gap key.before), skipSpace_cons rfl]
  simp only [skipString_letters, bind, Except.bind]
  exact colon_text (hs.gap key.behind) _

/-- White space apart, the items of an array begin with a value. -/
theorem skipSpace_items (hs : s.IsBare) (i : Items) (rest : List Char) :
    ∃ c cs, skipSpace (i.text s ++ rest) = c :: cs ∧ Begins c := by
  have hfirst : ∀ (before : Gap) (v : Written) (behind : List Char), ∃ c cs,
      skipSpace (s.gap before ++ (v.text s ++ behind)) = c :: cs ∧ Begins c := by
    intro before v behind
    obtain ⟨c, cs, hc, hbegins⟩ := v.exists_first s
    refine ⟨c, cs ++ behind, ?_, hbegins⟩
    rw [skipSpace_append (hs.gap before), hc]
    exact skipSpace_cons (isSpace_of_begins hbegins) _
  cases i with
  | last before v behind =>
    rw [Items.text, List.append_assoc, List.append_assoc]
    exact hfirst before v _
  | more before v behind more =>
    rw [Items.text, List.append_assoc, List.append_assoc]
    exact hfirst before v _

/-- White space apart, the members of an object begin with the quote of a key. -/
theorem skipSpace_members (hs : s.IsBare) (m : Members) (rest : List Char) :
    ∃ cs, skipSpace (m.text s ++ rest) = '"' :: cs := by
  have hfirst : ∀ (key : Key) (behind : List Char), ∃ cs,
      skipSpace (key.text s ++ behind) = '"' :: cs := by
    intro key behind
    refine ⟨lettersText key.letters ++ '"' :: (s.gap key.behind ++ ':' :: s.gap key.ahead) ++
      behind, ?_⟩
    rw [Key.text, List.append_assoc, skipSpace_append (hs.gap key.before), List.cons_append]
    exact skipSpace_cons rfl _
  cases m with
  | last key v behind =>
    rw [Members.text, List.append_assoc]
    exact hfirst key _
  | more key v behind more =>
    rw [Members.text, List.append_assoc]
    exact hfirst key _

/-- Brackets stay open before a value or a key. -/
theorem closing_onward {c : Char} {cs cs' : List Char} (hcs : skipSpace cs = c :: cs')
    (hc : Begins c) (hfuel : 0 < fuel) (isArray : Bool) :
    (closing false (isArray :: open_) cs >>= onward fuel) = onward fuel (isArray :: open_, cs) := by
  rw [closing_first hcs hc, ← onward_skipSpace hfuel, hcs]
  rfl

mutual

/-- The steps over a value lead behind it, with the same brackets open. -/
theorem skipValues_text (hs : s.IsBare) (w : Written) (open_ : List Bool) (fuel : Nat)
    {rest : List Char} (h : Ends rest) :
    skipValues (w.count + fuel) open_ (w.text s ++ rest) =
      closing true open_ rest >>= onward fuel := by
  cases w with
  | scalar t =>
    rw [Written.count, Written.text, Nat.add_comm]
    exact skipValues_scalar t h
  | emptyArray inside =>
    have htext : (Written.emptyArray inside).text s ++ rest =
        '[' :: (s.gap inside ++ bracket true :: rest) := by
      simp [Written.text, bracket]
    rw [Written.count, Nat.add_comm, htext]
    refine (skipValues_open true _).trans ?_
    rw [closing_bracket (hs.gap inside)]
  | emptyObject inside =>
    have htext : (Written.emptyObject inside).text s ++ rest =
        '{' :: (s.gap inside ++ bracket false :: rest) := by
      simp [Written.text, bracket]
    rw [Written.count, Nat.add_comm, htext]
    refine (skipValues_open false _).trans ?_
    rw [closing_bracket (hs.gap inside)]
  | array items trailing =>
    have htext : (Written.array items trailing).text s ++ rest =
        '[' :: (items.text s ++ (s.trailing trailing ++ ']' :: rest)) := by
      simp [Written.text]
    obtain ⟨c, cs, hcs, hc⟩ := skipSpace_items hs items (s.trailing trailing ++ ']' :: rest)
    rw [Written.count, Nat.add_right_comm, htext]
    refine (skipValues_open true _).trans ?_
    rw [closing_onward hcs hc (Nat.add_pos_left items.count_pos _)]
    exact skipItems_text hs items open_ fuel (hs.trailing trailing)
  | object members trailing =>
    have htext : (Written.object members trailing).text s ++ rest =
        '{' :: (members.text s ++ (s.trailing trailing ++ '}' :: rest)) := by
      simp [Written.text]
    obtain ⟨cs, hcs⟩ := skipSpace_members hs members (s.trailing trailing ++ '}' :: rest)
    rw [Written.count, Nat.add_right_comm, htext]
    refine (skipValues_open false _).trans ?_
    rw [closing_onward hcs (by decide) (Nat.add_pos_left members.count_pos _)]
    exact skipMembers_text hs members open_ fuel (hs.trailing trailing)

theorem skipItems_text (hs : s.IsBare) (i : Items) (open_ : List Bool) (fuel : Nat)
    {ws rest : List Char} (hws : ∀ c ∈ ws, isSpace c = true) :
    onward (i.count + fuel) (true :: open_, i.text s ++ (ws ++ ']' :: rest)) =
      closing true open_ rest >>= onward fuel := by
  cases i with
  | last before v behind =>
    have hbehind := spaces_append (hs.gap behind) hws
    have htext : (Items.last before v behind).text s ++ (ws ++ ']' :: rest) =
        s.gap before ++ (v.text s ++ (s.gap behind ++ ws ++ bracket true :: rest)) := by
      simp [Items.text, bracket]
    rw [Items.count, htext, onward,
      skipValues_append (hs.gap before) (Nat.add_pos_left v.count_pos _),
      skipValues_text hs v _ fuel (ends_of_bracket hbehind true),
      closing_bracket hbehind]
  | more before v behind more =>
    have htext : (Items.more before v behind more).text s ++ (ws ++ ']' :: rest) =
        s.gap before ++ (v.text s ++
          (s.gap behind ++ ',' :: (more.text s ++ (ws ++ ']' :: rest)))) := by
      simp [Items.text]
    rw [Items.count, Nat.add_assoc, htext, onward,
      skipValues_append (hs.gap before) (Nat.add_pos_left v.count_pos _),
      skipValues_text hs v _ _ (ends_of_closing (hs.gap behind) (Or.inl rfl) _),
      closing_comma (hs.gap behind)]
    exact skipItems_text hs more open_ fuel hws

theorem skipMembers_text (hs : s.IsBare) (m : Members) (open_ : List Bool) (fuel : Nat)
    {ws rest : List Char} (hws : ∀ c ∈ ws, isSpace c = true) :
    onward (m.count + fuel) (false :: open_, m.text s ++ (ws ++ '}' :: rest)) =
      closing true open_ rest >>= onward fuel := by
  cases m with
  | last key v behind =>
    have hbehind := spaces_append (hs.gap behind) hws
    have htext : (Members.last key v behind).text s ++ (ws ++ '}' :: rest) =
        key.text s ++ (v.text s ++ (s.gap behind ++ ws ++ bracket false :: rest)) := by
      simp [Members.text, bracket]
    rw [Members.count, htext, onward, skipKey_text hs]
    refine (skipValues_append (hs.gap key.ahead) (Nat.add_pos_left v.count_pos _) _ _).trans ?_
    rw [skipValues_text hs v _ fuel (ends_of_bracket hbehind false),
      closing_bracket hbehind]
  | more key v behind more =>
    have htext : (Members.more key v behind more).text s ++ (ws ++ '}' :: rest) =
        key.text s ++ (v.text s ++
          (s.gap behind ++ ',' :: (more.text s ++ (ws ++ '}' :: rest)))) := by
      simp [Members.text]
    rw [Members.count, Nat.add_assoc, htext, onward, skipKey_text hs]
    refine (skipValues_append (hs.gap key.ahead) (Nat.add_pos_left v.count_pos _) _ _).trans ?_
    rw [skipValues_text hs v _ _ (ends_of_closing (hs.gap behind) (Or.inl rfl) _),
      closing_comma (hs.gap behind)]
    exact skipMembers_text hs more open_ fuel hws

end

/-- A value that is written is stepped over. -/
theorem skipValue_text (hs : s.IsBare) (hws : ∀ c ∈ ws, isSpace c = true) (w : Written)
    (h : Ends rest) : skipValue (ws ++ (w.text s ++ rest)) = .ok rest := by
  obtain ⟨fuel, hfuel⟩ : ∃ fuel, (ws ++ (w.text s ++ rest)).length + 1 = w.count + fuel := by
    have hcount := w.count_le s
    refine ⟨(ws ++ (w.text s ++ rest)).length + 1 - w.count, ?_⟩
    simp only [List.length_append]
    omega
  rw [skipValue, hfuel, skipValues_append hws (Nat.add_pos_left w.count_pos _),
    skipValues_text hs w [] fuel h, closing_nil]
  rfl

end Reader
end ClassAtlas.Json
