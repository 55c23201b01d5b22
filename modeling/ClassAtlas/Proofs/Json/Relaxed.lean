import ClassAtlas.Proofs.Json.Reading

/-!
# What relaxed JSON stands for

`toPlain` takes from a page the comments and the trailing commas and leaves its tokens as they are
(`toPlain_relaxed`); a page that has neither it leaves alone. What is read of a relaxed page is
therefore what is read of the page without them (`ofText_toPlain`).

Both scans go through a text from left to right and either copy a piece or write something else for
it, whatever stands before and behind: `Copies`. What they do to strings and to the other tokens is
the same (`Scanner`), so one induction over the written value serves both (`Translates`).
-/
namespace ClassAtlas.Json

/-- A scan writes one text for another, whatever was kept before and whatever follows. -/
def Copies (f : List Char → List Char → List Char) (t t' : List Char) : Prop :=
  ∀ done rest, f done (t ++ rest) = f (t'.reverse ++ done) rest

namespace Copies

variable {f : List Char → List Char → List Char} {t t' u u' : List Char} {c : Char}

theorem nil : Copies f [] [] := fun _ _ => rfl

theorem append (h : Copies f t t') (h' : Copies f u u') : Copies f (t ++ u) (t' ++ u') := by
  intro done rest
  rw [List.append_assoc, h, h', List.reverse_append, List.append_assoc]

theorem cons (h : Copies f [c] [c]) (h' : Copies f u u') : Copies f (c :: u) (c :: u') :=
  h.append h'

theorem of_forall (h : ∀ c ∈ t, Copies f [c] [c]) : Copies f t t := by
  induction t with
  | nil => exact nil
  | cons c t ih =>
    exact cons (h c List.mem_cons_self) (ih fun c hc => h c (List.mem_cons_of_mem _ hc))

/-- What a scan makes of a whole text. -/
theorem whole (h : Copies f t t') (hend : ∀ done, f done [] = done.reverse) : f [] t = t' := by
  have hscan := h [] []
  rwa [List.append_nil, List.append_nil, hend, List.reverse_reverse] at hscan

theorem flatMap {α : Type} {g g' : α → List Char} (h : ∀ a, Copies f (g a) (g' a)) (as : List α) :
    Copies f (as.flatMap g) (as.flatMap g') := by
  induction as with
  | nil => exact nil
  | cons a as ih =>
    rw [List.flatMap_cons, List.flatMap_cons]
    exact (h a).append ih

end Copies

/-! ## Tokens -/

/-- Characters that no scan stops at outside of strings. -/
def IsPlain (c : Char) : Prop := c ≠ '"' ∧ c ≠ '/' ∧ c ≠ ','

instance (c : Char) : Decidable (IsPlain c) := inferInstanceAs (Decidable (_ ∧ _ ∧ _))

/-- A scan `f` that goes on as `q` inside of strings, and copies them. -/
structure Scanner (f q : List Char → List Char → List Char) : Prop where
  plain : ∀ c, IsPlain c → Copies f [c] [c]
  quote : ∀ done rest, f done ('"' :: rest) = q ('"' :: done) rest
  literal : ∀ c, c ≠ '"' → c ≠ '\\' → Copies q [c] [c]
  escape : ∀ c, Copies q ['\\', c] ['\\', c]
  close : ∀ done rest, q done ('"' :: rest) = f ('"' :: done) rest

theorem hexDigit_literal (d : HexDigit) : d.char ≠ '"' ∧ d.char ≠ '\\' := by
  constructor <;> intro h <;> have := d.h <;> rw [h] at this <;> cases this

theorem isPlain_of_isDigit {c : Char} (h : c.isDigit = true) : IsPlain c :=
  ⟨Reader.ne_of_isDigit h rfl, Reader.ne_of_isDigit h rfl, Reader.ne_of_isDigit h rfl⟩

theorem isPlain_of_mem_digits {ds : Digits} {c : Char} (h : c ∈ ds.text) : IsPlain c :=
  isPlain_of_isDigit (ds.digits c h)

theorem isPlain_of_mem_exponent {e : Exponent} {c : Char} (h : c ∈ e.text) : IsPlain c := by
  rw [Exponent.text, List.mem_cons, List.mem_append] at h
  rcases h with h | h | h
  · rcases e.marker_eq with he | he <;> rw [h, he] <;> decide
  · rcases e.sign_eq with he | he | he <;> rw [he] at h
    · cases h
    · rw [List.mem_singleton.1 h]
      decide
    · rw [List.mem_singleton.1 h]
      decide
  · exact isPlain_of_mem_digits h

theorem isPlain_of_mem_number {n : Numeral} {c : Char} (h : c ∈ n.text) : IsPlain c := by
  rw [Numeral.text, Numeral.body, List.mem_append, List.mem_append, List.mem_append] at h
  rcases h with h | h | h | h
  · split at h
    · rw [List.mem_singleton.1 h]
      decide
    · cases h
  · exact isPlain_of_mem_digits h
  · unfold Numeral.fractionText at h
    split at h
    · cases h
    · rcases List.mem_cons.1 h with h | h
      · rw [h]
        decide
      · exact isPlain_of_mem_digits h
  · unfold Numeral.exponentText at h
    split at h
    · cases h
    · exact isPlain_of_mem_exponent h

namespace Scanner

variable {f q : List Char → List Char → List Char} (h : Scanner f q)

include h

theorem copies_codeUnit (u : CodeUnit) : Copies q u.text u.text := by
  have hdigit : ∀ d : HexDigit, Copies q [d.char] [d.char] := fun d =>
    h.literal d.char (hexDigit_literal d).1 (hexDigit_literal d).2
  exact (hdigit u.a).cons ((hdigit u.b).cons ((hdigit u.c).cons (hdigit u.d)))

theorem copies_letter (l : Letter) : Copies q l.text l.text := by
  cases l with
  | literal c hc => exact h.literal c hc.1 hc.2.1
  | short c e _ => exact h.escape c
  | unit u _ => exact (h.escape 'u').append (h.copies_codeUnit u)
  | pair high low _ _ =>
    exact (h.escape 'u').append ((h.copies_codeUnit high).append
      ((h.escape 'u').append (h.copies_codeUnit low)))

/-- A string is copied, with its quotes. -/
theorem copies_string (letters : List Letter) :
    Copies f ('"' :: (lettersText letters ++ ['"'])) ('"' :: (lettersText letters ++ ['"'])) := by
  intro done rest
  have hletters : Copies q (lettersText letters) (lettersText letters) :=
    Copies.flatMap h.copies_letter letters
  rw [List.cons_append, h.quote, List.append_assoc, hletters, List.singleton_append, h.close]
  simp

theorem copies_word {word : List Char} (hword : word.all (decide <| IsPlain ·) = true) :
    Copies f word word :=
  Copies.of_forall fun c hc => h.plain c (of_decide_eq_true (List.all_eq_true.1 hword c hc))

theorem copies_scalar (s : Scalar) : Copies f s.text s.text := by
  cases s with
  | null => exact h.copies_word (by decide)
  | bool b =>
    cases b with
    | false => exact h.copies_word (by decide)
    | true => exact h.copies_word (by decide)
  | number n => exact Copies.of_forall fun c hc => h.plain c (isPlain_of_mem_number hc)
  | string letters => exact h.copies_string letters

end Scanner

/-! ## Written values -/

/-- A scan that writes a value in another style. -/
structure Translates (f : List Char → List Char → List Char) (s s' : Style) : Prop where
  gap : ∀ g, Copies f (s.gap g) (s'.gap g)
  items : ∀ i : Items, Copies f (i.text s) (i.text s') →
    Copies f (',' :: i.text s) (',' :: i.text s')
  members : ∀ m : Members, Copies f (m.text s) (m.text s') →
    Copies f (',' :: m.text s) (',' :: m.text s')
  closing : ∀ t c, c = ']' ∨ c = '}' →
    Copies f (s.trailing t ++ [c]) (s'.trailing t ++ [c])

section

variable {f q : List Char → List Char → List Char} {s s' : Style}

theorem Scanner.copies_key (hf : Scanner f q) (h : Translates f s s') (k : Key) :
    Copies f (k.text s) (k.text s') := by
  have hcolon : Copies f [':'] [':'] := hf.plain ':' (by decide)
  have htext : ∀ s : Style, k.text s = s.gap k.before ++
      ('"' :: (lettersText k.letters ++ ['"']) ++
        (s.gap k.behind ++ ([':'] ++ s.gap k.ahead))) := by
    intro s
    simp [Key.text]
  rw [htext, htext]
  exact (h.gap _).append ((hf.copies_string _).append ((h.gap _).append (hcolon.append (h.gap _))))

mutual

theorem copies_written (hf : Scanner f q) (h : Translates f s s') (w : Written) :
    Copies f (w.text s) (w.text s') := by
  have harray : Copies f ['['] ['['] := hf.plain '[' (by decide)
  have hobject : Copies f ['{'] ['{'] := hf.plain '{' (by decide)
  cases w with
  | scalar t =>
    rw [Written.text, Written.text]
    exact hf.copies_scalar t
  | emptyArray inside =>
    rw [Written.text, Written.text]
    exact harray.cons ((h.gap inside).append (hf.plain ']' (by decide)))
  | array items trailing =>
    rw [Written.text, Written.text]
    exact harray.cons ((copies_items hf h items).append (h.closing trailing ']' (Or.inl rfl)))
  | emptyObject inside =>
    rw [Written.text, Written.text]
    exact hobject.cons ((h.gap inside).append (hf.plain '}' (by decide)))
  | object members trailing =>
    rw [Written.text, Written.text]
    exact hobject.cons ((copies_members hf h members).append (h.closing trailing '}' (Or.inr rfl)))

theorem copies_items (hf : Scanner f q) (h : Translates f s s') (i : Items) :
    Copies f (i.text s) (i.text s') := by
  cases i with
  | last before v behind =>
    rw [Items.text, Items.text]
    exact (h.gap before).append ((copies_written hf h v).append (h.gap behind))
  | more before v behind rest =>
    rw [Items.text, Items.text]
    exact (h.gap before).append ((copies_written hf h v).append
      ((h.gap behind).append (h.items rest (copies_items hf h rest))))

theorem copies_members (hf : Scanner f q) (h : Translates f s s') (m : Members) :
    Copies f (m.text s) (m.text s') := by
  cases m with
  | last key v behind =>
    rw [Members.text, Members.text]
    exact (hf.copies_key h key).append ((copies_written hf h v).append (h.gap behind))
  | more key v behind rest =>
    rw [Members.text, Members.text]
    exact (hf.copies_key h key).append ((copies_written hf h v).append
      ((h.gap behind).append (h.members rest (copies_members hf h rest))))

end

theorem copies_page (hf : Scanner f q) (h : Translates f s s') (p : Page) :
    Copies f (p.text s) (p.text s') :=
  (h.gap p.before).append ((copies_written hf h p.value).append (h.gap p.behind))

end

/-! ## Comments -/

namespace Relaxed

theorem scanner_scan : Scanner (scan .text) (scan .string) where
  plain c hc done rest := scan_text hc.1 hc.2.1 done rest
  quote done rest := by rw [scan]
  literal c hquote hescape done rest := by
    rw [List.singleton_append, scan]
    · rfl
    · exact fun _ _ hc => absurd hc hescape
    · exact hquote
  escape c done rest := by
    rw [List.cons_append, List.singleton_append, scan]
    rfl
  close done rest := by rw [scan]

theorem scan_line {body : List Char} (h : '\n' ∉ body) (done rest : List Char) :
    scan .lineComment done (body ++ rest) = scan .lineComment done rest := by
  induction body with
  | nil => rfl
  | cons c body ih =>
    rw [List.mem_cons, not_or] at h
    rw [List.cons_append, scan]
    · exact ih h.2
    · exact Ne.symm h.1

/-- A line comment may end with the text. -/
theorem scan_lastLine {body : List Char} (h : '\n' ∉ body) (done : List Char) :
    scan .lineComment done body = done.reverse := by
  have hscan := scan_line h done []
  rw [List.append_nil] at hscan
  rw [hscan, scan]
  intro star heq
  cases heq

/-- A block comment goes on to the first `*` and `/` that follow each other; a star that was read
last counts. -/
theorem scan_block {body : List Char} (star : Bool)
    (h : ¬ ['*', '/'] <:+: (if star then ['*'] else []) ++ body) (done rest : List Char) :
    scan (.blockComment star) done (body ++ '*' :: '/' :: rest) =
      scan .text (' ' :: done) rest := by
  induction body generalizing star with
  | nil => cases star <;> simp [scan]
  | cons c body ih =>
    have hend : (star && c == '/') = false := by
      rw [Bool.eq_false_iff]
      intro hc
      obtain ⟨rfl, rfl⟩ : star = true ∧ c = '/' := by simpa using hc
      exact h ⟨[], body, rfl⟩
    have hrest : ¬ ['*', '/'] <:+: (if c == '*' then ['*'] else []) ++ body := by
      refine fun hin => h (hin.trans (List.IsSuffix.isInfix ?_))
      refine List.IsSuffix.trans ?_ (List.suffix_append _ _)
      split
      · rename_i hc
        rw [beq_iff_eq.1 hc]
        exact List.suffix_refl _
      · exact List.suffix_cons _ _
    rw [List.cons_append, scan]
    simp only [hend]
    exact ih _ hrest

theorem copies_line {body : List Char} (h : '\n' ∉ body) :
    Copies (scan .text) (['/', '/'] ++ body ++ ['\n']) ['\n'] := by
  intro done rest
  have hrest : ['/', '/'] ++ body ++ ['\n'] ++ rest = '/' :: '/' :: (body ++ '\n' :: rest) := by
    simp
  rw [hrest, scan, scan_line h, scan]
  rfl

theorem copies_block {body : List Char} (h : ¬ ['*', '/'] <:+: body) :
    Copies (scan .text) (['/', '*'] ++ body ++ ['*', '/']) [' '] := by
  intro done rest
  have hrest : ['/', '*'] ++ body ++ ['*', '/'] ++ rest =
      '/' :: '*' :: (body ++ '*' :: '/' :: rest) := by
    simp
  rw [hrest, scan, scan_block false h]
  rfl

theorem copies_space {c : Char} (h : Reader.isSpace c = true) : Copies (scan .text) [c] [c] := by
  refine scanner_scan.plain c ⟨?_, ?_, ?_⟩ <;> rintro rfl <;> cases h

/-- The scan for comments leaves commas as they are. -/
theorem translates_scan {s s' : Style} (hblank : ∀ b, Copies (scan .text) (s.blank b) (s'.blank b))
    (hcomma : Copies (scan .text) s.comma s'.comma) : Translates (scan .text) s s' where
  gap := Copies.flatMap hblank
  items _ h := Copies.cons (scan_text (by decide) (by decide)) h
  members _ h := Copies.cons (scan_text (by decide) (by decide)) h
  closing t c hc := by
    have hclose : Copies (scan .text) [c] [c] :=
      scanner_scan.plain c (by rcases hc with rfl | rfl <;> decide)
    cases t with
    | none => exact hclose
    | some g => exact (hcomma.append (Copies.flatMap hblank g)).append hclose

/-- Every comment becomes white space. -/
theorem translates_relaxed : Translates (scan .text) .relaxed Style.blanked.withCommas := by
  refine translates_scan (fun b => ?_) (scan_text (by decide) (by decide))
  cases b with
  | space c h => exact copies_space h
  | line body h => exact copies_line h
  | block body h => exact copies_block h

theorem translates_plain : Translates (scan .text) .plain .plain := by
  refine translates_scan (fun b => ?_) Copies.nil
  cases b with
  | space c h => exact copies_space h
  | line body h => exact Copies.nil
  | block body h => exact Copies.nil

/-! ## Trailing commas -/

theorem scanCommas_text {c : Char} (hquote : c ≠ '"') (hcomma : c ≠ ',') (done rest : List Char) :
    scanCommas false false done (c :: rest) = scanCommas false false (c :: done) rest := by
  rw [scanCommas]
  simp [hquote, hcomma]

theorem scanner_scanCommas : Scanner (scanCommas false false) (scanCommas true false) where
  plain c hc done rest := scanCommas_text hc.1 hc.2.2 done rest
  quote done rest := by
    rw [scanCommas]
    rfl
  literal c hquote hescape done rest := by
    have hgoes : (c != '"') = true := by simpa using hquote
    rw [List.singleton_append, scanCommas]
    simp [hescape, hgoes]
  escape c done rest := by
    rw [List.cons_append, List.singleton_append, scanCommas, scanCommas]
    rfl
  close done rest := by
    rw [scanCommas]
    rfl

theorem closesNext_append {ws : List Char} (hws : ∀ c ∈ ws, Text.isBlank c = true) {c : Char}
    (hc : Text.isBlank c = false) (rest : List Char) :
    closesNext (ws ++ c :: rest) = (c == '}' || c == ']') := by
  unfold closesNext
  rw [List.dropWhile_append_of_pos hws, List.dropWhile_cons_of_neg (by simp [hc])]
  split
  · rename_i heq
    rw [(List.cons.inj heq).1]
    rfl
  · rename_i heq
    rw [(List.cons.inj heq).1]
    rfl
  · rename_i hbrace hbracket
    have hne : c ≠ '}' ∧ c ≠ ']' :=
      ⟨fun h => hbrace rest (h ▸ rfl), fun h => hbracket rest (h ▸ rfl)⟩
    simp [hne.1, hne.2]

/-- Text that begins with a value or a key, white space apart. -/
def Opens (t : List Char) : Prop :=
  ∃ ws c cs, t = ws ++ c :: cs ∧ (∀ c ∈ ws, Text.isBlank c = true) ∧ Begins c

/-- A comma before a value or a key stays. -/
theorem copies_comma {t t' : List Char} (ht : Opens t)
    (h : Copies (scanCommas false false) t t') :
    Copies (scanCommas false false) (',' :: t) (',' :: t') := by
  intro done rest
  obtain ⟨ws, c, cs, rfl, hws, hc, hbracket, hbrace⟩ := ht
  have hnext : closesNext (ws ++ c :: cs ++ rest) = false := by
    rw [List.append_assoc, List.cons_append, closesNext_append hws hc]
    simp [hbracket, hbrace]
  rw [List.cons_append, scanCommas]
  simp only [hnext]
  refine (h (',' :: done) rest).trans ?_
  simp

/-- A comma before a closing bracket goes. -/
theorem drops_comma {ws : List Char} (hws : ∀ c ∈ ws, Text.isBlank c = true) {c : Char}
    (hc : c = ']' ∨ c = '}') (h : Copies (scanCommas false false) (ws ++ [c]) (ws ++ [c])) :
    Copies (scanCommas false false) (',' :: (ws ++ [c])) (ws ++ [c]) := by
  intro done rest
  have hnext : closesNext (ws ++ [c] ++ rest) = true := by
    rw [List.append_assoc, List.singleton_append, closesNext_append hws]
    · rcases hc with rfl | rfl <;> rfl
    · rcases hc with rfl | rfl <;> rfl
  rw [List.cons_append, scanCommas]
  simp only [hnext]
  exact h done rest

section

variable {s : Style} (hs : ∀ g, ∀ c ∈ s.gap g, Text.isBlank c = true)

include hs

theorem opens_items (i : Items) : Opens (i.text s) := by
  cases i with
  | last before v behind =>
    obtain ⟨c, cs, hc, hfirst⟩ := v.exists_first s
    exact ⟨s.gap before, c, _, by rw [Items.text, hc]; rfl, hs before, hfirst⟩
  | more before v behind rest =>
    obtain ⟨c, cs, hc, hfirst⟩ := v.exists_first s
    exact ⟨s.gap before, c, _, by rw [Items.text, hc]; rfl, hs before, hfirst⟩

theorem opens_members (m : Members) : Opens (m.text s) := by
  cases m with
  | last key v behind =>
    exact ⟨s.gap key.before, '"', _,
      by rw [Members.text, Key.text, List.append_assoc, List.cons_append], hs _, by decide⟩
  | more key v behind rest =>
    exact ⟨s.gap key.before, '"', _,
      by rw [Members.text, Key.text, List.append_assoc, List.cons_append], hs _, by decide⟩

/-- The scan for trailing commas leaves white space as it is. -/
theorem translates_scanCommas (hcomma : s.comma = [','] ∨ s.comma = []) :
    Translates (scanCommas false false) s { s with comma := [] } := by
  have hgap : ∀ g, Copies (scanCommas false false) (s.gap g) (s.gap g) := by
    intro g
    refine Copies.of_forall fun c hc => scanner_scanCommas.plain c ?_
    refine ⟨?_, ?_, ?_⟩ <;> rintro rfl <;> cases hs g _ hc
  refine ⟨hgap, fun i => copies_comma (opens_items hs i),
    fun m => copies_comma (opens_members hs m), ?_⟩
  intro t c hc
  have hclose : Copies (scanCommas false false) [c] [c] :=
    scanner_scanCommas.plain c (by rcases hc with rfl | rfl <;> decide)
  cases t with
  | none => exact hclose
  | some g =>
    unfold Style.trailing
    rcases hcomma with h | h <;> rw [h]
    · exact drops_comma (hs g) hc ((hgap g).append hclose)
    · exact (hgap g).append hclose

end

/-! ## Pages -/

theorem isBare_blanked : Style.blanked.IsBare :=
  ⟨fun _ c hc => by rw [List.mem_singleton.1 hc]; rfl,
    fun _ c hc => by rw [List.mem_singleton.1 hc]; rfl, rfl⟩

theorem isBare_plain : Style.plain.IsBare :=
  ⟨fun _ _ hc => absurd hc List.not_mem_nil, fun _ _ hc => absurd hc List.not_mem_nil, rfl⟩

/-- Trailing commas are dropped, and nothing else is. -/
theorem dropTrailingCommas_page {s : Style} (hs : s.IsBare) (p : Page) :
    dropTrailingCommas (p.text s) = p.text s ∧
      dropTrailingCommas (p.text s.withCommas) = p.text s := by
  have hgap : ∀ g, ∀ c ∈ s.gap g, Text.isBlank c = true := fun g c hc =>
    isBlank_of_isSpace (hs.gap g c hc)
  have hbare : { s with comma := [] } = s := by
    rw [← hs.comma]
  have hstays := translates_scanCommas hgap (Or.inr hs.comma)
  have hdrops : Translates (scanCommas false false) s.withCommas { s with comma := [] } :=
    translates_scanCommas (s := s.withCommas) hgap (Or.inl rfl)
  rw [hbare] at hstays hdrops
  exact ⟨(copies_page scanner_scanCommas hstays p).whole fun _ => by rw [scanCommas],
    (copies_page scanner_scanCommas hdrops p).whole fun _ => by rw [scanCommas]⟩

/-- Nothing but the comments and the trailing commas is taken from a page. -/
theorem toPlain_relaxed (p : Page) : toPlain p.relaxed = String.ofList (p.text .blanked) := by
  have hcomments : dropComments (p.text .relaxed ++ p.tailText) =
      p.text Style.blanked.withCommas := by
    unfold dropComments Page.tailText
    rw [copies_page scanner_scan translates_relaxed p, List.append_nil]
    cases p.tail with
    | none => rw [scan_nil, List.reverse_reverse]
    | some body => rw [scan, scan_lastLine body.2, List.reverse_reverse]
  unfold toPlain Page.relaxed
  rw [String.toList_ofList, hcomments, (dropTrailingCommas_page isBare_blanked p).2]

/-- A page with no comments and trailing commas stays as it is. -/
theorem toPlain_plain (p : Page) : toPlain p.plain = p.plain := by
  have hcomments : dropComments (p.text .plain) = p.text .plain :=
    (copies_page scanner_scan translates_plain p).whole scan_nil
  unfold toPlain Page.plain
  rw [String.toList_ofList, hcomments, (dropTrailingCommas_page isBare_plain p).1]

/-- Reading a relaxed page without its comments and trailing commas gives the value that is written
there. -/
theorem ofText_toPlain (p : Page) :
    toPlain p.plain = p.plain ∧
    (p.value.depth ≤ Reader.maxDepth →
      Reader.verdict (ofText (toPlain p.relaxed)) = Reader.verdict (ofText p.plain) ∧
      (p.value.inRange = true →
        ofText (toPlain p.relaxed) = .ok p.value.doc ∧ ofText p.plain = .ok p.value.doc)) := by
  refine ⟨toPlain_plain p, fun hdepth => ?_⟩
  rw [toPlain_relaxed]
  have hrelaxed := ofText_page isBare_blanked p hdepth
  have hplain : Reader.verdict (ofText p.plain) = ifInRange p.value.inRange p.value.doc :=
    ofText_page isBare_plain p hdepth
  refine ⟨hrelaxed.trans hplain.symm, fun hrange => ?_⟩
  rw [hrange] at hrelaxed hplain
  exact ⟨Reader.eq_ok_of_verdict hrelaxed, Reader.eq_ok_of_verdict hplain⟩

/-- Comments that look as if they ended too early, before a closing bracket and at the very end, and
a string that looks like a comment. -/
def samplePage : Page where
  before := [.line ['"'] (by decide)]
  value :=
    let one : Numeral := ⟨false, ⟨['1'], by decide, by simp⟩, by simp, none, none⟩
    let slash : Letter := .literal '/' (by decide)
    let key : Key := ⟨[], [slash, slash, .short '"' '"' rfl], [], [.block ['/'] (by decide)]⟩
    let ones : Written :=
      .array (.last [] (.scalar (.number one)) []) (some [.block ['*'] (by decide)])
    .object (.last key ones []) (some [.space '\n' rfl])
  behind := []
  tail := some ⟨[','], by decide⟩

theorem ofText_samplePage :
    samplePage.relaxed = "//\"\n\x7b\"//\\\"\":/*/*/[1,/***/],\n\x7d//," ∧
    samplePage.value.depth ≤ Reader.maxDepth ∧ samplePage.value.inRange = true ∧
    ofText (toPlain samplePage.relaxed) = .ok (.object [("//\"", .array [.number "1"])]) := by
  have hdepth : samplePage.value.depth ≤ Reader.maxDepth := by decide +kernel
  have hrange : samplePage.value.inRange = true := by decide +kernel
  have hread := (((ofText_toPlain samplePage).2 hdepth).2 hrange).1
  exact ⟨by decide +kernel, hdepth, hrange, hread⟩

end Relaxed
end ClassAtlas.Json
