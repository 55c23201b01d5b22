import ClassAtlas.Glob.Match
import Mathlib

/-!
# Globs for directories

A text without a character that globs read in a way of their own stands for itself, so such a text
with `/**/*` behind it matches what begins with the text and a separator, and nothing else
(`matches_below`).

Matching keeps the rests of a path by their lengths. All of them are ends of the path, so none is
lost (`mem_distinct`), and the rests of a sequence are those of its tokens one after the other
(`mem_sequenceRests_cons`).
-/
namespace ClassAtlas.Glob

/-! ## Rests -/

theorem isSuffix_of_mem_flatMap {f : List UInt8 → List (List UInt8)}
    (hf : ∀ s, ∀ m ∈ f s, m <:+ s) {whole : List UInt8} {texts : List (List UInt8)}
    (h : ∀ s ∈ texts, s <:+ whole) : ∀ m ∈ texts.flatMap f, m <:+ whole := by
  intro m hm
  obtain ⟨s, hs, hm⟩ := List.mem_flatMap.1 hm
  exact (hf s m hm).trans (h s hs)

theorem eq_of_isSuffix {whole s t : List UInt8} (hs : s <:+ whole) (ht : t <:+ whole)
    (hlength : s.length = t.length) : s = t :=
  (List.suffix_of_suffix_length_le hs ht hlength.le).eq_of_length hlength

/-- Rests of one text are told apart by their lengths. -/
theorem mem_distinct {whole : List UInt8} {rests : List (List UInt8)}
    (h : ∀ s ∈ rests, s <:+ whole) {r : List UInt8} : r ∈ distinct rests ↔ r ∈ rests := by
  have hfold : ∀ kept : List (List UInt8), (∀ s ∈ kept, s <:+ whole) →
      (r ∈ rests.foldl (fun kept s =>
        if kept.any (·.length == s.length) then kept else s :: kept) kept ↔
        r ∈ kept ∨ r ∈ rests) := by
    induction rests with
    | nil => simp
    | cons s rests ih =>
      intro kept hkept
      have hs : s <:+ whole := h s List.mem_cons_self
      have hrests : ∀ t ∈ rests, t <:+ whole := fun t ht => h t (List.mem_cons_of_mem s ht)
      rw [List.foldl_cons]
      split
      · rename_i hany
        obtain ⟨k, hk, hlength⟩ := List.any_eq_true.1 hany
        obtain rfl : k = s := eq_of_isSuffix (hkept k hk) hs (by simpa using hlength)
        rw [ih hrests kept hkept, List.mem_cons]
        constructor
        · tauto
        · rintro (hr | rfl | hr)
          · exact Or.inl hr
          · exact Or.inl hk
          · exact Or.inr hr
      · rw [ih hrests (s :: kept) (List.forall_mem_cons.2 ⟨hs, hkept⟩), List.mem_cons,
          List.mem_cons]
        tauto
  unfold distinct
  rw [List.mem_reverse, hfold [] (by simp)]
  simp

theorem dropWord?_eq_some_iff {word s r : List UInt8} :
    dropWord? word s = some r ↔ s = word ++ r := by
  induction word generalizing s with
  | nil => simp [dropWord?]
  | cons w word ih =>
    cases s with
    | nil => simp [dropWord?]
    | cons b s =>
      unfold dropWord?
      by_cases hw : w = b
      · simp [hw, ih]
      · simp [hw, Ne.symm hw]

theorem isSuffix_of_mem_suffixes {s r : List UInt8} (h : r ∈ suffixes s) : r <:+ s := by
  induction s with
  | nil => simp_all [suffixes]
  | cons b s ih =>
    rcases List.mem_cons.1 h with rfl | h
    · exact List.suffix_rfl
    · exact (ih h).trans (List.suffix_cons b s)

theorem isSuffix_of_mem_segmentRests {s r : List UInt8} (h : r ∈ segmentRests s) : r <:+ s := by
  induction s with
  | nil => simp_all [segmentRests]
  | cons b s ih =>
    unfold segmentRests at h
    split at h
    · simp_all
    · rcases List.mem_cons.1 h with rfl | h
      · exact List.suffix_rfl
      · exact (ih h).trans (List.suffix_cons b s)

theorem isSuffix_of_mem_directoryRests {s r : List UInt8} (h : r ∈ directoryRests s) :
    r <:+ s := by
  induction s with
  | nil => simp_all [directoryRests]
  | cons b s ih =>
    have hbehind : s <:+ b :: s := List.suffix_cons b s
    unfold directoryRests at h
    split at h
    · rcases List.mem_cons.1 h with rfl | h
      · exact hbehind
      · exact (ih h).trans hbehind
    · exact (ih h).trans hbehind

mutual

/-- What a token leaves of a text is an end of it. -/
theorem Token.isSuffix_of_mem_rests (t : Token) {s r : List UInt8} (h : r ∈ t.rests s) :
    r <:+ s := by
  cases t with
  | literal c =>
    simp only [Token.rests, Option.mem_toList, dropWord?_eq_some_iff] at h
    exact h ▸ List.suffix_append _ r
  | any =>
    simp only [Token.rests] at h
    split at h
    · split at h <;> simp_all
    · cases h
  | star => exact isSuffix_of_mem_segmentRests (by simpa only [Token.rests] using h)
  | anyPrefix =>
    simp only [Token.rests, List.mem_cons] at h
    rcases h with rfl | h
    · exact List.suffix_rfl
    · exact isSuffix_of_mem_directoryRests h
  | anySuffix =>
    simp only [Token.rests] at h
    split at h
    · split at h
      · exact (isSuffix_of_mem_suffixes h).trans (List.suffix_cons _ _)
      · cases h
    · cases h
  | anyMiddle =>
    simp only [Token.rests] at h
    split at h
    · split at h
      · rcases List.mem_cons.1 h with rfl | h
        · exact List.suffix_cons _ _
        · exact (isSuffix_of_mem_directoryRests h).trans (List.suffix_cons _ _)
      · cases h
    · cases h
  | charClass negated ranges =>
    simp only [Token.rests] at h
    split at h
    · split at h <;> simp_all
    · cases h
  | alternatives branches =>
    simp only [Token.rests] at h
    split at h
    · simp_all
    · exact isSuffix_of_mem_branchRests branches h

theorem isSuffix_of_mem_sequenceRests (ts : List Token) {whole : List UInt8}
    {texts : List (List UInt8)} (h : ∀ s ∈ texts, s <:+ whole) {r : List UInt8}
    (hr : r ∈ sequenceRests ts texts) : r <:+ whole := by
  cases ts with
  | nil => exact h r (by simpa only [sequenceRests] using hr)
  | cons t ts =>
    have hrests := isSuffix_of_mem_flatMap (fun s m => t.isSuffix_of_mem_rests) h
    simp only [sequenceRests] at hr
    exact isSuffix_of_mem_sequenceRests ts (fun m hm => hrests m ((mem_distinct hrests).1 hm)) hr

theorem isSuffix_of_mem_branchRests (branches : List (List Token)) {s r : List UInt8}
    (h : r ∈ branchRests branches s) : r <:+ s := by
  cases branches with
  | nil => simp only [branchRests] at h; cases h
  | cons ts rest =>
    simp only [branchRests] at h
    split at h
    · exact isSuffix_of_mem_branchRests rest h
    · rcases List.mem_append.1 h with h | h
      · exact isSuffix_of_mem_sequenceRests ts (by simp) h
      · exact isSuffix_of_mem_branchRests rest h

end

/-- Of several ends of one text a sequence leaves what it leaves of each. -/
theorem mem_sequenceRests {ts : List Token} {whole : List UInt8} {texts : List (List UInt8)}
    (h : ∀ s ∈ texts, s <:+ whole) {r : List UInt8} :
    r ∈ sequenceRests ts texts ↔ ∃ s ∈ texts, r ∈ sequenceRests ts [s] := by
  induction ts generalizing texts with
  | nil => simp [sequenceRests]
  | cons t ts ih =>
    have hstep : ∀ texts : List (List UInt8), (∀ s ∈ texts, s <:+ whole) →
        (r ∈ sequenceRests (t :: ts) texts ↔
          ∃ s ∈ texts, ∃ m ∈ t.rests s, r ∈ sequenceRests ts [m]) := by
      intro texts h
      have hrests := isSuffix_of_mem_flatMap (fun s m => t.isSuffix_of_mem_rests) h
      rw [sequenceRests, ih fun m hm => hrests m ((mem_distinct hrests).1 hm)]
      simp only [mem_distinct hrests, List.mem_flatMap]
      constructor
      · rintro ⟨m, ⟨s, hs, hm⟩, hr⟩
        exact ⟨s, hs, m, hm, hr⟩
      · rintro ⟨s, hs, m, hm, hr⟩
        exact ⟨m, ⟨s, hs, hm⟩, hr⟩
    rw [hstep texts h]
    refine exists_congr fun s => and_congr_right fun hs => ?_
    rw [hstep [s] (by simpa using h s hs)]
    simp

theorem mem_sequenceRests_cons {t : Token} {ts : List Token} {s r : List UInt8} :
    r ∈ sequenceRests (t :: ts) [s] ↔ ∃ m ∈ t.rests s, r ∈ sequenceRests ts [m] := by
  have hrests : ∀ m ∈ t.rests s, m <:+ s := fun m => t.isSuffix_of_mem_rests
  rw [sequenceRests, List.flatMap_singleton,
    mem_sequenceRests fun m hm => hrests m ((mem_distinct hrests).1 hm)]
  simp only [mem_distinct hrests]

theorem mem_sequenceRests_append {ts us : List Token} {s r : List UInt8} :
    r ∈ sequenceRests (ts ++ us) [s] ↔
      ∃ m ∈ sequenceRests ts [s], r ∈ sequenceRests us [m] := by
  induction ts generalizing s with
  | nil => simp [sequenceRests]
  | cons t ts ih =>
    simp only [List.cons_append, mem_sequenceRests_cons, ih]
    constructor
    · rintro ⟨m, hm, n, hn, hr⟩
      exact ⟨n, ⟨m, hm, hn⟩, hr⟩
    · rintro ⟨n, ⟨m, hm, hn⟩, hr⟩
      exact ⟨m, hm, n, hn, hr⟩

/-! ## Characters and their bytes -/

theorem mem_rests_literals {cs : List Char} {s r : List UInt8} :
    r ∈ sequenceRests (cs.map .literal) [s] ↔ s = cs.flatMap charBytes ++ r := by
  induction cs generalizing s with
  | nil => simp [sequenceRests, eq_comm]
  | cons c cs ih =>
    rw [List.map_cons, mem_sequenceRests_cons]
    simp only [ih, Token.rests, Option.mem_toList, dropWord?_eq_some_iff, List.flatMap_cons,
      List.append_assoc]
    exact ⟨fun ⟨m, hs, hm⟩ => hm ▸ hs, fun hs => ⟨_, hs, rfl⟩⟩

/-- The bytes of one character do not begin those of another one. -/
theorem charBytes_append_inj {c d : Char} {s t : List UInt8}
    (h : charBytes c ++ s = charBytes d ++ t) : c = d ∧ s = t := by
  have hdecode : ∀ (e : Char) (u : List UInt8),
      (charBytes e ++ u).toByteArray.utf8DecodeChar? 0 = some e := by
    intro e u
    rw [List.toByteArray_append, charBytes, ← List.utf8Encode_singleton,
      List.utf8DecodeChar?_utf8Encode_singleton_append]
  have hc : c = d := Option.some.inj (by rw [← hdecode c s, h, hdecode d t])
  subst hc
  exact ⟨rfl, List.append_cancel_left h⟩

theorem flatMap_charBytes_isPrefix {cs ds : List Char} :
    cs.flatMap charBytes <+: ds.flatMap charBytes ↔ cs <+: ds := by
  constructor
  · intro h
    induction cs generalizing ds with
    | nil => exact List.nil_prefix
    | cons c cs ih =>
      obtain ⟨r, hr⟩ := h
      cases ds with
      | nil =>
        simp [charBytes] at hr
      | cons d ds =>
        rw [List.flatMap_cons, List.flatMap_cons, List.append_assoc] at hr
        obtain ⟨rfl, hrest⟩ := charBytes_append_inj hr
        exact List.cons_prefix_cons.2 ⟨rfl, ih ⟨r, hrest⟩⟩
  · rintro ⟨rest, rfl⟩
    rw [List.flatMap_append]
    exact List.prefix_append _ _

theorem toList_loop (bytes : ByteArray) (i : Nat) (read : List UInt8) :
    ByteArray.toList.loop bytes i read = read.reverse ++ bytes.data.toList.drop i := by
  fun_induction ByteArray.toList.loop bytes i read with
  | case1 i read h ih =>
    have hi : i < bytes.data.toList.length := by simpa using h
    rw [ih, List.drop_eq_getElem_cons hi]
    simp [ByteArray.get!, h]
  | case2 i read h =>
    rw [List.drop_eq_nil_of_le (by simpa using h)]
    simp

theorem bytes_eq (text : String) : text.toUTF8.toList = text.toList.flatMap charBytes := by
  have hbytes : text.toUTF8 = (text.toList.flatMap charBytes).toByteArray := by
    have hencode := String.toByteArray_ofList (l := text.toList)
    rw [String.ofList_toList] at hencode
    rw [String.toUTF8_eq_toByteArray, hencode]
    rfl
  rw [hbytes, ByteArray.toList, toList_loop]
  simp [List.data_toByteArray]

/-! ## Texts that stand for themselves -/

/-- The characters that globs read in a way of their own. -/
def specials : List Char := ['*', '?', '[', '{', '}', '\\']

namespace Pattern

theorem read_literal {p : Progress} (hp : p.groups = []) {c : Char} (hc : c ∉ specials)
    (cs : List Char) : read p none (c :: cs) = read (p.push (.literal c) c) none cs := by
  simp only [specials, List.mem_cons, List.not_mem_nil, or_false, not_or] at hc
  obtain ⟨hstar, hany, hclass, hopen, hclose, hescape⟩ := hc
  by_cases hcomma : c = ','
  · subst hcomma
    simp [read, Progress.comma, hp]
  · rw [read] <;> grind

theorem read_literals {p : Progress} (hp : p.groups = []) {cs : List Char}
    (hcs : ∀ c ∈ cs, c ∉ specials) (rest : List Char) :
    ∃ last, read p none (cs ++ rest) =
      read ⟨(cs.map .literal).reverse ++ p.branch, [], last⟩ none rest := by
  induction cs generalizing p with
  | nil => exact ⟨p.last, by rw [← hp]; rfl⟩
  | cons c cs ih =>
    obtain ⟨last, hread⟩ := ih (p := p.push (.literal c) c) hp
      fun c' hc' => hcs c' (List.mem_cons_of_mem c hc')
    refine ⟨last, ?_⟩
    rw [List.cons_append, read_literal hp (hcs c List.mem_cons_self), hread]
    simp [Progress.push]

theorem parse_below {text : String} (h : ∀ c ∈ text.toList, c ∉ specials) :
    parse (text ++ "/**/*") = .ok (text.toList.map .literal ++ [.anyMiddle, .star]) := by
  obtain ⟨last, hread⟩ := read_literals (p := ⟨[], [], none⟩) rfl h "/**/*".toList
  unfold parse
  rw [String.toList_append, hread]
  simp [read, Progress.push, Progress.atSegment, Progress.doubleStar]

end Pattern

/-! ## What they match -/

/-- Any number of directories and a name behind them: that is every text. -/
theorem exists_mem_directoryRests (s : List UInt8) :
    ∃ m ∈ s :: directoryRests s, [] ∈ segmentRests m := by
  induction s with
  | nil => exact ⟨[], List.mem_cons_self, by simp [segmentRests]⟩
  | cons b s ih =>
    obtain ⟨m, hm, hnil⟩ := ih
    by_cases hb : b = slash
    · exact ⟨m, List.mem_cons_of_mem _ (by simpa [directoryRests, hb] using hm), hnil⟩
    · rcases List.mem_cons.1 hm with rfl | hm
      · exact ⟨b :: m, List.mem_cons_self, by simpa [segmentRests, hb] using hnil⟩
      · exact ⟨m, List.mem_cons_of_mem _ (by simpa [directoryRests, hb] using hm), hnil⟩

theorem mem_rests_anyMiddle {s m : List UInt8} :
    m ∈ Token.anyMiddle.rests s ↔ ∃ r, s = slash :: r ∧ m ∈ r :: directoryRests r := by
  cases s with
  | nil => simp [Token.rests]
  | cons b s =>
    by_cases hb : b = slash <;> simp [Token.rests, hb]

theorem mem_rests_star {s r : List UInt8} :
    r ∈ sequenceRests [.star] [s] ↔ r ∈ segmentRests s := by
  rw [mem_sequenceRests_cons]
  simp [Token.rests, sequenceRests]

namespace Pattern

theorem matches_iff {p : Pattern} (hp : p ≠ [.anyPrefix]) {path : String} :
    p.matches path = true ↔ [] ∈ sequenceRests p [path.toList.flatMap charBytes] := by
  unfold Pattern.matches
  split
  · exact absurd rfl hp
  · rw [bytes_eq, List.any_eq_true]
    simp

/-- A text that stands for itself matches, with all that is below it, what begins with it and a
separator. -/
theorem matches_below {text : String} (h : ∀ c ∈ text.toList, c ∉ specials) :
    ∃ glob, parse (text ++ "/**/*") = .ok glob ∧
      ∀ path, glob.matches path = true ↔ ∃ rest, path = text ++ "/" ++ rest := by
  refine ⟨_, parse_below h, fun path => ?_⟩
  have hp : text.toList.map Token.literal ++ [.anyMiddle, .star] ≠ [.anyPrefix] := fun heq => by
    simpa using congrArg List.length heq
  have hslash : (text.toList ++ ['/']).flatMap charBytes =
      text.toList.flatMap charBytes ++ [slash] := by
    rw [List.flatMap_append]
    rfl
  rw [matches_iff hp, mem_sequenceRests_append]
  simp only [mem_rests_literals, mem_sequenceRests_cons (t := .anyMiddle), mem_rests_anyMiddle,
    mem_rests_star]
  constructor
  · rintro ⟨s, hpath, m, ⟨r, rfl, -⟩, -⟩
    obtain ⟨rest, hrest⟩ := flatMap_charBytes_isPrefix.1
      (show (text.toList ++ ['/']).flatMap charBytes <+: path.toList.flatMap charBytes from
        ⟨r, by rw [hpath, hslash, List.append_assoc]; rfl⟩)
    exact ⟨String.ofList rest, by rw [← String.toList_inj, ← hrest]; simp⟩
  · rintro ⟨rest, rfl⟩
    obtain ⟨m, hm, hnil⟩ := exists_mem_directoryRests (rest.toList.flatMap charBytes)
    refine ⟨_, ?_, m, ⟨_, rfl, hm⟩, hnil⟩
    rw [String.toList_append, String.toList_append, List.flatMap_append, List.flatMap_append,
      List.append_assoc]
    rfl

/-- Any name in any directory is every path. -/
theorem matches_everything :
    ∃ glob, parse "**/*" = .ok glob ∧ ∀ path : String, glob.matches path = true := by
  refine ⟨[.anyPrefix, .star], rfl, fun path => ?_⟩
  obtain ⟨m, hm, hnil⟩ := exists_mem_directoryRests (path.toList.flatMap charBytes)
  rw [matches_iff (by simp), mem_sequenceRests_cons]
  exact ⟨m, by simpa only [Token.rests] using hm, mem_rests_star.2 hnil⟩

end Pattern

end ClassAtlas.Glob
