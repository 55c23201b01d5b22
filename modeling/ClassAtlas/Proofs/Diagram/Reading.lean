import ClassAtlas.Proofs.Diagram.Lines

/-!
# Reading a diagram

A diagram can be read back into the model it shows. What a line is can be told from the line alone:
a method is indented, the end of a class is a lone brace, the opening of a class begins with the
word `class`, and the line of a relationship with any other word (`Line.ofChars?`). The lines are
put together from the last to the first (`gather`): whoever comes to the opening of a class has met
its methods already.

* `decode_render`: a legible model is read from its diagram, whatever stands in its signatures and
  bases; what can be read at all is the diagram of what is read; so no other legible model has the
  same diagram.
-/
namespace ClassAtlas

/-- No text of a model has a line break, and relationships begin with a word that is not `class`.
Names may be empty, and the names of classes may have blanks in them. -/
structure Model.Legible (m : Model) : Prop where
  names : ∀ c ∈ m.classes, OneLine c.name
  methods : ∀ c ∈ m.classes, ∀ s ∈ c.methods, OneLine s
  sources : ∀ r ∈ m.relationships, OneLine r.source ∧ ' ' ∉ r.source.toList ∧ r.source ≠ "class"
  bases : ∀ r ∈ m.relationships, OneLine r.base

namespace Diagram

/-! ## One line -/

/-- What a line between header and trailer is. -/
inductive Line where
  | opening (name : String)
  | method (signature : String)
  | closing
  | edge (r : Relationship)
deriving DecidableEq, Repr, Inhabited

namespace Line

def text : Line → String
  | .opening name => "class " ++ name ++ " \x7b"
  | .method signature => "  " ++ signature
  | .closing => "\x7d"
  | .edge r => edgeLine r

/-- The opening of a class, behind its first word. -/
def openingOf? (rest : List Char) : Option Line :=
  ([' ', '\x7b'].isSuffixOf? rest).map fun name => .opening (String.ofList name)

/-- A relationship: a word, an arrow, and any text. -/
def edgeOf? (cs : List Char) : Option Line :=
  ([' ', '-', '-', '>', ' '].isPrefixOf? (cs.dropWhile (· ≠ ' '))).map fun base =>
    .edge ⟨String.ofList (cs.takeWhile (· ≠ ' ')), String.ofList base⟩

def ofChars? (cs : List Char) : Option Line :=
  if cs = ['\x7d'] then some .closing
  else match [' ', ' '].isPrefixOf? cs with
    | some signature => some (.method (String.ofList signature))
    | none => match ['c', 'l', 'a', 's', 's', ' '].isPrefixOf? cs with
      | some rest => openingOf? rest
      | none => edgeOf? cs

/-- Whether a line can be told from its text. -/
def IsPlain : Line → Prop
  | .edge r => ' ' ∉ r.source.toList ∧ r.source ≠ "class"
  | _ => True

/-- The first word of a text and what follows it. -/
theorem cut_word {word : List Char} (h : ' ' ∉ word) (rest : List Char) :
    (word ++ ' ' :: rest).takeWhile (· ≠ ' ') = word ∧
      (word ++ ' ' :: rest).dropWhile (· ≠ ' ') = ' ' :: rest := by
  have hword : ∀ c ∈ word, decide (c ≠ ' ') = true := by
    intro c hc
    exact decide_eq_true fun heq => h (heq ▸ hc)
  rw [List.takeWhile_append_of_pos hword, List.dropWhile_append_of_pos hword]
  simp

/-- Two texts that begin with a word and a blank begin with the same word. -/
theorem word_inj {v w r s : List Char} (hv : ' ' ∉ v) (hw : ' ' ∉ w)
    (h : v ++ ' ' :: r = w ++ ' ' :: s) : v = w ∧ r = s := by
  have hword := congrArg (List.takeWhile (· ≠ ' ')) h
  rw [(cut_word hv r).1, (cut_word hw s).1] at hword
  subst hword
  exact ⟨rfl, by simpa using h⟩

theorem ofChars?_edge {r : Relationship} (hblank : ' ' ∉ r.source.toList)
    (hclass : r.source ≠ "class") : ofChars? (edge r).text.toList = some (.edge r) := by
  have htext : (edge r).text.toList = r.source.toList ++ ' ' :: ('-' :: '-' :: '>' :: ' ' ::
      r.base.toList) := by
    simp [text, edgeLine]
  have hclosing : (edge r).text.toList ≠ ['\x7d'] := by
    intro h
    have hmem : ' ' ∈ ['\x7d'] := h ▸ htext ▸ by simp
    simp at hmem
  -- an empty word is followed by the arrow and not by a second blank
  have hmethod : [' ', ' '].isPrefixOf? (edge r).text.toList = none := by
    refine Option.eq_none_iff_forall_ne_some.2 fun rest h => ?_
    rw [List.isPrefixOf?_eq_some_iff_append_eq, htext] at h
    obtain ⟨-, hrest⟩ := word_inj (v := []) (r := ' ' :: rest) (by simp) hblank h
    cases hrest
  have hopening : ['c', 'l', 'a', 's', 's', ' '].isPrefixOf? (edge r).text.toList = none := by
    refine Option.eq_none_iff_forall_ne_some.2 fun rest h => ?_
    rw [List.isPrefixOf?_eq_some_iff_append_eq, htext] at h
    obtain ⟨hword, -⟩ := word_inj (v := ['c', 'l', 'a', 's', 's']) (r := rest) (by simp) hblank h
    exact hclass (String.toList_inj.1 hword.symm)
  have hedge : edgeOf? (edge r).text.toList = some (.edge r) := by
    unfold edgeOf?
    rw [htext, (cut_word hblank _).1, (cut_word hblank _).2]
    simp [List.isPrefixOf?]
  unfold ofChars?
  rw [if_neg hclosing, hmethod, hopening]
  exact hedge

theorem ofChars?_text {l : Line} (h : l.IsPlain) : ofChars? l.text.toList = some l := by
  cases l with
  | opening name =>
    have hrest : [' ', '\x7b'].isSuffixOf? (name.toList ++ [' ', '\x7b']) = some name.toList :=
      List.isSuffixOf?_eq_some_iff_append_eq.2 rfl
    simp [ofChars?, text, List.isPrefixOf?, openingOf?, hrest]
  | method signature => simp [ofChars?, text, List.isPrefixOf?]
  | closing => rfl
  | edge r => exact ofChars?_edge h.1 h.2

/-- A line is told to be what it is. -/
theorem text_of_ofChars? {cs : List Char} {l : Line} (h : ofChars? cs = some l) :
    l.text.toList = cs := by
  unfold ofChars? at h
  split at h
  · rename_i hcs
    cases h
    exact hcs.symm
  · split at h
    · rename_i signature hcs
      cases h
      rw [← List.isPrefixOf?_eq_some_iff_append_eq.1 hcs]
      simp [text]
    · split at h
      · rename_i rest hcs
        obtain ⟨name, hname, rfl⟩ := Option.map_eq_some_iff.1 h
        rw [← List.isPrefixOf?_eq_some_iff_append_eq.1 hcs,
          ← List.isSuffixOf?_eq_some_iff_append_eq.1 hname]
        simp [text]
      · obtain ⟨base, hbase, rfl⟩ := Option.map_eq_some_iff.1 h
        have hcs := List.takeWhile_append_dropWhile (p := (· ≠ ' ')) (l := cs)
        rw [← List.isPrefixOf?_eq_some_iff_append_eq.1 hbase] at hcs
        refine Eq.trans ?_ hcs
        simp [text, edgeLine]

end Line

/-! ## The lines of a model -/

def classLines (c : ClassEntry) : List Line :=
  .opening c.name :: (c.methods.map .method ++ [.closing])

/-- What stands between header and trailer. -/
def modelLines (m : Model) : List Line :=
  m.classes.flatMap classLines ++ m.relationships.map .edge

theorem lines_eq (m : Model) :
    lines m = header :: ((modelLines m).map Line.text ++ [trailer]) := by
  have hblock : ∀ c : ClassEntry, (classLines c).map Line.text = blockLines c := by
    intro c
    simp [classLines, blockLines, Line.text]
  simp [lines, modelLines, List.map_flatMap, hblock, Line.text]

/-- What was read from the last line on: the methods of a class whose opening is still to come, if
there is one, and the model behind them. -/
structure Tail where
  methods : Option (List String)
  model : Model
deriving DecidableEq, Repr, Inhabited

/-- The lines that were read. -/
def Tail.lines : Tail → List Line
  | ⟨none, m⟩ => modelLines m
  | ⟨some ms, m⟩ => ms.map .method ++ .closing :: modelLines m

/-- One line more, in front of those that were read. -/
def Tail.push : Tail → Line → Option Tail
  | ⟨some ms, m⟩, .opening name => some ⟨none, ⟨⟨name, ms⟩ :: m.classes, m.relationships⟩⟩
  | ⟨some ms, m⟩, .method signature => some ⟨some (signature :: ms), m⟩
  | ⟨none, m⟩, .closing => some ⟨some [], m⟩
  | ⟨none, ⟨[], rs⟩⟩, .edge r => some ⟨none, ⟨[], r :: rs⟩⟩
  | _, _ => none

theorem Tail.lines_push {t u : Tail} {l : Line} (h : t.push l = some u) :
    u.lines = l :: t.lines := by
  unfold push at h
  split at h <;> cases h <;> simp [lines, modelLines, classLines]

def gather : List (List Char) → Option Tail
  | [] => some ⟨none, Model.empty⟩
  | cs :: rest => (gather rest).bind fun t => (Line.ofChars? cs).bind t.push

/-- Nothing is gathered but what stands there. -/
theorem eq_lines_of_gather {css : List (List Char)} {t : Tail} (h : gather css = some t) :
    css = t.lines.map (·.text.toList) := by
  induction css generalizing t with
  | nil =>
    cases h
    rfl
  | cons cs rest ih =>
    obtain ⟨u, hu, h⟩ := Option.bind_eq_some_iff.1 h
    obtain ⟨l, hl, h⟩ := Option.bind_eq_some_iff.1 h
    rw [Tail.lines_push h, List.map_cons, Line.text_of_ofChars? hl, ← ih hu]

theorem gather_cons {l : Line} (hl : l.IsPlain) {css : List (List Char)} {t : Tail}
    (h : gather css = some t) : gather (l.text.toList :: css) = t.push l := by
  rw [gather, h, Option.bind_some, Line.ofChars?_text hl, Option.bind_some]

theorem gather_edges {rs : List Relationship} (h : ∀ r ∈ rs, (Line.edge r).IsPlain) :
    gather (rs.map fun r => (Line.edge r).text.toList) = some ⟨none, ⟨[], rs⟩⟩ := by
  induction rs with
  | nil => rfl
  | cons r rs ih =>
    have hrest := ih fun s hs => h s (List.mem_cons_of_mem r hs)
    exact gather_cons (h r List.mem_cons_self) hrest

theorem gather_methods (signatures : List String) {css : List (List Char)} {ms : List String}
    {m : Model} (h : gather css = some ⟨some ms, m⟩) :
    gather (signatures.map (fun s => (Line.method s).text.toList) ++ css) =
      some ⟨some (signatures ++ ms), m⟩ := by
  induction signatures with
  | nil => exact h
  | cons s signatures ih => exact gather_cons (l := .method s) trivial ih

/-- The lines of a class put it in front of what was read. -/
theorem gather_classLines (c : ClassEntry) {css : List (List Char)} {m : Model}
    (h : gather css = some ⟨none, m⟩) :
    gather ((classLines c).map (·.text.toList) ++ css) =
      some ⟨none, ⟨c :: m.classes, m.relationships⟩⟩ := by
  -- its last line is met first
  have hclosing : gather (Line.closing.text.toList :: css) = some ⟨some [], m⟩ :=
    gather_cons (l := .closing) trivial h
  have hmethods := gather_methods c.methods hclosing
  rw [List.append_nil] at hmethods
  have hopening := gather_cons (l := .opening c.name) trivial hmethods
  simpa [classLines, Function.comp_def, Tail.push] using hopening

theorem gather_modelLines {m : Model} (h : ∀ r ∈ m.relationships, (Line.edge r).IsPlain) :
    gather ((modelLines m).map (·.text.toList)) = some ⟨none, m⟩ := by
  obtain ⟨classes, relationships⟩ := m
  unfold modelLines
  rw [List.map_append, List.map_map]
  induction classes with
  | nil => exact gather_edges h
  | cons c classes ih =>
    rw [List.flatMap_cons, List.map_append, List.append_assoc]
    exact gather_classLines c (ih h)

/-! ## The whole text -/

/-- Reads a diagram: nothing is read from what is none. -/
def decode (text : String) : Option Model :=
  match Text.split '\n' text.toList with
  | [] => none
  | first :: rest =>
    if first = header.toList ∧ rest.getLast? = some trailer.toList then
      match gather rest.dropLast with
      | some ⟨none, m⟩ => some m
      | _ => none
    else none

/-- What can be read is the diagram of what is read. -/
theorem render_of_decode {text : String} {m : Model} (h : decode text = some m) :
    render m = text := by
  unfold decode at h
  split at h
  · cases h
  · rename_i first rest hsplit
    split at h
    · rename_i hends
      split at h
      · rename_i m' hgather
        cases h
        have hbetween : rest.dropLast = (modelLines m).map (·.text.toList) :=
          eq_lines_of_gather hgather
        have hrest : rest = (modelLines m).map (·.text.toList) ++ [trailer.toList] := by
          rw [← hbetween]
          exact (List.dropLast_append_getLast? _ hends.2).symm
        have hlines : Text.split '\n' text.toList = (lines m).map String.toList := by
          rw [hsplit, lines_eq, hends.1, hrest]
          simp
        refine String.toList_inj.1 ?_
        rw [← Text.join_split '\n' text.toList, hlines]
        exact (Text.join_map_toList rfl _).symm
      · cases h
    · cases h

theorem decode_of_legible {m : Model} (h : m.Legible) : decode (render m) = some m := by
  have hone : ∀ l ∈ lines m, OneLine l := by
    refine oneLine_lines.2 ⟨fun c hc => ⟨h.names c hc, h.methods c hc⟩, fun r hr => ?_⟩
    exact ⟨(h.sources r hr).1, h.bases r hr⟩
  have hgather : gather ((modelLines m).map (·.text.toList)) = some ⟨none, m⟩ :=
    gather_modelLines fun r hr => (h.sources r hr).2
  have hsplit : Text.split '\n' (render m).toList =
      header.toList :: ((modelLines m).map (·.text.toList) ++ [trailer.toList]) := by
    rw [split_render_of_oneLine hone, lines_eq]
    simp
  unfold decode
  simp [hsplit, hgather]

/-- **The diagram determines the model.** -/
theorem decode_render {m : Model} (hm : m.Legible) : decode (render m) = some m ∧
    (∀ text, decode text = some m → text = render m) ∧
    ∀ n : Model, n.Legible → render n = render m → n = m := by
  refine ⟨decode_of_legible hm, fun text h => (render_of_decode h).symm, ?_⟩
  intro n hn heq
  have hread : decode (render m) = some n := heq ▸ decode_of_legible hn
  rw [decode_of_legible hm] at hread
  exact (Option.some.inj hread).symm

/-- Signatures and bases that look like other lines. -/
def misleading : Model :=
  ⟨[⟨"A", ["\x7d", "class B \x7b", "A --> B", ""]⟩, ⟨"class", []⟩],
    [⟨"A", "B \x7b"⟩, ⟨"\x7d", "class --> A"⟩, ⟨"@enduml", ""⟩]⟩

theorem legible_misleading : misleading.Legible :=
  ⟨by decide, by decide, by decide, by decide⟩

theorem decode_render_misleading :
    misleading.Legible ∧ decode (render misleading) = some misleading :=
  ⟨legible_misleading, (decode_render legible_misleading).1⟩

end Diagram
end ClassAtlas
