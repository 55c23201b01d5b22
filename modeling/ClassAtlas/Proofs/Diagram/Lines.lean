import ClassAtlas.Diagram.Render
import ClassAtlas.Extraction.Extract
import Mathlib

/-!
# The lines of a diagram

A diagram is joined from lines, one for each opening and each end of a class, each method and each
relationship. Cutting its text gives these lines again only if none of them has a line break in it
(`split_render_of_oneLine`): one that has some gives a line more for each (`length_split_render`).

The texts in a diagram are taken from a source as they are written there, `ClassDecl.texts` lists
them, and a type or a base expression may be written over several lines. `lines_of_extract` says
what becomes of the diagram of a file then: it has a line more than it should for every line break
in these texts, and just the lines it should have if there is none.
-/
namespace ClassAtlas

/-- No line break stands in a text. -/
def OneLine (t : String) : Prop := '\n' ∉ t.toList

instance (t : String) : Decidable (OneLine t) := inferInstanceAs (Decidable (_ ∉ _))

/-- How many line breaks stand in a text. -/
def lineBreaks (t : String) : Nat := t.toList.count '\n'

theorem lineBreaks_eq_zero {t : String} : lineBreaks t = 0 ↔ OneLine t := List.count_eq_zero

@[simp] theorem oneLine_append {s t : String} : OneLine (s ++ t) ↔ OneLine s ∧ OneLine t := by
  simp [OneLine, not_or]

theorem oneLine_intercalate {sep : String} (hsep : OneLine sep) {ts : List String} :
    OneLine (sep.intercalate ts) ↔ ∀ t ∈ ts, OneLine t := by
  induction ts with
  | nil => simp [OneLine]
  | cons t ts ih =>
    cases ts with
    | nil => simp
    | cons u us =>
      rw [String.intercalate_cons_cons, oneLine_append, oneLine_append, ih]
      simp [hsep]

namespace Text

/-- Cutting what was joined from lines cuts each of them. -/
theorem split_intercalate {ls : List String} (hne : ls ≠ []) :
    split '\n' (String.intercalate "\n" ls).toList = ls.flatMap fun l => split '\n' l.toList := by
  induction ls with
  | nil => exact absurd rfl hne
  | cons l rest ih =>
    cases rest with
    | nil => simp
    | cons next rest =>
      have htext : (String.intercalate "\n" (l :: next :: rest)).toList =
          l.toList ++ '\n' :: (String.intercalate "\n" (next :: rest)).toList := by
        simp [String.intercalate_cons_cons]
      rw [htext, split_append_sep, ih (List.cons_ne_nil _ _)]
      rfl

end Text

/-! ## What a declaration takes from its source -/

/-- The texts that a method takes from its source. -/
def MethodDecl.texts (m : MethodDecl) : List String :=
  m.name :: m.returns :: m.params.flatMap fun p => p.name :: p.annotation.toList

/-- The texts that a class takes from its source. -/
def ClassDecl.texts (c : ClassDecl) : List String :=
  c.name.toList ++ c.base.toList ++ c.methods.flatMap (·.texts)

theorem oneLine_displayName {name : Option String} :
    OneLine (displayName name) ↔ ∀ n ∈ name.toList, OneLine n := by
  unfold displayName
  cases name with
  | none => simp [OneLine, unnamedClass]
  | some n =>
    by_cases hn : n = ""
    · simp [hn, OneLine, unnamedClass]
    · simp [hn]

theorem oneLine_typeText {p : Parameter} :
    OneLine p.typeText ↔ ∀ t ∈ p.annotation.toList, OneLine t := by
  unfold Parameter.typeText
  cases p.annotation with
  | none => simp [OneLine, implicitType]
  | some t => simp

/-- A signature stands on one line if the texts in it do. -/
theorem MethodDecl.oneLine_signature {m : MethodDecl} :
    OneLine m.signature ↔ ∀ t ∈ m.texts, OneLine t := by
  have hcomma : OneLine ", " := by decide
  have hcolon : OneLine ": " := by decide
  have hopen : OneLine "(" := by decide
  have hclose : OneLine "): " := by decide
  unfold MethodDecl.signature ClassAtlas.signature texts
  simp only [oneLine_append, oneLine_intercalate hcomma, hopen, hclose, List.map_map,
    List.forall_mem_map, Function.comp_apply, hcolon, oneLine_typeText, List.forall_mem_cons,
    List.mem_flatMap, and_true]
  constructor
  · rintro ⟨⟨hname, hparams⟩, hreturns⟩
    refine ⟨hname, hreturns, ?_⟩
    rintro t ⟨p, hp, ht⟩
    rcases List.mem_cons.1 ht with rfl | ht
    · exact (hparams p hp).1
    · exact (hparams p hp).2 t ht
  · rintro ⟨hname, hreturns, hparams⟩
    refine ⟨⟨hname, fun p hp => ⟨?_, ?_⟩⟩, hreturns⟩
    · exact hparams _ ⟨p, hp, List.mem_cons_self⟩
    · exact fun t ht => hparams t ⟨p, hp, List.mem_cons_of_mem _ ht⟩

namespace Diagram

/-! ## The lines that are written -/

/-- How many lines a diagram should have. -/
def lineCount (m : Model) : Nat :=
  2 + (m.classes.map fun c => 2 + c.methods.length).sum + m.relationships.length

theorem length_blockLines (c : ClassEntry) : (blockLines c).length = 2 + c.methods.length := by
  simp [blockLines]
  omega

theorem length_lines (m : Model) : (lines m).length = lineCount m := by
  simp [lines, lineCount, length_blockLines]
  omega

theorem split_render (m : Model) : Text.split '\n' (render m).toList =
    (lines m).flatMap fun l => Text.split '\n' l.toList :=
  Text.split_intercalate (List.cons_ne_nil _ _)

/-- Each line break in a line gives a line more. -/
theorem length_split_render (m : Model) : (Text.split '\n' (render m).toList).length =
    lineCount m + ((lines m).map lineBreaks).sum := by
  -- a text is cut into one piece more than it has breaks
  have hsum : ∀ ls : List String, (ls.map fun l => (Text.split '\n' l.toList).length).sum =
      ls.length + (ls.map lineBreaks).sum := by
    intro ls
    induction ls with
    | nil => rfl
    | cons l ls ih =>
      rw [List.map_cons, List.sum_cons, ih, Text.length_split, List.map_cons, List.sum_cons,
        List.length_cons, lineBreaks]
      omega
  rw [split_render, List.length_flatMap, hsum, length_lines]

theorem split_render_of_oneLine {m : Model} (h : ∀ l ∈ lines m, OneLine l) :
    Text.split '\n' (render m).toList = (lines m).map String.toList := by
  have hsplit : ∀ l ∈ lines m, Text.split '\n' l.toList = [l.toList] :=
    fun l hl => Text.split_of_not_mem (h l hl)
  rw [split_render, List.flatMap_congr hsplit, ← List.map_eq_flatMap]

theorem length_split_render_eq_iff {m : Model} :
    (Text.split '\n' (render m).toList).length = lineCount m ↔ ∀ l ∈ lines m, OneLine l := by
  rw [length_split_render, Nat.add_eq_left, List.sum_eq_zero_iff_forall_eq_nat,
    List.forall_mem_map]
  simp only [lineBreaks_eq_zero]

theorem oneLine_lines {m : Model} : (∀ l ∈ lines m, OneLine l) ↔
    (∀ c ∈ m.classes, OneLine c.name ∧ ∀ s ∈ c.methods, OneLine s) ∧
      ∀ r ∈ m.relationships, OneLine r.source ∧ OneLine r.base := by
  have hblock : ∀ c : ClassEntry, (∀ l ∈ blockLines c, OneLine l) ↔
      OneLine c.name ∧ ∀ s ∈ c.methods, OneLine s := by
    intro c
    have hclass : OneLine "class " := by decide
    have hopening : OneLine " \x7b" := by decide
    have hindent : OneLine "  " := by decide
    have hclosing : OneLine "\x7d" := by decide
    simp [blockLines, or_imp, forall_and, hclass, hopening, hindent, hclosing]
  have hedge : ∀ r : Relationship, OneLine (edgeLine r) ↔ OneLine r.source ∧ OneLine r.base := by
    intro r
    have harrow : OneLine " --> " := by decide
    simp [edgeLine, harrow]
  have hheader : OneLine header := by decide
  have htrailer : OneLine trailer := by decide
  constructor
  · intro h
    refine ⟨fun c hc => (hblock c).1 fun l hl => h l ?_, fun r hr => (hedge r).1 (h _ ?_)⟩
    · exact List.mem_cons_of_mem _ (List.mem_append_left _
        (List.mem_append_left _ (List.mem_flatMap_of_mem hc hl)))
    · exact List.mem_cons_of_mem _ (List.mem_append_left _
        (List.mem_append_right _ (List.mem_map_of_mem hr)))
  · rintro ⟨hclasses, hedges⟩ l hl
    simp only [lines, List.mem_cons, List.mem_append, List.mem_flatMap, List.mem_map,
      List.not_mem_nil, or_false] at hl
    rcases hl with rfl | ((⟨c, hc, hl⟩ | ⟨r, hr, rfl⟩) | rfl)
    · exact hheader
    · exact (hblock c).2 (hclasses c hc) l hl
    · exact (hedge r).2 (hedges r hr)
    · exact htrailer

/-- The lines of declarations have breaks in them only where their texts do. -/
theorem oneLine_lines_ofClasses {cs : List ClassDecl} :
    (∀ l ∈ lines (Model.ofClasses cs), OneLine l) ↔ ∀ c ∈ cs, ∀ t ∈ c.texts, OneLine t := by
  rw [oneLine_lines]
  simp only [Model.ofClasses, List.forall_mem_map, List.mem_filterMap, ClassDecl.entry,
    oneLine_displayName, MethodDecl.oneLine_signature]
  constructor
  · rintro ⟨hclasses, hedges⟩ c hc t ht
    rcases List.mem_append.1 ht with ht | ht
    · rcases List.mem_append.1 ht with ht | ht
      · exact (hclasses c hc).1 t ht
      · refine (hedges ⟨displayName c.name, t⟩ ⟨c, hc, ?_⟩).2
        rw [ClassDecl.relationship?, Option.mem_toList.1 ht]
        rfl
    · obtain ⟨m, hm, ht⟩ := List.mem_flatMap.1 ht
      exact (hclasses c hc).2 m hm t ht
  · intro h
    refine ⟨fun c hc => ⟨fun n hn => h c hc n ?_, fun m hm t ht => h c hc t ?_⟩, ?_⟩
    · exact List.mem_append_left _ (List.mem_append_left _ hn)
    · exact List.mem_append_right _ (List.mem_flatMap_of_mem hm ht)
    · rintro r ⟨c, hc, hr⟩
      obtain ⟨b, hb, rfl⟩ := Option.map_eq_some_iff.1 hr
      refine ⟨oneLine_displayName.2 fun n hn => h c hc n ?_, h c hc b ?_⟩
      · exact List.mem_append_left _ (List.mem_append_left _ hn)
      · exact List.mem_append_left _ (List.mem_append_right _ (Option.mem_toList.2 hb))

end Diagram

/-! ## The diagram of a file -/

/-- A model comes from the classes of a tree without errors. -/
theorem exists_tree_of_extract {path : FilePath} {content : ByteArray} {m : Model}
    (h : extract path content = .ok m) : ∃ d text, Dialect.ofPath? path = some d ∧
      String.fromUTF8? content = some text ∧ (d.tree text).firstError = none ∧
      m = Syntax.Text.model ⟨text.toList.toArray⟩ (d.tree text) := by
  unfold extract at h
  cases hd : Dialect.ofPath? path with
  | none =>
    rw [hd] at h
    cases h
  | some d =>
    simp only [hd, Dialect.extract] at h
    cases htext : String.fromUTF8? content with
    | none =>
      rw [htext] at h
      cases h
    | some text =>
      simp only [htext, Syntax.Tree.model] at h
      cases herr : (d.tree text).firstError with
      | some e =>
        rw [herr] at h
        cases h
      | none =>
        rw [herr] at h
        exact ⟨d, text, rfl, rfl, herr, (Except.ok.inj h).symm⟩

/-- **The lines of a file's diagram.** For each line break in the lines that are written the diagram
has a line more than it should. It has the right number just if the texts that its classes take from
the source stand on one line each, and then its lines are those that are written: one for each
method, indented, and one for each relationship. -/
theorem lines_of_extract (path : FilePath) (content : ByteArray) :
    match extract path content with
    | .error _ => True
    | .ok m => ∃ d text, Dialect.ofPath? path = some d ∧ String.fromUTF8? content = some text ∧
        let classes := (d.tree text).classes.map (Syntax.Text.classDecl ⟨text.toList.toArray⟩)
        let found := Text.split '\n' (Diagram.render m).toList
        let wanted := 2 + (m.classes.map fun c => 2 + c.methods.length).sum + m.relationships.length
        m = Model.ofClasses classes ∧
        found.length = wanted + ((Diagram.lines m).map lineBreaks).sum ∧
        (found.length = wanted ↔ ∀ c ∈ classes, ∀ t ∈ c.texts, OneLine t) ∧
        ((∀ c ∈ classes, ∀ t ∈ c.texts, OneLine t) →
          found = (Diagram.lines m).map String.toList) := by
  cases h : extract path content with
  | error e => trivial
  | ok m =>
    obtain ⟨d, text, hd, htext, -, hm⟩ := exists_tree_of_extract h
    refine ⟨d, text, hd, htext, hm, Diagram.length_split_render m, ?_, ?_⟩
    · rw [← Diagram.oneLine_lines_ofClasses, show Model.ofClasses _ = m from hm.symm]
      exact Diagram.length_split_render_eq_iff
    · intro hone
      refine Diagram.split_render_of_oneLine ?_
      rw [hm]
      exact Diagram.oneLine_lines_ofClasses.2 hone

/-- A type written over several lines ends the class before its time. -/
example : Diagram.render (Model.ofClasses
      [⟨some "A", none, [⟨"pick", [], "\x7b\n  x: number\n\x7d"⟩, ⟨"rest", [], "void"⟩]⟩]) =
    "@startuml\nclass A \x7b\n  pick(): \x7b\n  x: number\n\x7d\n  rest(): void\n" ++
      "\x7d\n@enduml" := by
  decide

end ClassAtlas
