import ClassAtlas.Live.Message
import ClassAtlas.Proofs.Json.Relaxed
import ClassAtlas.Proofs.Json.Tagged

/-!
# Messages on the wire

The printer and the reader of messages know nothing of each other. What the printer writes is a page
(`exists_page`), so it is read like any other page, whatever the texts of a message hold.

For what a client sends the reader is as liberal as JSON is: the order of the keys, other keys,
white space and escapes make no difference. A frame asks to join exactly if it names the event once
and gives its data once, a string. The name may be a string or an object whose one key it is.
-/
namespace ClassAtlas.Json

/-! ## What is printed is written -/

theorem exists_digit {n : Nat} (h : n < 16) :
    ∃ d : HexDigit, d.char = hexDigit n ∧ d.value = n := by
  have hread : ∀ n < 16, Reader.hexDigit? (hexDigit n) = some n := by decide
  exact ⟨⟨hexDigit n, n, hread n h⟩, rfl, rfl⟩

theorem exists_letter (c : Char) : ∃ l : Letter, l.text = writeChar c ∧ l.char = c := by
  unfold writeChar
  split
  · exact ⟨.short '"' '"' rfl, rfl, rfl⟩
  · exact ⟨.short '\\' '\\' rfl, rfl, rfl⟩
  · exact ⟨.short 'b' '\x08' rfl, rfl, rfl⟩
  · exact ⟨.short 'f' '\x0c' rfl, rfl, rfl⟩
  · exact ⟨.short 'n' '\n' rfl, rfl, rfl⟩
  · exact ⟨.short 'r' '\r' rfl, rfl, rfl⟩
  · exact ⟨.short 't' '\t' rfl, rfl, rfl⟩
  · rename_i hquote hescape _ _ _ _ _
    split
    · rename_i hcontrol
      obtain ⟨high, hhigh, hvalue⟩ := exists_digit (show c.toNat / 16 < 16 by omega)
      obtain ⟨low, hlow, hvalue'⟩ := exists_digit (show c.toNat % 16 < 16 by omega)
      let zero : HexDigit := ⟨'0', 0, rfl⟩
      have hunit : (CodeUnit.mk zero zero high low).value = c.toNat := by
        simp only [CodeUnit.value, hvalue, hvalue', zero]
        omega
      refine ⟨.unit ⟨zero, zero, high, low⟩ ?_, ?_, ?_⟩
      · rw [CodeUnit.IsHigh, CodeUnit.IsLow, hunit]
        omega
      · simp [Letter.text, CodeUnit.text, hhigh, hlow, zero]
      · rw [Letter.char, hunit, Char.ofNat_toNat]
    · rename_i hcontrol
      refine ⟨.literal c ⟨hquote, hescape, ?_⟩, rfl, rfl⟩
      simpa [Reader.isControl] using hcontrol

theorem exists_letters (s : String) : ∃ letters : List Letter,
    lettersText letters = s.toList.flatMap writeChar ∧ lettersString letters = s := by
  have hlist : ∀ cs : List Char, ∃ letters : List Letter,
      lettersText letters = cs.flatMap writeChar ∧ letters.map Letter.char = cs := by
    intro cs
    induction cs with
    | nil => exact ⟨[], rfl, rfl⟩
    | cons c cs ih =>
      obtain ⟨l, htext, hchar⟩ := exists_letter c
      obtain ⟨letters, htexts, hchars⟩ := ih
      refine ⟨l :: letters, ?_, ?_⟩
      · rw [lettersText, List.flatMap_cons, List.flatMap_cons, htext, ← htexts]
        rfl
      · rw [List.map_cons, hchar, hchars]
  obtain ⟨letters, htext, hchars⟩ := hlist s.toList
  exact ⟨letters, htext, by rw [lettersString, hchars, String.ofList_toList]⟩

/-- The value is written as the printer prints a document, which nests no deeper than given. -/
structure Written.Prints (w : Written) (j : Json) (depth : Nat) : Prop where
  text : w.text .plain = j.write
  doc : w.doc = j
  depth : w.depth ≤ depth
  inRange : w.inRange = true

/-- The members are written as the printer prints them. -/
structure Members.Prints (m : Members) (ms : List (String × Json)) (depth : Nat) : Prop where
  text : m.text .plain = writeMembers ms
  docs : m.docs = ms
  depth : m.depth ≤ depth
  inRange : m.inRange = true

theorem prints_string (s : String) : ∃ w : Written, w.Prints (.string s) 0 := by
  obtain ⟨letters, htext, hstring⟩ := exists_letters s
  refine ⟨.scalar (.string letters), ?_, ?_, Nat.le_refl 0, rfl⟩
  · rw [Written.text, Scalar.text, htext, write, writeString]
  · rw [Written.doc, Scalar.doc, hstring]

theorem exists_key (k : String) :
    ∃ key : Key, key.text .plain = writeString k ++ [':'] ∧ key.string = k := by
  obtain ⟨letters, htext, hstring⟩ := exists_letters k
  refine ⟨⟨[], letters, [], []⟩, ?_, hstring⟩
  simp [Key.text, Style.gap, htext, writeString]

theorem prints_last (k : String) {j : Json} {depth : Nat} (h : ∃ w : Written, w.Prints j depth) :
    ∃ m : Members, m.Prints [(k, j)] depth := by
  obtain ⟨w, hw⟩ := h
  obtain ⟨key, htext, hstring⟩ := exists_key k
  refine ⟨.last key w [], ?_, ?_, ?_, ?_⟩
  · simp [Members.text, htext, hw.text, writeMembers, Style.gap]
  · rw [Members.docs, hstring, hw.doc]
  · exact hw.depth
  · exact hw.inRange

theorem prints_more (k : String) {j : Json} {ms : List (String × Json)} {depth : Nat}
    (hms : ms ≠ []) (h : ∃ w : Written, w.Prints j depth)
    (hmore : ∃ m : Members, m.Prints ms depth) :
    ∃ m : Members, m.Prints ((k, j) :: ms) depth := by
  obtain ⟨w, hw⟩ := h
  obtain ⟨more, hmore⟩ := hmore
  obtain ⟨key, htext, hstring⟩ := exists_key k
  obtain ⟨m, ms, rfl⟩ := List.exists_cons_of_ne_nil hms
  refine ⟨.more key w [] more, ?_, ?_, ?_, ?_⟩
  · simp [Members.text, htext, hw.text, hmore.text, writeMembers, Style.gap]
  · rw [Members.docs, hstring, hw.doc, hmore.docs]
  · rw [Members.depth]
    exact Nat.max_le.2 ⟨hw.depth, hmore.depth⟩
  · rw [Members.inRange, hw.inRange, hmore.inRange, Bool.and_self]

theorem prints_object {ms : List (String × Json)} {depth : Nat}
    (h : ∃ m : Members, m.Prints ms depth) : ∃ w : Written, w.Prints (.object ms) (depth + 1) := by
  obtain ⟨m, hm⟩ := h
  refine ⟨.object m none, ?_, ?_, ?_, ?_⟩
  · simp [Written.text, hm.text, write, Style.trailing]
  · rw [Written.doc, hm.docs]
  · exact Nat.succ_le_succ hm.depth
  · exact hm.inRange

end ClassAtlas.Json

namespace ClassAtlas.Live

open Json Json.Reader

/-! ## Messages are read as they were sent -/

/-- What is printed for an event is a page, and it is read as that page. -/
theorem toOption_printed {α : Type} {t : Tagged α} (ht : t.Understood) (event : String)
    {data : Json} {depth : Nat} (hdepth : depth < maxDepth)
    (h : ∃ w : Written, w.Prints data depth) :
    (t.ofText (eventJson event data).toText).toOption =
      t.outcome .nothing [("event", .string event), ("data", data)] := by
  have hevent : ∃ w : Written, w.Prints (.string event) depth := by
    obtain ⟨w, hw⟩ := prints_string event
    exact ⟨w, hw.text, hw.doc, Nat.le_trans hw.depth (Nat.zero_le depth), hw.inRange⟩
  obtain ⟨w, hw⟩ := prints_object
    (prints_more "event" (List.cons_ne_nil _ _) hevent (prints_last "data" h))
  have htext : (eventJson event data).toText =
      String.ofList ((Page.mk [] w [] none).text .plain) := by
    simp [Page.text, hw.text, Style.gap, toText, eventJson]
  rw [htext]
  exact Tagged.toOption_ofText ht Relaxed.isBare_plain _ hw.doc
    (Or.inr ⟨Nat.le_trans hw.depth hdepth, hw.inRange⟩)

theorem ServerMessage.understood : ServerMessage.shape.Understood := by
  intro v hv
  rcases List.mem_cons.1 hv with rfl | hv
  · exact stringVariant_understood _ _
  · obtain rfl := List.mem_singleton.1 hv
    exact recordVariant_understood _ _ _ _

theorem ClientMessage.understood : ClientMessage.shape.Understood := by
  intro v hv
  obtain rfl := List.mem_singleton.1 hv
  exact stringVariant_understood _ _

theorem ClientMessage.ofStrings : ClientMessage.shape.OfStrings := by
  intro v hv j hj
  obtain rfl := List.mem_singleton.1 hv
  cases j with
  | string s => cases hj
  | null | bool _ | number _ | array _ | object _ => rfl

theorem eq_ok_of_toOption {ε α : Type} {r : Except ε α} {a : α} (h : r.toOption = some a) :
    r = .ok a := by
  cases r with
  | error f => cases h
  | ok b =>
    cases h
    rfl

theorem ServerMessage.ofWire_wire (m : ServerMessage) : ServerMessage.ofWire m.wire = .ok m := by
  apply eq_ok_of_toOption
  cases m with
  | diagram text =>
    exact toOption_printed understood "uml_update" (by decide) (prints_string text)
  | error message =>
    exact toOption_printed understood "error" (by decide)
      (prints_object (prints_last "message" (prints_string message)))

theorem ClientMessage.ofWire_wire (m : ClientMessage) : ClientMessage.ofWire m.wire = .ok m := by
  apply eq_ok_of_toOption
  obtain ⟨session⟩ := m
  exact toOption_printed understood "join-session" (by decide) (prints_string session)

/-- What the server sends is no message of a client. -/
theorem ServerMessage.ofWire_client (m : ServerMessage) (m' : ClientMessage) :
    ClientMessage.ofWire m.wire ≠ .ok m' := by
  intro h
  have hnone : (ClientMessage.ofWire m.wire).toOption = none := by
    cases m with
    | diagram text =>
      exact toOption_printed ClientMessage.understood "uml_update" (by decide) (prints_string text)
    | error message =>
      exact toOption_printed ClientMessage.understood "error" (by decide)
        (prints_object (prints_last "message" (prints_string message)))
  rw [h] at hnone
  cases hnone

/-! ## Frames that ask to join -/

/-- The members of an object name the event `join-session` once and give a string once. -/
def Joins (ms : List (String × Json)) (session : String) : Prop :=
  (∃ event, values "event" ms = [event] ∧
    (event = .string "join-session" ∨ event = .object [("join-session", .null)])) ∧
  values "data" ms = [.string session]

theorem named?_join {event : Json} {v : Variant ClientMessage}
    (h : ClientMessage.shape.named? event = some v) :
    v = stringVariant "join-session" .join ∧
      (event = .string "join-session" ∨ event = .object [("join-session", .null)]) := by
  unfold Tagged.named? at h
  split at h
  · have hmem := List.mem_of_find?_eq_some h
    have hname := List.find?_some h
    obtain rfl := List.mem_singleton.1 hmem
    exact ⟨rfl, Or.inl (by rw [← beq_iff_eq.1 hname]; rfl)⟩
  · have hmem := List.mem_of_find?_eq_some h
    have hname := List.find?_some h
    obtain rfl := List.mem_singleton.1 hmem
    exact ⟨rfl, Or.inr (by rw [← beq_iff_eq.1 hname]; rfl)⟩
  · cases h

theorem outcome_join_iff (ms : List (String × Json)) (session : String) :
    ClientMessage.shape.outcome .nothing ms = some (.join session) ↔ Joins ms session := by
  unfold Tagged.outcome Joins
  rcases values "event" ms with _ | ⟨e, _ | ⟨e', es⟩⟩ <;>
    rcases values "data" ms with _ | ⟨d, _ | ⟨d', ds⟩⟩
  case cons.nil.cons.nil =>
    constructor
    · intro h
      obtain ⟨v, hv, hd⟩ := Option.bind_eq_some_iff.1 h
      obtain ⟨rfl, hevent⟩ := named?_join hv
      refine ⟨⟨e, rfl, hevent⟩, ?_⟩
      cases d with
      | string s =>
        cases hd
        rfl
      | null | bool _ | number _ | array _ | object _ => cases hd
    · rintro ⟨⟨event, hevents, hevent⟩, hdata⟩
      cases hevents
      cases hdata
      rcases hevent with rfl | rfl <;> rfl
  all_goals simp

theorem ofWire_join_iff (page : Page) {ms : List (String × Json)} (h : page.value.doc = .object ms)
    (session : String) :
    ClientMessage.ofWire page.plain = .ok (.join session) ↔ Joins ms session := by
  have hread : (ClientMessage.ofWire page.plain).toOption =
      ClientMessage.shape.outcome .nothing ms :=
    Tagged.toOption_ofText ClientMessage.understood Relaxed.isBare_plain page h
      (Or.inl ClientMessage.ofStrings)
  rw [← outcome_join_iff, ← hread]
  constructor
  · intro hok
    rw [hok]
    rfl
  · exact eq_ok_of_toOption

/-- Every message comes back from its text, so that two messages have different texts; and a frame
that holds an object is read however it is written: it asks to join a session exactly if its members
say so, and else it is rejected. -/
theorem wire_read :
    (∀ m : ServerMessage, ServerMessage.ofWire m.wire = .ok m) ∧
    (∀ m : ClientMessage, ClientMessage.ofWire m.wire = .ok m) ∧
    (∀ m m' : ServerMessage, m ≠ m' → m.wire ≠ m'.wire) ∧
    (∀ m m' : ClientMessage, m ≠ m' → m.wire ≠ m'.wire) ∧
    (∀ (m : ServerMessage) (m' : ClientMessage), m.wire ≠ m'.wire) ∧
    ∀ (page : Page) (ms : List (String × Json)), page.value.doc = .object ms →
      (∀ session, ClientMessage.ofWire page.plain = .ok (.join session) ↔ Joins ms session) ∧
      ((∀ session, ¬ Joins ms session) → ∃ f, ClientMessage.ofWire page.plain = .error f) := by
  refine ⟨ServerMessage.ofWire_wire, ClientMessage.ofWire_wire, ?_, ?_, ?_, ?_⟩
  · intro m m' hne h
    have hread := ServerMessage.ofWire_wire m
    rw [h, ServerMessage.ofWire_wire m'] at hread
    exact hne (Except.ok.inj hread).symm
  · intro m m' hne h
    have hread := ClientMessage.ofWire_wire m
    rw [h, ClientMessage.ofWire_wire m'] at hread
    exact hne (Except.ok.inj hread).symm
  · intro m m' h
    apply ServerMessage.ofWire_client m m'
    rw [h, ClientMessage.ofWire_wire m']
  · intro page ms hdoc
    refine ⟨ofWire_join_iff page hdoc, ?_⟩
    intro hnone
    cases hread : ClientMessage.ofWire page.plain with
    | error f => exact ⟨f, rfl⟩
    | ok m =>
      obtain ⟨session⟩ := m
      exact absurd ((ofWire_join_iff page hdoc session).1 hread) (hnone session)

/-- The letters of a text that needs no escapes. -/
def lettersOf (text : String) : List Letter :=
  text.toList.filterMap fun c =>
    if h : c ≠ '"' ∧ c ≠ '\\' ∧ isControl c = false then some (.literal c h) else none

/-- The data stand first, with an escape, and the object has another key. -/
def turnedPage : Page where
  before := [.space '\t' rfl]
  value :=
    let slash : Letter := .short '/' '/' rfl
    let data : Written := .scalar (.string (slash :: lettersOf "a"))
    let other : Written := .array (.last [] (.emptyObject []) []) none
    .object (.more ⟨[], lettersOf "data", [], [.space ' ' rfl]⟩ data []
      (.more ⟨[], lettersOf "other", [], []⟩ other []
        (.last ⟨[], lettersOf "event", [], []⟩ (.scalar (.string (lettersOf "join-session"))) [])))
      none
  behind := []
  tail := none

theorem wire_read_turnedPage :
    turnedPage.plain =
      "\t\x7b\"data\": \"\\/a\",\"other\":[\x7b\x7d],\"event\":\"join-session\"\x7d" ∧
    ClientMessage.ofWire turnedPage.plain = .ok (.join "/a") := by
  have hdoc : turnedPage.value.doc = .object [("data", .string "/a"),
      ("other", .array [.object []]), ("event", .string "join-session")] := rfl
  obtain ⟨-, -, -, -, -, hread⟩ := wire_read
  have hjoins : Joins [("data", .string "/a"), ("other", .array [.object []]),
      ("event", .string "join-session")] "/a" := ⟨⟨_, rfl, Or.inl rfl⟩, rfl⟩
  exact ⟨by decide +kernel, ((hread turnedPage _ hdoc).1 "/a").2 hjoins⟩

/-- The event is named by an object. -/
def namedByObject : Page where
  before := []
  value :=
    let event : Written :=
      .object (.last ⟨[], lettersOf "join-session", [], []⟩ (.scalar .null) []) none
    .object (.more ⟨[], lettersOf "event", [], []⟩ event []
      (.last ⟨[], lettersOf "data", [], []⟩ (.scalar (.string (lettersOf "X"))) [])) none
  behind := []
  tail := none

/-- The name of the event need not be a string. -/
theorem joins_namedByObject :
    namedByObject.plain = "\x7b\"event\":\x7b\"join-session\":null\x7d,\"data\":\"X\"\x7d" ∧
    ClientMessage.ofWire namedByObject.plain = .ok (.join "X") ∧
    ¬ ∀ (page : Page) (ms : List (String × Json)), page.value.doc = .object ms → ∀ session,
      (ClientMessage.ofWire page.plain = .ok (.join session) ↔
        values "event" ms = [.string "join-session"] ∧ values "data" ms = [.string session]) := by
  have hdoc : namedByObject.value.doc =
      .object [("event", .object [("join-session", .null)]), ("data", .string "X")] := rfl
  have hread : ClientMessage.ofWire namedByObject.plain = .ok (.join "X") :=
    (ofWire_join_iff namedByObject hdoc "X").2 ⟨⟨_, rfl, Or.inr rfl⟩, rfl⟩
  refine ⟨by decide +kernel, hread, ?_⟩
  intro h
  have hevent := ((h namedByObject _ hdoc "X").1 hread).1
  cases hevent

end ClassAtlas.Live
