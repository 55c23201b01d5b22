import ClassAtlas.Live.Hub
import ClassAtlas.Proofs.Live.Staleness
import Mathlib.Data.List.Induction
import Mathlib.Data.List.Nodup

/-!
# What gets through to a client

A client asks for its next message in two ways (`Ask`): for one that is there, or for one that is
there or is still to come. Both calls take messages off the queue one by one until one of them is
not stale, and others may send between any two of these looks. A `Line` is a connection together
with the call that is under way on it, all that was sent to it and all that its calls answered; a
run is any list of moves on it.

**The line of a hub.** `Hub.Shows` says that a connection of a hub is such a line. A post is a send
(`Hub.Shows.post`), a disconnect takes the connection away (`Hub.Shows.disconnect`), and a call that
nothing comes between is what the hub does when it receives or awaits (`Hub.Shows.receive`,
`Hub.Shows.await`).

**Results.**
* `sound_run`: what was sent is what was taken off the queue and what still waits there, and what
  was delivered is what is fresh in the first part.
* `fresh_eq`: the mailbox compares with one revision that it remembers; what is fresh is
  nevertheless told by the messages sent before (`Overtaken`).
* `delivered_in_time`: however sends and calls come one after the other, the messages that are not
  overtaken are delivered, each once and in their order.
-/
namespace ClassAtlas.Live

/-- How a client asks for its next message. -/
inductive Ask where
  /-- For one that is there. -/
  | now
  /-- For one that is there or is still to come. -/
  | wait
deriving DecidableEq, Repr, Inhabited

/-- A connection and its client. -/
structure Line where
  mailbox : Mailbox
  /-- Whether the connection is there, so that messages can come. -/
  isOpen : Bool
  /-- The call under way. -/
  asking : Option Ask
  /-- All that was sent so far. -/
  sent : List Outbound
  /-- What the calls answered; without a message there is none, or none will ever come. -/
  replies : List (Ask × Option ServerMessage)
deriving DecidableEq, Repr, Inhabited

namespace Line

inductive Move where
  | send (o : Outbound)
  /-- The connection is taken away. -/
  | remove
  /-- A call begins, unless one is under way. -/
  | ask (a : Ask)
  /-- The call under way looks at the queue. -/
  | look
deriving DecidableEq, Repr, Inhabited

def new : Line := ⟨Mailbox.empty, true, none, [], []⟩

/-- The call under way ends. -/
def answer (l : Line) (a : Ask) (reply : Option ServerMessage) : Line :=
  { l with asking := none, replies := l.replies ++ [(a, reply)] }

/-- Takes the first message off the queue; on an empty one a call waits as long as there is hope. -/
def look (l : Line) (a : Ask) : Line :=
  match l.mailbox.queue with
  | [] => if a = .wait ∧ l.isOpen = true then l else l.answer a none
  | o :: rest =>
    if o.isStale l.mailbox.lastRevision then { l with mailbox := ⟨rest, l.mailbox.lastRevision⟩ }
    else { l with mailbox := ⟨rest, o.revision?.getD l.mailbox.lastRevision⟩ }.answer a
      (some o.message)

def act (l : Line) : Move → Line
  | .send o =>
    if l.isOpen then { l with mailbox := l.mailbox.push o, sent := l.sent ++ [o] } else l
  | .remove => { l with isOpen := false }
  | .ask a => { l with asking := some (l.asking.getD a) }
  | .look =>
    match l.asking with
    | some a => l.look a
    | none => l

def acts (l : Line) (moves : List Move) : Line := moves.foldl act l

/-- The line after some moves. -/
def run (moves : List Move) : Line := new.acts moves

/-- The messages that were delivered. -/
def delivered (l : Line) : List ServerMessage := l.replies.filterMap (·.2)

theorem acts_cons (l : Line) (m : Move) (ms : List Move) : l.acts (m :: ms) = (l.act m).acts ms :=
  rfl

theorem acts_append (l : Line) (ms ms' : List Move) : l.acts (ms ++ ms') = (l.acts ms).acts ms' :=
  List.foldl_append

theorem run_append (ms ms' : List Move) : run (ms ++ ms') = (run ms).acts ms' :=
  acts_append new ms ms'

theorem delivered_answer (l : Line) (a : Ask) (reply : Option ServerMessage) :
    (l.answer a reply).delivered = l.delivered ++ reply.toList := by
  cases reply <;> simp [delivered, answer]

/-! ## Told by what was sent -/

/-- A newer diagram was sent before the one at a position. -/
def Overtaken (sent : List Outbound) (i : Nat) : Prop :=
  ∃ r ∈ sent[i]?.bind (·.revision?), ∃ o ∈ sent.take i, ∃ r' ∈ o.revision?, r < r'

instance (sent : List Outbound) (i : Nat) : Decidable (Overtaken sent i) :=
  inferInstanceAs (Decidable (∃ r ∈ sent[i]?.bind (·.revision?), ∃ o ∈ sent.take i,
    ∃ r' ∈ o.revision?, r < r'))

/-- The positions before `n` of what is not overtaken. -/
def inTime (sent : List Outbound) (n : Nat) : List Nat :=
  (List.range n).filter fun i => ¬ Overtaken sent i

/-- The messages at some positions. -/
def messagesAt (sent : List Outbound) (is : List Nat) : List ServerMessage :=
  is.filterMap fun i => sent[i]?.map (·.message)

theorem lt_highest_iff {n : Nat} {q : List Outbound} :
    n < Mailbox.highest 0 q ↔ ∃ o ∈ q, ∃ r' ∈ o.revision?, n < r' := by
  constructor
  · intro hlt
    by_contra hnone
    have hle : Mailbox.highest 0 q ≤ n := by
      refine Mailbox.highest_le _ q (Nat.zero_le n) ?_
      intro o ho r hr
      exact Nat.le_of_not_lt fun h => hnone ⟨o, ho, r, hr, h⟩
    omega
  · rintro ⟨o, ho, r', hr', hlt⟩
    have hle := Mailbox.le_highest_of_mem 0 q ho hr'
    omega

/-- The mailbox finds a message stale if a newer diagram was sent before it. -/
theorem isStale_highest_iff {q q' : List Outbound} {o : Outbound} :
    o.isStale (Mailbox.highest 0 q) = true ↔ Overtaken (q ++ o :: q') q.length := by
  rw [Outbound.isStale_iff]
  simp [Overtaken, lt_highest_iff]

theorem overtaken_append {sent more : List Outbound} {i : Nat} (hi : i < sent.length) :
    Overtaken (sent ++ more) i ↔ Overtaken sent i := by
  have htake : (sent ++ more).take i = sent.take i := by
    rw [List.take_append_of_le_length (Nat.le_of_lt hi)]
  rw [Overtaken, Overtaken, htake, List.getElem?_append_left hi]

theorem inTime_append {sent more : List Outbound} {n : Nat} (hn : n ≤ sent.length) :
    inTime (sent ++ more) n = inTime sent n := by
  refine List.filter_congr ?_
  intro i hi
  have hlt : i < sent.length := by
    have := List.mem_range.1 hi
    omega
  simp only [overtaken_append hlt]

theorem inTime_succ (sent : List Outbound) (n : Nat) :
    inTime sent (n + 1) = inTime sent n ++ if Overtaken sent n then [] else [n] := by
  by_cases h : Overtaken sent n
  · simp [inTime, List.range_succ, h]
  · simp [inTime, List.range_succ, h]

theorem lt_of_mem_inTime {sent : List Outbound} {n i : Nat} (h : i ∈ inTime sent n) : i < n :=
  List.mem_range.1 (List.mem_filter.1 h).1

theorem messagesAt_append {sent more : List Outbound} {is : List Nat}
    (h : ∀ i ∈ is, i < sent.length) : messagesAt (sent ++ more) is = messagesAt sent is := by
  refine List.filterMap_congr ?_
  intro i hi
  rw [List.getElem?_append_left (h i hi)]

/-- What is fresh is what is not overtaken. -/
theorem fresh_eq (q : List Outbound) :
    (Mailbox.fresh 0 q).map (·.message) = messagesAt q (inTime q q.length) := by
  induction q using List.reverseRecOn with
  | nil => rfl
  | append_singleton q o ih =>
    have hbefore : messagesAt (q ++ [o]) (inTime (q ++ [o]) q.length) =
        messagesAt q (inTime q q.length) := by
      rw [inTime_append (Nat.le_refl _), messagesAt_append]
      intro i hi
      exact lt_of_mem_inTime hi
    have hlast : (Mailbox.fresh (Mailbox.highest 0 q) [o]).map (·.message) =
        messagesAt (q ++ [o]) (if Overtaken (q ++ [o]) q.length then [] else [q.length]) := by
      by_cases h : o.isStale (Mailbox.highest 0 q) = true
      · rw [if_pos (isStale_highest_iff.1 h)]
        simp [Mailbox.fresh, h, messagesAt]
      · rw [if_neg (mt isStale_highest_iff.2 h)]
        simp [Mailbox.fresh, h, messagesAt]
    rw [Mailbox.fresh_append, List.map_append, ih, hlast, List.length_append,
      List.length_singleton, inTime_succ, ← hbefore, messagesAt, messagesAt, messagesAt,
      List.filterMap_append]

/-! ## What a run keeps -/

/-- Some of what was sent is taken off the queue, and delivered as far as it is fresh. -/
def Sound (l : Line) : Prop :=
  ∃ taken, l.sent = taken ++ l.mailbox.queue ∧
    l.mailbox.lastRevision = Mailbox.highest 0 taken ∧
    l.delivered = (Mailbox.fresh 0 taken).map (·.message)

theorem sound_new : new.Sound := ⟨[], rfl, rfl, rfl⟩

theorem sound_look {l : Line} (h : l.Sound) (a : Ask) : (l.look a).Sound := by
  obtain ⟨taken, hsent, hlast, hdelivered⟩ := h
  unfold look
  split
  · rename_i hq
    split
    · exact ⟨taken, hsent, hlast, hdelivered⟩
    · refine ⟨taken, hsent, hlast, ?_⟩
      rw [delivered_answer, hdelivered]
      simp
  · rename_i o rest hq
    rw [hq] at hsent
    have hsent' : l.sent = (taken ++ [o]) ++ rest := by simp [hsent]
    have hhighest : Mailbox.highest 0 (taken ++ [o]) =
        max l.mailbox.lastRevision (o.revision?.getD 0) := by
      rw [Mailbox.highest_append, ← hlast]
      rfl
    cases ho : o.isStale l.mailbox.lastRevision with
    | true =>
      -- it counts as taken, but is below the highest revision and not fresh
      refine ⟨taken ++ [o], hsent', ?_, ?_⟩
      · rw [hhighest, Outbound.max_of_stale ho]
        simp
      · have hfresh : Mailbox.fresh 0 (taken ++ [o]) = Mailbox.fresh 0 taken := by
          rw [Mailbox.fresh_append, ← hlast]
          simp [Mailbox.fresh, ho]
        rw [hfresh]
        exact hdelivered
    | false =>
      refine ⟨taken ++ [o], hsent', ?_, ?_⟩
      · rw [hhighest, Outbound.max_of_fresh ho]
        simp [answer]
      · have hfresh : Mailbox.fresh 0 (taken ++ [o]) = Mailbox.fresh 0 taken ++ [o] := by
          rw [Mailbox.fresh_append, ← hlast]
          simp [Mailbox.fresh, ho]
        rw [hfresh, List.map_append, ← hdelivered]
        exact delivered_answer _ a (some o.message)

theorem sound_act {l : Line} (h : l.Sound) (m : Move) : (l.act m).Sound := by
  cases m with
  | send o =>
    simp only [act]
    split
    · obtain ⟨taken, hsent, hlast, hdelivered⟩ := h
      refine ⟨taken, ?_, hlast, hdelivered⟩
      simp [hsent, Mailbox.push]
    · exact h
  | remove => exact h
  | ask a => exact h
  | look =>
    simp only [act]
    split
    · rename_i a ha
      exact sound_look h a
    · exact h

theorem sound_run (moves : List Move) : (run moves).Sound := by
  induction moves using List.reverseRecOn with
  | nil => exact sound_new
  | append_singleton moves m ih =>
    rw [run_append]
    exact sound_act ih m

theorem Sound.exists_seen {l : Line} (h : l.Sound) : ∃ n ≤ l.sent.length,
    l.mailbox.queue = l.sent.drop n ∧ l.delivered = messagesAt l.sent (inTime l.sent n) := by
  obtain ⟨taken, hsent, -, hdelivered⟩ := h
  have hmessages : messagesAt l.sent (inTime l.sent taken.length) =
      messagesAt taken (inTime taken taken.length) := by
    rw [hsent, inTime_append (Nat.le_refl _), messagesAt_append]
    intro i hi
    exact lt_of_mem_inTime hi
  refine ⟨taken.length, by simp [hsent], by simp [hsent], ?_⟩
  rw [hmessages, hdelivered, fresh_eq]

/-! ## Whole calls -/

/-- A call and so many looks. -/
def call (a : Ask) (looks : Nat) : List Move := .ask a :: List.replicate looks .look

/-- What a call comes to: it answers what the mailbox gives, or waits if there is nothing and there
is hope. -/
def settle (l : Line) (a : Ask) : Line :=
  if l.mailbox.take.1 = none ∧ a = .wait ∧ l.isOpen = true then
    { l with mailbox := l.mailbox.take.2, asking := some a }
  else { l with mailbox := l.mailbox.take.2 }.answer a l.mailbox.take.1

/-- A look answers the call, or leaves it with less to look at. -/
theorem look_cases {l : Line} {a : Ask} (ha : l.asking = some a) :
    (l.look a = l.settle a ∧ (l.look a).act .look = l.look a) ∨
      ((l.look a).settle a = l.settle a ∧ (l.look a).asking = some a ∧
        (l.look a).mailbox.queue.length < l.mailbox.queue.length) := by
  obtain ⟨⟨queue, last⟩, isOpen, asking, sent, replies⟩ := l
  obtain rfl : asking = some a := ha
  cases queue with
  | nil =>
    left
    by_cases hwaits : a = .wait ∧ isOpen = true
    · simp [look, act, settle, Mailbox.take, Mailbox.takeFrom, hwaits]
    · simp [look, act, settle, Mailbox.take, Mailbox.takeFrom, hwaits, answer]
  | cons o rest =>
    cases ho : o.isStale last with
    | true =>
      right
      simp [look, settle, Mailbox.take, Mailbox.takeFrom, ho]
    | false =>
      left
      simp [look, act, settle, Mailbox.take, Mailbox.takeFrom, ho, answer]

theorem acts_looks_of_idle {l : Line} (h : l.act .look = l) (n : Nat) :
    l.acts (List.replicate n .look) = l := by
  induction n with
  | zero => rfl
  | succ n ih =>
    rw [List.replicate_succ, acts_cons, h]
    exact ih

theorem acts_looks {l : Line} {a : Ask} (ha : l.asking = some a) {n : Nat}
    (hn : l.mailbox.queue.length < n) : l.acts (List.replicate n .look) = l.settle a := by
  induction n generalizing l with
  | zero => omega
  | succ n ih =>
    have hlook : l.act .look = l.look a := by simp [act, ha]
    rw [List.replicate_succ, acts_cons, hlook]
    rcases look_cases ha with ⟨hends, hidle⟩ | ⟨hsame, hasking, hlt⟩
    · rw [acts_looks_of_idle hidle, hends]
    · rw [ih hasking (by omega), hsame]

/-- With enough looks a call comes to its end, whatever was under way before it. -/
theorem acts_call (l : Line) (a : Ask) {n : Nat} (hn : l.mailbox.queue.length < n) :
    l.acts (call a n) = l.settle (l.asking.getD a) := by
  have hlooks := @acts_looks { l with asking := some (l.asking.getD a) } (l.asking.getD a) rfl n hn
  rw [call, acts_cons]
  exact hlooks

/-! ## When there is nothing -/

/-- A call ends without a message only on an empty queue, and one that waits only if the connection
is gone. -/
theorem queue_of_nothing {l : Line} {a : Ask}
    (h : (l.act .look).replies = l.replies ++ [(a, none)]) :
    l.mailbox.queue = [] ∧ (a = .wait → l.isOpen = false) := by
  have hsame : ∀ {x : Ask × Option ServerMessage}, l.replies ≠ l.replies ++ [x] := by
    intro x heq
    have := congrArg List.length heq
    simp at this
  cases hasking : l.asking with
  | none =>
    simp only [act, hasking] at h
    exact absurd h hsame
  | some b =>
    simp only [act, hasking, look] at h
    split at h
    · rename_i hq
      refine ⟨hq, ?_⟩
      rintro rfl
      split at h
      · exact absurd h hsame
      · rename_i hends
        have hb : b = .wait := by simpa [answer] using h
        simpa [hb] using hends
    · split at h
      · exact absurd h hsame
      · simp [answer] at h

theorem take_fst_eq_none_iff (b : Mailbox) :
    b.take.1 = none ↔ Mailbox.fresh b.lastRevision b.queue = [] := by
  obtain ⟨-, -, -, -, hfst, -⟩ := b.take_spec
  rw [hfst, Option.map_eq_none_iff, Mailbox.next?, List.head?_eq_none_iff]

/-- As long as something is in time that was not delivered, a call of either kind delivers. -/
theorem Sound.length_delivered_call {l : Line} (h : l.Sound) (a : Ask) {n : Nat}
    (hn : l.mailbox.queue.length < n)
    (hmore : l.delivered ≠ messagesAt l.sent (inTime l.sent l.sent.length)) :
    (l.acts (call a n)).delivered.length = l.delivered.length + 1 := by
  obtain ⟨taken, hsent, hlast, hdelivered⟩ := h
  have hsome : l.mailbox.take.1 ≠ none := by
    intro hnone
    have hfresh := (take_fst_eq_none_iff l.mailbox).1 hnone
    apply hmore
    rw [← fresh_eq, hdelivered, hsent, Mailbox.fresh_append, ← hlast, hfresh, List.append_nil]
  obtain ⟨m, hm⟩ := Option.ne_none_iff_exists'.1 hsome
  rw [acts_call l a hn, settle, if_neg (by simp [hm]), delivered_answer, hm]
  simp [delivered]

/-! ## After the connection is gone -/

theorem length_queue_take_le (b : Mailbox) : b.take.2.queue.length ≤ b.queue.length := by
  obtain ⟨taken, hq, -⟩ := b.take_spec
  rw [hq, List.length_append]
  omega

/-- Where nothing can come any more, calls empty the queue and then tell that there is no more. -/
theorem acts_calls {l : Line} (hopen : l.isOpen = false) (hl : l.asking = none) {n k : Nat}
    (hn : l.mailbox.queue.length < n) (hk : l.mailbox.queue.length < k) :
    let l' := l.acts (List.replicate k (call .wait n)).flatten
    l'.sent = l.sent ∧ l'.mailbox.queue = [] ∧ l'.replies.getLast? = some (.wait, none) := by
  induction k generalizing l with
  | zero => omega
  | succ k ih =>
    have hcall : l.acts (call .wait n) =
        { l with mailbox := l.mailbox.take.2 }.answer .wait l.mailbox.take.1 := by
      rw [acts_call l .wait hn, hl, settle, if_neg (by simp [hopen])]
      rfl
    have hle := length_queue_take_le l.mailbox
    rw [List.replicate_succ, List.flatten_cons, acts_append, hcall]
    have hrest : l.mailbox.take.2.queue.length < k →
        let l' := ({ l with mailbox := l.mailbox.take.2 }.answer .wait l.mailbox.take.1).acts
          (List.replicate k (call .wait n)).flatten
        l'.sent = l.sent ∧ l'.mailbox.queue = [] ∧ l'.replies.getLast? = some (.wait, none) :=
      fun hlt => ih (l := _) hopen rfl (Nat.lt_of_le_of_lt hle hn) hlt
    cases hreply : l.mailbox.take.1 with
    | none =>
      obtain ⟨-, -, -, -, hfst, hempty⟩ := l.mailbox.take_spec
      have hq : l.mailbox.take.2.queue = [] := by
        apply hempty
        rw [hreply] at hfst
        simpa using hfst.symm
      -- the first answer without a message is also the last, or the same comes again
      cases k with
      | zero => exact ⟨rfl, hq, by simp [acts, answer]⟩
      | succ k =>
        rw [hreply] at hrest
        exact hrest (by simp [hq])
    | some m =>
      have hlt : l.mailbox.take.2.queue.length < l.mailbox.queue.length :=
        Mailbox.queue_takeFrom_lt (Prod.ext hreply rfl)
      rw [hreply] at hrest
      exact hrest (by omega)

theorem acts_remove (l : Line) {n k : Nat} (hn : l.mailbox.queue.length < n)
    (hk : l.mailbox.queue.length + 1 < k) :
    let l' := l.acts (.remove :: (List.replicate k (call .wait n)).flatten)
    l'.sent = l.sent ∧ l'.mailbox.queue = [] ∧ l'.replies.getLast? = some (.wait, none) := by
  obtain ⟨k, rfl⟩ : ∃ j, k = j + 1 := ⟨k - 1, by omega⟩
  -- the first call ends what was under way
  have hcall : (l.act .remove).acts (call .wait n) =
      { l with isOpen := false, mailbox := l.mailbox.take.2 }.answer (l.asking.getD .wait)
        l.mailbox.take.1 := by
    have hfirst := acts_call (l.act .remove) .wait (n := n) hn
    rw [hfirst, settle, if_neg (by simp [act])]
    rfl
  have hle := length_queue_take_le l.mailbox
  rw [acts_cons, List.replicate_succ, List.flatten_cons, acts_append, hcall]
  exact acts_calls (l := _) rfl rfl (Nat.lt_of_le_of_lt hle hn) (by
    show l.mailbox.take.2.queue.length < k
    omega)

end Line

/-! ## The lines of a hub -/

/-- What a call that awaits has answered so far. -/
def Next.replies : Next → List (Ask × Option ServerMessage)
  | .message m => [(.wait, some m)]
  | .pending => []
  | .ended => [(.wait, none)]

namespace Hub

open Line

/-- A connection of a hub, as far as a line tells of it. -/
def Shows (h : Hub) (id : ConnectionId) (l : Line) : Prop :=
  h.mailboxes.get? id = some l.mailbox ∧ h.registry.isConnected id = l.isOpen

variable {h : Hub} {id : ConnectionId} {l : Line}

theorem shows_connect (h : Hub) : h.connect.2.Shows h.connect.1 Line.new := by
  refine ⟨?_, ?_⟩
  · have hget := h.get?_connect (h.registry.lastId + 1)
    rw [if_pos rfl] at hget
    exact hget
  · have hmem : h.registry.lastId + 1 ∈ h.registry.connected ++ [h.registry.lastId + 1] :=
      List.mem_append_right _ (List.mem_singleton_self _)
    exact (Registry.isConnected_iff _ _).2 hmem

/-- To post is to send. -/
theorem Shows.post (hs : h.Shows id l) (o : Outbound) :
    (h.post id o).2.Shows id (l.act (.send o)) := by
  obtain ⟨hbox, hopen⟩ := hs
  have hget := h.get?_post id id o
  rw [Shows, registry_post, hget, hbox, hopen]
  cases ho : l.isOpen with
  | true => simp [act, ho]
  | false => simp [act, ho]

theorem Shows.disconnect (hs : h.Shows id l) : (h.disconnect id).Shows id (l.act .remove) := by
  refine ⟨hs.1, ?_⟩
  have hgone : id ∉ (h.registry.disconnect id).connected := by
    rw [Registry.connected_disconnect]
    simp
  exact Bool.eq_false_iff.2 fun hc => hgone ((Registry.isConnected_iff _ _).1 hc)

theorem Shows.settle (hs : h.Shows id l) (a : Ask) :
    (h.receive id).2.Shows id (l.settle a) ∧ (h.receive id).1 = l.mailbox.take.1 := by
  have hget := h.get?_receive id id
  rw [if_pos rfl, hs.1, Option.map_some] at hget
  have hsettle : (l.settle a).mailbox = l.mailbox.take.2 ∧ (l.settle a).isOpen = l.isOpen := by
    unfold Line.settle
    split
    · exact ⟨rfl, rfl⟩
    · exact ⟨rfl, rfl⟩
  refine ⟨⟨?_, ?_⟩, ?_⟩
  · rw [hget, hsettle.1]
  · rw [registry_receive, hs.2, hsettle.2]
  · rw [receive_fst, hs.1, Option.bind_some]

/-- To receive is to ask for a message that is there. -/
theorem Shows.receive (hs : h.Shows id l) (hl : l.asking = none) {n : Nat}
    (hn : l.mailbox.queue.length < n) :
    (h.receive id).2.Shows id (l.acts (call .now n)) ∧
      (l.acts (call .now n)).replies = l.replies ++ [(.now, (h.receive id).1)] := by
  obtain ⟨hshows, hreply⟩ := hs.settle .now
  rw [acts_call l .now hn, hl, hreply]
  exact ⟨hshows, by simp [Line.settle, answer]⟩

/-- To await is to ask for a message that is there or is still to come. -/
theorem Shows.await (hs : h.Shows id l) (hl : l.asking = none) {n : Nat}
    (hn : l.mailbox.queue.length < n) :
    (h.await id).2.Shows id (l.acts (call .wait n)) ∧
      (l.acts (call .wait n)).replies = l.replies ++ (h.await id).1.replies := by
  obtain ⟨hshows, hreply⟩ := hs.settle .wait
  have hopen := hs.2
  have hregistry := h.registry_receive id
  rw [acts_call l .wait hn, hl, await_snd]
  refine ⟨hshows, ?_⟩
  unfold Hub.await
  cases hreceive : h.receive id with
  | mk reply h' =>
    rw [hreceive] at hreply hregistry
    cases reply with
    | some m => simp [Line.settle, ← hreply, answer, Next.replies]
    | none =>
      have hconnected : h'.registry.isConnected id = l.isOpen := by rw [hregistry, hopen]
      cases ho : l.isOpen with
      | true => simp [Line.settle, ← hreply, hconnected, ho, Next.replies]
      | false => simp [Line.settle, ← hreply, hconnected, ho, answer, Next.replies]

end Hub

namespace Line

/-- **Every message in time.** After any run:
* of what was sent a first part was looked at, the rest is queued, and what was delivered are the
  messages of that part that no newer diagram overtook, each once and in their order;
* a message that is no diagram, or a diagram as new as all before it, is never overtaken;
* a call that looks ends without a message only on an empty queue, and one that waits only if the
  connection is gone; while something in time is not delivered, a call of either kind delivers;
* what is delivered in the end is the same however it was asked for;
* when the connection is taken away, calls deliver what is still queued and in time, and then tell
  that there will be no more.
A connection of a hub is such a line from its beginning, and the hub's own operations are moves. -/
theorem delivered_in_time (moves : List Move) :
    let l := run moves
    (∃ n ≤ l.sent.length, l.mailbox.queue = l.sent.drop n ∧
      l.delivered = messagesAt l.sent (inTime l.sent n)) ∧
    (∀ i o, l.sent[i]? = some o →
      (∀ r ∈ o.revision?, ∀ p ∈ l.sent.take i, ∀ r' ∈ p.revision?, r' ≤ r) →
      ∀ n, i < n → (inTime l.sent n).count i = 1) ∧
    (∀ a, (l.act .look).replies = l.replies ++ [(a, none)] →
      l.mailbox.queue = [] ∧ (a = .wait → l.isOpen = false)) ∧
    (∀ a n, l.mailbox.queue.length < n →
      l.delivered ≠ messagesAt l.sent (inTime l.sent l.sent.length) →
      (l.acts (call a n)).delivered.length = l.delivered.length + 1) ∧
    (∀ moves', (run moves').sent = l.sent → l.mailbox.queue = [] →
      (run moves').mailbox.queue = [] → (run moves').delivered = l.delivered) ∧
    (∀ n k, l.mailbox.queue.length < n → l.mailbox.queue.length + 1 < k →
      let l' := l.acts (.remove :: (List.replicate k (call .wait n)).flatten)
      l'.sent = l.sent ∧ l'.delivered = messagesAt l.sent (inTime l.sent l.sent.length) ∧
        l'.replies.getLast? = some (.wait, none)) ∧
    (∀ h : Hub, h.connect.2.Shows h.connect.1 new) ∧
    ∀ (h : Hub) (id : ConnectionId), h.Shows id l →
      (∀ o, (h.post id o).2.Shows id (l.act (.send o))) ∧
      (h.disconnect id).Shows id (l.act .remove) ∧
      (l.asking = none → ∀ n, l.mailbox.queue.length < n →
        ((h.receive id).2.Shows id (l.acts (call .now n)) ∧
          (l.acts (call .now n)).replies = l.replies ++ [(.now, (h.receive id).1)]) ∧
        (h.await id).2.Shows id (l.acts (call .wait n)) ∧
          (l.acts (call .wait n)).replies = l.replies ++ (h.await id).1.replies) := by
  intro l
  have hsound : l.Sound := sound_run moves
  have hdrained : ∀ {x : Line}, x.Sound → x.mailbox.queue = [] →
      x.delivered = messagesAt x.sent (inTime x.sent x.sent.length) := by
    intro x hx hq
    obtain ⟨n, hn, hqueue, hdelivered⟩ := hx.exists_seen
    have hlength : x.sent.length ≤ n := List.drop_eq_nil_iff.1 (hqueue.symm.trans hq)
    rw [hdelivered, Nat.le_antisymm hn hlength]
  refine ⟨hsound.exists_seen, ?_, fun a => queue_of_nothing,
    fun a n => hsound.length_delivered_call a, ?_, ?_, Hub.shows_connect, ?_⟩
  · intro i o ho hnewest n hi
    have hin : i ∈ inTime l.sent n := by
      refine List.mem_filter.2 ⟨List.mem_range.2 hi, ?_⟩
      simp only [decide_eq_true_eq, Overtaken, ho, Option.bind_some]
      rintro ⟨r, hr, p, hp, r', hr', hlt⟩
      have hle := hnewest r hr p hp r' hr'
      omega
    exact List.count_eq_one_of_mem (List.nodup_range.filter _) hin
  · intro moves' hsent hq hq'
    rw [hdrained (sound_run moves') hq', hdrained hsound hq, hsent]
  · intro n k hn hk l'
    obtain ⟨hsent, hq, hlast⟩ := acts_remove l hn hk
    have hsound' : l'.Sound := by
      have hrun := sound_run (moves ++ .remove :: (List.replicate k (call .wait n)).flatten)
      rwa [run_append] at hrun
    have hdelivered := hdrained hsound' hq
    rw [hsent] at hdelivered
    exact ⟨hsent, hdelivered, hlast⟩
  · intro h id hs
    exact ⟨hs.post, hs.disconnect, fun hl n hn => ⟨hs.receive hl hn, hs.await hl hn⟩⟩

/-! ## Calls that begin before anything is sent -/

/-- The first diagram arrives while a call waits for it; the older one behind it is passed over by a
call that goes on waiting, until there is an error. -/
def waitingMoves : List Move :=
  [.ask .wait, .look, .send ⟨some 2, .diagram "B"⟩, .look, .ask .wait,
    .send ⟨some 1, .diagram "A"⟩, .look, .send ⟨none, .error "e"⟩, .look,
    .send ⟨some 3, .diagram "C"⟩, .send ⟨some 2, .diagram "B"⟩]

/-- The same is sent before anything is asked for. -/
def tardyMoves : List Move :=
  (run waitingMoves).sent.map .send ++ (List.replicate 4 (call .now 6)).flatten

theorem delivered_after_waitingMoves :
    let l := run waitingMoves
    let l' := l.acts (call .now 3)
    l.asking = none ∧ l.mailbox.queue.length = 2 ∧ l.delivered = [.diagram "B", .error "e"] ∧
    (inTime l.sent 5).count 2 = 1 ∧ l'.delivered.length = 3 ∧
    (run tardyMoves).delivered = (run (waitingMoves ++ call .wait 3 ++ call .now 3)).delivered ∧
    (l.acts (.remove :: (List.replicate 4 (call .wait 3)).flatten)).delivered =
      [.diagram "B", .error "e", .diagram "C"] ∧
    (run [.ask .now]).mailbox.queue = [] ∧
    Hub.empty.connect.2.Shows 1 new ∧ (Hub.empty.connect.2.disconnect 1).Shows 1 (new.act .remove) ∧
    (new.acts (call .now 1)).replies = [(.now, none)] := by
  intro l l'
  obtain ⟨-, htime, -, hmore, -, hgone, -⟩ := delivered_in_time waitingMoves
  obtain ⟨-, -, hnothing, -⟩ := delivered_in_time [.ask .now]
  obtain ⟨-, -, -, -, hsame, -⟩ := delivered_in_time (waitingMoves ++ call .wait 3 ++ call .now 3)
  obtain ⟨-, -, -, -, -, -, hconnect, hhub⟩ := delivered_in_time []
  have hdelivered : l.delivered = [.diagram "B", .error "e"] := by decide +kernel
  have hin : messagesAt l.sent (inTime l.sent l.sent.length) =
      [.diagram "B", .error "e", .diagram "C"] := by decide +kernel
  have hshows : Hub.empty.connect.2.Shows 1 new := hconnect Hub.empty
  obtain ⟨-, hdisconnect, hcalls⟩ := hhub _ 1 hshows
  have hreceive := (hcalls rfl 1 (by decide)).1.2
  refine ⟨by decide +kernel, by decide +kernel, hdelivered, ?_, ?_, ?_, ?_, ?_, hshows, hdisconnect,
    hreceive⟩
  · exact htime 2 ⟨none, .error "e"⟩ (by decide +kernel) (by simp) 5 (by decide)
  · have hcall := hmore .now 3 (by decide +kernel) (by rw [hin, hdelivered]; decide +kernel)
    rw [hcall, hdelivered]
    rfl
  · exact hsame tardyMoves (by decide +kernel) (by decide +kernel) (by decide +kernel)
  · have hrest := (hgone 3 4 (by decide +kernel) (by decide +kernel)).2.1
    rw [hrest, hin]
  · exact (hnothing .now (by decide)).1

end Line
end ClassAtlas.Live
