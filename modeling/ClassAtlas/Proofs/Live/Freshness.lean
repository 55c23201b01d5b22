import ClassAtlas.Proofs.Live.Soundness

/-!
# Every client ends on the newest diagram

`Served` is kept along any run of `Traffic`, for every connected client with a mailbox: it has the
current diagram, or that waits in its mailbox, or it is on the way. On the way it is if the client
is still to read it or to be sent what it read, or if the announcement is still to come to the
client.

A publish puts it on the way to everybody, since the announcement begins after it; a client that
connects is on the way by itself. Each step of a task that takes it off one way puts it on another,
or into the mailbox. There only a newer diagram can make it stale, and by `Sound` there is none.

`newest_at_last`: if nothing is on its way to a client and nothing waits for it, it has the current
diagram.
-/
namespace ClassAtlas.Live.Traffic

/-! ## On the way to the current diagram -/

/-- Why a client with a mailbox does not miss the current diagram. -/
inductive Reason (t : Traffic) (id : ConnectionId) (b : Mailbox) : Prop where
  | none (h : t.current.revision = 0)
  | got (h : b.lastRevision = t.current.revision)
  | waits (h : .ofSnapshot t.current ∈ b.queue)
  | reads (h : .read id ∈ t.tasks)
  | greeted (h : .greet id t.current ∈ t.tasks)
  | announced (h : t.due = some (.announce t.current))
  | delivered (ids : List ConnectionId) (o : Outbound) (h : t.due = some (.deliver ids o))
    (hid : id ∈ ids)

def Served (t : Traffic) (id : ConnectionId) : Prop :=
  ∀ b, id ∈ t.hub.registry.connected → t.hub.mailboxes.get? id = some b → Reason t id b

/-- More tasks and more in the mailbox. -/
theorem Reason.mono {t t' : Traffic} {id : ConnectionId} {b b' : Mailbox} (h : Reason t id b)
    (hc : t'.current = t.current) (hd : t'.due = t.due) (hk : ∀ k ∈ t.tasks, k ∈ t'.tasks)
    (hl : b'.lastRevision = b.lastRevision) (hq : ∀ o ∈ b.queue, o ∈ b'.queue) :
    Reason t' id b' := by
  cases h with
  | none h0 => exact .none (by rw [hc]; exact h0)
  | got h => exact .got (by rw [hl, hc]; exact h)
  | waits hmem => exact .waits (by rw [hc]; exact hq _ hmem)
  | reads h => exact .reads (hk _ h)
  | greeted h => exact .greeted (by rw [hc]; exact hk _ h)
  | announced h => exact .announced (by rw [hd, hc]; exact h)
  | delivered ids o h hmem => exact .delivered ids o (by rw [hd]; exact h) hmem

theorem mem_eraseIdx {α : Type} {l : List α} {i : Nat} {k x : α} (hk : l[i]? = some k)
    (hx : x ∈ l) : k = x ∨ x ∈ l.eraseIdx i := by
  obtain ⟨j, hj⟩ := List.getElem?_of_mem hx
  by_cases hij : j = i
  · subst hij
    rw [hk] at hj
    exact Or.inl (Option.some.inj hj)
  · exact Or.inr (List.mem_eraseIdx_iff_getElem?.2 ⟨j, hij, hj⟩)

namespace Served

variable {t : Traffic} {id : ConnectionId}

theorem of_post (h : Served t id) (p : Option (ConnectionId × Outbound)) :
    Served { t with hub := t.hub.postSome p } id := by
  intro b' hid hb'
  rw [Hub.registry_postSome] at hid
  obtain ⟨b, hb, hlast, hq⟩ := Hub.mailbox_of_postSome hb'
  refine (h b hid hb).mono rfl rfl (fun _ hk => hk) hlast ?_
  intro o ho
  rcases hq with hq | ⟨o', -, hq⟩
  · rw [hq]
    exact ho
  · rw [hq]
    exact List.mem_append_left _ ho

theorem of_hub (h : Served t id) {hub : Hub} (hhub : t.hub.Lessened hub) :
    Served { t with hub } id := by
  intro b hid hb
  exact (h b (hhub.connected id hid) (hhub.mailboxes id b hb)).mono rfl rfl (fun _ hk => hk) rfl
    fun _ ho => ho

theorem of_tasks (h : Served t id) (tasks : List Task) :
    Served { t with tasks := t.tasks ++ tasks } id := by
  intro b hid hb
  exact (h b hid hb).mono rfl rfl (fun _ hk => List.mem_append_left _ hk) rfl fun _ ho => ho

theorem publish (t : Traffic) (id : ConnectionId) (text : String) :
    Served { t with
      cell := t.cell.publish text
      due := some (.announce (t.cell.publish text).current) } id :=
  fun _ _ _ => .announced rfl

/-- A new client is still to read. -/
theorem connect (h : Served t id) :
    Served { t with hub := t.hub.connect.2, tasks := t.tasks ++ [.read t.hub.connect.1] } id := by
  intro b hid hb
  by_cases hnew : id = t.hub.registry.lastId + 1
  · refine .reads (List.mem_append_right _ ?_)
    rw [hnew]
    exact List.mem_singleton_self _
  · rw [Hub.get?_connect, if_neg hnew] at hb
    rcases List.mem_append.1 hid with hid | hid
    · exact (h b hid hb).mono rfl rfl (fun _ hk => List.mem_append_left _ hk) rfl fun _ ho => ho
    · exact absurd (List.mem_singleton.1 hid) hnew

/-- The announcement goes on: whom it leaves behind has it in the mailbox. -/
theorem announce (h : Served t id) (hs : Sound t) {k : Task} (hk : t.due = some k)
    (pick : ConnectionId) :
    Served { t with
      due := (k.step t.current t.hub pick).1
      hub := t.hub.postSome (k.posts pick) } id := by
  intro b' hid hb'
  have hid' : id ∈ t.hub.registry.connected := by
    rw [Hub.registry_postSome] at hid
    exact hid
  cases h.of_post (k.posts pick) b' hid hb' with
  | none h0 => exact .none h0
  | got hl => exact .got hl
  | waits hmem => exact .waits hmem
  | reads hk => exact .reads hk
  | greeted hk => exact .greeted hk
  | announced hd =>
    have hd : t.due = some (.announce t.current) := hd
    rw [hk] at hd
    cases hd
    by_cases h0 : t.current.revision = 0
    · exact .none h0
    · exact .delivered t.hub.registry.connected (.ofSnapshot t.current) (if_neg h0) hid'
  | delivered ids o hd hmem =>
    have hd : t.due = some (.deliver ids o) := hd
    rw [hk] at hd
    cases hd
    rcases hs.due _ hk with hann | ⟨ids', heq, -⟩
    · cases hann
    · cases heq
      by_cases hpick : pick = id
      · subst hpick
        simp only [Task.posts, if_pos hmem] at hb'
        exact .waits (Hub.mem_queue_postSome hid' hb')
      · cases ids with
        | nil => cases hmem
        | cons i ids =>
          by_cases hin : pick ∈ i :: ids
          · refine .delivered ((i :: ids).erase pick) (.ofSnapshot t.current) ?_
              ((List.mem_erase_of_ne (Ne.symm hpick)).2 hmem)
            simp only [Task.step, if_pos hin]
          · refine .delivered (i :: ids) (.ofSnapshot t.current) ?_ hmem
            simp only [Task.step, if_neg hin]

/-- A task goes on: what a new client reads is the current diagram. -/
theorem proceed (h : Served t id) {i : Nat} {k : Task} (hk : t.tasks[i]? = some k)
    (pick : ConnectionId) :
    Served { t with
      tasks := t.tasks.eraseIdx i ++ (k.step t.current t.hub pick).1.toList
      hub := t.hub.postSome (k.posts pick) } id := by
  intro b' hid hb'
  cases h.of_post (k.posts pick) b' hid hb' with
  | none h0 => exact .none h0
  | got hl => exact .got hl
  | waits hmem => exact .waits hmem
  | reads hread =>
    rcases mem_eraseIdx hk hread with rfl | hin
    · exact .greeted (List.mem_append_right _ (List.mem_singleton_self _))
    · exact .reads (List.mem_append_left _ hin)
  | greeted hgreet =>
    have hgreet : .greet id t.current ∈ t.tasks := hgreet
    rcases mem_eraseIdx hk hgreet with rfl | hin
    · by_cases h0 : t.current.revision = 0
      · exact .none h0
      · rw [Hub.registry_postSome] at hid
        simp only [Task.posts, if_neg h0] at hb'
        exact .waits (Hub.mem_queue_postSome hid hb')
    · exact .greeted (List.mem_append_left _ hin)
  | announced hd => exact .announced hd
  | delivered ids o hd hmem => exact .delivered ids o hd hmem

/-- Whoever takes the current diagram out has it, and whoever takes less still has it waiting. -/
theorem receive (h : Served t id) (hs : Sound t) (i : ConnectionId) :
    Served (t.act (.receive i)) id := by
  intro b' hin hin'
  have hid : id ∈ t.hub.registry.connected := by
    rw [← Hub.registry_receive t.hub i]
    exact hin
  have hb' : (t.hub.receive i).2.mailboxes.get? id = some b' := hin'
  rw [Hub.get?_receive] at hb'
  split at hb'
  · rename_i heq
    subst heq
    obtain ⟨b, hb, rfl⟩ := Option.map_eq_some_iff.1 hb'
    obtain ⟨taken, hq, hlast, -⟩ := Mailbox.take_spec b
    have hle : b.take.2.lastRevision ≤ t.current.revision := by
      rw [hlast]
      refine Mailbox.highest_le _ _ (hs.lastRevision_le hb) ?_
      intro o ho r hr
      refine (hs.queued id b hb o ?_).revision_le hr
      rw [hq]
      exact List.mem_append_left _ ho
    cases h b hid hb with
    | none h0 => exact .none h0
    | got hl =>
      have hge : b.lastRevision ≤ b.take.2.lastRevision := by
        rw [hlast]
        exact Mailbox.le_highest _ _
      rw [hl] at hge
      exact .got (Nat.le_antisymm hle hge)
    | waits hmem =>
      rw [hq] at hmem
      rcases List.mem_append.1 hmem with hmem | hmem
      · have hge : t.current.revision ≤ b.take.2.lastRevision := by
          rw [hlast]
          exact Mailbox.le_highest_of_mem _ _ hmem rfl
        exact .got (Nat.le_antisymm hle hge)
      · exact .waits hmem
    | reads hk => exact .reads hk
    | greeted hk => exact .greeted hk
    | announced hd => exact .announced hd
    | delivered ids o hd hmem => exact .delivered ids o hd hmem
  · exact (h b' hid hb').mono rfl rfl (fun _ hk => hk) rfl fun _ ho => ho

end Served

/-! ## Runs -/

theorem served_act {t : Traffic} {id : ConnectionId} (h : Served t id) (hs : Sound t)
    (a : Action) : Served (t.act a) id := by
  have heffect := effect_act t a
  generalize t.act a = t' at heffect
  cases heffect with
  | nothing => exact h
  | publish text hd => exact Served.publish t id text
  | announce pick hd => exact h.announce hs hd pick
  | proceed pick hk => exact h.proceed hk pick
  | begin hk => exact h.of_tasks _
  | connect => exact h.connect
  | lessen hhub => exact h.of_hub hhub
  | receive i => exact h.receive hs i

theorem served_run (actions : List Action) (id : ConnectionId) : Served (run actions) id := by
  induction actions using List.reverseRecOn with
  | nil =>
    intro b hid
    cases hid
  | append_singleton actions a ih =>
    rw [run_snoc]
    exact served_act ih (sound_run actions) a

/-! ## What a client ends on -/

/-- Nothing is on its way to a client, and nothing waits for it. -/
structure AtRest (t : Traffic) (id : ConnectionId) : Prop where
  /-- No published diagram is still to be announced. -/
  announced : t.due = none
  connected : id ∈ t.hub.registry.connected
  /-- The client did not give up its mailbox. -/
  hasMailbox : (t.hub.mailboxes.get? id).isSome = true
  /-- The client finds nothing more in it. -/
  drained : (t.hub.receive id).1 = none
  /-- The client has read the current diagram and was sent what it read. -/
  greeted : ∀ k ∈ t.tasks, k.greets id = false

/-- A client that finds nothing more has the current revision, if that was waiting. -/
theorem Sound.lastRevision_of_drained {t : Traffic} (h : Sound t) {id : ConnectionId} {b : Mailbox}
    (hb : t.hub.mailboxes.get? id = some b) (hd : (t.hub.receive id).1 = none)
    (hmem : .ofSnapshot t.current ∈ b.queue) : b.lastRevision = t.current.revision := by
  obtain ⟨taken, hq, -, hf, hfst, hn⟩ := Mailbox.take_spec b
  have hnext : b.next? = none := by
    rw [Hub.receive_fst, hb, Option.bind_some, hfst] at hd
    exact Option.map_eq_none_iff.1 hd
  rw [hn hnext, List.append_nil] at hq
  rw [hnext] at hf
  -- nothing fresh comes out, so nothing newer was in
  have hsame := Mailbox.getLast?_fresh b.lastRevision taken
  rw [hf] at hsame
  have hle : t.current.revision ≤ Mailbox.highest b.lastRevision taken :=
    Mailbox.le_highest_of_mem _ _ (hq ▸ hmem) rfl
  rw [← hsame] at hle
  exact Nat.le_antisymm (h.lastRevision_le hb) hle

/-- At rest, the current diagram has got through. -/
theorem lastRevision_of_atRest {t : Traffic} {id : ConnectionId} (hs : Sound t) (h : Served t id)
    (hr : AtRest t id) {b : Mailbox} (hb : t.hub.mailboxes.get? id = some b) :
    t.current.revision = 0 ∨ b.lastRevision = t.current.revision := by
  cases h b hr.connected hb with
  | none h0 => exact Or.inl h0
  | got hl => exact Or.inr hl
  | waits hmem => exact Or.inr (hs.lastRevision_of_drained hb hr.drained hmem)
  | reads hk =>
    have hg := hr.greeted _ hk
    simp [Task.greets] at hg
  | greeted hk =>
    have hg := hr.greeted _ hk
    simp [Task.greets] at hg
  | announced hd =>
    rw [hr.announced] at hd
    cases hd
  | delivered ids o hd =>
    rw [hr.announced] at hd
    cases hd

/-- **The newest diagram at last.** In every run, whatever overlaps: the revisions of the diagrams
that a client receives never go down, and none is 0. Whenever nothing is on its way to a connected
client with a mailbox, and nothing waits for it, the last diagram it received is the current one; it
received none if nothing was published. -/
theorem newest_at_last (actions : List Action) (id : ConnectionId) :
    let t := run actions
    (t.diagramRevisions id).Pairwise (· ≤ ·) ∧ 0 ∉ t.diagramRevisions id ∧
    (AtRest t id → (t.diagrams id).getLast? =
      if t.current.revision = 0 then none else some (.ofSnapshot t.current)) := by
  intro t
  have hs : Sound t := sound_run actions
  refine ⟨hs.pairwise_diagramRevisions id, ?_, ?_⟩
  · intro h0
    obtain ⟨o, ho, hrev⟩ := List.mem_map.1 h0
    have hpos := (hs.of_mem_diagrams ho).1
    omega
  · intro hr
    obtain ⟨b, hb⟩ := Option.isSome_iff_exists.1 hr.hasMailbox
    split
    · rename_i h0
      cases hlast : (t.diagrams id).getLast? with
      | none => rfl
      | some o =>
        obtain ⟨hpos, hle, -⟩ := hs.of_mem_diagrams (List.mem_of_getLast? hlast)
        omega
    · rename_i h0
      have hb' : b.lastRevision = t.current.revision := by
        rcases lastRevision_of_atRest hs (served_run actions id) hr hb with h | h
        · exact absurd h h0
        · exact h
      have hgot := hs.getLast?_got hb
      rw [← hs.diagramRevisions_eq, diagramRevisions, List.getLast?_map, hb'] at hgot
      cases hlast : (t.diagrams id).getLast? with
      | none =>
        rw [hlast] at hgot
        exact absurd hgot.symm h0
      | some o =>
        rw [hlast] at hgot
        rw [(hs.of_mem_diagrams (List.mem_of_getLast? hlast)).2.2 hgot]

/-! ## A run that meets the hypotheses -/

/-- A client comes too late for the announcement of a diagram and reads it, but is sent the next one
first; it takes that out, and the other is passed over. -/
def overtaken : List Action :=
  [.publish "A", .announce 0, .connect, .announce 0, .proceed 0 0, .publish "B", .announce 0,
    .announce 1, .proceed 0 0, .announce 0, .receive 1, .receive 1]

theorem newest_after_overtaken :
    AtRest (run overtaken) 1 ∧
      ((run overtaken).diagrams 1).getLast? = some ⟨some 2, .diagram "B"⟩ := by
  have hr : AtRest (run overtaken) 1 :=
    ⟨rfl, by decide, rfl, rfl, by decide⟩
  exact ⟨hr, (newest_at_last overtaken 1).2.2 hr⟩

end ClassAtlas.Live.Traffic
