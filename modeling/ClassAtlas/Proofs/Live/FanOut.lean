import ClassAtlas.Proofs.Live.Operations
import ClassAtlas.Proofs.Live.Rooms
import ClassAtlas.Proofs.Live.Staleness

/-!
# Every send reaches just those it is for

The tables of a hub against its history:

* `Agrees`: who is connected, who is in a room and who has a mailbox is what the history says.
  Every operation keeps it (`agrees_perform`).
* `Kept`: a mailbox holds what was addressed to its connection, less a beginning that the client has
  taken out; what the client got is what was fresh in that beginning.

`exact_fan_out` puts them together: a send adds one copy of its message to the mailbox of each
reachable target and changes no other, and its answer counts them.
-/
namespace ClassAtlas.Live

/-- The tables say what the history says. -/
structure Agrees (ops : List Op) (h : Hub) : Prop where
  consistent : h.registry.Consistent
  lastId : h.registry.lastId = connects ops
  connected : ∀ id, id ∈ h.registry.connected ↔ IsLive ops id
  members : ∀ s id, id ∈ h.registry.members s ↔ IsMember ops s id
  mailboxes : ∀ id, (h.mailboxes.get? id).isSome = true ↔ IsOpen ops id

theorem agrees_nil : Agrees [] Hub.empty where
  consistent := Registry.consistent_empty
  lastId := rfl
  connected id := iff_of_false List.not_mem_nil not_since_nil
  members s id := iff_of_false List.not_mem_nil not_since_nil
  mailboxes id := iff_of_false (by simp [Hub.empty, Table.get?]) not_since_nil

namespace Agrees

variable {ops : List Op} {h : Hub}

/-- What changes neither the registry nor who has a mailbox. -/
theorem of_frame (ha : Agrees ops h) {op : Op} {h' : Hub} (hreg : h'.registry = h.registry)
    (hbox : ∀ id, (h'.mailboxes.get? id).isSome = (h.mailboxes.get? id).isSome)
    (hconnect : op ≠ .connect) (hjoin : ∀ id s, op ≠ .join id s)
    (hdisconnect : ∀ id, op ≠ .disconnect id) (hdrop : ∀ id, op ≠ .drop id) :
    Agrees (ops ++ [op]) h' where
  consistent := by
    rw [hreg]
    exact ha.consistent
  lastId := by
    rw [hreg, connects_snoc, if_neg hconnect]
    exact ha.lastId
  connected id := by
    rw [hreg, ha.connected, IsLive, IsLive, since_snoc]
    simp [Comes, hconnect, hdisconnect]
  members s id := by
    rw [hreg, ha.members, IsMember, IsMember, since_snoc]
    simp [hjoin, hdisconnect]
  mailboxes id := by
    rw [hbox, ha.mailboxes, IsOpen, IsOpen, since_snoc]
    simp [Comes, hconnect, hdrop]

theorem connect (ha : Agrees ops h) : Agrees (ops ++ [.connect]) h.connect.2 where
  consistent := ha.consistent.connect
  lastId := by
    rw [connects_snoc, if_pos rfl, ← ha.lastId]
    rfl
  connected id := by
    have hnew : id ∈ h.connect.2.registry.connected ↔
        id ∈ h.registry.connected ∨ id = h.registry.lastId + 1 := by
      simp [Registry.connect]
    rw [hnew, ha.connected, ha.lastId, IsLive, IsLive, since_snoc]
    simp [Comes, or_comm]
  members s id := by
    have hsame : id ∈ h.connect.2.registry.members s ↔ id ∈ h.registry.members s := Iff.rfl
    rw [hsame, ha.members, IsMember, IsMember, since_snoc]
    simp
  mailboxes id := by
    rw [Hub.get?_connect, ha.lastId, IsOpen, since_snoc]
    by_cases hid : id = connects ops + 1
    · simp [hid, Comes]
    · rw [if_neg hid, ha.mailboxes, IsOpen]
      simp [hid, Comes]

theorem join (ha : Agrees ops h) (i : ConnectionId) (session : String) :
    Agrees (ops ++ [.join i session]) (h.join i session).2 where
  consistent := ha.consistent.join i session
  lastId := by
    rw [connects_snoc, if_neg (by simp), Nat.add_zero, ← ha.lastId]
    exact (Registry.join_frame h.registry i session).2
  connected id := by
    have hsame : (h.join i session).2.registry.connected = h.registry.connected :=
      (Registry.join_frame h.registry i session).1
    rw [hsame, ha.connected, IsLive, IsLive, since_snoc]
    simp [Comes]
  members s id := by
    have hjoin := Registry.mem_members_join h.registry i id session s
    rw [ha.members, ha.connected] at hjoin
    refine hjoin.trans ?_
    rw [IsMember, IsMember, since_snoc]
    constructor
    · rintro (hm | ⟨rfl, rfl, hl⟩)
      · exact Or.inr ⟨hm, by simp⟩
      · exact Or.inl ⟨rfl, hl⟩
    · rintro (⟨heq, hl⟩ | ⟨hm, -⟩)
      · cases heq
        exact Or.inr ⟨rfl, rfl, hl⟩
      · exact Or.inl hm
  mailboxes id := by
    have hsame : (h.join i session).2.mailboxes = h.mailboxes := rfl
    rw [hsame, ha.mailboxes, IsOpen, IsOpen, since_snoc]
    simp [Comes]

theorem disconnect (ha : Agrees ops h) (i : ConnectionId) :
    Agrees (ops ++ [.disconnect i]) (h.disconnect i) where
  consistent := ha.consistent.disconnect i
  lastId := by
    rw [connects_snoc, if_neg (by simp), Nat.add_zero, ← ha.lastId]
    exact Registry.lastId_disconnect h.registry i
  connected id := by
    refine (Registry.mem_connected_disconnect h.registry i id).trans ?_
    rw [ha.connected, IsLive, IsLive, since_snoc]
    simp [Comes, eq_comm]
  members s id := by
    refine (ha.consistent.mem_members_disconnect i id s).trans ?_
    rw [ha.members, IsMember, IsMember, since_snoc]
    simp [eq_comm]
  mailboxes id := by
    have hsame : (h.disconnect i).mailboxes = h.mailboxes := rfl
    rw [hsame, ha.mailboxes, IsOpen, IsOpen, since_snoc]
    simp [Comes]

theorem drop (ha : Agrees ops h) (i : ConnectionId) :
    Agrees (ops ++ [.drop i]) (h.dropMailbox i).2 where
  consistent := ha.consistent
  lastId := by
    rw [connects_snoc, if_neg (by simp), Nat.add_zero, ← ha.lastId]
    rfl
  connected id := by
    have hsame : (h.dropMailbox i).2.registry = h.registry := rfl
    rw [hsame, ha.connected, IsLive, IsLive, since_snoc]
    simp [Comes]
  members s id := by
    have hsame : (h.dropMailbox i).2.registry = h.registry := rfl
    rw [hsame, ha.members, IsMember, IsMember, since_snoc]
    simp
  mailboxes id := by
    rw [Hub.get?_dropMailbox, IsOpen, since_snoc]
    by_cases hid : id = i
    · simp [hid, Comes]
    · rw [if_neg hid, ha.mailboxes, IsOpen]
      simp [Comes, Ne.symm hid]

theorem receive (ha : Agrees ops h) (i : ConnectionId) {op : Op}
    (hop : op = .receive i ∨ op = .await i) : Agrees (ops ++ [op]) (h.receive i).2 := by
  refine ha.of_frame (Hub.registry_receive h i) ?_ ?_ ?_ ?_ ?_
  · intro id
    rw [Hub.get?_receive]
    split
    · rename_i hid
      rw [Option.isSome_map, hid]
    · rfl
  all_goals rcases hop with rfl | rfl <;> simp

/-! ## Sending -/

theorem nodup_recipients (ha : Agrees ops h) (m : Send) : (h.recipients m).Nodup := by
  cases m with
  | toAll m => exact ha.consistent.nodup_connected
  | diagramToAll s => exact ha.consistent.nodup_connected
  | toRoom session m => exact ha.consistent.nodup_members session
  | diagramToRoom session s => exact ha.consistent.nodup_members session
  | diagramTo i s => exact List.nodup_singleton i

theorem mem_recipients (ha : Agrees ops h) (m : Send) (id : ConnectionId) :
    id ∈ h.recipients m ↔ IsTarget ops id m := by
  cases m with
  | toAll m => exact ha.connected id
  | diagramToAll s => exact ha.connected id
  | toRoom session m => exact ha.members session id
  | diagramToRoom session s => exact ha.members session id
  | diagramTo i s => exact List.mem_singleton

theorem reaches_iff (ha : Agrees ops h) (id : ConnectionId) :
    h.reaches id = true ↔ IsReachable ops id := by
  rw [Hub.reaches, Bool.and_eq_true, Registry.isConnected_iff, ha.connected, ha.mailboxes]
  rfl

/-- A send adds one copy to the mailbox of each reachable target. -/
theorem get?_send (ha : Agrees ops h) (m : Send) (id : ConnectionId) :
    match arrival ops m id with
    | some o => ∃ b, h.mailboxes.get? id = some b ∧
        (h.send m).2.mailboxes.get? id = some (b.push o)
    | none => (h.send m).2.mailboxes.get? id = h.mailboxes.get? id := by
  unfold arrival
  cases ho : m.outbound? with
  | none =>
    rw [ite_self, Hub.send_of_none ho]
  | some o =>
    rw [Hub.send_of_some ho]
    have hget := Hub.get?_postAll h id o (ha.nodup_recipients m)
    simp only [ha.mem_recipients, Registry.isConnected_iff, ha.connected] at hget
    by_cases hto : IsTarget ops id m ∧ IsReachable ops id
    · obtain ⟨b, hb⟩ := Option.isSome_iff_exists.1 ((ha.mailboxes id).2 hto.2.2)
      rw [if_pos ⟨hto.1, hto.2.1⟩, hb] at hget
      rw [if_pos hto]
      exact ⟨b, hb, hget⟩
    · rw [if_neg hto]
      refine hget.trans ?_
      split
      · rename_i hlive
        -- a target that cannot be reached has no mailbox
        have hnone : h.mailboxes.get? id = none := by
          refine Option.not_isSome_iff_eq_none.1 fun hs => ?_
          exact hto ⟨hlive.1, hlive.2, (ha.mailboxes id).1 hs⟩
        rw [hnone]
        rfl
      · rfl

/-- A send answers how many it reached. -/
theorem send_fst (ha : Agrees ops h) (m : Send) : ∃ ids : List ConnectionId, ids.Nodup ∧
    (∀ id, id ∈ ids ↔ (arrival ops m id).isSome = true) ∧ (h.send m).1 = m.answer ids.length := by
  cases ho : m.outbound? with
  | none =>
    rw [Hub.send_of_none ho]
    refine ⟨[], List.nodup_nil, ?_, rfl⟩
    intro id
    simp [arrival, ho]
  | some o =>
    rw [Hub.send_of_some ho, Hub.postAll_fst]
    refine ⟨(h.recipients m).filter h.reaches, (ha.nodup_recipients m).filter _, ?_, rfl⟩
    intro id
    rw [List.mem_filter, ha.mem_recipients, ha.reaches_iff, arrival, ho]
    by_cases hto : IsTarget ops id m ∧ IsReachable ops id <;> simp [hto]

theorem send (ha : Agrees ops h) (m : Send) : Agrees (ops ++ [.send m]) (h.send m).2 := by
  refine ha.of_frame ?_ ?_ (by simp) (by simp) (by simp) (by simp)
  · cases ho : m.outbound? with
    | none => rw [Hub.send_of_none ho]
    | some o => rw [Hub.send_of_some ho, Hub.registry_postAll]
  · intro id
    have hget := ha.get?_send m id
    cases harr : arrival ops m id with
    | none =>
      simp only [harr] at hget
      rw [hget]
    | some o =>
      simp only [harr] at hget
      obtain ⟨b, hb, hb'⟩ := hget
      rw [hb, hb']
      rfl

end Agrees

theorem agrees_perform {ops : List Op} {h : Hub} (ha : Agrees ops h) (op : Op) :
    Agrees (ops ++ [op]) (h.perform op) := by
  cases op with
  | connect => exact ha.connect
  | join i session => exact ha.join i session
  | disconnect i => exact ha.disconnect i
  | drop i => exact ha.drop i
  | receive i => exact ha.receive i (Or.inl rfl)
  | await i =>
    rw [Hub.perform, Hub.await_snd]
    exact ha.receive i (Or.inr rfl)
  | send m => exact ha.send m

theorem agrees_run (ops : List Op) : Agrees ops (Hub.run ops) := by
  induction ops using List.reverseRecOn with
  | nil => exact agrees_nil
  | append_singleton ops op ih =>
    rw [Hub.run_snoc]
    exact agrees_perform ih op

/-! ## What a mailbox holds -/

/-- The mailbox of a connection holds what was addressed to it, less what the client has taken. -/
def Kept (ops : List Op) (id : ConnectionId) (b : Mailbox) : Prop :=
  ∃ taken, addressed id ops = taken ++ b.queue ∧
    delivered id ops = (Mailbox.fresh 0 taken).map (·.message) ∧
    b.lastRevision = Mailbox.highest 0 taken

section

variable {ops : List Op} {op : Op} {id : ConnectionId} {b : Mailbox}

theorem addressed_snoc :
    addressed id (ops ++ [op]) = addressed id ops ++ (arrivalOf id ops op).toList :=
  collect_snoc _ ops op

theorem delivered_snoc :
    delivered id (ops ++ [op]) = delivered id ops ++ (deliveryOf id ops op).toList :=
  collect_snoc _ ops op

/-- Nothing was asked that concerns the mailbox. -/
theorem Kept.of_frame (h : Kept ops id b) (harr : arrivalOf id ops op = none)
    (hdel : deliveryOf id ops op = none) : Kept (ops ++ [op]) id b := by
  obtain ⟨taken, ha, hd, hl⟩ := h
  refine ⟨taken, ?_, ?_, hl⟩
  · rw [addressed_snoc, harr, ha]
    simp
  · rw [delivered_snoc, hdel, hd]
    simp

/-- One message more comes in at the end. -/
theorem Kept.push (h : Kept ops id b) {o : Outbound} (harr : arrivalOf id ops op = some o)
    (hdel : deliveryOf id ops op = none) : Kept (ops ++ [op]) id (b.push o) := by
  obtain ⟨taken, ha, hd, hl⟩ := h
  refine ⟨taken, ?_, ?_, hl⟩
  · rw [addressed_snoc, harr, ha, List.append_assoc]
    rfl
  · rw [delivered_snoc, hdel, hd]
    simp

/-- The client takes out what it gets. -/
theorem Kept.take (h : Kept ops id b) (harr : arrivalOf id ops op = none)
    (hdel : deliveryOf id ops op = b.take.1) : Kept (ops ++ [op]) id b.take.2 := by
  obtain ⟨taken, ha, hd, hl⟩ := h
  obtain ⟨more, hq, hlast, hfresh, hfst, -⟩ := Mailbox.take_spec b
  refine ⟨taken ++ more, ?_, ?_, ?_⟩
  · rw [addressed_snoc, harr, ha, hq, List.append_assoc]
    simp
  · rw [delivered_snoc, hdel, hfst, hd, Mailbox.fresh_append, ← hl, hfresh]
    cases b.next? <;> simp
  · rw [hlast, hl, Mailbox.highest_append]

theorem kept_new (h : connects ops < id) : Kept ops id Mailbox.empty := by
  have hnone : addressed id ops = [] ∧ delivered id ops = [] := by
    induction ops using List.reverseRecOn with
    | nil => exact ⟨rfl, rfl⟩
    | append_singleton ops op ih =>
      have hlt : connects ops < id := by
        rw [connects_snoc] at h
        omega
      have hlive : ¬ IsLive ops id := fun hl => Nat.not_le_of_lt hlt (le_connects_of_since hl)
      have hopen : (Hub.run ops).mailboxes.get? id = none := by
        refine Option.not_isSome_iff_eq_none.1 fun hs => ?_
        exact Nat.not_le_of_lt hlt (le_connects_of_since (((agrees_run ops).mailboxes id).1 hs))
      have hreceive : ((Hub.run ops).receive id).1 = none := by
        rw [Hub.receive_fst, hopen]
        rfl
      obtain ⟨iha, ihd⟩ := ih hlt
      rw [addressed_snoc, delivered_snoc, iha, ihd]
      cases op <;>
        simp [arrivalOf, deliveryOf, arrival, IsReachable, hlive, Hub.message?_await, hreceive]
  exact ⟨[], hnone.1, hnone.2, rfl⟩

end

theorem kept_perform {ops : List Op} {id : ConnectionId}
    (h : ∀ b, (Hub.run ops).mailboxes.get? id = some b → Kept ops id b) (op : Op) {b : Mailbox}
    (hb : ((Hub.run ops).perform op).mailboxes.get? id = some b) : Kept (ops ++ [op]) id b := by
  have ha := agrees_run ops
  -- both ways of receiving do the same
  have hreceive : ∀ i, ((Hub.run ops).receive i).2.mailboxes.get? id = some b →
      arrivalOf id ops op = none →
      deliveryOf id ops op = (if i = id then ((Hub.run ops).receive id).1 else none) →
      Kept (ops ++ [op]) id b := by
    intro i hb harr hdel
    rw [Hub.get?_receive] at hb
    split at hb
    · rename_i hid
      subst hid
      obtain ⟨b', hb', rfl⟩ := Option.map_eq_some_iff.1 hb
      refine (h b' hb').take harr ?_
      rw [hdel, if_pos rfl, Hub.receive_fst, hb']
      rfl
    · rename_i hid
      refine (h b hb).of_frame harr ?_
      rw [hdel, if_neg (Ne.symm hid)]
  cases op with
  | connect =>
    rw [Hub.perform, Hub.get?_connect] at hb
    split at hb
    · rename_i hid
      cases hb
      refine (kept_new ?_).of_frame rfl rfl
      rw [hid, ha.lastId]
      exact Nat.lt_succ_self _
    · exact (h b hb).of_frame rfl rfl
  | join i session => exact (h b hb).of_frame rfl rfl
  | disconnect i => exact (h b hb).of_frame rfl rfl
  | drop i =>
    rw [Hub.perform, Hub.get?_dropMailbox] at hb
    split at hb
    · cases hb
    · exact (h b hb).of_frame rfl rfl
  | receive i => exact hreceive i hb rfl rfl
  | await i =>
    rw [Hub.perform, Hub.await_snd] at hb
    refine hreceive i hb rfl ?_
    rw [deliveryOf, Hub.message?_await]
  | send m =>
    have hsend := ha.get?_send m id
    cases harr : arrival ops m id with
    | none =>
      simp only [harr] at hsend
      rw [Hub.perform, hsend] at hb
      exact (h b hb).of_frame harr rfl
    | some o =>
      simp only [harr] at hsend
      obtain ⟨b', hb', hpush⟩ := hsend
      rw [Hub.perform, hpush] at hb
      cases hb
      exact (h b' hb').push harr rfl

theorem kept_run (ops : List Op) (id : ConnectionId) (b : Mailbox)
    (hb : (Hub.run ops).mailboxes.get? id = some b) : Kept ops id b := by
  induction ops using List.reverseRecOn generalizing b with
  | nil => cases hb
  | append_singleton ops op ih =>
    rw [Hub.run_snoc] at hb
    exact kept_perform ih op hb

/-- **Exact fan-out.** After any history: a join succeeds for those that are live; a send adds one
copy to the mailbox of each reachable target, changes no other, and answers how many they are; and
what a mailbox was ever given is, in order, what the client has taken and what still waits. -/
theorem exact_fan_out (ops : List Op) :
    (∀ id session, ((Hub.run ops).join id session).1 = true ↔ IsLive ops id) ∧
    (∀ m : Send,
      (∀ id, match arrival ops m id with
        | some o => ∃ b, (Hub.run ops).mailboxes.get? id = some b ∧
            ((Hub.run ops).send m).2.mailboxes.get? id = some (b.push o)
        | none => ((Hub.run ops).send m).2.mailboxes.get? id = (Hub.run ops).mailboxes.get? id) ∧
      ∃ ids : List ConnectionId, ids.Nodup ∧ (∀ id, id ∈ ids ↔ (arrival ops m id).isSome = true) ∧
        ((Hub.run ops).send m).1 = m.answer ids.length) ∧
    ∀ id, match (Hub.run ops).mailboxes.get? id with
      | some b => IsOpen ops id ∧ ∃ taken, addressed id ops = taken ++ b.queue ∧
          delivered id ops = (Mailbox.fresh 0 taken).map (·.message)
      | none => ¬ IsOpen ops id := by
  have ha := agrees_run ops
  refine ⟨?_, fun m => ⟨ha.get?_send m, ha.send_fst m⟩, ?_⟩
  · intro id session
    exact (Registry.join_fst _ id session).trans (ha.connected id)
  · intro id
    have hopen := ha.mailboxes id
    cases hb : (Hub.run ops).mailboxes.get? id with
    | none =>
      rw [hb] at hopen
      exact fun ho => absurd (hopen.2 ho) (by simp)
    | some b =>
      rw [hb] at hopen
      obtain ⟨taken, haddr, hdel, -⟩ := kept_run ops id b hb
      exact ⟨hopen.1 rfl, taken, haddr, hdel⟩

end ClassAtlas.Live
