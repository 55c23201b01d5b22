import ClassAtlas.Proofs.Live.FanOut
import Mathlib.Data.Set.Card

/-!
# What the registry holds

`Registry.Consistent` says that the tables agree on who is in which room. `Registry.Tidy` says that
they hold nothing besides: no room without a member and no note without a room, whatever was asked
(`tidy_run`). A disconnect meets the rooms one by one and gives up those that it empties; that this
leaves no empty room behind is `Tidy.disconnect`.

* `registry_in_order`: both at once for every history, with what follows of it. Numbers of
  connections are given away one after the other from 1 on, so none is given twice as long as 64
  bits are enough for them; a disconnect takes out all that is known of a connection and nothing
  else; who is not there cannot join; and the rooms counted are those with somebody in them.
-/
namespace ClassAtlas.Live

namespace Table

variable {κ α : Type} [DecidableEq κ]

theorem mem_keys_iff {t : Table κ α} {k : κ} : k ∈ t.keys ↔ ∃ a, t.get? k = some a := by
  unfold keys get?
  rw [← Option.isSome_iff_exists, Option.isSome_map, List.find?_isSome]
  simp

end Table

namespace Registry

/-! ## Nothing empty -/

/-- A table of lists in which every key has something and stands once. -/
structure IsTidy {κ α : Type} [DecidableEq κ] (t : Table κ (List α)) : Prop where
  nodup : t.keys.Nodup
  ne_nil : ∀ k, t.get? k ≠ some []

namespace IsTidy

variable {κ α : Type} [DecidableEq κ] {t : Table κ (List α)}

theorem set (h : IsTidy t) (k : κ) {as : List α} (has : as ≠ []) : IsTidy (t.set k as) where
  nodup := Table.keys_set_nodup h.nodup k as
  ne_nil j := by
    rw [Table.get?_set]
    split
    · exact fun heq => has (Option.some.inj heq)
    · exact h.ne_nil j

theorem erase (h : IsTidy t) (k : κ) : IsTidy (t.erase k) where
  nodup := Table.keys_erase_nodup h.nodup k
  ne_nil j := by
    rw [Table.get?_erase]
    split
    · exact (Option.some_ne_none []).symm
    · exact h.ne_nil j

end IsTidy

/-- No room is empty, and no connection has an empty list of rooms. -/
structure Tidy (r : Registry) : Prop where
  rooms : IsTidy r.rooms
  memberships : IsTidy r.memberships

/-- Leaving a room gives it up if it is empty then. -/
theorem isTidy_rooms_leave {r : Registry} (h : IsTidy r.rooms) (id : ConnectionId)
    (session : String) : IsTidy ((r.leave id session).closeIfEmpty session).rooms where
  nodup := by
    have hleave : (r.leave id session).rooms.keys.Nodup := by
      unfold leave
      split
      · exact Table.keys_set_nodup h.nodup session _
      · exact h.nodup
    unfold closeIfEmpty
    split
    · exact Table.keys_erase_nodup hleave session
    · exact hleave
  ne_nil s := by
    rw [get?_rooms_closeIfEmpty]
    split
    · exact (Option.some_ne_none []).symm
    · rename_i hopen
      -- only the room that is left can have become empty, and then it has been given up
      by_cases hs : s = session
      · exact fun hnil => hopen ⟨hs, hs ▸ hnil⟩
      · rw [get?_rooms_leave, if_neg hs]
        exact h.ne_nil s

theorem isTidy_rooms_leaveAll {r : Registry} (h : IsTidy r.rooms) (id : ConnectionId)
    (sessions : List String) : IsTidy (r.leaveAll id sessions).rooms := by
  induction sessions generalizing r with
  | nil => exact h
  | cons s sessions ih => exact ih (isTidy_rooms_leave h id s)

theorem tidy_empty : Tidy empty :=
  ⟨⟨List.nodup_nil, nofun⟩, ⟨List.nodup_nil, nofun⟩⟩

namespace Tidy

variable {r : Registry}

theorem join (h : Tidy r) (id : ConnectionId) (session : String) :
    Tidy (r.join id session).2 := by
  unfold Registry.join
  split
  · exact ⟨h.rooms.set session (List.ne_nil_of_mem List.mem_insert_self),
      h.memberships.set id (List.ne_nil_of_mem List.mem_insert_self)⟩
  · exact h

theorem disconnect (h : Tidy r) (id : ConnectionId) : Tidy (r.disconnect id) where
  rooms := isTidy_rooms_leaveAll (r := ((r.cutOff id).takeNotes id).2) h.rooms id _
  memberships := by
    have hframe : (r.disconnect id).memberships = r.memberships.erase id :=
      (leaveAll_frame _ id _).2.1
    rw [hframe]
    exact h.memberships.erase id

end Tidy
end Registry

theorem tidy_perform {h : Hub} (ht : h.registry.Tidy) (op : Op) : (h.perform op).registry.Tidy := by
  cases op with
  | connect => exact ⟨ht.rooms, ht.memberships⟩
  | join id session => exact ht.join id session
  | disconnect id => exact ht.disconnect id
  | drop id => exact ht
  | receive id =>
    rw [Hub.perform, Hub.registry_receive]
    exact ht
  | await id =>
    rw [Hub.perform, Hub.await_snd, Hub.registry_receive]
    exact ht
  | send m =>
    have hframe : (h.send m).2.registry = h.registry := by
      cases ho : m.outbound? with
      | none => rw [Hub.send_of_none ho]
      | some o => rw [Hub.send_of_some ho, Hub.registry_postAll]
    rw [Hub.perform, hframe]
    exact ht

theorem tidy_run (ops : List Op) : (Hub.run ops).registry.Tidy := by
  induction ops using List.reverseRecOn with
  | nil => exact Registry.tidy_empty
  | append_singleton ops op ih =>
    rw [Hub.run_snoc]
    exact tidy_perform ih op

/-! ## Numbers -/

/-- The number that is given away when something is asked. -/
def numberOf (before : List Op) : Op → Option ConnectionId
  | .connect => some (Hub.run before).connect.1
  | _ => none

/-- All numbers that were given away, in order. -/
def handedOut : List Op → List ConnectionId := collect numberOf

theorem handedOut_eq (ops : List Op) : handedOut ops = List.range' 1 (connects ops) := by
  induction ops using List.reverseRecOn with
  | nil => rfl
  | append_singleton ops op ih =>
    rw [handedOut, collect_snoc, ← handedOut, ih, connects_snoc]
    by_cases hop : op = .connect
    · subst hop
      have hnext : (Hub.run ops).connect.1 = connects ops + 1 :=
        congrArg (· + 1) (agrees_run ops).lastId
      rw [if_pos rfl, List.range'_concat, numberOf, hnext, Nat.one_mul, Nat.add_comm 1]
      rfl
    · rw [if_neg hop, Nat.add_zero]
      cases op with
      | connect => exact absurd rfl hop
      | join | disconnect | drop | receive | await | send => exact List.append_nil _

/-- Numbers of 64 bits are told apart as long as there are enough of them. -/
theorem nodup_map_ofNat {n : Nat} (h : n < 2 ^ 64) :
    ((List.range' 1 n).map UInt64.ofNat).Nodup := by
  refine List.Nodup.map_on ?_ List.nodup_range'
  intro i hi j hj heq
  have hfits : ∀ k ∈ List.range' 1 n, k < UInt64.size := by
    intro k hk
    have hle : k < 1 + n := (List.mem_range'_1.1 hk).2
    have hsize : UInt64.size = 2 ^ 64 := rfl
    omega
  have heq := congrArg UInt64.toNat heq
  rwa [UInt64.toNat_ofNat_of_lt' (hfits i hi), UInt64.toNat_ofNat_of_lt' (hfits j hj)] at heq

/-! ## The registry after a history -/

theorem setOf_occupied (ops : List Op) : {s | ∃ id, IsLive ops id ∧ IsMember ops s id} =
    {s | s ∈ (Hub.run ops).registry.rooms.keys} := by
  have ha := agrees_run ops
  have ht := tidy_run ops
  ext s
  simp only [Set.mem_ofPred_eq, Table.mem_keys_iff]
  constructor
  · rintro ⟨id, -, hmember⟩
    have hmem : id ∈ (Hub.run ops).registry.members s := (ha.members s id).2 hmember
    rw [Registry.members] at hmem
    cases hroom : (Hub.run ops).registry.rooms.get? s with
    | none =>
      rw [hroom] at hmem
      cases hmem
    | some ids => exact ⟨ids, rfl⟩
  · rintro ⟨ids, hroom⟩
    have hne : ids ≠ [] := fun hnil => ht.rooms.ne_nil s (hnil ▸ hroom)
    obtain ⟨id, hid⟩ := List.exists_mem_of_ne_nil ids hne
    have hmem : id ∈ (Hub.run ops).registry.members s := by
      rw [Registry.members, hroom]
      exact hid
    exact ⟨id, (ha.connected id).1 (ha.consistent.connected_of_mem id s hmem),
      (ha.members s id).1 hmem⟩

/-- The rooms counted are those with somebody in them. -/
theorem encard_occupied (ops : List Op) :
    Set.encard {s | ∃ id, IsLive ops id ∧ IsMember ops s id} =
      (Hub.run ops).registry.sessionCount := by
  have hcard := List.toFinset_card_of_nodup (tidy_run ops).rooms.nodup
  rw [setOf_occupied, ← List.coe_toFinset, Set.encard_coe_eq_coe_finsetCard, hcard, Table.keys,
    List.length_map]
  rfl

/-- **The registry is in order.** After any history rooms and notes say the same, speak of those
alone that are there, and are never empty; numbers are given away from 1 on without a repetition, in
64 bits too as long as there are fewer than 2 ^ 64. So a disconnect leaves no trace of a connection
and does not touch another one, who is not there does not get into a room, and rooms are counted
that have somebody in them. -/
theorem registry_in_order (ops : List Op) :
    let h := Hub.run ops
    (∀ id s, id ∈ h.registry.members s ↔ s ∈ h.registry.sessionsOf id) ∧
    (∀ s ids, h.registry.rooms.get? s = some ids →
      ids ≠ [] ∧ ∀ id ∈ ids, id ∈ h.registry.connected) ∧
    (∀ id ss, h.registry.memberships.get? id = some ss →
      ss ≠ [] ∧ id ∈ h.registry.connected) ∧
    handedOut ops = List.range' 1 (connects ops) ∧
    (connects ops < 2 ^ 64 → ((handedOut ops).map UInt64.ofNat).Nodup) ∧
    (∀ id,
      let r := (h.disconnect id).registry
      id ∉ r.connected ∧ r.memberships.get? id = none ∧ (∀ s, id ∉ r.members s) ∧
      ∀ j, j ≠ id → (j ∈ r.connected ↔ j ∈ h.registry.connected) ∧
        r.sessionsOf j = h.registry.sessionsOf j ∧
        ∀ s, j ∈ r.members s ↔ j ∈ h.registry.members s) ∧
    (∀ id s, id ∉ h.registry.connected → h.join id s = (false, h)) ∧
    Set.encard {s | ∃ id, IsLive ops id ∧ IsMember ops s id} = h.registry.sessionCount := by
  intro h
  have hc : h.registry.Consistent := (agrees_run ops).consistent
  have ht : h.registry.Tidy := tidy_run ops
  refine ⟨hc.mem_members_iff, ?_, ?_, handedOut_eq ops, ?_, ?_, ?_, encard_occupied ops⟩
  · intro s ids hroom
    refine ⟨fun hnil => ht.rooms.ne_nil s (hnil ▸ hroom), fun id hid => ?_⟩
    refine hc.connected_of_mem id s ?_
    rw [Registry.members, hroom]
    exact hid
  · intro id ss hnotes
    have hne : ss ≠ [] := fun hnil => ht.memberships.ne_nil id (hnil ▸ hnotes)
    obtain ⟨s, hs⟩ := List.exists_mem_of_ne_nil ss hne
    refine ⟨hne, hc.connected_of_mem id s ((hc.mem_members_iff id s).2 ?_)⟩
    rw [Registry.sessionsOf, hnotes]
    exact hs
  · rw [handedOut_eq]
    exact nodup_map_ofNat
  · intro id r
    have hmembers := hc.mem_members_disconnect id
    have hconnected := Registry.mem_connected_disconnect h.registry id
    refine ⟨fun hid => ((hconnected id).1 hid).2 rfl, ?_, fun s hid => ?_, fun j hj => ?_⟩
    · have hframe : r.memberships = h.registry.memberships.erase id :=
        (Registry.leaveAll_frame _ id _).2.1
      rw [hframe, Table.get?_erase, if_pos rfl]
    · exact ((hmembers id s).1 hid).2 rfl
    · refine ⟨(hconnected j).trans (and_iff_left hj), ?_, fun s => ?_⟩
      · exact (Registry.sessionsOf_disconnect h.registry id j).trans (if_neg hj)
      · exact (hmembers j s).trans (and_iff_left hj)
  · intro id s hid
    have habsent : h.registry.isConnected id ≠ true :=
      fun hin => hid ((Registry.isConnected_iff h.registry id).1 hin)
    simp [Hub.join, Registry.join, habsent]

end ClassAtlas.Live
