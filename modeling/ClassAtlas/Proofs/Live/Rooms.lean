import ClassAtlas.Live.Registry
import Mathlib.Data.List.Nodup

/-!
# The tables of the registry agree

`Registry.Consistent`: rooms and notes say the same, only connections that are there are in rooms,
none is listed twice, and none has a number that was not given away yet. Each operation keeps it
(`Consistent.connect`, `Consistent.join`, `Consistent.disconnect`).

With it, what a disconnect does to a room can be said without the notes: the connection is out of
every room, and nobody else is (`Consistent.mem_members_disconnect`).
-/
namespace ClassAtlas.Live.Registry

structure Consistent (r : Registry) : Prop where
  le_lastId : ∀ id ∈ r.connected, id ≤ r.lastId
  nodup_connected : r.connected.Nodup
  nodup_members : ∀ s, (r.members s).Nodup
  mem_members_iff : ∀ id s, id ∈ r.members s ↔ s ∈ r.sessionsOf id
  connected_of_mem : ∀ id s, id ∈ r.members s → id ∈ r.connected

theorem consistent_empty : Consistent empty where
  le_lastId := by simp [empty]
  nodup_connected := List.nodup_nil
  nodup_members _ := List.nodup_nil
  mem_members_iff := by simp [empty, members, sessionsOf, Table.get?]
  connected_of_mem := by simp [empty, members, Table.get?]

namespace Consistent

variable {r : Registry}

theorem connect (h : Consistent r) : Consistent r.connect.2 where
  le_lastId := by
    intro id hid
    rcases List.mem_append.1 hid with hid | hid
    · exact Nat.le_succ_of_le (h.le_lastId id hid)
    · exact Nat.le_of_eq (List.mem_singleton.1 hid)
  nodup_connected := by
    refine List.nodup_append.2 ⟨h.nodup_connected, List.nodup_singleton _, ?_⟩
    intro id hid new hnew heq
    have hle : id ≤ r.lastId := h.le_lastId id hid
    have hnew : new = r.lastId + 1 := List.mem_singleton.1 hnew
    rw [heq, hnew] at hle
    exact Nat.not_succ_le_self _ hle
  nodup_members := h.nodup_members
  mem_members_iff := h.mem_members_iff
  connected_of_mem id s hid := List.mem_append_left _ (h.connected_of_mem id s hid)

theorem join (h : Consistent r) (id : ConnectionId) (session : String) :
    Consistent (r.join id session).2 := by
  unfold Registry.join
  split
  · rename_i hc
    have hm : ∀ s, ((r.enter id session).note id session).members s =
        if s = session then (r.members session).insert id else r.members s :=
      fun s => members_enter r id session s
    have hs : ∀ j, ((r.enter id session).note id session).sessionsOf j =
        if j = id then (r.sessionsOf id).insert session else r.sessionsOf j :=
      fun j => sessionsOf_note (r.enter id session) id j session
    refine ⟨h.le_lastId, h.nodup_connected, ?_, ?_, ?_⟩
    · intro s
      rw [hm]
      split
      · exact (h.nodup_members session).insert
      · exact h.nodup_members s
    · intro j s
      have hiff := h.mem_members_iff j s
      rw [hm, hs]
      by_cases hses : s = session <;> by_cases hj : j = id
      · subst hses hj
        simp [hiff]
      · subst hses
        simp [hj, hiff]
      · subst hj
        simp [hses, hiff]
      · simp [hses, hj, hiff]
    · intro j s hj
      rw [hm] at hj
      split at hj
      · rcases List.mem_insert_iff.1 hj with rfl | hj
        · exact (isConnected_iff r j).1 hc
        · exact h.connected_of_mem j session hj
      · exact h.connected_of_mem j s hj
  · exact h

theorem mem_members_disconnect (h : Consistent r) (id j : ConnectionId) (s : String) :
    j ∈ (r.disconnect id).members s ↔ j ∈ r.members s ∧ j ≠ id := by
  rw [members_disconnect]
  split
  · simp
  · rename_i hs
    constructor
    · intro hj
      refine ⟨hj, ?_⟩
      rintro rfl
      exact hs ((h.mem_members_iff j s).1 hj)
    · exact And.left

theorem disconnect (h : Consistent r) (id : ConnectionId) : Consistent (r.disconnect id) where
  le_lastId := by
    intro j hj
    rw [connected_disconnect] at hj
    rw [lastId_disconnect]
    exact h.le_lastId j (List.mem_of_mem_filter hj)
  nodup_connected := by
    rw [connected_disconnect]
    exact h.nodup_connected.filter _
  nodup_members := by
    intro s
    rw [members_disconnect]
    split
    · exact (h.nodup_members s).filter _
    · exact h.nodup_members s
  mem_members_iff := by
    intro j s
    rw [h.mem_members_disconnect, sessionsOf_disconnect]
    by_cases hj : j = id
    · simp [hj]
    · simp [hj, h.mem_members_iff]
  connected_of_mem := by
    intro j s hj
    obtain ⟨hj, hne⟩ := (h.mem_members_disconnect id j s).1 hj
    rw [connected_disconnect]
    exact List.mem_filter.2 ⟨h.connected_of_mem j s hj, by simpa using hne⟩

end Consistent

theorem mem_connected_disconnect (r : Registry) (id j : ConnectionId) :
    j ∈ (r.disconnect id).connected ↔ j ∈ r.connected ∧ j ≠ id := by
  rw [connected_disconnect]
  simp

/-- A join finds its connection, and puts it into the room. -/
theorem join_fst (r : Registry) (id : ConnectionId) (session : String) :
    (r.join id session).1 = true ↔ id ∈ r.connected := by
  rw [← isConnected_iff]
  unfold Registry.join
  split
  · rename_i hc
    simp [hc]
  · rename_i hc
    simp [hc]

theorem join_frame (r : Registry) (id : ConnectionId) (session : String) :
    (r.join id session).2.connected = r.connected ∧ (r.join id session).2.lastId = r.lastId := by
  unfold Registry.join
  split <;> exact ⟨rfl, rfl⟩

theorem mem_members_join (r : Registry) (id j : ConnectionId) (session s : String) :
    j ∈ (r.join id session).2.members s ↔
      j ∈ r.members s ∨ j = id ∧ s = session ∧ id ∈ r.connected := by
  rw [← isConnected_iff]
  unfold Registry.join
  split
  · rename_i hc
    show j ∈ (r.enter id session).members s ↔ _
    rw [members_enter]
    by_cases hs : s = session
    · subst hs
      simp [hc, or_comm]
    · simp [hs]
  · rename_i hc
    simp [hc]

end ClassAtlas.Live.Registry
