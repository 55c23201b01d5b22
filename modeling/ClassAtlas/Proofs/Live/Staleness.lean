import ClassAtlas.Live.Mailbox
import Mathlib.Data.List.Basic

/-!
# What a mailbox passes over

`fresh` is what comes out of a queue, whole messages with their revisions: everything but the
diagrams that are older than one before them. `highest` is the revision that the mailbox remembers
then.

Results:
* `Mailbox.take_spec`: taking a message out takes away a beginning of the queue, and gives what is
  fresh in it.
* `Mailbox.fresh_append`: so what is taken out bit by bit is what would come out at once.
* `Mailbox.pairwise_fresh`, `Mailbox.getLast?_fresh`: the revisions that come out never go down, and
  the last of them is the highest that was in the queue.
-/
namespace ClassAtlas.Live

namespace Outbound

variable {o : Outbound} {last : Nat}

theorem isStale_iff : o.isStale last = true ↔ ∃ r, o.revision? = some r ∧ r < last := by
  unfold isStale
  cases o.revision? <;> simp

theorem max_of_stale (h : o.isStale last = true) : max last (o.revision?.getD 0) = last := by
  obtain ⟨r, hr, hlt⟩ := isStale_iff.1 h
  rw [hr, Option.getD_some]
  omega

theorem max_of_fresh (h : o.isStale last = false) :
    max last (o.revision?.getD 0) = o.revision?.getD last := by
  cases hr : o.revision? with
  | none => simp
  | some r =>
    have hge : ¬ r < last := fun hlt => by
      rw [isStale_iff.2 ⟨r, hr, hlt⟩] at h
      cases h
    rw [Option.getD_some, Option.getD_some]
    omega

end Outbound

namespace Mailbox

/-- The highest revision in a queue, or what was reached before it. -/
def highest (last : Nat) (q : List Outbound) : Nat :=
  q.foldl (fun n o => max n (o.revision?.getD 0)) last

/-- What comes out of a queue. -/
def fresh (last : Nat) : List Outbound → List Outbound
  | [] => []
  | o :: rest =>
    if o.isStale last then fresh last rest
    else o :: fresh (max last (o.revision?.getD 0)) rest

/-- The next message with its revision. -/
def next? (m : Mailbox) : Option Outbound := (fresh m.lastRevision m.queue).head?

def revisions (q : List Outbound) : List Nat := q.filterMap (·.revision?)

variable (last : Nat) (q : List Outbound)

theorem highest_append (q' : List Outbound) :
    highest last (q ++ q') = highest (highest last q) q' := List.foldl_append

theorem le_highest : last ≤ highest last q := by
  induction q generalizing last with
  | nil => exact Nat.le_refl last
  | cons o q ih => exact Nat.le_trans (Nat.le_max_left _ _) (ih _)

theorem le_highest_of_mem {o : Outbound} {r : Nat} (h : o ∈ q) (hr : o.revision? = some r) :
    r ≤ highest last q := by
  induction q generalizing last with
  | nil => cases h
  | cons o' q ih =>
    rcases List.mem_cons.1 h with rfl | h
    · have hle : max last (o.revision?.getD 0) ≤ highest last (o :: q) := le_highest _ q
      rw [hr, Option.getD_some] at hle
      omega
    · exact ih _ h

theorem highest_le {bound : Nat} (hl : last ≤ bound)
    (h : ∀ o ∈ q, ∀ r, o.revision? = some r → r ≤ bound) : highest last q ≤ bound := by
  induction q generalizing last with
  | nil => exact hl
  | cons o q ih =>
    refine ih _ ?_ fun o' h' => h o' (List.mem_cons_of_mem _ h')
    show max last (o.revision?.getD 0) ≤ bound
    cases hr : o.revision? with
    | none =>
      rw [Option.getD_none]
      omega
    | some r =>
      have hle := h o List.mem_cons_self r hr
      rw [Option.getD_some]
      omega

theorem fresh_append (q' : List Outbound) :
    fresh last (q ++ q') = fresh last q ++ fresh (highest last q) q' := by
  induction q generalizing last with
  | nil => rfl
  | cons o q ih =>
    have hcons : highest last (o :: q) = highest (max last (o.revision?.getD 0)) q := rfl
    cases ho : o.isStale last with
    | true =>
      rw [Outbound.max_of_stale ho] at hcons
      simp [fresh, ho, ih, hcons]
    | false => simp [fresh, ho, ih, hcons]

theorem mem_of_mem_fresh {o : Outbound} (h : o ∈ fresh last q) : o ∈ q := by
  induction q generalizing last with
  | nil => cases h
  | cons o' q ih =>
    unfold fresh at h
    split at h
    · exact List.mem_cons_of_mem _ (ih _ h)
    · rcases List.mem_cons.1 h with rfl | h
      · exact List.mem_cons_self
      · exact List.mem_cons_of_mem _ (ih _ h)

/-! ## Taking out -/

theorem takeFrom_spec : ∃ taken,
    q = taken ++ (takeFrom last q).2.queue ∧
    (takeFrom last q).2.lastRevision = highest last taken ∧
    fresh last taken = (fresh last q).head?.toList ∧
    (takeFrom last q).1 = (fresh last q).head?.map (·.message) ∧
    ((fresh last q).head? = none → (takeFrom last q).2.queue = []) := by
  induction q with
  | nil => exact ⟨[], rfl, rfl, rfl, rfl, fun _ => rfl⟩
  | cons o q ih =>
    cases ho : o.isStale last with
    | true =>
      -- a stale message goes with those that are passed over
      obtain ⟨taken, hq, hl, hf, hm, hn⟩ := ih
      have hmax : highest last (o :: taken) = highest last taken := by
        show highest (max last (o.revision?.getD 0)) taken = _
        rw [Outbound.max_of_stale ho]
      refine ⟨o :: taken, ?_, ?_, ?_, ?_, ?_⟩
      · simpa [takeFrom, ho] using hq
      · simpa [takeFrom, ho, hmax] using hl
      · simpa [fresh, ho] using hf
      · simpa [takeFrom, fresh, ho] using hm
      · simpa [takeFrom, fresh, ho] using hn
    | false =>
      refine ⟨[o], ?_, ?_, ?_, ?_, ?_⟩
      · simp [takeFrom, ho]
      · simp [takeFrom, ho, highest, Outbound.max_of_fresh ho]
      · simp [fresh, ho]
      · simp [takeFrom, fresh, ho]
      · simp [fresh, ho]

/-- Taking a message out takes away a beginning of the queue. -/
theorem take_spec (m : Mailbox) : ∃ taken,
    m.queue = taken ++ m.take.2.queue ∧
    m.take.2.lastRevision = highest m.lastRevision taken ∧
    fresh m.lastRevision taken = m.next?.toList ∧
    m.take.1 = m.next?.map (·.message) ∧
    (m.next? = none → m.take.2.queue = []) :=
  takeFrom_spec m.lastRevision m.queue

/-! ## The revisions that come out -/

theorem le_of_mem_revisions_fresh {r : Nat} (h : r ∈ revisions (fresh last q)) : last ≤ r := by
  induction q generalizing last with
  | nil => cases h
  | cons o q ih =>
    unfold fresh at h
    split at h
    · exact ih _ h
    · rename_i ho
      have hmax := Outbound.max_of_fresh (Bool.eq_false_iff.2 ho)
      cases hr : o.revision? with
      | none =>
        simp only [revisions, List.filterMap_cons, hr] at h
        exact Nat.le_trans (Nat.le_max_left _ _) (ih _ h)
      | some r' =>
        rw [hr] at hmax
        simp only [revisions, List.filterMap_cons, hr, List.mem_cons] at h
        rcases h with rfl | h
        · rw [Option.getD_some, Option.getD_some] at hmax
          omega
        · exact Nat.le_trans (Nat.le_max_left _ _) (ih _ h)

/-- The revisions that come out never go down. -/
theorem pairwise_fresh : (revisions (fresh last q)).Pairwise (· ≤ ·) := by
  induction q generalizing last with
  | nil => exact List.Pairwise.nil
  | cons o q ih =>
    unfold fresh
    split
    · exact ih _
    · cases hr : o.revision? with
      | none => simpa [revisions, hr] using ih last
      | some r =>
        simp only [revisions, List.filterMap_cons, hr, List.pairwise_cons]
        refine ⟨?_, ih _⟩
        intro r' hr'
        have hle := le_of_mem_revisions_fresh _ q hr'
        rw [Option.getD_some] at hle
        omega

/-- The last revision that comes out is the highest there was. -/
theorem getLast?_fresh : (revisions (fresh last q)).getLast?.getD last = highest last q := by
  induction q generalizing last with
  | nil => rfl
  | cons o q ih =>
    have hcons : highest last (o :: q) = highest (max last (o.revision?.getD 0)) q := rfl
    cases ho : o.isStale last with
    | true =>
      rw [hcons, Outbound.max_of_stale ho, ← ih]
      simp [fresh, ho]
    | false =>
      rw [hcons, ← ih]
      cases hr : o.revision? with
      | none => simp [fresh, ho, revisions, hr]
      | some r =>
        have hmax := Outbound.max_of_fresh ho
        rw [hr, Option.getD_some, Option.getD_some] at hmax
        simp [fresh, ho, revisions, hr, List.getLast?_cons, hmax]

end Mailbox
end ClassAtlas.Live
