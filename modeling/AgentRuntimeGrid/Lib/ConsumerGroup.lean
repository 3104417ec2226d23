import Mathlib.Data.List.Basic
import Mathlib.Data.List.Nodup
import Mathlib.Order.Basic
import Mathlib.Order.Nat
import Mathlib.Tactic.Common

/-! An append-only log read by one consumer group. An entry's id is its position in the log;
the group hands out every entry once, in order, and keeps a handed-out entry pending until it
is acknowledged. -/

/-- One row of the group's pending list. -/
structure PendingEntry where
  entryId : ℕ
  consumer : String
  timesDelivered : ℕ
  deriving DecidableEq, Repr

structure ConsumerGroup (μ : Type*) where
  log : List μ
  delivered : ℕ
  pending : List PendingEntry
  delivered_le : delivered ≤ log.length
  pending_lt : ∀ p ∈ pending, p.entryId < delivered
  pending_nodup : (pending.map PendingEntry.entryId).Nodup

namespace ConsumerGroup
variable {μ : Type*}

def empty : ConsumerGroup μ := ⟨[], 0, [], le_refl 0, by simp, by simp⟩

def append (g : ConsumerGroup μ) (m : μ) : ConsumerGroup μ where
  log := g.log ++ [m]
  delivered := g.delivered
  pending := g.pending
  delivered_le := g.delivered_le.trans (by simp)
  pending_lt := g.pending_lt
  pending_nodup := g.pending_nodup

/-- Hand the first undelivered entry to `consumer`. -/
def deliver (g : ConsumerGroup μ) (consumer : String) : Option (ℕ × μ × ConsumerGroup μ) :=
  if h : g.delivered < g.log.length then
    some (g.delivered, g.log[g.delivered], {
      log := g.log
      delivered := g.delivered + 1
      pending := g.pending ++ [⟨g.delivered, consumer, 1⟩]
      delivered_le := h
      pending_lt := by
        intro p hp
        rcases List.mem_append.mp hp with hp | hp
        · exact (g.pending_lt p hp).trans (Nat.lt_succ_self _)
        · rw [List.mem_singleton.mp hp]
          exact Nat.lt_succ_self _
      pending_nodup := by
        rw [List.map_append, List.nodup_append]
        refine ⟨g.pending_nodup, List.nodup_singleton _, ?_⟩
        intro e he e' he'
        obtain ⟨p, hp, rfl⟩ := List.mem_map.mp he
        rw [List.map_singleton, List.mem_singleton] at he'
        exact he' ▸ (g.pending_lt p hp).ne })
  else none

/-- Remove an entry from the pending list; nothing happens when it is not there. -/
def ack (g : ConsumerGroup μ) (e : ℕ) : ConsumerGroup μ where
  log := g.log
  delivered := g.delivered
  pending := g.pending.filter fun p => p.entryId ≠ e
  delivered_le := g.delivered_le
  pending_lt := fun p hp => g.pending_lt p (List.mem_of_mem_filter hp)
  pending_nodup := g.pending_nodup.sublist (List.filter_sublist.map _)

/-- Give a pending entry to another consumer without delivering it again. -/
def claim (g : ConsumerGroup μ) (e : ℕ) (consumer : String) : ConsumerGroup μ where
  log := g.log
  delivered := g.delivered
  pending := g.pending.map fun p => if p.entryId = e then { p with consumer := consumer } else p
  delivered_le := g.delivered_le
  pending_lt := by
    intro p hp
    obtain ⟨q, hq, rfl⟩ := List.mem_map.mp hp
    have := g.pending_lt q hq
    split <;> exact this
  pending_nodup := by
    have hids : (g.pending.map fun p => if p.entryId = e then { p with consumer := consumer }
        else p).map PendingEntry.entryId = g.pending.map PendingEntry.entryId := by
      rw [List.map_map]
      apply List.map_congr_left
      intro p _
      simp only [Function.comp_apply]
      split <;> rfl
    rw [hids]
    exact g.pending_nodup

def Pending (g : ConsumerGroup μ) (e : ℕ) : Prop := ∃ p ∈ g.pending, p.entryId = e

/-- The entry exists and is undelivered, or delivered and unacknowledged. -/
def Live (g : ConsumerGroup μ) (e : ℕ) : Prop :=
  e < g.log.length ∧ (g.delivered ≤ e ∨ g.Pending e)

instance (g : ConsumerGroup μ) (e : ℕ) : Decidable (g.Pending e) :=
  inferInstanceAs (Decidable (∃ p ∈ g.pending, p.entryId = e))

instance (g : ConsumerGroup μ) (e : ℕ) : Decidable (g.Live e) :=
  inferInstanceAs (Decidable (_ ∧ _))

theorem Pending.lt_delivered {g : ConsumerGroup μ} {e : ℕ} (h : g.Pending e) :
    e < g.delivered := by
  obtain ⟨p, hp, rfl⟩ := h
  exact g.pending_lt p hp

theorem Pending.live {g : ConsumerGroup μ} {e : ℕ} (h : g.Pending e) : g.Live e :=
  ⟨h.lt_delivered.trans_le g.delivered_le, .inr h⟩

@[simp] theorem log_append (g : ConsumerGroup μ) (m : μ) : (g.append m).log = g.log ++ [m] := rfl

@[simp] theorem delivered_append (g : ConsumerGroup μ) (m : μ) :
    (g.append m).delivered = g.delivered := rfl

@[simp] theorem pending_append (g : ConsumerGroup μ) (m : μ) (e : ℕ) :
    (g.append m).Pending e ↔ g.Pending e := Iff.rfl

@[simp] theorem log_ack (g : ConsumerGroup μ) (e : ℕ) : (g.ack e).log = g.log := rfl

@[simp] theorem delivered_ack (g : ConsumerGroup μ) (e : ℕ) :
    (g.ack e).delivered = g.delivered := rfl

@[simp] theorem pending_ack (g : ConsumerGroup μ) (e e' : ℕ) :
    (g.ack e).Pending e' ↔ g.Pending e' ∧ e' ≠ e := by
  constructor
  · rintro ⟨p, hp, rfl⟩
    obtain ⟨hm, hne⟩ := List.mem_filter.mp hp
    exact ⟨⟨p, hm, rfl⟩, of_decide_eq_true hne⟩
  · rintro ⟨⟨p, hp, rfl⟩, hne⟩
    exact ⟨p, List.mem_filter.mpr ⟨hp, decide_eq_true hne⟩, rfl⟩

@[simp] theorem log_claim (g : ConsumerGroup μ) (e : ℕ) (c : String) :
    (g.claim e c).log = g.log := rfl

@[simp] theorem delivered_claim (g : ConsumerGroup μ) (e : ℕ) (c : String) :
    (g.claim e c).delivered = g.delivered := rfl

@[simp] theorem pending_claim (g : ConsumerGroup μ) (e e' : ℕ) (c : String) :
    (g.claim e c).Pending e' ↔ g.Pending e' := by
  constructor
  · rintro ⟨p, hp, rfl⟩
    obtain ⟨q, hq, rfl⟩ := List.mem_map.mp hp
    exact ⟨q, hq, by split <;> rfl⟩
  · rintro ⟨p, hp, rfl⟩
    exact ⟨_, List.mem_map.mpr ⟨p, hp, rfl⟩, by split <;> rfl⟩

theorem deliver_eq_none_iff {g : ConsumerGroup μ} {c : String} :
    g.deliver c = none ↔ g.log.length ≤ g.delivered := by
  unfold deliver
  split
  next h => simp [h]
  next h => simpa using h

theorem deliver_spec {g g' : ConsumerGroup μ} {c : String} {e : ℕ} {m : μ}
    (h : g.deliver c = some (e, m, g')) :
    e = g.delivered ∧ g.log[e]? = some m ∧ g'.log = g.log ∧ g'.delivered = e + 1 ∧
      ∀ e', g'.Pending e' ↔ g.Pending e' ∨ e' = e := by
  unfold deliver at h
  split at h
  next hlt =>
    cases h
    refine ⟨rfl, List.getElem?_eq_getElem hlt, rfl, rfl, fun e' => ?_⟩
    simp only [Pending, List.mem_append, List.mem_singleton, or_and_right, exists_or,
      exists_eq_left, @eq_comm _ e']
  next => cases h

theorem pendingList_deliver {g g' : ConsumerGroup μ} {c : String} {e : ℕ} {m : μ}
    (h : g.deliver c = some (e, m, g')) : g'.pending = g.pending ++ [⟨e, c, 1⟩] := by
  unfold deliver at h
  split at h
  next =>
    cases h
    rfl
  next => cases h

theorem live_append {g : ConsumerGroup μ} {m : μ} {e : ℕ} (h : g.Live e) :
    (g.append m).Live e :=
  ⟨by simpa using h.1.trans (Nat.lt_succ_self _), h.2⟩

theorem live_ack {g : ConsumerGroup μ} {e e' : ℕ} (h : g.Live e') (hne : e' ≠ e) :
    (g.ack e).Live e' := by
  refine ⟨h.1, h.2.imp id fun hp => ?_⟩
  exact (pending_ack g e e').mpr ⟨hp, hne⟩

theorem live_claim {g : ConsumerGroup μ} {e e' : ℕ} {c : String} (h : g.Live e') :
    (g.claim e c).Live e' := by
  refine ⟨h.1, h.2.imp id fun hp => ?_⟩
  exact (pending_claim g e e' c).mpr hp

/-- Delivery moves an entry from undelivered to pending, so no entry stops being live. -/
theorem live_deliver {g g' : ConsumerGroup μ} {c : String} {e e' : ℕ} {m : μ}
    (h : g.deliver c = some (e, m, g')) (hl : g.Live e') : g'.Live e' := by
  obtain ⟨rfl, -, hlog, hd, hp⟩ := deliver_spec h
  refine ⟨hlog ▸ hl.1, ?_⟩
  rcases hl.2 with hu | hu
  · rcases Nat.eq_or_lt_of_le hu with he | hlt
    · exact .inr ((hp e').mpr (.inr he.symm))
    · exact .inl (by omega)
  · exact .inr ((hp e').mpr (.inl hu))

end ConsumerGroup
