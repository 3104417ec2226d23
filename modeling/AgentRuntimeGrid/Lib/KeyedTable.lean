import Mathlib.Data.List.Nodup
import Mathlib.Data.Option.Basic

/-! Database tables with a primary key. The rows stand in insertion order and no two of them
share a key, so an insert is refused exactly when its key is already there. -/

structure KeyedTable {κ α : Type*} (key : α → κ) where
  rows : List α
  nodup : (rows.map key).Nodup

namespace KeyedTable
variable {κ α : Type*} [DecidableEq κ] {key : α → κ}

def empty : KeyedTable key := ⟨[], List.nodup_nil⟩

def get? (t : KeyedTable key) (k : κ) : Option α := t.rows.find? fun a => key a = k

/-- `INSERT`: refused when the key is taken. -/
def insert (t : KeyedTable key) (a : α) : Option (KeyedTable key) :=
  if h : key a ∈ t.rows.map key then none
  else some ⟨t.rows ++ [a], by
    rw [List.map_append, List.nodup_append]
    exact ⟨t.nodup, List.nodup_singleton _, by
      intro x hx y hy
      rw [List.map_singleton, List.mem_singleton] at hy
      rintro rfl
      exact h (hy ▸ hx)⟩⟩

/-- `UPDATE ... WHERE key = k`, by a function that leaves the key alone. -/
def modify (t : KeyedTable key) (k : κ) (f : α → α) (hf : ∀ a, key (f a) = key a) :
    KeyedTable key :=
  ⟨t.rows.map fun a => if key a = k then f a else a, by
    have hkey : (t.rows.map fun a => if key a = k then f a else a).map key = t.rows.map key := by
      rw [List.map_map]
      apply List.map_congr_left
      intro a _
      simp only [Function.comp_apply]
      split
      · exact hf a
      · rfl
    rw [hkey]
    exact t.nodup⟩

@[simp] theorem get?_empty (k : κ) : (empty : KeyedTable key).get? k = none := rfl

theorem get?_eq_some_iff {t : KeyedTable key} {k : κ} {a : α} :
    t.get? k = some a ↔ a ∈ t.rows ∧ key a = k := by
  constructor
  · intro h
    exact ⟨List.mem_of_find?_eq_some h, of_decide_eq_true (List.find?_some h :)⟩
  · rintro ⟨hm, rfl⟩
    cases hg : t.get? (key a) with
    | none =>
      have := List.find?_eq_none.mp hg a hm
      simp at this
    | some b =>
      have hb : b ∈ t.rows := List.mem_of_find?_eq_some hg
      have hk : key b = key a := of_decide_eq_true (List.find?_some hg :)
      exact congrArg some (List.inj_on_of_nodup_map t.nodup hb hm hk)

theorem get?_eq_none_iff {t : KeyedTable key} {k : κ} :
    t.get? k = none ↔ ∀ a ∈ t.rows, key a ≠ k := by
  simp [get?, List.find?_eq_none]

theorem key_of_get? {t : KeyedTable key} {k : κ} {a : α} (h : t.get? k = some a) : key a = k :=
  (get?_eq_some_iff.mp h).2

theorem insert_eq_none_iff {t : KeyedTable key} {a : α} :
    t.insert a = none ↔ ∃ b, t.get? (key a) = some b := by
  unfold insert
  split
  next h =>
    obtain ⟨b, hb, hk⟩ := List.mem_map.mp h
    exact ⟨fun _ => ⟨b, get?_eq_some_iff.mpr ⟨hb, hk⟩⟩, fun _ => rfl⟩
  next h =>
    constructor
    · intro h'
      cases h'
    · rintro ⟨b, hb⟩
      obtain ⟨hm, hk⟩ := get?_eq_some_iff.mp hb
      exact absurd (List.mem_map.mpr ⟨b, hm, hk⟩) h

theorem rows_of_insert {t t' : KeyedTable key} {a : α} (h : t.insert a = some t') :
    t'.rows = t.rows ++ [a] := by
  unfold insert at h
  split at h
  · cases h
  · cases h
    rfl

theorem get?_of_insert_none {t t' : KeyedTable key} {a : α} (h : t.insert a = some t') :
    t.get? (key a) = none := by
  cases hg : t.get? (key a) with
  | none => rfl
  | some b =>
    rw [insert_eq_none_iff.mpr ⟨b, hg⟩] at h
    cases h

theorem get?_of_insert {t t' : KeyedTable key} {a : α} (h : t.insert a = some t') (k : κ) :
    t'.get? k = if key a = k then some a else t.get? k := by
  unfold get?
  rw [rows_of_insert h, List.find?_append]
  by_cases hk : key a = k
  · subst hk
    have hn : t.rows.find? (fun b => key b = key a) = none := get?_of_insert_none h
    rw [hn]
    simp
  · simp [hk]

theorem get?_of_insert_self {t t' : KeyedTable key} {a : α} (h : t.insert a = some t') :
    t'.get? (key a) = some a := by
  rw [get?_of_insert h, if_pos rfl]

theorem get?_modify (t : KeyedTable key) (k : κ) (f : α → α) (hf : ∀ a, key (f a) = key a)
    (k' : κ) : (t.modify k f hf).get? k' = if k' = k then (t.get? k').map f else t.get? k' := by
  have hfind : (t.rows.map fun a => if key a = k then f a else a).find? (fun a => key a = k') =
      (t.rows.find? fun a => key a = k').map fun a => if key a = k then f a else a := by
    rw [List.find?_map]
    congr 1
    apply congrArg (List.find? · t.rows)
    funext a
    simp only [Function.comp_apply]
    split
    · rw [hf a]
    · rfl
  change (t.rows.map fun a => if key a = k then f a else a).find? (fun a => key a = k') = _
  rw [hfind]
  change (t.get? k').map _ = _
  cases hg : t.get? k' with
  | none => simp
  | some a =>
    rw [key_of_get? hg |>.symm]
    split <;> simp_all

theorem filter_eq_find? {as : List α} (k : κ) (h : (as.map key).Nodup) :
    (as.filter fun a => key a = k) = (as.find? fun a => key a = k).toList := by
  induction as with
  | nil => rfl
  | cons a as ih =>
    rw [List.map_cons, List.nodup_cons] at h
    by_cases ha : key a = k
    · have hnone : as.filter (fun b => key b = k) = [] := by
        rw [List.filter_eq_nil_iff]
        intro b hb hk
        exact h.1 (List.mem_map.mpr ⟨b, hb, (of_decide_eq_true hk).trans ha.symm⟩)
      simp [ha, hnone]
    · simpa [ha] using ih h.2

theorem filter_eq_singleton {as : List α} {a : α} (h : (as.map key).Nodup) (ha : a ∈ as) :
    (as.filter fun b => key b = key a) = [a] := by
  rw [filter_eq_find? _ h]
  cases hf : as.find? (fun b => key b = key a) with
  | none =>
    have := List.find?_eq_none.mp hf a ha
    simp at this
  | some b =>
    have hb : key b = key a := of_decide_eq_true (List.find?_some hf :)
    rw [List.inj_on_of_nodup_map h (List.mem_of_find?_eq_some hf) ha hb]
    rfl

theorem filter_key_eq (t : KeyedTable key) (k : κ) :
    (t.rows.filter fun a => key a = k) = (t.get? k).toList := filter_eq_find? k t.nodup

@[simp] theorem rows_modify (t : KeyedTable key) (k : κ) (f : α → α)
    (hf : ∀ a, key (f a) = key a) :
    (t.modify k f hf).rows = t.rows.map fun a => if key a = k then f a else a := rfl

end KeyedTable
