import Mathlib.Data.List.Sort
import Mathlib.Order.Basic

/-! Order statistics: what the entry at an index of a sorted list says about how many entries are
no greater than it. -/
namespace OrderStatistics
variable {α : Type*} [LinearOrder α]

/-- More entries than `k` are at most `v` exactly when the entry of rank `k` is. -/
theorem lt_countP_le_iff {s : List α} (hs : s.Pairwise (· ≤ ·)) {k : ℕ} (hk : k < s.length)
    (v : α) : k < s.countP (· ≤ v) ↔ s[k] ≤ v := by
  induction s generalizing k with
  | nil => simp at hk
  | cons a s ih =>
    obtain ⟨hhead, htail⟩ := List.pairwise_cons.mp hs
    by_cases ha : a ≤ v
    · rw [List.countP_cons_of_pos (by simpa using ha)]
      cases k with
      | zero => simp [ha]
      | succ k =>
        have hk : k < s.length := by simpa using hk
        rw [Nat.succ_lt_succ_iff, ih htail hk, List.getElem_cons_succ]
    · -- nothing behind a head above `v` is at most `v`
      have hnone : s.countP (· ≤ v) = 0 := by
        rw [List.countP_eq_zero]
        intro b hb
        have hab := hhead b hb
        simpa using (lt_of_not_ge ha).trans_le hab
      rw [List.countP_cons_of_neg (by simpa using ha), hnone]
      simp only [Nat.not_lt_zero, false_iff, not_le]
      cases k with
      | zero => simpa using ha
      | succ k =>
        have hk : k < s.length := by simpa using hk
        exact (lt_of_not_ge ha).trans_le (hhead _ (List.getElem_mem hk))

theorem getElem_le_getElem {s : List α} (hs : s.Pairwise (· ≤ ·)) {i j : ℕ} (hij : i ≤ j)
    (hj : j < s.length) : s[i] ≤ s[j] := by
  rcases hij.eq_or_lt with rfl | hlt
  · exact le_rfl
  · exact List.pairwise_iff_getElem.mp hs i j _ hj hlt

theorem insertionSort_eq_of_perm {l l' : List α} (h : l.Perm l') :
    l.insertionSort (· ≤ ·) = l'.insertionSort (· ≤ ·) := by
  have hperm := (List.perm_insertionSort (· ≤ ·) l).trans
    (h.trans (List.perm_insertionSort (· ≤ ·) l').symm)
  apply hperm.eq_of_pairwise' (r := (· ≤ ·))
  · exact List.pairwise_insertionSort _ _
  · exact List.pairwise_insertionSort _ _

end OrderStatistics
