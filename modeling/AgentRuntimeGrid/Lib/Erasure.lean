import AgentRuntimeGrid.Lib.Json
import Mathlib.Data.List.Lex

/-! JSON values compared after some of their fields are erased, and the order in which
`json.loads` gives back the fields that `json.dumps` wrote sorted. -/

namespace Json

mutual
/-- The value without its fields of these names, at every level. -/
def erase (keys : List PyStr) : Json → Json
  | .null => .null
  | .bool b => .bool b
  | .int n => .int n
  | .float x => .float x
  | .str s => .str s
  | .arr xs => .arr (eraseItems keys xs)
  | .obj d => .obj (eraseFields keys d)

def eraseItems (keys : List PyStr) : List Json → List Json
  | [] => []
  | v :: vs => erase keys v :: eraseItems keys vs

def eraseFields (keys : List PyStr) : Dict → Dict
  | [] => []
  | (k, v) :: d =>
    if k ∈ keys then eraseFields keys d else (k, erase keys v) :: eraseFields keys d
end

/-- The order of `sort_keys=True`. -/
def keyOrder (a b : PyStr × Json) : Prop := a.1 ≤ b.1

instance : DecidableRel keyOrder := fun a b => inferInstanceAs (Decidable (a.1 ≤ b.1))

instance : Std.Total keyOrder := ⟨fun a b => le_total a.1 b.1⟩

instance : IsTrans (PyStr × Json) keyOrder := ⟨fun _ _ _ h h' => le_trans h h'⟩

mutual
/-- The value with the fields of its objects in sorted order, at every level. -/
def sortKeys : Json → Json
  | .null => .null
  | .bool b => .bool b
  | .int n => .int n
  | .float x => .float x
  | .str s => .str s
  | .arr xs => .arr (sortItems xs)
  | .obj d => .obj ((sortValues d).insertionSort keyOrder)

def sortItems : List Json → List Json
  | [] => []
  | v :: vs => sortKeys v :: sortItems vs

def sortValues : Dict → Dict
  | [] => []
  | (k, v) :: d => (k, sortKeys v) :: sortValues d
end

end Json

namespace Dict

/-- The fields of `json.loads(json.dumps(d, sort_keys=True))`. -/
def sorted (d : Dict) : Dict := (Json.sortValues d).insertionSort Json.keyOrder

/-- The objects differ at most in fields of these names. -/
def SameBut (keys : List PyStr) (d d' : Dict) : Prop :=
  Json.eraseFields keys d = Json.eraseFields keys d'

end Dict

namespace Json
variable {keys : List PyStr}

theorem eraseFields_cons_mem {k : PyStr} (h : k ∈ keys) (v : Json) (d : Dict) :
    eraseFields keys ((k, v) :: d) = eraseFields keys d := by
  rw [eraseFields, if_pos h]

theorem eraseFields_cons_notMem {k : PyStr} (h : k ∉ keys) (v : Json) (d : Dict) :
    eraseFields keys ((k, v) :: d) = (k, erase keys v) :: eraseFields keys d := by
  rw [eraseFields, if_neg h]

theorem eraseFields_set_mem {k : PyStr} (h : k ∈ keys) (v : Json) (d : Dict) :
    eraseFields keys (Dict.set d k v) = eraseFields keys d := by
  induction d with
  | nil => exact eraseFields_cons_mem h v []
  | cons kv d ih =>
    obtain ⟨k', v'⟩ := kv
    by_cases hk : k' = k
    · subst hk
      rw [Dict.set, if_pos rfl, eraseFields_cons_mem h, eraseFields_cons_mem h]
    · rw [Dict.set, if_neg hk]
      by_cases hmem : k' ∈ keys
      · rw [eraseFields_cons_mem hmem, eraseFields_cons_mem hmem, ih]
      · rw [eraseFields_cons_notMem hmem, eraseFields_cons_notMem hmem, ih]

theorem eraseFields_set_notMem {k : PyStr} (h : k ∉ keys) (v : Json) (d : Dict) :
    eraseFields keys (Dict.set d k v) = Dict.set (eraseFields keys d) k (erase keys v) := by
  induction d with
  | nil => exact eraseFields_cons_notMem h v []
  | cons kv d ih =>
    obtain ⟨k', v'⟩ := kv
    by_cases hk : k' = k
    · subst hk
      rw [Dict.set, if_pos rfl, eraseFields_cons_notMem h, eraseFields_cons_notMem h, Dict.set,
        if_pos rfl]
    · rw [Dict.set, if_neg hk]
      by_cases hmem : k' ∈ keys
      · rw [eraseFields_cons_mem hmem, eraseFields_cons_mem hmem, ih]
      · rw [eraseFields_cons_notMem hmem, eraseFields_cons_notMem hmem, ih, Dict.set, if_neg hk]

theorem eraseFields_update (d e : Dict) :
    eraseFields keys (d.update e) = (eraseFields keys d).update (eraseFields keys e) := by
  induction e generalizing d with
  | nil => rfl
  | cons kv e ih =>
    obtain ⟨k, v⟩ := kv
    rw [show Dict.update d ((k, v) :: e) = Dict.update (Dict.set d k v) e from rfl, ih]
    by_cases h : k ∈ keys
    · rw [eraseFields_set_mem h, eraseFields_cons_mem h]
    · rw [eraseFields_set_notMem h, eraseFields_cons_notMem h]
      rfl

theorem keyOrder_of_mem_eraseFields {a : PyStr × Json} {d : Dict}
    (h : ∀ b ∈ d, keyOrder a b) (v : Json) : ∀ b ∈ eraseFields keys d, keyOrder (a.1, v) b := by
  induction d with
  | nil => exact fun _ hb => (nomatch hb)
  | cons kv d ih =>
    obtain ⟨k, w⟩ := kv
    have ih := ih fun b hb => h b (List.mem_cons_of_mem _ hb)
    by_cases hmem : k ∈ keys
    · rw [eraseFields_cons_mem hmem]
      exact ih
    · rw [eraseFields_cons_notMem hmem]
      intro b hb
      rcases List.mem_cons.mp hb with rfl | hb
      · exact h (k, w) List.mem_cons_self
      · exact ih b hb

theorem orderedInsert_of_forall {a : PyStr × Json} {d : Dict} (h : ∀ b ∈ d, keyOrder a b) :
    d.orderedInsert keyOrder a = a :: d := by
  cases d with
  | nil => rfl
  | cons b d => exact List.orderedInsert_cons_of_le _ _ (h b List.mem_cons_self)

/-- A field inserted in its place is erased, or is in its place among the fields left. -/
theorem eraseFields_orderedInsert (k : PyStr) (v : Json) {d : Dict} (h : d.Pairwise keyOrder) :
    eraseFields keys (d.orderedInsert keyOrder (k, v)) =
      if k ∈ keys then eraseFields keys d
      else (eraseFields keys d).orderedInsert keyOrder (k, erase keys v) := by
  induction d with
  | nil =>
    by_cases hk : k ∈ keys
    · rw [if_pos hk]
      exact eraseFields_cons_mem hk v []
    · rw [if_neg hk]
      exact eraseFields_cons_notMem hk v []
  | cons kv d ih =>
    obtain ⟨hfirst, hrest⟩ := List.pairwise_cons.mp h
    have ih := ih hrest
    by_cases hle : keyOrder (k, v) kv
    · -- it stands before every field of the list, so before every field left of it
      have hall : ∀ b ∈ kv :: d, keyOrder (k, v) b := by
        intro b hb
        rcases List.mem_cons.mp hb with rfl | hb
        · exact hle
        · exact le_trans (show k ≤ kv.1 from hle) (hfirst b hb)
      rw [orderedInsert_of_forall hall]
      by_cases hk : k ∈ keys
      · rw [if_pos hk, eraseFields_cons_mem hk]
      · rw [if_neg hk, eraseFields_cons_notMem hk,
          orderedInsert_of_forall (keyOrder_of_mem_eraseFields hall (erase keys v))]
    · obtain ⟨k', v'⟩ := kv
      rw [List.orderedInsert_of_not_le _ _ hle]
      by_cases hk' : k' ∈ keys
      · rw [eraseFields_cons_mem hk', eraseFields_cons_mem hk', ih]
      · rw [eraseFields_cons_notMem hk', eraseFields_cons_notMem hk', ih]
        by_cases hk : k ∈ keys
        · rw [if_pos hk, if_pos hk]
        · have hle' : ¬ keyOrder (k, erase keys v) (k', erase keys v') := hle
          rw [if_neg hk, if_neg hk, List.orderedInsert_of_not_le _ _ hle']

theorem eraseFields_insertionSort (d : Dict) :
    eraseFields keys (d.insertionSort keyOrder) = (eraseFields keys d).insertionSort keyOrder := by
  induction d with
  | nil => rfl
  | cons kv d ih =>
    obtain ⟨k, v⟩ := kv
    rw [List.insertionSort_cons,
      eraseFields_orderedInsert k v (List.pairwise_insertionSort keyOrder d), ih]
    by_cases hk : k ∈ keys
    · rw [if_pos hk, eraseFields_cons_mem hk]
    · rw [if_neg hk, eraseFields_cons_notMem hk, List.insertionSort_cons]

mutual
theorem erase_sortKeys : ∀ v : Json, erase keys (sortKeys v) = sortKeys (erase keys v)
  | .null | .bool _ | .int _ | .float _ | .str _ => rfl
  | .arr xs => congrArg Json.arr (eraseItems_sortItems xs)
  | .obj d => by
    simp only [erase, sortKeys, eraseFields_insertionSort, eraseFields_sortValues d]

theorem eraseItems_sortItems :
    ∀ xs : List Json, eraseItems keys (sortItems xs) = sortItems (eraseItems keys xs)
  | [] => rfl
  | v :: vs => congrArg₂ List.cons (erase_sortKeys v) (eraseItems_sortItems vs)

theorem eraseFields_sortValues :
    ∀ d : Dict, eraseFields keys (sortValues d) = sortValues (eraseFields keys d)
  | [] => rfl
  | (k, v) :: d => by
    by_cases hk : k ∈ keys
    · rw [sortValues, eraseFields_cons_mem hk, eraseFields_cons_mem hk, eraseFields_sortValues d]
    · rw [sortValues, eraseFields_cons_notMem hk, eraseFields_cons_notMem hk, sortValues,
        erase_sortKeys v, eraseFields_sortValues d]
end

end Json

namespace Dict
variable {keys : List PyStr} {d d' e e' : Dict}

theorem SameBut.refl (keys : List PyStr) (d : Dict) : SameBut keys d d := rfl

theorem SameBut.update (h : SameBut keys d d') (h' : SameBut keys e e') :
    SameBut keys (d.update e) (d'.update e') := by
  unfold SameBut at h h' ⊢
  rw [Json.eraseFields_update, Json.eraseFields_update, h, h']

theorem SameBut.sorted (h : SameBut keys d d') : SameBut keys (Dict.sorted d) (Dict.sorted d') := by
  unfold SameBut at h ⊢
  rw [Dict.sorted, Dict.sorted, Json.eraseFields_insertionSort, Json.eraseFields_insertionSort,
    Json.eraseFields_sortValues, Json.eraseFields_sortValues, h]

end Dict
