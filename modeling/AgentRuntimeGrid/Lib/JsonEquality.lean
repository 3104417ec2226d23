import AgentRuntimeGrid.Lib.JsonRoundTrip
import Mathlib.Data.List.Perm.Subperm

/-! Equality of decoded values as `==` has it, objects without the order of their keys, and
sorted text as a canonical form for it. -/
namespace Json

mutual
/-- `v == w` of two decoded values, `true` and `1` being different. -/
def Equal : Json → Json → Prop
  | .null, .null => True
  | .bool a, .bool b => a = b
  | .int a, .int b => a = b
  | .float a, .float b => a = b
  | .str s, .str t => s = t
  | .arr xs, .arr ys => EqualItems xs ys
  | .obj d, .obj e => d.length = e.length ∧ EqualFields d e
  | _, _ => False

def EqualItems : List Json → List Json → Prop
  | [], [] => True
  | v :: vs, w :: ws => Equal v w ∧ EqualItems vs ws
  | _, _ => False

/-- Each field of the one is a field of the other. -/
def EqualFields : Dict → Dict → Prop
  | [], _ => True
  | (k, v) :: d, e => (∃ w, Dict.get? e k = some w ∧ Equal v w) ∧ EqualFields d e
end

theorem sortValues_eq_map (d : Dict) : sortValues d = d.map fun kv => (kv.1, sortKeys kv.2) := by
  induction d with
  | nil => rfl
  | cons kv d ih => rw [sortValues, List.map_cons, ih]

theorem mem_sortValues {d : Dict} {k : PyStr} {v : Json} :
    (k, v) ∈ sortValues d ↔ ∃ w, (k, w) ∈ d ∧ sortKeys w = v := by
  rw [sortValues_eq_map, List.mem_map]
  constructor
  · rintro ⟨⟨k', w⟩, hmem, heq⟩
    obtain ⟨rfl, rfl⟩ := Prod.mk.inj heq
    exact ⟨w, hmem, rfl⟩
  · rintro ⟨w, hmem, rfl⟩
    exact ⟨(k, w), hmem, rfl⟩

/-- In a `dict` a key leads to the one field that has it. -/
theorem get?_eq_some_iff {d : Dict} (h : (d.map Prod.fst).Nodup) {k : PyStr} {v : Json} :
    Dict.get? d k = some v ↔ (k, v) ∈ d := by
  unfold Dict.get?
  induction d with
  | nil => simp
  | cons kv d ih =>
    obtain ⟨k', v'⟩ := kv
    rw [List.map_cons, List.nodup_cons] at h
    rw [List.lookup_cons, List.mem_cons, Prod.mk.injEq]
    by_cases hk : k = k'
    · subst hk
      have hnotMem : (k, v) ∉ d := fun hmem => h.1 (List.mem_map.mpr ⟨_, hmem, rfl⟩)
      simp [hnotMem, eq_comm]
    · have hbeq : (k == k') = false := beq_eq_false_iff_ne.mpr hk
      simpa [hbeq, hk] using ih h.2

theorem get?_cons (l : PyStr) (w : Json) (d : Dict) (k : PyStr) :
    Dict.get? ((l, w) :: d) k = if k = l then some w else Dict.get? d k := by
  unfold Dict.get?
  rw [List.lookup_cons]
  by_cases h : k = l
  · simp [h]
  · rw [beq_eq_false_iff_ne.mpr h, if_neg h]

theorem get?_set (d : Dict) (k : PyStr) (v : Json) (k' : PyStr) :
    Dict.get? (Dict.set d k v) k' = if k' = k then some v else Dict.get? d k' := by
  induction d with
  | nil => rw [Dict.set, get?_cons]
  | cons kv d ih =>
    obtain ⟨l, w⟩ := kv
    by_cases hl : l = k
    · subst hl
      rw [Dict.set, if_pos rfl, get?_cons, get?_cons]
      split <;> rfl
    · rw [Dict.set, if_neg hl, get?_cons, get?_cons, ih]
      by_cases hk : k' = l
      · rw [if_pos hk, if_pos hk, if_neg fun h => hl (hk.symm.trans h)]
      · rw [if_neg hk, if_neg hk]

theorem keys_set (d : Dict) (k : PyStr) (v : Json) :
    (Dict.set d k v).map Prod.fst =
      if k ∈ d.map Prod.fst then d.map Prod.fst else d.map Prod.fst ++ [k] := by
  induction d with
  | nil => rfl
  | cons kv d ih =>
    obtain ⟨l, w⟩ := kv
    by_cases hl : l = k
    · subst hl
      simp [Dict.set]
    · rw [Dict.set, if_neg hl, List.map_cons, ih, List.map_cons]
      have hmem : k ∈ l :: d.map Prod.fst ↔ k ∈ d.map Prod.fst := by
        simp [Ne.symm hl]
      simp only [hmem]
      split <;> rfl

theorem nodup_set {d : Dict} (h : (d.map Prod.fst).Nodup) (k : PyStr) (v : Json) :
    ((Dict.set d k v).map Prod.fst).Nodup := by
  rw [keys_set]
  split
  · exact h
  · next hk =>
    rw [← List.concat_eq_append]
    exact .concat hk h

theorem update_cons (d : Dict) (kv : PyStr × Json) (e : Dict) :
    Dict.update d (kv :: e) = Dict.update (Dict.set d kv.1 kv.2) e := rfl

theorem nodup_update {d : Dict} (h : (d.map Prod.fst).Nodup) (e : Dict) :
    ((Dict.update d e).map Prod.fst).Nodup := by
  induction e generalizing d with
  | nil => exact h
  | cons kv e ih => exact ih (nodup_set h kv.1 kv.2)

/-- After an update the new value stands under each of its keys, the old one under the others. -/
theorem get?_update {e : Dict} (h : (e.map Prod.fst).Nodup) (d : Dict) (k : PyStr) :
    Dict.get? (Dict.update d e) k = (Dict.get? e k).or (Dict.get? d k) := by
  induction e generalizing d with
  | nil => rfl
  | cons kv e ih =>
    obtain ⟨l, w⟩ := kv
    rw [List.map_cons, List.nodup_cons] at h
    rw [update_cons, ih h.2, get?_set, get?_cons]
    by_cases hk : k = l
    · subst hk
      have hnone : Dict.get? e k = none := by
        rw [Option.eq_none_iff_forall_ne_some]
        exact fun v hv => h.1 (List.mem_map.mpr ⟨_, (get?_eq_some_iff h.2).mp hv, rfl⟩)
      rw [hnone, if_pos rfl, if_pos rfl]
      rfl
    · rw [if_neg hk, if_neg hk]

theorem get?_sorted {d : Dict} (h : (d.map Prod.fst).Nodup) (k : PyStr) :
    Dict.get? (Dict.sorted d) k = (Dict.get? d k).map sortKeys := by
  have hmem : ∀ v, (k, v) ∈ Dict.sorted d ↔ ∃ w, (k, w) ∈ d ∧ sortKeys w = v := fun v =>
    ((sortValues d).perm_insertionSort keyOrder).mem_iff.trans mem_sortValues
  ext v
  rw [get?_eq_some_iff (nodup_sorted h), hmem, Option.map_eq_some_iff]
  simp only [get?_eq_some_iff h]

theorem plain_of_mem {f : DumpsFormat} {d : Dict} (h : PlainFields f d) {k : PyStr} {v : Json}
    (hmem : (k, v) ∈ d) : Plain f v := (plainFields_iff.mp h _ hmem).2

theorem perm_sorted (d : Dict) : (Dict.sorted d).Perm (sortValues d) :=
  (sortValues d).perm_insertionSort keyOrder

theorem sorted_eq_of_perm {d e : Dict} (he : (e.map Prod.fst).Nodup)
    (h : (sortValues d).Perm (sortValues e)) : Dict.sorted d = Dict.sorted e := by
  have hsorted := ((perm_sorted d).trans h).trans (perm_sorted e).symm
  refine hsorted.eq_of_pairwise ?_ (List.pairwise_insertionSort _ _)
    (List.pairwise_insertionSort _ _)
  intro a b ha hb hab hba
  have hkey : a.1 = b.1 := le_antisymm hab hba
  exact List.inj_on_of_nodup_map (nodup_sorted he) (hsorted.mem_iff.mp ha) hb hkey

theorem nodup_sortValues {d : Dict} (h : (d.map Prod.fst).Nodup) : (sortValues d).Nodup :=
  .of_map Prod.fst (by rwa [keys_sortValues])

/-- Two objects have the same sorted fields when each field of the one is one of the other and
they are as many. -/
theorem sorted_eq_iff {d e : Dict} (hd : (d.map Prod.fst).Nodup) (he : (e.map Prod.fst).Nodup) :
    Dict.sorted d = Dict.sorted e ↔ d.length = e.length ∧ ∀ x ∈ sortValues d, x ∈ sortValues e := by
  have hlength : ∀ d : Dict, (sortValues d).length = d.length := fun d => by
    rw [sortValues_eq_map, List.length_map]
  constructor
  · intro heq
    have h : (sortValues d).Perm (sortValues e) :=
      (perm_sorted d).symm.trans (heq ▸ perm_sorted e)
    exact ⟨by rw [← hlength, h.length_eq, hlength], fun x hx => h.mem_iff.mp hx⟩
  · rintro ⟨hlen, hsub⟩
    exact sorted_eq_of_perm he (((nodup_sortValues hd).subperm hsub).perm_of_length_le
      (by rw [hlength, hlength, hlen]))

/-- Two objects have the same sorted fields when the same sorted values stand under each key. -/
theorem sorted_eq_iff_get? {d e : Dict} (hd : (d.map Prod.fst).Nodup)
    (he : (e.map Prod.fst).Nodup) :
    Dict.sorted d = Dict.sorted e ↔
      ∀ k, (Dict.get? d k).map sortKeys = (Dict.get? e k).map sortKeys := by
  constructor
  · intro h k
    rw [← get?_sorted hd, h, get?_sorted he]
  · intro h
    refine sorted_eq_of_perm he
      ((List.perm_ext_iff_of_nodup (nodup_sortValues hd) (nodup_sortValues he)).mpr ?_)
    rintro ⟨k, v⟩
    have hk := h k
    simp only [← get?_sorted hd, ← get?_sorted he] at hk
    rw [← (perm_sorted d).mem_iff, ← (perm_sorted e).mem_iff,
      ← get?_eq_some_iff (nodup_sorted hd), ← get?_eq_some_iff (nodup_sorted he), hk]

mutual
theorem sortKeys_sortKeys : ∀ v : Json, sortKeys (sortKeys v) = sortKeys v
  | .null => rfl
  | .bool _ => rfl
  | .int _ => rfl
  | .float _ => rfl
  | .str _ => rfl
  | .arr xs => congrArg Json.arr (sortItems_sortItems xs)
  | .obj d => by
    have hvalues : sortValues (Dict.sorted d) = Dict.sorted d := by
      rw [sortValues_eq_map]
      refine (List.map_congr_left fun kv hkv => ?_).trans (List.map_id _)
      exact Prod.ext rfl (sortKeys_of_mem_sortValues d kv ((perm_sorted d).mem_iff.mp hkv))
    have hsorted : (Dict.sorted d).insertionSort keyOrder = Dict.sorted d :=
      (List.pairwise_insertionSort keyOrder (sortValues d)).insertionSort_eq
    change Json.obj ((sortValues (Dict.sorted d)).insertionSort keyOrder) = .obj (Dict.sorted d)
    rw [hvalues, hsorted]

theorem sortItems_sortItems : ∀ vs : List Json, sortItems (sortItems vs) = sortItems vs
  | [] => rfl
  | v :: vs => by rw [sortItems, sortItems, sortKeys_sortKeys v, sortItems_sortItems vs]

theorem sortKeys_of_mem_sortValues :
    ∀ d : Dict, ∀ kv ∈ sortValues d, sortKeys kv.2 = kv.2
  | [], _, h => nomatch h
  | (k, v) :: d, kv, h => by
    rw [sortValues, List.mem_cons] at h
    rcases h with rfl | h
    · exact sortKeys_sortKeys v
    · exact sortKeys_of_mem_sortValues d kv h
end

variable {f : DumpsFormat}

mutual
/-- Values are equal exactly when they are the same once their keys are sorted. -/
theorem equal_iff : ∀ v w : Json, Plain f v → Plain f w → (Equal v w ↔ sortKeys v = sortKeys w)
  | .null, w, _, _ => by cases w <;> simp [Equal, sortKeys]
  | .bool _, w, _, _ => by cases w <;> simp [Equal, sortKeys]
  | .int _, w, _, _ => by cases w <;> simp [Equal, sortKeys]
  | .str _, w, _, _ => by cases w <;> simp [Equal, sortKeys]
  | .arr xs, w, hv, hw => by
    cases w with
    | arr ys => simpa [Equal, sortKeys] using equalItems_iff xs ys hv hw
    | _ => simp [Equal, sortKeys]
  | .obj d, w, hv, hw => by
    cases w with
    | obj e =>
      have hfields := equalFields_iff d e hv.2 hw.2 hw.1
      have hsorted := sorted_eq_iff hv.1 hw.1
      unfold Dict.sorted at hsorted
      rw [Equal, sortKeys, sortKeys, Json.obj.injEq, hsorted, hfields]
    | _ => simp [Equal, sortKeys]

theorem equalItems_iff : ∀ vs ws : List Json, PlainItems f vs → PlainItems f ws →
    (EqualItems vs ws ↔ sortItems vs = sortItems ws)
  | [], ws, _, _ => by cases ws <;> simp [EqualItems, sortItems]
  | v :: vs, ws, hv, hw => by
    cases ws with
    | nil => simp [EqualItems, sortItems]
    | cons w ws =>
      rw [EqualItems, sortItems, sortItems, List.cons.injEq, equal_iff v w hv.1 hw.1,
        equalItems_iff vs ws hv.2 hw.2]

theorem equalFields_iff : ∀ d e : Dict, PlainFields f d → PlainFields f e →
    (e.map Prod.fst).Nodup → (EqualFields d e ↔ ∀ x ∈ sortValues d, x ∈ sortValues e)
  | [], e, _, _, _ => by simp [EqualFields, sortValues]
  | (k, v) :: d, e, hd, he, hnodup => by
    have hrest := equalFields_iff d e hd.2.2 he hnodup
    have hfirst : (∃ w, Dict.get? e k = some w ∧ Equal v w) ↔ (k, sortKeys v) ∈ sortValues e := by
      rw [mem_sortValues]
      refine exists_congr fun w => ?_
      rw [get?_eq_some_iff hnodup]
      refine and_congr_right fun hmem => ?_
      rw [equal_iff v w hd.2.1 (plain_of_mem he hmem), eq_comm]
    rw [EqualFields, sortValues, List.forall_mem_cons, hfirst, hrest]
end

variable {floatRepr : PyFloat → PyStr}

theorem dumpsFields_eq_map (level : ℕ) (d : Dict) :
    dumpsFields f floatRepr level d = d.map fun kv =>
      (kv.1, quote f.ensureAscii kv.1 ++ f.keySeparator ++ dumpsAt f floatRepr level kv.2) := by
  induction d with
  | nil => rfl
  | cons kv d ih => rw [dumpsFields, List.map_cons, ih]

theorem dumpsFields_insertionSort (level : ℕ) (d : Dict) :
    dumpsFields f floatRepr level (d.insertionSort keyOrder) =
      (dumpsFields f floatRepr level d).insertionSort fun a b => a.1 ≤ b.1 := by
  rw [dumpsFields_eq_map, dumpsFields_eq_map]
  exact List.map_insertionSort _ _ _ _ fun _ _ _ _ => Iff.rfl

instance : Std.Total fun a b : PyStr × PyStr => a.1 ≤ b.1 := ⟨fun a b => le_total a.1 b.1⟩

instance : IsTrans (PyStr × PyStr) fun a b => a.1 ≤ b.1 := ⟨fun _ _ _ h h' => le_trans h h'⟩

mutual
theorem dumpsAt_sortKeys (level : ℕ) :
    ∀ v : Json, dumpsAt f floatRepr level (sortKeys v) = dumpsAt f floatRepr level v
  | .null => rfl
  | .bool _ => rfl
  | .int _ => rfl
  | .float _ => rfl
  | .str _ => rfl
  | .arr xs => by rw [sortKeys, dumpsAt, dumpsAt, dumpsItems_sortItems (level + 1) xs]
  | .obj d => by
    have hfields := dumpsFields_sortValues (level + 1) d
    rw [sortKeys, dumpsAt, dumpsAt, dumpsFields_insertionSort, hfields,
      (List.pairwise_insertionSort _ _).insertionSort_eq]

theorem dumpsItems_sortItems (level : ℕ) :
    ∀ vs : List Json, dumpsItems f floatRepr level (sortItems vs) = dumpsItems f floatRepr level vs
  | [] => rfl
  | v :: vs => by
    rw [sortItems, dumpsItems, dumpsItems, dumpsAt_sortKeys level v, dumpsItems_sortItems level vs]

theorem dumpsFields_sortValues (level : ℕ) :
    ∀ d : Dict, dumpsFields f floatRepr level (sortValues d) = dumpsFields f floatRepr level d
  | [] => rfl
  | (k, v) :: d => by
    rw [sortValues, dumpsFields, dumpsFields, dumpsAt_sortKeys level v,
      dumpsFields_sortValues level d]
end

/-- Two values have one text exactly when they are equal. -/
theorem dumps_eq_iff (hf : f.Readable) {v w : Json} (hv : Plain f v) (hw : Plain f w) :
    dumps f floatRepr v = dumps f floatRepr w ↔ Equal v w := by
  rw [equal_iff v w hv hw]
  constructor
  · intro heq
    have hv : loads (fun _ => .nan) (dumps f floatRepr v) = .ok (sortKeys v) := loads_dumps hf hv
    rw [heq, loads_dumps hf hw] at hv
    exact (Except.ok.inj hv).symm
  · intro heq
    rw [dumps, dumps, ← dumpsAt_sortKeys 0 v, heq, dumpsAt_sortKeys]

end Json
