import AgentRuntimeGrid.Lib.JsonEquality

/-! `==` of decoded values as Python has it: numbers are equal by their value whatever their type,
objects without the order of their keys. -/
namespace Json

/-- The number a value is equal to; `True` is 1. -/
def number? : Json → Option PyFloat
  | .bool b => some (.finite (if b then 1 else 0))
  | .int n => some (.finite n)
  | .float x => some x
  | _ => none

mutual
/-- `v is w or v == w`, as items of a list or of a `dict` are compared. The decoder has one object
for every NaN. -/
def eqItem : Json → Json → Bool
  | .null, .null => true
  | .str s, .str t => s = t
  | .arr xs, .arr ys => eqItems xs ys
  | .obj d, .obj e => d.length = e.length && eqFields d e
  | v, w => v.number?.isSome && decide (v.number? = w.number?)

def eqItems : List Json → List Json → Bool
  | [], [] => true
  | v :: vs, w :: ws => eqItem v w && eqItems vs ws
  | _, _ => false

/-- Each field of the one is a field of the other. -/
def eqFields : Dict → Dict → Bool
  | [], _ => true
  | (k, v) :: d, e => (match Dict.get? e k with
    | some w => eqItem v w
    | none => false) && eqFields d e
end

/-- `v == w`. -/
def eqValue (v w : Json) : Bool := decide (v.number? ≠ some .nan) && eqItem v w

variable {v : Json}

theorem eqItem_str {s t : PyStr} : eqItem (.str s) (.str t) = decide (s = t) := rfl

theorem eqItem_arr {vs ws : List Json} : eqItem (.arr vs) (.arr ws) = eqItems vs ws := rfl

theorem eqItem_obj {d e : Dict} :
    eqItem (.obj d) (.obj e) = (decide (d.length = e.length) && eqFields d e) := rfl

theorem eqItem_number {w : Json} (hw : w.number?.isSome = true) :
    eqItem v w = (v.number?.isSome && decide (v.number? = w.number?)) := by
  cases w with
  | bool | int | float => cases v <;> rfl
  | null | str | arr | obj => cases hw

theorem eqValue_eq_true_iff {w : Json} :
    eqValue v w = true ↔ v.number? ≠ some .nan ∧ eqItem v w = true := by
  rw [eqValue, Bool.and_eq_true, decide_eq_true_iff]

theorem eqValue_str {s : PyStr} : eqValue v (.str s) = true ↔ v = .str s := by
  rw [eqValue_eq_true_iff]
  cases v with
  | str t => simp [eqItem_str, number?]
  | _ => exact iff_of_false (fun h => Bool.false_ne_true h.2) nofun

theorem eqValue_null : eqValue v .null = true ↔ v = .null := by
  rw [eqValue_eq_true_iff]
  cases v with
  | null => exact iff_of_true ⟨nofun, rfl⟩ rfl
  | _ => exact iff_of_false (fun h => Bool.false_ne_true h.2) nofun

/-- Being equal to a number is being it. -/
theorem eqValue_number {w : Json} {q : ℚ} (hw : w.number? = some (.finite q)) :
    eqValue v w = true ↔ v.number? = some (.finite q) := by
  rw [eqValue_eq_true_iff, eqItem_number (by rw [hw]; rfl), hw]
  simp only [Bool.and_eq_true, decide_eq_true_eq]
  constructor
  · exact fun h => h.2.2
  · intro h
    rw [h]
    simp

theorem eqValue_int {n : ℤ} : eqValue v (.int n) = true ↔ v.number? = some (.finite n) :=
  eqValue_number rfl

theorem eqValue_float {x y : PyFloat} :
    eqValue (.float x) (.float y) = true ↔ x ≠ .nan ∧ x = y := by
  rw [eqValue_eq_true_iff, eqItem_number rfl]
  simp [number?]

theorem eqValue_empty {d : Dict} : eqValue (.obj d) (.obj []) = true ↔ d = [] := by
  rw [eqValue_eq_true_iff]
  cases d with
  | nil => exact iff_of_true ⟨nofun, rfl⟩ rfl
  | cons kv d => exact iff_of_false (fun h => Bool.false_ne_true h.2) nofun

mutual
/-- The keys of each object are different, as they are in a `dict`. -/
def Distinct : Json → Prop
  | .arr xs => DistinctItems xs
  | .obj d => (d.map Prod.fst).Nodup ∧ DistinctFields d
  | _ => True

def DistinctItems : List Json → Prop
  | [] => True
  | v :: vs => Distinct v ∧ DistinctItems vs

def DistinctFields : Dict → Prop
  | [] => True
  | (_, v) :: d => Distinct v ∧ DistinctFields d
end

theorem distinctItems_iff {vs : List Json} : DistinctItems vs ↔ ∀ v ∈ vs, Distinct v := by
  induction vs with
  | nil => simp [DistinctItems]
  | cons v vs ih => rw [DistinctItems, List.forall_mem_cons, ih]

theorem distinctFields_iff {d : Dict} : DistinctFields d ↔ ∀ kv ∈ d, Distinct kv.2 := by
  induction d with
  | nil => simp [DistinctFields]
  | cons kv d ih => rw [DistinctFields, List.forall_mem_cons, ih]

theorem Distinct.get? {d : Dict} (h : Distinct (.obj d)) {k : PyStr} {w : Json}
    (hw : Dict.get? d k = some w) : Distinct w :=
  distinctFields_iff.mp h.2 _ ((get?_eq_some_iff h.1).mp hw)

theorem eqFields_eq_all (d e : Dict) :
    eqFields d e = d.all fun kv => (Dict.get? e kv.1).any (eqItem kv.2) := by
  induction d with
  | nil => rfl
  | cons kv d ih =>
    rw [eqFields, List.all_cons, ih]
    cases Dict.get? e kv.1 <;> rfl

theorem number?_sortKeys (v : Json) : (sortKeys v).number? = v.number? := by
  cases v <;> rfl

mutual
/-- The order of the keys on the left does not matter. -/
theorem eqItem_sortKeys_left : ∀ v w : Json, eqItem (sortKeys v) w = eqItem v w
  | .null, _ => rfl
  | .bool _, _ => rfl
  | .int _, _ => rfl
  | .float _, _ => rfl
  | .str _, _ => rfl
  | .arr xs, w => by
    cases w with
    | arr ys => rw [sortKeys, eqItem_arr, eqItem_arr, eqItems_sortItems xs ys]
    | _ => rfl
  | .obj d, w => by
    cases w with
    | obj e =>
      have hperm := (sortValues d).perm_insertionSort keyOrder
      have hlength : (sortValues d).length = d.length := by
        rw [sortValues_eq_map, List.length_map]
      rw [sortKeys, eqItem_obj, eqItem_obj, hperm.length_eq, hlength, eqFields_eq_all,
        hperm.all_eq, ← eqFields_eq_all, eqFields_sortValues d e]
    | _ => rfl

theorem eqItems_sortItems : ∀ vs ws : List Json, eqItems (sortItems vs) ws = eqItems vs ws
  | [], _ => rfl
  | v :: vs, ws => by
    cases ws with
    | nil => rfl
    | cons w ws =>
      rw [sortItems, eqItems, eqItems, eqItem_sortKeys_left v w, eqItems_sortItems vs ws]

theorem eqFields_sortValues : ∀ d e : Dict, eqFields (sortValues d) e = eqFields d e
  | [], _ => rfl
  | (k, v) :: d, e => by
    rw [sortValues, eqFields, eqFields, eqFields_sortValues d e]
    cases Dict.get? e k with
    | none => rfl
    | some w => exact congrArg (· && eqFields d e) (eqItem_sortKeys_left v w)
end

mutual
/-- Nor does their order on the right. -/
theorem eqItem_sortKeys_right : ∀ v w : Json, Distinct w → eqItem v (sortKeys w) = eqItem v w
  | .null, w, _ => by cases w <;> rfl
  | .bool _, w, _ => by cases w <;> rfl
  | .int _, w, _ => by cases w <;> rfl
  | .float _, w, _ => by cases w <;> rfl
  | .str _, w, _ => by cases w <;> rfl
  | .arr xs, w, h => by
    cases w with
    | arr ys => rw [sortKeys, eqItem_arr, eqItem_arr, eqItems_right xs ys h]
    | _ => rfl
  | .obj d, w, h => by
    cases w with
    | obj e =>
      have hlength : (Dict.sorted e).length = e.length := by
        rw [(perm_sorted e).length_eq, sortValues_eq_map, List.length_map]
      change eqItem (.obj d) (.obj (Dict.sorted e)) = _
      rw [eqItem_obj, eqItem_obj, hlength, eqFields_right d e h]
    | _ => rfl

theorem eqItems_right : ∀ vs ws : List Json, DistinctItems ws →
    eqItems vs (sortItems ws) = eqItems vs ws
  | [], ws, _ => by cases ws <;> rfl
  | v :: vs, ws, h => by
    cases ws with
    | nil => rfl
    | cons w ws =>
      rw [sortItems, eqItems, eqItems, eqItem_sortKeys_right v w h.1, eqItems_right vs ws h.2]

theorem eqFields_right : ∀ d e : Dict, Distinct (.obj e) →
    eqFields d (Dict.sorted e) = eqFields d e
  | [], _, _ => rfl
  | (k, v) :: d, e, h => by
    rw [eqFields, eqFields, get?_sorted h.1, eqFields_right d e h]
    cases hget : Dict.get? e k with
    | none => rfl
    | some w => exact congrArg (· && eqFields d e) (eqItem_sortKeys_right v w (h.get? hget))
end

theorem eqValue_sortKeys_left (v w : Json) : eqValue (sortKeys v) w = eqValue v w := by
  rw [eqValue, eqValue, number?_sortKeys, eqItem_sortKeys_left]

theorem eqValue_sortKeys {v w : Json} (hw : Distinct w) :
    eqValue (sortKeys v) (sortKeys w) = eqValue v w := by
  rw [eqValue, eqValue, number?_sortKeys, eqItem_sortKeys_left, eqItem_sortKeys_right v w hw]

end Json
