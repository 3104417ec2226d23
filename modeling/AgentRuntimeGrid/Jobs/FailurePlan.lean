import AgentRuntimeGrid.Cli.ReliabilityProof
import Mathlib.Data.Int.CardIntervalMod

/-! The mix of modes in a reliability plan: each index once, in order, and as many failures of each
mode as the turns of a round-robin over the count, whatever the shuffle does. -/
namespace AgentRuntimeGrid

namespace FailureMode

/-- `list(FailureMode)`. -/
def all : List FailureMode :=
  [.transient, .permanent, .timeout, .cancellation, .duplicateSubmission]

end FailureMode

/-- How often a mode occurs: `Counter(failure.mode for failure in self.failures)[mode]`. -/
def modeCount (failures : List InjectedFailure) (mode : FailureMode) : ℕ :=
  (failures.map InjectedFailure.mode).count mode

/-- `FailurePlan.counts`. -/
def counts (failures : List InjectedFailure) : List (FailureMode × ℕ) :=
  FailureMode.all.map fun mode => (mode, modeCount failures mode)

theorem reliabilityModes_nodup (includeTimeouts : Bool) :
    (reliabilityModes includeTimeouts).Nodup := by
  cases includeTimeouts <;> decide

theorem modeAt_eq_iff {includeTimeouts : Bool} {position k : ℕ}
    (hk : k < (reliabilityModes includeTimeouts).length) :
    modeAt includeTimeouts position = (reliabilityModes includeTimeouts)[k] ↔
      position % (reliabilityModes includeTimeouts).length = k := by
  unfold modeAt
  rw [List.get_eq_getElem]
  exact (reliabilityModes_nodup includeTimeouts).getElem_inj_iff

/-- The modes of a list of indexes that take their turn are the modes of the positions. -/
theorem map_mode_mapIdx (f : ℕ → FailureMode) (indexes : List ℕ) :
    (indexes.mapIdx fun position (index : ℕ) =>
      InjectedFailure.mk index (f position)).map InjectedFailure.mode =
      (List.range indexes.length).map f := by
  apply List.ext_getElem?
  intro i
  simp only [List.getElem?_map, List.getElem?_mapIdx, Option.map_map]
  by_cases hi : i < indexes.length
  · simp [hi]
  · simp [hi]

theorem map_index_mapIdx (f : ℕ → FailureMode) (indexes : List ℕ) :
    (indexes.mapIdx fun position (index : ℕ) =>
      InjectedFailure.mk index (f position)).map InjectedFailure.index =
      indexes.map (fun index : ℕ => (index : ℤ)) := by
  apply List.ext_getElem?
  intro i
  simp only [List.getElem?_map, List.getElem?_mapIdx, Option.map_map, Function.comp_def]

section Plan
variable {shuffle : ℤ → List ℕ → List ℕ} {seed : ℤ} {count : ℕ} {includeTimeouts : Bool}

theorem reliabilityPlan_perm (shuffle : ℤ → List ℕ → List ℕ) (seed : ℤ) (count : ℕ)
    (includeTimeouts : Bool) : (reliabilityPlan shuffle seed count includeTimeouts).Perm
      ((shuffle seed (List.range count)).mapIdx fun position (index : ℕ) =>
        InjectedFailure.mk index (modeAt includeTimeouts position)) :=
  List.perm_insertionSort _ _

theorem reliabilityPlan_indexes
    (hshuffle : (shuffle seed (List.range count)).Perm (List.range count)) :
    (reliabilityPlan shuffle seed count includeTimeouts).map InjectedFailure.index =
      (List.range count).map fun index : ℕ => (index : ℤ) := by
  have hperm := (reliabilityPlan_perm shuffle seed count includeTimeouts).map
    InjectedFailure.index
  rw [map_index_mapIdx] at hperm
  have hrange := hperm.trans (hshuffle.map fun index : ℕ => (index : ℤ))
  apply hrange.eq_of_pairwise' (r := (· ≤ ·))
  · rw [List.pairwise_map]
    exact List.pairwise_insertionSort _ _
  · rw [List.pairwise_map]
    exact List.pairwise_le_range.imp Int.ofNat_le.mpr

/-- A mode occurs as often as it is dealt over the positions of the range. -/
theorem modeCount_reliabilityPlan
    (hshuffle : (shuffle seed (List.range count)).Perm (List.range count)) (mode : FailureMode) :
    modeCount (reliabilityPlan shuffle seed count includeTimeouts) mode =
      ((List.range count).map (modeAt includeTimeouts)).count mode := by
  unfold modeCount
  have hperm := (reliabilityPlan_perm shuffle seed count includeTimeouts).map InjectedFailure.mode
  rw [hperm.count_eq, map_mode_mapIdx, hshuffle.length_eq, List.length_range]

end Plan

/-- The positions below `count` at which turn `k` of `m` comes. -/
theorem countP_range_mod {m k : ℕ} (hk : k < m) (count : ℕ) :
    (List.range count).countP (fun position => position % m = k) =
      ⌈((count : ℚ) - k) / m⌉₊ := by
  have hm : 0 < m := by omega
  have hcount := Nat.count_modEq_card_eq_ceil count hm k
  rw [Nat.mod_eq_of_lt hk] at hcount
  have hsame : (List.range count).countP (fun position => position % m = k) =
      count.count (· ≡ k [MOD m]) := by
    unfold Nat.count
    simp only [Nat.ModEq, Nat.mod_eq_of_lt hk]
  rw [hsame, ← Int.ceil_toNat, ← hcount]
  rfl

theorem sum_counts (failures : List InjectedFailure) :
    ((counts failures).map Prod.snd).sum = failures.length := by
  induction failures with
  | nil => rfl
  | cons failure rest ih =>
    simp only [counts, FailureMode.all, modeCount, List.map_cons, List.map_nil, List.count_cons,
      List.sum_cons, List.sum_nil, List.length_cons] at ih ⊢
    cases failure.mode <;> simp at ih ⊢ <;> omega

/-- The turns of a round-robin differ by at most one. -/
theorem turns_le {m k k' : ℕ} (hk' : k' < m) (count : ℕ) :
    ⌈((count : ℚ) - k) / m⌉₊ ≤ ⌈((count : ℚ) - k') / m⌉₊ + 1 := by
  have hm : (0 : ℚ) < m := by
    have : 0 < m := by omega
    exact_mod_cast this
  have hle : ((count : ℚ) - k) / m ≤ (count - k') / m + 1 := by
    rw [div_add_one hm.ne', div_le_div_iff_of_pos_right hm]
    have hk'm : (k' : ℚ) ≤ m := by exact_mod_cast hk'.le
    have hk : (0 : ℚ) ≤ k := k.cast_nonneg
    linarith
  calc ⌈((count : ℚ) - k) / m⌉₊ ≤ ⌈((count : ℚ) - k') / m + 1⌉₊ := Nat.ceil_mono hle
    _ ≤ ⌈((count : ℚ) - k') / m⌉₊ + ⌈(1 : ℚ)⌉₊ := Nat.ceil_add_le _ _
    _ = ⌈((count : ℚ) - k') / m⌉₊ + 1 := by rw [Nat.ceil_one]

/-- The `k`-th mode comes as often as turn `k` of the round-robin. -/
theorem modeCount_getElem {shuffle : ℤ → List ℕ → List ℕ} {seed : ℤ} {count k : ℕ}
    {includeTimeouts : Bool}
    (hshuffle : (shuffle seed (List.range count)).Perm (List.range count))
    (hk : k < (reliabilityModes includeTimeouts).length) :
    modeCount (reliabilityPlan shuffle seed count includeTimeouts)
        (reliabilityModes includeTimeouts)[k] =
      ⌈((count : ℚ) - k) / (reliabilityModes includeTimeouts).length⌉₊ := by
  rw [modeCount_reliabilityPlan hshuffle, ← countP_range_mod hk, List.count_eq_countP,
    List.countP_map]
  apply List.countP_congr
  intro position _
  simp [modeAt_eq_iff hk]

/-- The plan covers each index of the range once and in order, its modes come as often as their
turns in a round-robin over the range, and its counts do not depend on the seed. -/
theorem reliabilityPlan_mix {shuffle : ℤ → List ℕ → List ℕ} {count : ℕ} {includeTimeouts : Bool}
    (hshuffle : ∀ seed, (shuffle seed (List.range count)).Perm (List.range count)) (seed : ℤ) :
    (reliabilityPlan shuffle seed count includeTimeouts).map InjectedFailure.index =
        (List.range count).map (fun index : ℕ => (index : ℤ)) ∧
      (∀ k (hk : k < (reliabilityModes includeTimeouts).length),
        modeCount (reliabilityPlan shuffle seed count includeTimeouts)
            (reliabilityModes includeTimeouts)[k] =
          ⌈((count : ℚ) - k) / (reliabilityModes includeTimeouts).length⌉₊) ∧
      ((counts (reliabilityPlan shuffle seed count includeTimeouts)).map Prod.snd).sum = count ∧
      (∀ mode ∈ reliabilityModes includeTimeouts, ∀ mode' ∈ reliabilityModes includeTimeouts,
        modeCount (reliabilityPlan shuffle seed count includeTimeouts) mode ≤
          modeCount (reliabilityPlan shuffle seed count includeTimeouts) mode' + 1) ∧
      ∀ seed', counts (reliabilityPlan shuffle seed' count includeTimeouts) =
        counts (reliabilityPlan shuffle seed count includeTimeouts) := by
  have hindexes := @reliabilityPlan_indexes shuffle seed count includeTimeouts (hshuffle seed)
  refine ⟨hindexes, fun k hk => modeCount_getElem (hshuffle seed) hk, ?_, ?_, ?_⟩
  · have hlength := congrArg List.length hindexes
    rw [List.length_map, List.length_map, List.length_range] at hlength
    rw [sum_counts, hlength]
  · intro mode hmode mode' hmode'
    obtain ⟨k, hk, rfl⟩ := List.getElem_of_mem hmode
    obtain ⟨k', hk', rfl⟩ := List.getElem_of_mem hmode'
    rw [modeCount_getElem (hshuffle seed) hk, modeCount_getElem (hshuffle seed) hk']
    exact turns_le hk' count
  · intro seed'
    unfold counts
    simp only [modeCount_reliabilityPlan (hshuffle seed),
      modeCount_reliabilityPlan (hshuffle seed')]

/-- What `random.Random(7).shuffle` makes of six indexes; other seeds and lists stay as they are. -/
def shuffleOfSeven (seed : ℤ) (indexes : List ℕ) : List ℕ :=
  if seed = 7 ∧ indexes = List.range 6 then [4, 0, 5, 3, 1, 2] else indexes

theorem shuffleOfSeven_perm (seed : ℤ) (indexes : List ℕ) :
    (shuffleOfSeven seed indexes).Perm indexes := by
  unfold shuffleOfSeven
  split
  · next h =>
    rw [h.2]
    decide
  · exact List.Perm.refl _

theorem reliabilityPlan_mix_of_seven :
    (reliabilityPlan shuffleOfSeven 7 6 true).map InjectedFailure.index = [0, 1, 2, 3, 4, 5] ∧
      modeCount (reliabilityPlan shuffleOfSeven 7 6 true) .permanent = 2 ∧
      modeCount (reliabilityPlan shuffleOfSeven 7 6 true) .timeout = 1 ∧
      ((counts (reliabilityPlan shuffleOfSeven 7 6 true)).map Prod.snd).sum = 6 ∧
      counts (reliabilityPlan shuffleOfSeven 8 6 true) =
        counts (reliabilityPlan shuffleOfSeven 7 6 true) := by
  obtain ⟨hindexes, hmodes, hsum, -, hseeds⟩ := @reliabilityPlan_mix shuffleOfSeven 6 true
    (fun seed => shuffleOfSeven_perm seed _) 7
  have hpermanent := hmodes 1 (by decide)
  have htimeout := hmodes 3 (by decide)
  refine ⟨hindexes.trans (by decide), ?_, ?_, hsum, hseeds 8⟩
  · refine hpermanent.trans ?_
    norm_num [reliabilityModes, Nat.ceil_eq_iff]
  · refine htimeout.trans ?_
    norm_num [reliabilityModes, Nat.ceil_eq_iff]

end AgentRuntimeGrid
