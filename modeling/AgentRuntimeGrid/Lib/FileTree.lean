import Mathlib.Data.List.Infix
import Mathlib.Tactic.Common

/-! A tree of directories and files, as a map from the paths below its root. Whatever is there
stands in a directory, so removing a path leaves nothing below it. -/

inductive FileNode (β : Type*) where
  | directory
  | file (content : β)

structure FileTree (ν β : Type*) where
  node : List ν → Option (FileNode β)
  root : node [] = some .directory
  closed : ∀ p x, node (p ++ [x]) ≠ none → node p = some .directory

namespace FileTree
variable {ν β : Type*} {t t' : FileTree ν β} {p q : List ν} {content : β}

/-- Nothing but the root. -/
def empty : FileTree ν β where
  node
    | [] => some .directory
    | _ => none
  root := rfl
  closed := by
    intro p x h
    simp at h

def isDir (t : FileTree ν β) (p : List ν) : Bool :=
  match t.node p with
  | some .directory => true
  | _ => false

def read (t : FileTree ν β) (p : List ν) : Option β :=
  match t.node p with
  | some (.file content) => some content
  | _ => none

theorem read_empty (p : List ν) : (empty : FileTree ν β).read p = none := by
  cases p <;> rfl

theorem isDir_iff : t.isDir p = true ↔ t.node p = some .directory := by
  unfold isDir
  split
  next h => simp [h]
  next h => simpa using h

/-- Below a path there is nothing unless it is a directory. -/
theorem node_eq_none_of_prefix (hpq : p <+: q) (hne : p ≠ q) (h : t.node p ≠ some .directory) :
    t.node q = none := by
  obtain ⟨rest, rfl⟩ := hpq
  induction rest using List.reverseRecOn with
  | nil => simp at hne
  | append_singleton rest x ih =>
    by_contra hq
    rw [← List.append_assoc] at hq
    have hdir := t.closed _ _ hq
    rcases eq_or_ne rest [] with rfl | hrest
    · rw [List.append_nil] at hdir
      exact h hdir
    · rw [ih (by simpa using hrest)] at hdir
      cases hdir

theorem read_eq_none_of_node (h : t.node p = none) : t.read p = none := by
  unfold read
  rw [h]

/-- Nothing is read at or below a path that is not there. -/
theorem read_eq_none_of_prefix (hpq : p <+: q) (h : t.node p = none) : t.read q = none := by
  rcases eq_or_ne p q with rfl | hne
  · exact read_eq_none_of_node h
  · apply read_eq_none_of_node
    exact node_eq_none_of_prefix hpq hne (by simp [h])

variable [DecidableEq ν]

/-- `rmtree` of a directory or `unlink` of a file: the path goes, with all that is below it. -/
def remove (t : FileTree ν β) (p : List ν) : FileTree ν β where
  node q := if p ≠ [] ∧ p <+: q then none else t.node q
  root := by
    rw [if_neg fun h => h.1 (List.prefix_nil.mp h.2)]
    exact t.root
  closed := by
    intro q x hq
    by_cases h : p ≠ [] ∧ p <+: q ++ [x]
    · simp [h] at hq
    · rw [if_neg h] at hq
      rw [if_neg fun h' => h ⟨h'.1, h'.2.trans (List.prefix_append _ _)⟩]
      exact t.closed q x hq

theorem read_remove (hp : p ≠ []) (q : List ν) :
    (t.remove p).read q = if p <+: q then none else t.read q := by
  unfold read remove
  simp only [hp, ne_eq, not_false_eq_true, true_and]
  split_ifs <;> rfl

/-- `mkdir(parents=True, exist_ok=True)`; `none` is an `OSError`, when a file is in the way. -/
def makeDirs (t : FileTree ν β) (p : List ν) : Option (FileTree ν β) :=
  if p.inits.all fun q => (t.read q).isNone then
    some {
      node := fun q => if q <+: p then some .directory else t.node q
      root := if_pos (List.nil_prefix)
      closed := by
        intro q x hq
        by_cases h : q <+: p
        · exact if_pos h
        · rw [if_neg h]
          rw [if_neg fun h' => h ((List.prefix_append _ _).trans h')] at hq
          exact t.closed q x hq }
  else none

theorem read_makeDirs (h : t.makeDirs p = some t') (q : List ν) : t'.read q = t.read q := by
  unfold makeDirs at h
  split at h
  next hfree =>
    obtain rfl := Option.some.inj h
    by_cases hq : q <+: p
    · have hnone := List.all_eq_true.mp hfree q ((List.mem_inits _ _).mpr hq)
      rw [Option.isNone_iff_eq_none.mp hnone]
      simp [read, hq]
    · simp [read, hq]
  next => cases h

/-- `write_bytes`; `none` is an `OSError`, without the directory or over another one. -/
def write (t : FileTree ν β) (p : List ν) (content : β) : Option (FileTree ν β) :=
  if h : p ≠ [] ∧ t.isDir p.dropLast = true ∧ t.isDir p = false then
    some {
      node := fun q => if q = p then some (.file content) else t.node q
      root := by
        rw [if_neg h.1.symm]
        exact t.root
      closed := by
        intro q x hq
        have hparent : t.node q = some .directory := by
          by_cases hp : q ++ [x] = p
          · rw [← isDir_iff, show q = p.dropLast by rw [← hp, List.dropLast_concat]]
            exact h.2.1
          · rw [if_neg hp] at hq
            exact t.closed q x hq
        rw [if_neg, hparent]
        rintro rfl
        rw [isDir_iff.mpr hparent] at h
        exact absurd h.2.2 (by decide) }
  else none

theorem read_write (h : t.write p content = some t') (q : List ν) :
    t'.read q = if q = p then some content else t.read q := by
  unfold write at h
  split at h
  next =>
    obtain rfl := Option.some.inj h
    by_cases hq : q = p <;> simp [read, hq]
  next => cases h

/-- Making the directories of a path makes room for a file in the last of them. -/
theorem write_makeDirs_isSome (h : t.makeDirs p = some t') {x : ν}
    (hfree : t.isDir (p ++ [x]) = false) : ∃ t'', t'.write (p ++ [x]) content = some t'' := by
  unfold makeDirs at h
  split at h
  next =>
    obtain rfl := Option.some.inj h
    unfold write
    rw [dif_pos]
    · exact ⟨_, rfl⟩
    · have hlong : ¬p ++ [x] <+: p := fun hpre => by
        have := hpre.length_le
        rw [List.length_append, List.length_singleton] at this
        omega
      refine ⟨by simp, by simp [isDir], ?_⟩
      simpa [isDir, hlong] using hfree
  next => cases h

theorem makeDirs_empty_isSome (p : List ν) :
    ∃ made, (empty : FileTree ν β).makeDirs p = some made := by
  unfold makeDirs
  rw [if_pos]
  · exact ⟨_, rfl⟩
  · simp [read_empty]

end FileTree
