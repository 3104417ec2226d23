import AgentRuntimeGrid.Lib.PyText
import Mathlib.Data.List.AList

/-! One directory of a POSIX file system, as a program that lists it, reads it and replaces its
entries sees it. -/

inductive DirEntry where
  | file (content : PyBytes)
  /-- A symbolic link, with the content of the regular file it leads to, if it leads to one. -/
  | symlink (target : Option PyBytes)
  | directory
  /-- A socket, a pipe or a device. -/
  | special
  deriving DecidableEq

namespace DirEntry

/-- `is_symlink()`. -/
def isSymlink : DirEntry → Bool
  | symlink _ => true
  | _ => false

/-- The content of the regular file the entry is or leads to. -/
def content? : DirEntry → Option PyBytes
  | file content => some content
  | symlink target => target
  | directory | special => none

/-- `is_file()`, which follows symbolic links. -/
def isFile (e : DirEntry) : Bool := e.content?.isSome

end DirEntry

abbrev Directory := AList fun _ : PyStr => DirEntry

namespace Directory
variable {d d' : Directory} {name name' : PyStr} {content : PyBytes}

/-- `read_bytes()`; `none` is an `OSError`. -/
def read (d : Directory) (name : PyStr) : Option PyBytes := (d.lookup name).bind DirEntry.content?

/-- A temporary file moved onto the name: whatever is there is replaced, but for a directory. -/
def replace (d : Directory) (name : PyStr) (content : PyBytes) : Option Directory :=
  if d.lookup name = some .directory then none else some (d.insert name (.file content))

/-- The names of the regular files, links to them included, that the predicate holds of. -/
def fileNames (d : Directory) (p : PyStr → Bool) : List PyStr :=
  (d.entries.filter fun e => e.2.isFile && p e.1).map Sigma.fst

theorem mem_fileNames {p : PyStr → Bool} :
    name ∈ d.fileNames p ↔ (∃ e, d.lookup name = some e ∧ e.isFile = true) ∧ p name = true := by
  simp only [fileNames, List.mem_map, List.mem_filter, Bool.and_eq_true]
  constructor
  · rintro ⟨⟨name, e⟩, ⟨hmem, hfile, hp⟩, rfl⟩
    exact ⟨⟨e, AList.mem_lookup_iff.mpr hmem, hfile⟩, hp⟩
  · rintro ⟨⟨e, hlookup, hfile⟩, hp⟩
    exact ⟨⟨name, e⟩, ⟨AList.mem_lookup_iff.mp hlookup, hfile, hp⟩, rfl⟩

theorem replace_eq_some (h : d.replace name content = some d') :
    d.lookup name ≠ some .directory ∧ d' = d.insert name (.file content) := by
  unfold replace at h
  split at h
  · cases h
  next hdir => exact ⟨hdir, (Option.some.inj h).symm⟩

theorem replace_eq (h : d.lookup name ≠ some .directory) :
    d.replace name content = some (d.insert name (.file content)) := if_neg h

end Directory
