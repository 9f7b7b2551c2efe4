import Mathlib.Data.List.Basic
import Mathlib.Logic.Function.Basic
import Mathlib.Tactic.Common

/-! # Files, names and open files

A name stands for an inode, and an inode has contents; an open file is an inode with a place in
it, whatever becomes of the name.  So a file that is truncated or written is the one file for all who
have it open, and a file that another one is renamed over is still there for them.
-/

namespace Data

variable {π β : Type}

/-- No two names stand for one inode, and inodes are used in order. -/
structure FileSystem (π β : Type) where
  names : π → Option Nat
  contents : Nat → List β
  unused : Nat
  used : ∀ {path inode}, names path = some inode → inode < unused
  single : ∀ {first second inode}, names first = some inode → names second = some inode → first = second

/-- No files at all. -/
def FileSystem.empty : FileSystem π β where
  names := fun _ => none
  contents := fun _ => []
  unused := 0
  used := by simp
  single := by simp

/-- An open file and the place of the next access. -/
structure FileHandle where
  inode : Nat
  offset : Nat
  deriving DecidableEq, Repr

/-- The contents with some of them replaced from a place on; a gap before it is filled. -/
def overwrite (blank : β) (contents : List β) (offset : Nat) (bytes : List β) : List β :=
  (contents ++ List.replicate (offset - contents.length) blank).take offset ++ bytes ++
    contents.drop (offset + bytes.length)

theorem overwrite_end (blank : β) (contents bytes : List β) :
    overwrite blank contents contents.length bytes = contents ++ bytes := by
  simp [overwrite]

namespace FileSystem

/-- The contents of the file with a name. -/
def lookup (files : FileSystem π β) (path : π) : Option (List β) := (files.names path).map files.contents

/-- The open file with a name, from its beginning. -/
def openRead (files : FileSystem π β) (path : π) : Option FileHandle :=
  (files.names path).map fun inode => ⟨inode, 0⟩

/-- What comes next in an open file, as far as the reader asks. -/
def read (files : FileSystem π β) (handle : FileHandle) (count : Nat) : List β :=
  ((files.contents handle.inode).drop handle.offset).take count

def setContents (files : FileSystem π β) (inode : Nat) (contents : List β) : FileSystem π β :=
  { files with contents := Function.update files.contents inode contents }

def write (blank : β) (files : FileSystem π β) (handle : FileHandle) (bytes : List β) :
    FileSystem π β × FileHandle :=
  (files.setContents handle.inode (overwrite blank (files.contents handle.inode) handle.offset bytes),
    { handle with offset := handle.offset + bytes.length })

variable [DecidableEq π]

/-- A new name for an inode that was not used. -/
def addFile (files : FileSystem π β) (path : π) (absent : files.names path = none) : FileSystem π β where
  names := Function.update files.names path (some files.unused)
  contents := Function.update files.contents files.unused []
  unused := files.unused + 1
  used := by
    intro other inode named
    by_cases here : other = path
    · subst here
      simp only [Function.update_self, Option.some.injEq] at named
      omega
    · rw [Function.update_of_ne here] at named
      exact Nat.lt_succ_of_lt (files.used named)
  single := by
    -- the new inode has no other name
    intro first second inode named named'
    by_cases here : first = path
    · by_cases here' : second = path
      · rw [here, here']
      · subst here
        rw [Function.update_of_ne here'] at named'
        simp only [Function.update_self, Option.some.injEq] at named
        exact absurd (files.used named') (by omega)
    · rw [Function.update_of_ne here] at named
      by_cases here' : second = path
      · subst here'
        simp only [Function.update_self, Option.some.injEq] at named'
        exact absurd (files.used named) (by omega)
      · rw [Function.update_of_ne here'] at named'
        exact files.single named named'

/-- Open a file for writing: empty it, or make an empty one. -/
def create (files : FileSystem π β) (path : π) : FileSystem π β × FileHandle :=
  match named : files.names path with
  | some inode => (files.setContents inode [], ⟨inode, 0⟩)
  | none => (files.addFile path named, ⟨files.unused, 0⟩)

/-- The names after a file has been renamed. -/
def renamed (files : FileSystem π β) (source target : π) (inode : Nat) : π → Option Nat :=
  fun path => if path = target then some inode else if path = source then none else files.names path

theorem renamed_eq_some {files : FileSystem π β} {source target path : π} {inode other : Nat}
    (named : files.renamed source target inode path = some other) :
    (path = target ∧ other = inode) ∨ (path ≠ target ∧ path ≠ source ∧ files.names path = some other) := by
  unfold renamed at named
  split at named
  · rename_i isTarget
    exact .inl ⟨isTarget, (Option.some.inj named).symm⟩
  · rename_i notTarget
    split at named
    · cases named
    · rename_i notSource
      exact .inr ⟨notTarget, notSource, named⟩

/-- The one name of an inode becomes another one. -/
def moveFile (files : FileSystem π β) (source target : π) (inode : Nat) (named : files.names source = some inode) :
    FileSystem π β where
  names := files.renamed source target inode
  contents := files.contents
  unused := files.unused
  used := by
    intro path other isOther
    rcases renamed_eq_some isOther with ⟨_, rfl⟩ | ⟨_, _, was⟩
    · exact files.used named
    · exact files.used was
  single := by
    intro first second other isFirst isSecond
    rcases renamed_eq_some isFirst with ⟨rfl, rfl⟩ | ⟨_, notSource, was⟩
    · rcases renamed_eq_some isSecond with ⟨rfl, _⟩ | ⟨_, notSource, was⟩
      · rfl
      · exact absurd (files.single was named) notSource
    · rcases renamed_eq_some isSecond with ⟨rfl, rfl⟩ | ⟨_, _, was'⟩
      · exact absurd (files.single was named) notSource
      · exact files.single was was'

/-- Rename a file over another one, in one step. -/
def rename (files : FileSystem π β) (source target : π) : Option (FileSystem π β) :=
  match named : files.names source with
  | some inode => some (files.moveFile source target inode named)
  | none => none

/-! ## What the operations do -/

section Operations

variable {files files' : FileSystem π β} {path other source target : π} {inode : Nat}

omit [DecidableEq π] in
@[simp] theorem names_write (blank : β) (handle : FileHandle) (bytes : List β) :
    (files.write blank handle bytes).1.names = files.names := rfl

omit [DecidableEq π] in
@[simp] theorem unused_write (blank : β) (handle : FileHandle) (bytes : List β) :
    (files.write blank handle bytes).1.unused = files.unused := rfl

omit [DecidableEq π] in
theorem contents_write_self (blank : β) {handle : FileHandle} (bytes : List β)
    (atEnd : handle.offset = (files.contents handle.inode).length) :
    (files.write blank handle bytes).1.contents handle.inode = files.contents handle.inode ++ bytes := by
  simp [write, setContents, atEnd, overwrite_end]

omit [DecidableEq π] in
theorem contents_write_of_ne (blank : β) {handle : FileHandle} (bytes : List β) (different : inode ≠ handle.inode) :
    (files.write blank handle bytes).1.contents inode = files.contents inode := by
  simp [write, setContents, different]

omit [DecidableEq π] in
/-- What has been read, and what is read next, is the beginning of the file. -/
theorem take_append_read (files : FileSystem π β) (handle : FileHandle) (count : Nat) :
    (files.contents handle.inode).take handle.offset ++ files.read handle count =
      (files.contents handle.inode).take (handle.offset + (files.read handle count).length) := by
  rw [List.take_add, read, List.append_cancel_left_eq, List.take_eq_take_iff]
  simp

omit [DecidableEq π] in
/-- Only at the end of the file is there nothing to read. -/
theorem length_le_of_read_nil {handle : FileHandle} {count : Nat} (atEnd : files.read handle (count + 1) = []) :
    (files.contents handle.inode).length ≤ handle.offset := by
  simpa [read, List.take_eq_nil_iff] using atEnd

/-- All there is to say about opening a file for writing. -/
theorem create_cases (files : FileSystem π β) (path : π) :
    (∃ inode, files.names path = some inode ∧ files.create path = (files.setContents inode [], ⟨inode, 0⟩)) ∨
      ∃ absent : files.names path = none, files.create path = (files.addFile path absent, ⟨files.unused, 0⟩) := by
  unfold create
  split
  · rename_i inode named
    exact .inl ⟨inode, named, rfl⟩
  · rename_i absent
    exact .inr ⟨absent, rfl⟩

theorem names_create_self (files : FileSystem π β) (path : π) :
    (files.create path).1.names path = some (files.create path).2.inode := by
  rcases files.create_cases path with ⟨inode, named, created⟩ | ⟨absent, created⟩
  · rw [created]
    exact named
  · rw [created]
    exact Function.update_self ..

theorem names_create_of_ne (different : other ≠ path) : (files.create path).1.names other = files.names other := by
  rcases files.create_cases path with ⟨inode, named, created⟩ | ⟨absent, created⟩
  · rw [created]
    rfl
  · rw [created]
    exact Function.update_of_ne different ..

@[simp] theorem offset_create (files : FileSystem π β) (path : π) : (files.create path).2.offset = 0 := by
  rcases files.create_cases path with ⟨inode, named, created⟩ | ⟨absent, created⟩
  · rw [created]
  · rw [created]

@[simp] theorem contents_create_self (files : FileSystem π β) (path : π) :
    (files.create path).1.contents (files.create path).2.inode = [] := by
  rcases files.create_cases path with ⟨inode, named, created⟩ | ⟨absent, created⟩
  · rw [created]
    exact Function.update_self ..
  · rw [created]
    exact Function.update_self ..

theorem contents_create_of_ne (different : inode ≠ (files.create path).2.inode) :
    (files.create path).1.contents inode = files.contents inode := by
  rcases files.create_cases path with ⟨found, named, created⟩ | ⟨absent, created⟩
  · rw [created] at different ⊢
    exact Function.update_of_ne different ..
  · rw [created] at different ⊢
    exact Function.update_of_ne different ..

theorem unused_le_create (files : FileSystem π β) (path : π) : files.unused ≤ (files.create path).1.unused := by
  rcases files.create_cases path with ⟨inode, named, created⟩ | ⟨absent, created⟩
  · rw [created]
    exact Nat.le_refl _
  · rw [created]
    exact Nat.le_succ _

/-- It touches no inode in use but the one with the name. -/
theorem inode_create_ne (inUse : inode < files.unused) (different : files.names path ≠ some inode) :
    inode ≠ (files.create path).2.inode := by
  rcases files.create_cases path with ⟨found, named, created⟩ | ⟨absent, created⟩
  · rw [created]
    rintro rfl
    exact different named
  · rw [created]
    exact Nat.ne_of_lt inUse

theorem rename_eq_some (done : files.rename source target = some files') :
    ∃ inode, files.names source = some inode ∧ files'.names = files.renamed source target inode ∧
      files'.contents = files.contents ∧ files'.unused = files.unused := by
  unfold rename at done
  split at done
  · rename_i inode named
    cases done
    exact ⟨inode, named, rfl, rfl, rfl⟩
  · cases done

end Operations

end FileSystem

end Data
