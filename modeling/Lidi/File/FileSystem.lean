import Lidi.File.Receive

set_option relaxedAutoImplicit false
set_option autoImplicit false

/-!
# Files that are open while others come and go

A file system maps names to numbered files. A file that has been opened keeps its number, and is
written through an offset of its own, whoever else has opened it.

## Main definitions

* `File.FileSystem` — the names and the files.
* `File.FileSystem.create` — opening a file for writing, which creates or truncates it.
* `File.FileSystem.writeAt` — one write at an offset.

## Main results

* `File.FileSystem.content_writeAt` — writing at the end of a file appends to it.
-/

namespace Lidi.File

open Function

/-- The names, the files they stand for by their numbers, and the number of the next file. -/
structure FileSystem where
  names : String → Option ℕ
  inodes : ℕ → StoredFile
  next : ℕ
  lt_next : ∀ path i, names path = some i → i < next

namespace FileSystem

/-- The files by their names. -/
def view (fs : FileSystem) : Files :=
  fun path => (fs.names path).map fs.inodes

/-- Changing one file. -/
def setFile (fs : FileSystem) (i : ℕ) (file : StoredFile) : FileSystem :=
  { fs with inodes := update fs.inodes i file }

/-- `OpenOptions::open` with `write`, `create` and `truncate`. A new file gets the mode that
`OpenOptions` asks for. -/
def create (fs : FileSystem) (path : String) : FileSystem × ℕ :=
  match fs.names path with
  | some i => (fs.setFile i { fs.inodes i with content := [] }, i)
  | none =>
    ({ names := update fs.names path (some fs.next)
       inodes := update fs.inodes fs.next ⟨[], 0o666⟩
       next := fs.next + 1
       lt_next := by
         refine (forall_update_iff fs.names fun _ i? => ∀ i, i? = some i → i < fs.next + 1).mpr
           ⟨by simp, fun path' _ i hi => ?_⟩
         exact (fs.lt_next path' i hi).trans (Nat.lt_succ_self _) }, fs.next)

/-- `File::set_permissions`. -/
def setPermissions (fs : FileSystem) (i : ℕ) (mode : UInt32) : FileSystem :=
  fs.setFile i { fs.inodes i with mode := mode }

/-- One write of some bytes at an offset. What lies between the end of the file and the offset
reads as zeros. -/
def writeAt (fs : FileSystem) (i offset : ℕ) (bytes : List UInt8) : FileSystem :=
  let old := (fs.inodes i).content
  fs.setFile i { fs.inodes i with
    content := old.take offset ++ List.replicate (offset - old.length) 0 ++ bytes ++
      old.drop (offset + bytes.length) }

section Create

variable {fs : FileSystem} {path : String} {i : ℕ}

/-- A file that exists is truncated. -/
lemma create_of_some (h : fs.names path = some i) :
    fs.create path = (fs.setFile i { fs.inodes i with content := [] }, i) := by
  simp [create, h]

/-- A file that does not exist gets the next number. -/
lemma snd_create (h : fs.names path = none) : (fs.create path).2 = fs.next := by
  simp [create, h]

/-- A new file gets a name. -/
lemma names_create (h : fs.names path = none) :
    (fs.create path).1.names = update fs.names path (some fs.next) := by
  simp [create, h]

/-- A new file is empty and has the default mode. -/
lemma inodes_create (h : fs.names path = none) :
    (fs.create path).1.inodes = update fs.inodes fs.next ⟨[], 0o666⟩ := by
  simp [create, h]

/-- A new file takes a number. -/
lemma next_create (h : fs.names path = none) : (fs.create path).1.next = fs.next + 1 := by
  simp [create, h]

end Create

variable (fs : FileSystem) {i j : ℕ} (bytes : List UInt8) (file : StoredFile)

/-- Changing a file changes no name. -/
@[simp]
lemma names_setFile : (fs.setFile i file).names = fs.names := rfl

/-- Changing a file takes no number. -/
@[simp]
lemma next_setFile : (fs.setFile i file).next = fs.next := rfl

/-- A file that is changed. -/
@[simp]
lemma inodes_setFile : (fs.setFile i file).inodes i = file :=
  update_self ..

/-- The other files stay. -/
lemma inodes_setFile_of_ne (h : j ≠ i) : (fs.setFile i file).inodes j = fs.inodes j :=
  update_of_ne h ..

/-- **Writing at the end of a file appends to it.** -/
theorem content_writeAt (h : (fs.inodes i).content.length = j) :
    ((fs.writeAt i j bytes).inodes i).content = (fs.inodes i).content ++ bytes := by
  subst h
  simp [writeAt]

end FileSystem

end Lidi.File
