import Lidi.File.Concurrent

set_option relaxedAutoImplicit false
set_option autoImplicit false

/-!
# Received files stay in the output directory

The name of a file comes from the other side of the diode and may be any string: an absolute path,
a path with `..` in it, an empty one. `receive_file` takes the last component of it only, if that is
a normal one, and puts it below the output directory.

## Main definitions

* `File.Access` — how `receive_file` turns to the file system.
* `File.receiveFileTrace` — `receive_file` with a record of that.
* `File.Below` — a path that is one normal component below a directory.
* `File.StaysBelow` — a call that uses one such path only.
* `File.ChangedBelow` — two file systems that differ below a directory only.

## Main results

* `File.receiveFile_confined` — every path that `receive_file` uses is directly below the output
  directory.
* `File.Receptions.confined` — no run of any number of threads changes anything else.
-/

namespace Lidi.File

open Function

/-- The path is one normal component below the directory. -/
def Below (dir path : String) : Prop :=
  ∃ name, Path.SingleComponent name ∧ path = Path.join dir name ∧
    Path.components path = Path.components dir ++ [.normal name]

/-- How `receive_file` turns to the file system: it looks whether there is a file at a path, and
opens one. All that follows goes through the open file. -/
inductive Access
  | found (path : String)
  | opened (path : String)
  deriving DecidableEq, Repr

/-- The path of an access. -/
def Access.path : Access → String
  | found path | opened path => path

/-- `receive_file` with a record of its accesses. -/
def receiveFileTrace (digest : List UInt8 → BitVec 128) (system : System) (config : Config)
    (diode : Reader UInt8 IoError) (outputDir : String) (files : Files) :
    List Access × Outcome Error ℕ × Files :=
  match (Header.deserializeFrom system.alloc diode).mapError .diode with
  | .error f => ([], .error f, files)
  | .ok (header, diode) =>
    match Path.fileName header.fileName with
    | none => ([], .error (.error (.other "unwrap of file_name failed")), files)
    | some fileName =>
      let filePath := Path.join outputDir fileName
      if (files filePath).isSome then
        ([.found filePath],
          .error (.error (.other ("file \"" ++ filePath ++ "\" already exists"))), files)
      else
        match system.opening filePath with
        | some e => ([.found filePath, .opened filePath], .error (.error (.io e)), files)
        | none =>
          let fileLength := header.fileLength.toNat
          let res := receiveLoop digest config fileLength fileLength [] (newHasher config.hash) []
            diode
          ([.found filePath, .opened filePath], res.1,
            update files filePath (some ⟨res.2, header.mode⟩))

section Trace

variable (digest : List UInt8 → BitVec 128) (system : System) (config : Config)
  (diode : Reader UInt8 IoError) (outputDir : String) (files : Files)

/-- The record changes nothing. -/
lemma receiveFileTrace_snd : (receiveFileTrace digest system config diode outputDir files).2 =
    receiveFile digest system config diode outputDir files := by
  unfold receiveFileTrace receiveFile
  cases (Header.deserializeFrom system.alloc diode).mapError Error.diode with
  | error f => rfl
  | ok res =>
    obtain ⟨header, diode'⟩ := res
    cases hname : Path.fileName header.fileName with
    | none => simp [hname]
    | some fileName =>
      cases hfound : (files (Path.join outputDir fileName)).isSome with
      | true => simp [hname, hfound]
      | false => cases hopen : system.opening (Path.join outputDir fileName) <;>
          simp [hname, hfound, hopen]

end Trace

/-- The last component of a path, put below a directory. -/
lemma below_of_fileName {path name : String} (h : Path.fileName path = some name) (dir : String) :
    Below dir (Path.join dir name) :=
  have hsingle := Path.singleComponent_of_fileName h
  ⟨name, hsingle, rfl, Path.components_join hsingle dir⟩

/-- A call of `receive_file` has returned an error before it turned to the file system; or there is
one path below the directory such that it has used no other one, and changed no other file. -/
def StaysBelow (outputDir : String) (files : Files)
    (res : List Access × Outcome Error ℕ × Files) : Prop :=
  (∃ e, res = ([], .error (.error e), files)) ∨
    ∃ path, Below outputDir path ∧ (∀ a ∈ res.1, a.path = path) ∧
      ∀ path', path' ≠ path → res.2.2 path' = files path'

/-- **Received files stay in the output directory.** Whatever is received, and
whatever the system answers, either no header can be read, and nothing is touched; or there is a
header, and with any name in it the call stays below the output directory. -/
theorem receiveFile_confined (digest : List UInt8 → BitVec 128) (system : System) (config : Config)
    (diode : Reader UInt8 IoError) (outputDir : String) (files : Files) :
    (∃ f, (Header.deserializeFrom system.alloc diode).mapError Error.diode = .error f ∧
      receiveFileTrace digest system config diode outputDir files = ([], .error f, files)) ∨
    ∃ header rest, Header.deserializeFrom system.alloc diode = .ok (header, rest) ∧
      StaysBelow outputDir files
        (receiveFileTrace digest system config diode outputDir files) := by
  unfold receiveFileTrace
  cases hread : (Header.deserializeFrom system.alloc diode).mapError Error.diode with
  | error f => exact .inl ⟨f, rfl, rfl⟩
  | ok res =>
    obtain ⟨header, rest⟩ := res
    refine .inr ⟨header, rest, Outcome.mapError_eq_ok_iff.mp hread, ?_⟩
    cases hname : Path.fileName header.fileName with
    | none => exact .inl ⟨.other "unwrap of file_name failed", by simp [hname]⟩
    | some fileName =>
      refine .inr ⟨Path.join outputDir fileName, below_of_fileName hname outputDir, ?_⟩
      cases hfound : (files (Path.join outputDir fileName)).isSome with
      | true => simp [hname, hfound, Access.path]
      | false =>
        cases hopen : system.opening (Path.join outputDir fileName) with
        | some e => simp [hname, hfound, hopen, Access.path]
        | none =>
          refine ⟨by simp [hname, hfound, hopen, Access.path], fun path' hne => ?_⟩
          simp [hname, hfound, hopen, update_of_ne hne]

/-! ## Changes to a file system -/

/-- A file that is new, or has a name directly below the directory. -/
def Inside (outputDir : String) (fs : FileSystem) (i : ℕ) : Prop :=
  fs.next ≤ i ∨ ∃ path, Below outputDir path ∧ fs.names path = some i

/-- Compared with `fs`, the file system `fs'` has further names below the directory only, and other
contents in files inside it only. -/
structure ChangedBelow (outputDir : String) (fs fs' : FileSystem) : Prop where
  next_le : fs.next ≤ fs'.next
  names : ∀ path, ¬ Below outputDir path → fs'.names path = fs.names path
  fresh : ∀ path i, fs'.names path = some i → fs.names path = some i ∨ fs.next ≤ i
  inodes : ∀ i, ¬ Inside outputDir fs i → fs'.inodes i = fs.inodes i

namespace ChangedBelow

variable {outputDir path : String} {fs fs' : FileSystem} {i : ℕ}

/-- Nothing has changed yet. -/
lemma refl (outputDir : String) (fs : FileSystem) : ChangedBelow outputDir fs fs where
  next_le := le_rfl
  names _ _ := rfl
  fresh _ _ h := .inl h
  inodes _ _ := rfl

/-- A file that has a name below the directory now is inside. -/
lemma inside_of_names (h : ChangedBelow outputDir fs fs') (hpath : Below outputDir path)
    (hi : fs'.names path = some i) : Inside outputDir fs i := by
  rcases h.fresh path i hi with hold | hnew
  · exact .inr ⟨path, hpath, hold⟩
  · exact .inl hnew

/-- Changing a file that is inside. -/
lemma setFile (h : ChangedBelow outputDir fs fs') (hi : Inside outputDir fs i)
    (file : StoredFile) : ChangedBelow outputDir fs (fs'.setFile i file) where
  next_le := h.next_le
  names := h.names
  fresh := h.fresh
  inodes j hj := by
    have hne : j ≠ i := by
      rintro rfl
      exact hj hi
    rw [fs'.inodes_setFile_of_ne file hne]
    exact h.inodes j hj

/-- Creating a file below the directory. -/
lemma create (h : ChangedBelow outputDir fs fs') (hpath : Below outputDir path)
    (hfile : fs'.names path = none) : ChangedBelow outputDir fs (fs'.create path).1 where
  next_le := by
    rw [FileSystem.next_create hfile]
    exact h.next_le.trans (Nat.le_succ _)
  names path' hpath' := by
    have hne : path' ≠ path := by
      rintro rfl
      exact hpath' hpath
    rw [FileSystem.names_create hfile, update_of_ne hne]
    exact h.names path' hpath'
  fresh path' i hi := by
    rw [FileSystem.names_create hfile] at hi
    by_cases heq : path' = path
    · subst heq
      rw [update_self, Option.some.injEq] at hi
      rw [← hi]
      exact .inr h.next_le
    · rw [update_of_ne heq] at hi
      exact h.fresh path' i hi
  inodes i hi := by
    have hne : i ≠ fs'.next := by
      rintro rfl
      exact hi (.inl h.next_le)
    rw [FileSystem.inodes_create hfile, update_of_ne hne]
    exact h.inodes i hi

end ChangedBelow

/-! ## Threads that receive files -/

/-- What a thread is about to use is below the directory. -/
def Phase.Inside (outputDir : String) (fs : FileSystem) : Phase → Prop
  | .check r | .create r => Below outputDir r.filePath
  | .permissions _ i | .copy _ i _ _ _ => File.Inside outputDir fs i
  | .returned _ => True

/-- The request of a header is for a file below the directory. -/
lemma Phase.inside_start (alloc : ℕ → Bool) (outputDir : String) (diode : Reader UInt8 IoError)
    (fs : FileSystem) : (Phase.start alloc outputDir diode).Inside outputDir fs := by
  unfold Phase.start
  cases hread : Request.read alloc outputDir diode with
  | error f => trivial
  | ok r =>
    unfold Request.read at hread
    split at hread
    · cases hread
    · split at hread
      · cases hread
      · rename_i name hname
        cases hread
        exact below_of_fileName hname outputDir

namespace Receptions

variable {n : ℕ} {digest : List UInt8 → BitVec 128} {alloc : ℕ → Bool} {config : Config}
  {s s' : Receptions n} {outputDir : String} {diodes : Fin n → Reader UInt8 IoError}
  {fs : FileSystem}

/-- **The invariant.** Everything that has changed since the start, or is about to be used, is below
the directory. -/
structure Confined (outputDir : String) (fs : FileSystem) (s : Receptions n) : Prop where
  files : ChangedBelow outputDir fs s.fs
  threads : ∀ w, (s.threads w).Inside outputDir fs

namespace Confined

/-- Moving a thread to a phase that is inside. -/
lemma threads_update (h : s.Confined outputDir fs) {w : Fin n} {phase : Phase}
    (hphase : phase.Inside outputDir fs) (w' : Fin n) :
    (update s.threads w phase w').Inside outputDir fs := by
  by_cases hw : w' = w
  · subst hw
    rwa [update_self]
  · rw [update_of_ne hw]
    exact h.threads w'

/-- **Every step keeps the invariant.** -/
theorem step (h : s.Confined outputDir fs) {a : Label n} (ht : Trans digest config s a s') :
    s'.Confined outputDir fs := by
  cases ht with
  | found hw hfile | finish hw | fail hw => exact ⟨h.files, h.threads_update trivial⟩
  | @absent w r hw hfile =>
    have hthread := h.threads w
    rw [hw] at hthread
    exact ⟨h.files, h.threads_update hthread⟩
  | @truncate w r i hw hfile =>
    have hthread := h.threads w
    rw [hw] at hthread
    have hi : Inside outputDir fs i := h.files.inside_of_names hthread hfile
    rw [FileSystem.create_of_some hfile]
    exact ⟨h.files.setFile hi _, h.threads_update hi⟩
  | @create w r hw hfile =>
    have hthread := h.threads w
    rw [hw] at hthread
    have hnew : Inside outputDir fs s.fs.next := .inl h.files.next_le
    exact ⟨h.files.create hthread hfile, h.threads_update hnew⟩
  | @permissions w r i hw =>
    have hthread := h.threads w
    rw [hw] at hthread
    exact ⟨h.files.setFile hthread _, h.threads_update hthread⟩
  | @write w r i offset len pending res hw hlen =>
    have hthread := h.threads w
    rw [hw] at hthread
    exact ⟨h.files.setFile hthread _, h.threads_update hthread⟩

end Confined

/-- **No run changes anything outside the output directory.** Whatever the threads receive, the
names that are added are one normal component below the output directory, and the files that are
changed are new or had such a name. -/
theorem confined (h : LTS.Reach (step digest config) (init alloc outputDir diodes fs) s) :
    (∀ path, s.fs.names path ≠ fs.names path → Below outputDir path) ∧
      ∀ i, s.fs.inodes i ≠ fs.inodes i → Inside outputDir fs i := by
  have hinv : s.Confined outputDir fs := by
    refine h.invariant ⟨.refl outputDir fs, fun w => Phase.inside_start ..⟩ ?_
    intro t a t' _ ht _ hs
    exact ht.step (trans_of_step hs)
  constructor
  · intro path hchanged
    by_contra hpath
    exact hchanged (hinv.files.names path hpath)
  · intro i hchanged
    by_contra hi
    exact hchanged (hinv.files.inodes i hi)

end Receptions

end Lidi.File
