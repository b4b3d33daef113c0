import Lidi.Core.LTS
import Lidi.Core.Pool
import Lidi.File.FileSystem
import Mathlib.Data.Fin.VecNotation

set_option relaxedAutoImplicit false
set_option autoImplicit false

/-!
# Files received at the same time

Each connection is served by a thread of its own that runs `receive_file`. The threads share the
output directory. Whether a file of the name exists is looked up first, and the file is opened
afterwards, in a way that truncates a file that has appeared in between.

## Main definitions

* `File.Request` — what `receive_file` has read when it turns to the output directory.
* `File.Receptions` — the threads and the file system, with a history of who created which file
  and who truncated or wrote which.
* `File.Receptions.step` — the next step of one thread.
* `File.OpensNew` — the file that is opened does not exist.

## Main results

* `File.receiveLoop_ok` — what the loop has written when it succeeds.
* `File.Receptions.Inv.step` — every step that meets the condition keeps the invariant.
* `File.receptions_undamaged` — under the condition, nobody touches a file of somebody else.
* `File.receptions_collide` — a run without it.
-/

namespace Lidi.File

open Function

section Loop

variable {digest : List UInt8 → BitVec 128} {config : Config}

/-- **What the loop has written when it succeeds**: as many bytes of the stream as the header
says. -/
theorem receiveLoop_ok {fileLength remaining received : ℕ} {buffer written out : List UInt8}
    {hasher : Option Hasher} {diode : Reader UInt8 IoError}
    (hbuf : buffer.length ≤ config.bufferSize.toNat)
    (h : receiveLoop digest config fileLength remaining buffer hasher written diode =
      (.ok received, out)) :
    out = written ++ buffer ++ diode.bytes.take remaining ∧
      remaining ≤ diode.bytes.length := by
  fun_induction receiveLoop digest config fileLength remaining buffer hasher written diode with
  | case1 => simp at h
  | case2 remaining buffer hasher written diode stop diode' hread =>
    unfold receiveEnd at h
    simp only at h
    split at h
    · simp at h
    · split at h
      · simp at h
      · rename_i hzero
        obtain rfl : remaining = 0 := by omega
        rw [Prod.mk.injEq] at h
        rw [← h.2]
        cases buffer <;> simp
  | case3 remaining buffer hasher written diode stop read diode' hread hend left hshort ih =>
    obtain ⟨hb, hlen, -⟩ := Reader.bytes_of_read hread
    simp only [stop, dite_eq_ite, stop_sub_length] at hlen
    obtain ⟨hout, hle⟩ := ih (by simpa using hshort.le) h
    rw [hb, List.take_append, List.take_of_length_le (by omega), List.length_append]
    exact ⟨by simpa [left] using hout, by omega⟩
  | case4 remaining buffer hasher written diode stop read diode' hread hend left hfull buffer' ih =>
    obtain ⟨hb, hlen, -⟩ := Reader.bytes_of_read hread
    simp only [stop, dite_eq_ite, stop_sub_length] at hlen
    obtain ⟨hout, hle⟩ := ih (by simp) h
    rw [hb, List.take_append, List.take_of_length_le (by omega), List.length_append]
    exact ⟨by simpa [left, buffer'] using hout, by omega⟩

end Loop

/-- What `receive_file` has read when it turns to the output directory: where the file goes, the
header and the rest of the stream. -/
structure Request where
  filePath : String
  header : Header
  diode : Reader UInt8 IoError

namespace Request

/-- The first part of `receive_file`. -/
def read (alloc : ℕ → Bool) (outputDir : String) (diode : Reader UInt8 IoError) :
    Outcome Error Request :=
  match (Header.deserializeFrom alloc diode).mapError .diode with
  | .error f => .error f
  | .ok (header, diode) =>
    match Path.fileName header.fileName with
    | none => .error (.error (.other "unwrap of file_name failed"))
    | some fileName => .ok ⟨Path.join outputDir fileName, header, diode⟩

/-- The error of `receive_file` when there is a file of that name. -/
def alreadyExists (r : Request) : Error :=
  .other ("file \"" ++ r.filePath ++ "\" already exists")

/-- What the loop of `receive_file` returns, and what it writes. -/
def copy (digest : List UInt8 → BitVec 128) (config : Config) (r : Request) :
    Outcome Error ℕ × List UInt8 :=
  receiveLoop digest config r.header.fileLength.toNat r.header.fileLength.toNat []
    (newHasher config.hash) [] r.diode

/-- The content that is received: as many bytes as the header says. -/
def content (r : Request) : List UInt8 :=
  r.diode.bytes.take r.header.fileLength.toNat

/-- `receive_file` in these parts. -/
lemma receiveFile_eq_read (digest : List UInt8 → BitVec 128) (system : System) (config : Config)
    (diode : Reader UInt8 IoError) (outputDir : String) (files : Files) :
    receiveFile digest system config diode outputDir files =
      match read system.alloc outputDir diode with
      | .error f => (.error f, files)
      | .ok r =>
        if (files r.filePath).isSome then (.error (.error r.alreadyExists), files)
        else
          match system.opening r.filePath with
          | some e => (.error (.error (.io e)), files)
          | none => ((r.copy digest config).1,
            update files r.filePath (some ⟨(r.copy digest config).2, r.header.mode⟩)) := by
  unfold receiveFile read
  cases (Header.deserializeFrom system.alloc diode).mapError Error.diode with
  | error f => rfl
  | ok res =>
    obtain ⟨header, diode'⟩ := res
    cases hname : Path.fileName header.fileName with
    | none => simp [hname]
    | some fileName =>
      cases hopen : system.opening (Path.join outputDir fileName) <;>
        simp [hname, hopen, alreadyExists, copy]

end Request

/-- What a thread is about to do: look whether the file exists, open it, set its mode, write what
it receives; or it has returned. -/
inductive Phase
  | check (r : Request)
  | create (r : Request)
  | permissions (r : Request) (i : ℕ)
  | copy (r : Request) (i offset : ℕ) (pending : List UInt8) (res : Outcome Error ℕ)
  | returned (res : Outcome Error ℕ)

/-- An operation on a file that may fail is next. -/
def Phase.Fallible : Phase → Prop
  | .create _ | .permissions _ _ | .copy _ _ _ (_ :: _) _ => True
  | _ => False

/-- What a thread that has returned with success says that it has received. -/
def Phase.succeeded : Phase → Option ℕ
  | .returned (.ok received) => some received
  | _ => none

/-- A thread that has read the header, and knows where the file goes. -/
def Phase.start (alloc : ℕ → Bool) (outputDir : String) (diode : Reader UInt8 IoError) : Phase :=
  match Request.read alloc outputDir diode with
  | .error f => .returned (.error f)
  | .ok r => .check r

/-- The threads and the file system. `creator` is a history of who has created each file, and
`touched` of who has truncated or written which. -/
structure Receptions (n : ℕ) where
  fs : FileSystem
  threads : Fin n → Phase
  creator : ℕ → Option (Fin n)
  touched : List (Fin n × ℕ)

namespace Receptions

variable {n : ℕ} {digest : List UInt8 → BitVec 128} {config : Config} {s s' : Receptions n}

/-- The initial state: the files that are there were not created by any thread. -/
def init (alloc : ℕ → Bool) (outputDir : String) (diodes : Fin n → Reader UInt8 IoError)
    (fs : FileSystem) : Receptions n where
  fs := fs
  threads := fun w => .start alloc outputDir (diodes w)
  creator := fun _ => none
  touched := []

/-- A thread takes its next step, other than a write; it writes some of what it has to write; or
an operation on its file fails. -/
inductive Label (n : ℕ)
  | next (w : Fin n)
  | write (w : Fin n) (len : ℕ)
  | fail (w : Fin n) (e : IoError)
  deriving DecidableEq

/-- The next step; `none` if it is not the turn of such a step. What a thread writes may be cut
into any number of writes. -/
def step (digest : List UInt8 → BitVec 128) (config : Config) (s : Receptions n) :
    Label n → Option (Receptions n)
  | .next w =>
    match s.threads w with
    | .check r =>
      if (s.fs.names r.filePath).isSome then
        some { s with threads := update s.threads w (.returned (.error (.error r.alreadyExists))) }
      else some { s with threads := update s.threads w (.create r) }
    | .create r =>
      let res := s.fs.create r.filePath
      let exists' := (s.fs.names r.filePath).isSome
      some {
        fs := res.1
        threads := update s.threads w (.permissions r res.2)
        creator := if exists' then s.creator else update s.creator res.2 (some w)
        touched := if exists' then s.touched ++ [(w, res.2)] else s.touched }
    | .permissions r i =>
      let res := r.copy digest config
      some { s with
        fs := s.fs.setPermissions i r.header.mode
        threads := update s.threads w (.copy r i 0 res.2 res.1) }
    | .copy _ _ _ [] res => some { s with threads := update s.threads w (.returned res) }
    | .copy _ _ _ (_ :: _) _ => none
    | .returned _ => none
  | .write w len =>
    match s.threads w with
    | .copy r i offset pending res =>
      if 0 < len ∧ len ≤ pending.length then
        some { s with
          fs := s.fs.writeAt i offset (pending.take len)
          threads := update s.threads w (.copy r i (offset + len) (pending.drop len) res)
          touched := s.touched ++ [(w, i)] }
      else none
    | _ => none
  | .fail w e =>
    match s.threads w with
    | .create _ | .permissions _ _ | .copy _ _ _ (_ :: _) _ =>
      some { s with threads := update s.threads w (.returned (.error (.error (.io e)))) }
    | _ => none

/-- The kinds of steps. -/
inductive Trans (digest : List UInt8 → BitVec 128) (config : Config) (s : Receptions n) :
    Label n → Receptions n → Prop
  | found {w : Fin n} {r : Request} (hw : s.threads w = .check r)
      (hfile : (s.fs.names r.filePath).isSome = true) :
      Trans digest config s (.next w)
        { s with threads := update s.threads w (.returned (.error (.error r.alreadyExists))) }
  | absent {w : Fin n} {r : Request} (hw : s.threads w = .check r)
      (hfile : s.fs.names r.filePath = none) :
      Trans digest config s (.next w) { s with threads := update s.threads w (.create r) }
  | truncate {w : Fin n} {r : Request} {i : ℕ} (hw : s.threads w = .create r)
      (hfile : s.fs.names r.filePath = some i) :
      Trans digest config s (.next w) { s with
        fs := (s.fs.create r.filePath).1
        threads := update s.threads w (.permissions r i)
        touched := s.touched ++ [(w, i)] }
  | create {w : Fin n} {r : Request} (hw : s.threads w = .create r)
      (hfile : s.fs.names r.filePath = none) :
      Trans digest config s (.next w) { s with
        fs := (s.fs.create r.filePath).1
        threads := update s.threads w (.permissions r s.fs.next)
        creator := update s.creator s.fs.next (some w) }
  | permissions {w : Fin n} {r : Request} {i : ℕ} (hw : s.threads w = .permissions r i) :
      Trans digest config s (.next w) { s with
        fs := s.fs.setPermissions i r.header.mode
        threads := update s.threads w
          (.copy r i 0 (r.copy digest config).2 (r.copy digest config).1) }
  | finish {w : Fin n} {r : Request} {i offset : ℕ} {res : Outcome Error ℕ}
      (hw : s.threads w = .copy r i offset [] res) :
      Trans digest config s (.next w) { s with threads := update s.threads w (.returned res) }
  | write {w : Fin n} {r : Request} {i offset len : ℕ} {pending : List UInt8}
      {res : Outcome Error ℕ} (hw : s.threads w = .copy r i offset pending res)
      (hlen : len ≤ pending.length) :
      Trans digest config s (.write w len) { s with
        fs := s.fs.writeAt i offset (pending.take len)
        threads := update s.threads w (.copy r i (offset + len) (pending.drop len) res)
        touched := s.touched ++ [(w, i)] }
  | fail {w : Fin n} {e : IoError} (hw : (s.threads w).Fallible) :
      Trans digest config s (.fail w e)
        { s with threads := update s.threads w (.returned (.error (.error (.io e)))) }

/-- Every step is one of these. -/
theorem trans_of_step {a : Label n} (h : step digest config s a = some s') :
    Trans digest config s a s' := by
  cases a with
  | next w =>
    cases hw : s.threads w with
    | check r =>
      cases hfile : s.fs.names r.filePath with
      | none =>
        simp only [step, hw, hfile, Option.isSome_none, Bool.false_eq_true, if_false,
          Option.some.injEq] at h
        exact h ▸ .absent hw hfile
      | some i =>
        simp only [step, hw, hfile, Option.isSome_some, if_true, Option.some.injEq] at h
        exact h ▸ .found hw (by simp [hfile])
    | create r =>
      cases hfile : s.fs.names r.filePath with
      | none =>
        simp only [step, hw, hfile, FileSystem.snd_create hfile, Option.isSome_none,
          Bool.false_eq_true, if_false, Option.some.injEq] at h
        exact h ▸ .create hw hfile
      | some i =>
        have hold : (s.fs.create r.filePath).2 = i := by rw [FileSystem.create_of_some hfile]
        simp only [step, hw, hfile, hold, Option.isSome_some, if_true, Option.some.injEq] at h
        exact h ▸ .truncate hw hfile
    | permissions r i =>
      simp only [step, hw, Option.some.injEq] at h
      exact h ▸ .permissions hw
    | copy r i offset pending res =>
      cases pending with
      | nil =>
        simp only [step, hw, Option.some.injEq] at h
        exact h ▸ .finish hw
      | cons b pending => simp [step, hw] at h
    | returned res => simp [step, hw] at h
  | write w len =>
    cases hw : s.threads w with
    | copy r i offset pending res =>
      by_cases hlen : 0 < len ∧ len ≤ pending.length
      · simp only [step, hw, if_pos hlen, Option.some.injEq] at h
        exact h ▸ .write hw hlen.2
      · simp only [step, hw, if_neg hlen, reduceCtorEq] at h
    | _ => simp [step, hw] at h
  | fail w e =>
    cases hw : s.threads w with
    | create r =>
      simp only [step, hw, Option.some.injEq] at h
      exact h ▸ .fail (by simp [hw, Phase.Fallible])
    | permissions r i =>
      simp only [step, hw, Option.some.injEq] at h
      exact h ▸ .fail (by simp [hw, Phase.Fallible])
    | copy r i offset pending res =>
      cases pending with
      | nil => simp [step, hw] at h
      | cons b pending =>
        simp only [step, hw, Option.some.injEq] at h
        exact h ▸ .fail (by simp [hw, Phase.Fallible])
    | check r => simp [step, hw] at h
    | returned res => simp [step, hw] at h

end Receptions

/-- The file that a thread opens does not exist. -/
def OpensNew {n : ℕ} (s : Receptions n) : Receptions.Label n → Prop
  | .next w =>
    match s.threads w with
    | .create r => s.fs.names r.filePath = none
    | _ => True
  | _ => True

/-- Whether a step opens no file that exists can be decided. -/
instance {n : ℕ} (s : Receptions n) (a : Receptions.Label n) : Decidable (OpensNew s a) := by
  unfold OpensNew
  split
  · split <;> infer_instance
  · infer_instance

namespace Receptions

variable {n : ℕ} {digest : List UInt8 → BitVec 128} {alloc : ℕ → Bool} {config : Config}
  {s s' : Receptions n} {outputDir : String} {diodes : Fin n → Reader UInt8 IoError}
  {w w' : Fin n} {r : Request} {i : ℕ} {content : List UInt8}

/-- The thread has created the file that the name of its request stands for, and this is what the
file holds. -/
structure Holds (fs : FileSystem) (creator : ℕ → Option (Fin n)) (w : Fin n) (r : Request) (i : ℕ)
    (content : List UInt8) : Prop where
  creator_eq : creator i = some w
  names_eq : fs.names r.filePath = some i
  content_eq : (fs.inodes i).content = content

/-- What is known of a thread in each phase. -/
def Progress (digest : List UInt8 → BitVec 128) (alloc : ℕ → Bool) (config : Config)
    (outputDir : String) (diode : Reader UInt8 IoError) (fs : FileSystem)
    (creator : ℕ → Option (Fin n)) (w : Fin n) : Phase → Prop
  | .check r => Request.read alloc outputDir diode = .ok r
  | .create r => Request.read alloc outputDir diode = .ok r
  | .permissions r i => Request.read alloc outputDir diode = .ok r ∧ Holds fs creator w r i []
  | .copy r i offset pending res => Request.read alloc outputDir diode = .ok r ∧
      ∃ written, Holds fs creator w r i written ∧ offset = written.length ∧
        r.copy digest config = (res, written ++ pending)
  | .returned (.ok _) => ∃ r, Request.read alloc outputDir diode = .ok r ∧
      ∃ i, Holds fs creator w r i r.content ∧ r.content.length = r.header.fileLength.toNat
  | .returned (.error _) => True

/-- **The invariant.** Nobody has truncated or written a file of somebody else. -/
structure Inv (digest : List UInt8 → BitVec 128) (alloc : ℕ → Bool) (config : Config)
    (outputDir : String) (diodes : Fin n → Reader UInt8 IoError) (s : Receptions n) : Prop where
  lt_next : ∀ i w, s.creator i = some w → i < s.fs.next
  touched : ∀ w i, (w, i) ∈ s.touched → s.creator i = some w
  threads : ∀ w, Progress digest alloc config outputDir (diodes w) s.fs s.creator w (s.threads w)

/-- What a step of a thread leaves as it is. -/
structure Frame (w : Fin n) (s s' : Receptions n) : Prop where
  threads : ∀ w', w' ≠ w → s'.threads w' = s.threads w'
  names : ∀ path i, s.fs.names path = some i → s'.fs.names path = some i
  creator : ∀ i w', s.creator i = some w' → s'.creator i = some w'
  inodes : ∀ i w', s.creator i = some w' → w' ≠ w → s'.fs.inodes i = s.fs.inodes i

/-- What a thread holds is not changed by a step of another. -/
lemma Holds.frame (h : Holds s.fs s.creator w' r i content) (hf : Frame w s s') (hne : w' ≠ w) :
    Holds s'.fs s'.creator w' r i content where
  creator_eq := hf.creator i w' h.creator_eq
  names_eq := hf.names _ i h.names_eq
  content_eq := by rw [hf.inodes i w' h.creator_eq hne, h.content_eq]

/-- What is known of a thread is kept by the steps of the others. -/
lemma Progress.frame {phase : Phase} {diode : Reader UInt8 IoError}
    (h : Progress digest alloc config outputDir diode s.fs s.creator w' phase) (hf : Frame w s s')
    (hne : w' ≠ w) : Progress digest alloc config outputDir diode s'.fs s'.creator w' phase := by
  cases phase with
  | check r => exact h
  | create r => exact h
  | permissions r i => exact ⟨h.1, h.2.frame hf hne⟩
  | copy r i offset pending res =>
    obtain ⟨hread, written, hholds, hrest⟩ := h
    exact ⟨hread, written, hholds.frame hf hne, hrest⟩
  | returned res =>
    cases res with
    | error f => trivial
    | ok received =>
      obtain ⟨r, hread, i, hholds, hlen⟩ := h
      exact ⟨r, hread, i, hholds.frame hf hne, hlen⟩

/-- The invariant holds at the start. -/
lemma Inv.init (digest : List UInt8 → BitVec 128) (alloc : ℕ → Bool) (config : Config)
    (outputDir : String) (diodes : Fin n → Reader UInt8 IoError) (fs : FileSystem) :
    Inv digest alloc config outputDir diodes (init alloc outputDir diodes fs) where
  lt_next := by simp [Receptions.init]
  touched := by simp [Receptions.init]
  threads w := by
    simp only [Receptions.init, Phase.start]
    split
    · trivial
    · assumption

/-- A step that only moves its own thread. -/
lemma Frame.of_threads (s : Receptions n) (w : Fin n) (phase : Phase) :
    Frame w s { s with threads := update s.threads w phase } where
  threads _ hne := update_of_ne hne ..
  names _ _ h := h
  creator _ _ h := h
  inodes _ _ _ _ := rfl

/-- A step that changes the file of its own thread. -/
lemma Frame.of_setFile (h : s.creator i = some w) (phase : Phase) (file : StoredFile)
    (touched : List (Fin n × ℕ)) :
    Frame w s { s with
      fs := s.fs.setFile i file
      threads := update s.threads w phase
      touched := touched } where
  threads _ hne := update_of_ne hne ..
  names _ _ h := h
  creator _ _ h := h
  inodes j w' hj hne := by
    refine s.fs.inodes_setFile_of_ne file ?_
    rintro rfl
    rw [h, Option.some.injEq] at hj
    exact hne hj.symm

/-- A step that creates the file of its own thread. -/
lemma Frame.create {r : Request} (hfile : s.fs.names r.filePath = none)
    (hlt : ∀ i w', s.creator i = some w' → i < s.fs.next) (phase : Phase) :
    Frame w s { s with
      fs := (s.fs.create r.filePath).1
      threads := update s.threads w phase
      creator := update s.creator s.fs.next (some w) } where
  threads _ hne := update_of_ne hne ..
  names path i hi := by
    have hpath : path ≠ r.filePath := by
      rintro rfl
      rw [hfile] at hi
      cases hi
    rwa [FileSystem.names_create hfile, update_of_ne hpath]
  creator i w' hi := (update_of_ne (hlt i w' hi).ne ..).trans hi
  inodes i w' hi _ := by
    rw [FileSystem.inodes_create hfile, update_of_ne (hlt i w' hi).ne]

/-- A step keeps what is known of the threads, if it does so for its own. -/
lemma Inv.threads_of_frame (h : Inv digest alloc config outputDir diodes s) (hf : Frame w s s')
    (hself : Progress digest alloc config outputDir (diodes w) s'.fs s'.creator w (s'.threads w))
    (w' : Fin n) :
    Progress digest alloc config outputDir (diodes w') s'.fs s'.creator w' (s'.threads w') := by
  by_cases hne : w' = w
  · subst hne
    exact hself
  · rw [hf.threads w' hne]
    exact (h.threads w').frame hf hne

/-- A step that only moves its own thread. -/
lemma Inv.move (h : Inv digest alloc config outputDir diodes s) {w : Fin n} {phase : Phase}
    (hphase : Progress digest alloc config outputDir (diodes w) s.fs s.creator w phase) :
    Inv digest alloc config outputDir diodes { s with threads := update s.threads w phase } := by
  refine ⟨h.lt_next, h.touched, h.threads_of_frame (.of_threads s w phase) ?_⟩
  simpa only [update_self] using hphase

/-- **Every step keeps the invariant**, if a file that is opened does not exist. -/
theorem Inv.step (h : Inv digest alloc config outputDir diodes s) {a : Label n}
    (hnew : OpensNew s a) (ht : Trans digest config s a s') :
    Inv digest alloc config outputDir diodes s' := by
  cases ht with
  | @found w r hw hfile => exact h.move trivial
  | @absent w r hw hfile =>
    have hthread := h.threads w
    rw [hw] at hthread
    exact h.move hthread
  | @truncate w r i hw hfile =>
    simp only [OpensNew, hw, hfile, reduceCtorEq] at hnew
  | @create w r hw hfile =>
    have hread : Request.read alloc outputDir (diodes w) = .ok r := by
      have hthread := h.threads w
      rwa [hw] at hthread
    have hf : Frame w s { s with
        fs := (s.fs.create r.filePath).1
        threads := update s.threads w (.permissions r s.fs.next)
        creator := update s.creator s.fs.next (some w) } := .create hfile h.lt_next _
    refine ⟨?_, fun w' i hmem => hf.creator i w' (h.touched w' i hmem), h.threads_of_frame hf ?_⟩
    · intro i w' hi
      simp only [FileSystem.next_create hfile]
      by_cases heq : i = s.fs.next
      · omega
      · simp only [update_of_ne heq] at hi
        exact (h.lt_next i w' hi).trans (Nat.lt_succ_self _)
    · simp only [update_self]
      exact ⟨hread, ⟨update_self .., by simp [FileSystem.names_create hfile],
        by simp [FileSystem.inodes_create hfile]⟩⟩
  | @permissions w r i hw =>
    have hthread := h.threads w
    rw [hw] at hthread
    obtain ⟨hread, hholds⟩ := hthread
    have hf : Frame w s { s with
        fs := s.fs.setPermissions i r.header.mode
        threads := update s.threads w
          (.copy r i 0 (r.copy digest config).2 (r.copy digest config).1) } :=
      .of_setFile hholds.creator_eq ..
    refine ⟨h.lt_next, h.touched, h.threads_of_frame hf ?_⟩
    simp only [update_self]
    refine ⟨hread, [], ⟨hholds.creator_eq, hholds.names_eq, ?_⟩, rfl, rfl⟩
    simpa [FileSystem.setPermissions] using hholds.content_eq
  | @finish w r i offset res hw =>
    have hthread := h.threads w
    rw [hw] at hthread
    obtain ⟨hread, written, hholds, -, hcopy⟩ := hthread
    refine h.move ?_
    cases res with
    | error f => trivial
    | ok received =>
      obtain ⟨hout, hle⟩ := receiveLoop_ok (Nat.zero_le _) hcopy
      rw [List.append_nil] at hout
      subst hout
      exact ⟨r, hread, i, hholds, by simpa [Request.content] using hle⟩
  | @write w r i offset len pending res hw hlen =>
    have hthread := h.threads w
    rw [hw] at hthread
    obtain ⟨hread, written, hholds, hoffset, hcopy⟩ := hthread
    have hcontent := s.fs.content_writeAt (pending.take len)
      (by rw [hholds.content_eq, hoffset] : (s.fs.inodes i).content.length = offset)
    have hf : Frame w s { s with
        fs := s.fs.writeAt i offset (pending.take len)
        threads := update s.threads w (.copy r i (offset + len) (pending.drop len) res)
        touched := s.touched ++ [(w, i)] } := .of_setFile hholds.creator_eq ..
    refine ⟨h.lt_next, ?_, h.threads_of_frame hf ?_⟩
    · intro w' j hmem
      rcases List.mem_append.mp hmem with hmem | hmem
      · exact h.touched w' j hmem
      · rw [List.mem_singleton, Prod.mk.injEq] at hmem
        rw [hmem.1, hmem.2]
        exact hholds.creator_eq
    · simp only [update_self]
      refine ⟨hread, written ++ pending.take len, ⟨hholds.creator_eq, hholds.names_eq, ?_⟩, ?_, ?_⟩
      · rw [hcontent, hholds.content_eq]
      · rw [List.length_append, List.length_take_of_le hlen, hoffset]
      · rw [hcopy, List.append_assoc, List.take_append_drop]
  | @fail w e hw => exact h.move trivial

end Receptions

/-- The files by their names after a thread has created a file, set its mode and written it. -/
lemma FileSystem.view_create {fs : FileSystem} {path : String} (hfile : fs.names path = none)
    (mode : UInt32) (content : List UInt8) :
    (((fs.create path).1.setPermissions fs.next mode).writeAt fs.next 0 content).view =
      update fs.view path (some ⟨content, mode⟩) := by
  funext path'
  by_cases hpath : path' = path
  · subst hpath
    simp [view, create, hfile, setPermissions, writeAt, setFile]
  · rw [update_of_ne hpath]
    cases hname : fs.names path' with
    | none => simp [view, create, hfile, setPermissions, writeAt, setFile, hpath, hname]
    | some i =>
      have hne : i ≠ fs.next := (fs.lt_next path' i hname).ne
      simp [view, create, hfile, setPermissions, writeAt, setFile, hpath, hname, hne]

/-- Writing nothing changes nothing. -/
lemma FileSystem.view_writeAt_nil (fs : FileSystem) (i : ℕ) :
    (fs.writeAt i 0 []).view = fs.view := by
  simp [writeAt, setFile]

/-- A thread that has written everything returns. -/
lemma Receptions.step_finish {n : ℕ} {digest : List UInt8 → BitVec 128} {config : Config}
    {t : Receptions n} {w : Fin n} {r : Request} {i offset : ℕ} {res : Outcome Error ℕ}
    (hw : t.threads w = .copy r i offset [] res) :
    step digest config t (.next w) =
      some { t with threads := update t.threads w (.returned res) } := by
  simp only [step, hw]

/-- A thread may write everything at once. -/
lemma Receptions.step_write_all {n : ℕ} {digest : List UInt8 → BitVec 128} {config : Config}
    {t : Receptions n} {w : Fin n} {r : Request} {i : ℕ} {pending : List UInt8}
    {res : Outcome Error ℕ} (hw : t.threads w = .copy r i 0 pending res) (hne : pending ≠ []) :
    step digest config t (.write w pending.length) = some { t with
      fs := t.fs.writeAt i 0 pending
      threads := update t.threads w (.copy r i pending.length [] res)
      touched := t.touched ++ [(w, i)] } := by
  simp [step, hw, List.length_pos_of_ne_nil hne]

/-- A thread that runs alone, if there is no file of the name. -/
lemma Receptions.reach_copied (digest : List UInt8 → BitVec 128) (config : Config) {r : Request}
    {t : Receptions 1} (hstart : t.threads 0 = .check r) (hfile : t.fs.names r.filePath = none) :
    ∃ s : Receptions 1, LTS.Reach (step digest config) t s ∧
      s.threads 0 = .returned (r.copy digest config).1 ∧
      s.fs.view = update t.fs.view r.filePath (some ⟨(r.copy digest config).2, r.header.mode⟩) := by
  have hcreated := FileSystem.snd_create hfile
  have hview := FileSystem.view_create hfile r.header.mode (r.copy digest config).2
  obtain ⟨u, hreach, hthread, hfs⟩ : ∃ u : Receptions 1, LTS.Reach (step digest config) t u ∧
      u.threads 0 = .copy r t.fs.next 0 (r.copy digest config).2 (r.copy digest config).1 ∧
      u.fs = (t.fs.create r.filePath).1.setPermissions t.fs.next r.header.mode := by
    have hopened : LTS.run (step digest config) t [.next 0, .next 0, .next 0] = some { t with
        fs := (t.fs.create r.filePath).1.setPermissions t.fs.next r.header.mode
        threads := update t.threads 0
          (.copy r t.fs.next 0 (r.copy digest config).2 (r.copy digest config).1)
        creator := update t.creator t.fs.next (some 0) } := by
      simp [LTS.run, step, hstart, hfile, hcreated]
    exact ⟨_, LTS.reach_of_run hopened, update_self 0 _ t.threads, rfl⟩
  rw [← hfs] at hview
  by_cases hcopy : (r.copy digest config).2 = []
  · rw [hcopy] at hthread hview ⊢
    rw [FileSystem.view_writeAt_nil] at hview
    exact ⟨_, hreach.next (step_finish hthread), update_self 0 _ u.threads, hview⟩
  · have hwritten := hreach.next (step_write_all hthread hcopy)
    have hwrote := update_self 0
      (Phase.copy r t.fs.next (r.copy digest config).2.length [] (r.copy digest config).1) u.threads
    refine ⟨_, hwritten.next (step_finish (w := 0) hwrote), ?_, hview⟩
    simp only [update_self]

/-- A thread that runs alone, if there is no file of the name, and the file cannot be opened. -/
lemma Receptions.reach_notOpened (digest : List UInt8 → BitVec 128) (config : Config) {r : Request}
    {t : Receptions 1} (hstart : t.threads 0 = .check r) (hfile : t.fs.names r.filePath = none)
    (e : IoError) : ∃ s : Receptions 1, LTS.Reach (step digest config) t s ∧
      s.threads 0 = .returned (.error (.error (.io e))) ∧ s.fs.view = t.fs.view := by
  have hrun : LTS.run (step digest config) t [.next 0, .fail 0 e] = some { t with
      threads := update t.threads 0 (.returned (.error (.error (.io e)))) } := by
    simp [LTS.run, step, hstart, hfile]
  exact ⟨_, LTS.reach_of_run hrun, update_self 0 _ t.threads, rfl⟩

/-- **A thread that runs alone** does what `receive_file` does, whatever the system answers. -/
theorem Receptions.alone (digest : List UInt8 → BitVec 128) (system : System) (config : Config)
    (outputDir : String) (diode : Reader UInt8 IoError) (fs : FileSystem) :
    ∃ s : Receptions 1, LTS.Reach (Receptions.step digest config)
        (.init system.alloc outputDir (fun _ => diode) fs) s ∧
      s.threads 0 = .returned (receiveFile digest system config diode outputDir fs.view).1 ∧
      s.fs.view = (receiveFile digest system config diode outputDir fs.view).2 := by
  rw [Request.receiveFile_eq_read]
  cases hread : Request.read system.alloc outputDir diode with
  | error f => exact ⟨_, .refl, by simp [init, Phase.start, hread], rfl⟩
  | ok r =>
    let t : Receptions 1 := .init system.alloc outputDir (fun _ => diode) fs
    have hstart : t.threads 0 = .check r := by simp [t, init, Phase.start, hread]
    cases hfile : fs.names r.filePath with
    | some i =>
      have hview : (fs.view r.filePath).isSome = true := by simp [FileSystem.view, hfile]
      have hsome : (t.fs.names r.filePath).isSome = true := by simp [t, init, hfile]
      have hreach : LTS.Reach (step digest config) t { t with
          threads := update t.threads 0 (.returned (.error (.error r.alreadyExists))) } :=
        LTS.ReachVia.refl.tail trivial (show step digest config t (.next 0) = some _ by
          simp [step, hstart, hsome])
      exact ⟨_, hreach, by simp [hview], by simp [hview, t, init]⟩
    | none =>
      have hview : (fs.view r.filePath).isSome = false := by simp [FileSystem.view, hfile]
      simp only [hview, Bool.false_eq_true, if_false]
      cases system.opening r.filePath with
      | none => exact reach_copied digest config hstart hfile
      | some e => exact reach_notOpened digest config hstart hfile e

section Results

variable {n : ℕ} {digest : List UInt8 → BitVec 128} {alloc : ℕ → Bool} {config : Config}
  {s : Receptions n} {outputDir : String} {diodes : Fin n → Reader UInt8 IoError}
  {fs : FileSystem}

/-- **Concurrent receptions.** In every run in which a file that a thread opens does not exist, for
any number of threads with any headers: every file that a thread has truncated or written is one
that it created itself; and every thread that has returned with success has left under the name of
its file as many bytes of its stream as the header says. -/
theorem receptions_undamaged (h : LTS.ReachVia (Receptions.step digest config) OpensNew
    (Receptions.init alloc outputDir diodes fs) s) :
    (∀ w i, (w, i) ∈ s.touched → s.creator i = some w) ∧
    ∀ w received, s.threads w = .returned (.ok received) →
      ∃ r, Request.read alloc outputDir (diodes w) = .ok r ∧
        r.content.length = r.header.fileLength.toNat ∧
        (s.fs.view r.filePath).map StoredFile.content = some r.content := by
  have hinv : s.Inv digest alloc config outputDir diodes :=
    h.invariant (.init digest alloc config outputDir diodes fs) fun _ _ _ _ hinv hnew hs =>
      hinv.step hnew (Receptions.trans_of_step hs)
  refine ⟨hinv.touched, fun w received hw => ?_⟩
  have hthread := hinv.threads w
  rw [hw] at hthread
  obtain ⟨r, hread, i, hholds, hlen⟩ := hthread
  exact ⟨r, hread, hlen, by simp [FileSystem.view, hholds.names_eq, hholds.content_eq]⟩

/-- An empty output directory. -/
def emptyFiles : FileSystem where
  names := fun _ => none
  inodes := fun _ => ⟨[], 0⟩
  next := 0
  lt_next := by simp

/-- A connection on which a file is sent. -/
def connection (name : String) (content : List UInt8) : Reader UInt8 IoError :=
  .whole (Header.serialize ⟨name, 0o644, UInt64.ofNat content.length⟩ ++ content ++
    Footer.serialize ⟨0⟩)

/-- Two connections at once, with a buffer of two bytes and without hashing. -/
def twoConnections (names : Fin 2 → String) : Receptions 2 :=
  .init System.generous.alloc "out" ![connection (names 0) [1, 2, 3], connection (names 1) [4]]
    emptyFiles

/-- Both threads look whether their files exist before one of them opens its own. -/
def looksFirst : List (Receptions.Label 2) :=
  [.next 0, .next 1, .next 0, .next 0, .write 0 2, .write 0 1, .next 0,
    .next 1, .next 1, .write 1 1, .next 1]

/-- Two connections with different names, of which one has finished. -/
theorem receptions_undamaged_apart : ∃ s : Receptions 2,
    (s.threads 0).succeeded = some 3 ∧
    (∀ w i, (w, i) ∈ s.touched → s.creator i = some w) ∧
    ∀ w received, s.threads w = .returned (.ok received) →
      ∃ r, Request.read System.generous.alloc "out"
          (![connection "a" [1, 2, 3], connection "b" [4]] w) = .ok r ∧
        r.content.length = r.header.fileLength.toNat ∧
        (s.fs.view r.filePath).map StoredFile.content = some r.content := by
  have hrun : (LTS.runVia (Receptions.step (fun _ => 0) ⟨2, false⟩) OpensNew
      (twoConnections ![ "a", "b"]) looksFirst).map
      (fun s => (s.threads 0).succeeded) = some (some 3) := by
    decide +kernel
  obtain ⟨s, hs, hok⟩ := Option.map_eq_some_iff.mp hrun
  exact ⟨s, hok, receptions_undamaged (LTS.reachVia_of_runVia hs)⟩

/-- **Receptions can collide.** Two files of one name are received at once. The thread that opens
the file second truncates and writes what the first has created, and both succeed. -/
theorem receptions_collide : ∃ s : Receptions 2,
    LTS.Reach (Receptions.step (fun _ => 0) ⟨2, false⟩) (twoConnections ![ "a", "a"]) s ∧
    (∃ w i, (w, i) ∈ s.touched ∧ s.creator i ≠ some w) ∧
    (s.threads 0).succeeded = some 3 ∧ (s.threads 1).succeeded = some 1 ∧
    (s.fs.view "out/a").map StoredFile.content = some [4] := by
  have hrun : (LTS.run (Receptions.step (fun _ => 0) ⟨2, false⟩)
      (twoConnections ![ "a", "a"]) looksFirst).map
      (fun s => ((s.touched, s.creator 0), [(s.threads 0).succeeded, (s.threads 1).succeeded],
        (s.fs.view "out/a").map StoredFile.content)) =
      some (([(0, 0), (0, 0), (1, 0), (1, 0)], some 0), [some 3, some 1], some [4]) := by
    decide +kernel
  obtain ⟨s, hs, heq⟩ := Option.map_eq_some_iff.mp hrun
  simp only [Prod.mk.injEq, List.cons.injEq, and_true] at heq
  obtain ⟨⟨htouched, hcreator⟩, ⟨hok, hok'⟩, hview⟩ := heq
  exact ⟨s, LTS.reach_of_run hs, ⟨1, 0, by simp [htouched], by simp [hcreator]⟩, hok, hok', hview⟩

end Results

end Lidi.File
