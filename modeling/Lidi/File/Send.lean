import Lidi.File.Path
import Lidi.File.Protocol

set_option relaxedAutoImplicit false
set_option autoImplicit false

/-!
# Sending a file

`send_file_aux` writes the header, the content and the footer of a file to the diode. The content
goes through a buffer of the size that the configuration gives. The hasher is fed with the full
buffers by `Hash::hash`, which puts the length before the bytes, and with the last, partial one by
`Hasher::write`, which does not.

## Main definitions

* `File.Hasher` — a streaming hash, known by the bytes written to it.
* `File.sendFileAux` — the function of the source.
* `File.fed` — the bytes that a hasher gets for a content, with a buffer of a given size.

## Main results

* `File.sendFileAux_eq` — what is written to the diode, and what is returned.
-/

namespace Lidi.File

/-- `file::Config`, without the addresses of the diode and the limit on the number of files. A
`usize` has 64 bits. Both programs allocate a buffer of `bufferSize` bytes before their loops, and
the size is taken to be one that can be allocated: the source panics on it from `2 ^ 63` on, and
aborts where there is no memory for it. -/
structure Config where
  bufferSize : UInt64
  hash : Bool
  deriving DecidableEq, Repr

/-- `file::Error`. -/
inductive Error
  | io (e : IoError)
  | diode (e : Protocol.Error)
  | other (message : String)
  deriving DecidableEq, Repr

/-- A streaming hasher, known by the bytes written to it. -/
structure Hasher where
  written : List UInt8
  deriving DecidableEq, Repr

namespace Hasher

/-- `SpookyHasherExt::default`. -/
def default : Hasher :=
  ⟨[]⟩

/-- `Hasher::write`. -/
def write (hasher : Hasher) (bytes : List UInt8) : Hasher :=
  ⟨hasher.written ++ bytes⟩

/-- `Hash::hash` of a vector: its length, then its bytes. -/
def hashVec (hasher : Hasher) (buffer : List UInt8) : Hasher :=
  (hasher.write (LittleEndian.encode 8 buffer.length)).write buffer

/-- `HasherExt::finish_ext`. -/
def finishExt (digest : List UInt8 → BitVec 128) (hasher : Hasher) : BitVec 128 :=
  digest hasher.written

end Hasher

/-- The hasher of a transfer, if hashing is on. -/
def newHasher (hash : Bool) : Option Hasher :=
  if hash then some Hasher.default else none

/-- A file opened for reading: what the reads return, and the metadata. -/
structure OpenFile where
  content : Reader UInt8 IoError
  mode : UInt32
  len : UInt64

/-- The loop of `send_file_aux`. `buffer` is the part of the buffer below the cursor. The result
lists what is written to the diode. -/
def sendLoop (digest : List UInt8 → BitVec 128) (config : Config) (buffer : List UInt8) (total : ℕ)
    (hasher : Option Hasher) (file : Reader UInt8 IoError) : Outcome Error ℕ × List UInt8 :=
  match _hread : file.read (config.bufferSize.toNat - buffer.length) with
  | .error e => (.error (.error (.io e)), [])
  | .ok (read, file') =>
    if _hend : read = [] then
      let total := if 0 < buffer.length then total + buffer.length else total
      let hasher := if 0 < buffer.length then hasher.map (·.write buffer) else hasher
      let footer : Footer := ⟨hasher.elim 0 (·.finishExt digest)⟩
      (.ok total, buffer ++ footer.serialize)
    else if buffer.length + read.length < config.bufferSize.toNat then
      sendLoop digest config (buffer ++ read) total hasher file'
    else
      let buffer := buffer ++ read
      let rest := sendLoop digest config [] (total + config.bufferSize.toNat)
        (hasher.map (·.hashVec buffer)) file'
      (rest.1, buffer ++ rest.2)
termination_by file.bytes.length
decreasing_by
  all_goals
    have hbytes := congrArg List.length (Reader.bytes_of_read _hread).1
    have hpos := List.length_pos_of_ne_nil _hend
    rw [List.length_append] at hbytes
    omega

/-- `send_file_aux`. `files` tells which paths are files, and what opening them gives. The result
lists what is written to the diode, where writes succeed. -/
def sendFileAux (digest : List UInt8 → BitVec 128) (config : Config)
    (files : String → Option (Except IoError OpenFile)) (filePath : String) :
    Outcome Error ℕ × List UInt8 :=
  match files filePath with
  | none => (.error (.error (.other "not a file")), [])
  | some (.error e) => (.error (.error (.io e)), [])
  | some (.ok file) =>
    match Path.fileName filePath with
    | none => (.error (.error (.other "unwrap of file_name failed")), [])
    | some fileName =>
      let header : Header := ⟨fileName, file.mode, file.len⟩
      let rest := sendLoop digest config [] 0 (newHasher config.hash) file.content
      (rest.1, header.serialize ++ rest.2)

/-- The bytes that a hasher gets for a content, with a buffer of `n` bytes: each full buffer with
its length before it, then what is left. -/
def fed (n : ℕ) (content : List UInt8) : List UInt8 :=
  if 0 < n ∧ n ≤ content.length then
    LittleEndian.encode 8 n ++ content.take n ++ fed n (content.drop n)
  else content
termination_by content.length
decreasing_by
  rw [List.length_drop]
  omega

section Fed

variable {n : ℕ} {content chunk rest : List UInt8}

/-- Less than a buffer is fed as it is. -/
lemma fed_of_lt (h : content.length < n) : fed n content = content := by
  rw [fed, if_neg (by omega)]

/-- A full buffer is fed after its length. -/
lemma fed_append (hn : 0 < n) (h : chunk.length = n) :
    fed n (chunk ++ rest) = LittleEndian.encode 8 n ++ chunk ++ fed n rest := by
  rw [fed, if_pos ⟨hn, by simp [h]⟩, List.take_left' h, List.drop_left' h]

end Fed

section Send

variable {digest : List UInt8 → BitVec 128} {config : Config}
  {files : String → Option (Except IoError OpenFile)} {filePath fileName : String}
  {file : OpenFile}

/-- The footer of a content, hashed or not. -/
def footerOf (digest : List UInt8 → BitVec 128) (config : Config) (content : List UInt8) : Footer :=
  ⟨if config.hash then digest (fed config.bufferSize.toNat content) else 0⟩

/-- **The loop writes the content and the footer.**

**Proof sketch.** Induction along the loop. The buffer is never full when a read starts, so a read
of nothing is the end of the file; what the hasher got before and what it still gets for the
buffer and the rest of the file make up `fed` of the whole. -/
lemma sendLoop_eq (digest : List UInt8 → BitVec 128) (buffer : List UInt8)
    (hbuf : buffer.length < config.bufferSize.toNat) (total : ℕ) (hasher : Option Hasher)
    (file : Reader UInt8 IoError) (hf : file.failure = none) :
    sendLoop digest config buffer total hasher file =
      (.ok (total + (buffer ++ file.bytes).length), buffer ++ file.bytes ++
        (Footer.serialize ⟨hasher.elim 0 fun h =>
          digest (h.written ++ fed config.bufferSize.toNat (buffer ++ file.bytes))⟩)) := by
  fun_induction sendLoop digest config buffer total hasher file with
  | case1 buffer total hasher file e hread =>
    simp [(Reader.failure_of_read_error hread).2] at hf
  | case2 buffer total hasher file file' total' hasher' footer hread =>
    obtain ⟨hb, -⟩ := Reader.eof_of_read_nil (by omega) hread
    have htotal : total' = total + buffer.length := by
      simp only [total']
      split <;> omega
    have hhasher : hasher' = hasher.map (·.write buffer) := by
      simp only [hasher']
      split
      · rfl
      · rename_i h
        obtain rfl : buffer = [] := List.length_eq_zero_iff.mp (by omega)
        cases hasher <;> simp [Hasher.write]
    rw [hb, List.append_nil, fed_of_lt hbuf, htotal]
    simp only [footer, hhasher]
    cases hasher <;> rfl
  | case3 buffer total hasher file read file' hread hend hshort ih =>
    obtain ⟨hb, -, hf'⟩ := Reader.bytes_of_read hread
    rw [hb, ← List.append_assoc]
    exact ih (by simpa using hshort) (hf'.trans hf)
  | case4 buffer total hasher file read file' hread hend hfull buffer' rest ih =>
    obtain ⟨hb, hlen, hf'⟩ := Reader.bytes_of_read hread
    have hfull' : (buffer ++ read).length = config.bufferSize.toNat := by
      rw [List.length_append]
      omega
    have hpos : 0 < config.bufferSize.toNat := by omega
    have hrest := ih (by simpa using hpos) (hf'.trans hf)
    simp only [rest, hrest, buffer', hb, List.nil_append]
    rw [← List.append_assoc buffer, fed_append hpos hfull']
    refine Prod.ext ?_ ?_
    · simp only [List.length_append] at hfull' ⊢
      rw [← hfull']
      congr 1
      omega
    · cases hasher with
      | none => simp
      | some h => simp [Hasher.hashVec, Hasher.write, hfull']

/-- **Sending a file.** The header, the content and the footer are written, and the length of the
content is returned. -/
theorem sendFileAux_eq (hfile : files filePath = some (.ok file))
    (hname : Path.fileName filePath = some fileName) (hsize : 0 < config.bufferSize)
    (hf : file.content.failure = none) :
    sendFileAux digest config files filePath = (.ok file.content.bytes.length,
      Header.serialize ⟨fileName, file.mode, file.len⟩ ++
        (file.content.bytes ++ (footerOf digest config file.content.bytes).serialize)) := by
  have hpos : 0 < config.bufferSize.toNat := hsize
  have hloop := sendLoop_eq digest [] hpos 0 (newHasher config.hash) file.content hf
  unfold sendFileAux
  simp only [hfile, hname]
  rw [hloop]
  simp only [List.nil_append, Nat.zero_add, newHasher, footerOf]
  cases config.hash <;> rfl

end Send

end Lidi.File
