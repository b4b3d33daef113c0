import Lidi.Core.LittleEndian
import Lidi.Core.Outcome
import Lidi.Core.Reader

set_option relaxedAutoImplicit false
set_option autoImplicit false

/-!
# The header and the footer of a file

Before the content of a file goes a header with its name, its mode and its length; after it goes a
footer with a hash. All the numbers are little-endian.

## Main definitions

* `File.Header`, `File.Footer` — the two records.
* `File.Header.serialize`, `File.Header.deserializeFrom` and those of the footer.
* `File.LargeName` — the name in a header is too long to be allocated.
* `File.HeaderResult` — what reading a header can do.

## Main results

* `File.Header.deserializeFrom_serialize`, `File.Footer.deserializeFrom_serialize` — what was
  written is read back, whatever the reads return.
* `File.headerResult` — reading a header does one of these.
* `File.Header.serialize_of_deserializeFrom` — what is read was written.
* `File.Header.deserializeFrom_same` — reading a header does not depend on the chunks.
* `File.Header.deserializeFrom_eq_panic_iff` — when reading a header panics.
-/

namespace Lidi.File

/-- The bytes of a `String`. -/
def utf8 (s : String) : List UInt8 :=
  s.toByteArray.data.toList

/-- The bytes of a name are counted by its size. -/
@[simp]
lemma length_utf8 (s : String) : (utf8 s).length = s.utf8ByteSize := rfl

/-- `String::from_utf8`. -/
def fromUtf8 (bytes : List UInt8) : Option String :=
  String.fromUTF8? ⟨bytes.toArray⟩

/-- **A name is read back from its bytes.** -/
@[simp]
lemma fromUtf8_utf8 (s : String) : fromUtf8 (utf8 s) = some s := by
  simp [fromUtf8, utf8, String.fromUTF8?, s.isValidUTF8, String.fromUTF8]

namespace Protocol

/-- `file::protocol::Error`. A `FromUtf8Error` is known by the bytes it holds. -/
inductive Error
  | io (e : IoError)
  | stringFormatError (bytes : List UInt8)
  | invalidFileSize (expected received : ℕ)
  | invalidHash (computed expected : BitVec 128)
  deriving DecidableEq, Repr

end Protocol

/-- The error of `read_exact` at the end of a stream. -/
def unexpectedEof : IoError :=
  ⟨"failed to fill whole buffer"⟩

/-- `read_exact` on a buffer of `n` bytes, the error converted by `?`. -/
def readExact (r : Reader UInt8 IoError) (n : ℕ) :
    Outcome Protocol.Error (List UInt8 × Reader UInt8 IoError) :=
  match r.readExact n unexpectedEof with
  | .ok res => .ok res
  | .error e => .error (.error (.io e))

/-- `file::protocol::Header`. -/
structure Header where
  fileName : String
  mode : UInt32
  fileLength : UInt64
  deriving DecidableEq, Repr

/-- `file::protocol::Footer`. -/
structure Footer where
  hash : BitVec 128
  deriving DecidableEq, Repr

namespace Header

/-- The bytes that `Header::serialize_to` writes. -/
def serialize (h : Header) : List UInt8 :=
  LittleEndian.encode 8 h.fileName.utf8ByteSize ++ utf8 h.fileName ++
    LittleEndian.encode 4 h.mode.toNat ++ LittleEndian.encode 8 h.fileLength.toNat

/-- `Header::deserialize_from`. The buffer for the name is allocated with the length that was
read, and `alloc` tells which lengths the allocator has memory for. Above `isize::MAX` the
allocation panics, and without memory it aborts the process; both are written as a panic. -/
def deserializeFrom (alloc : ℕ → Bool) (r : Reader UInt8 IoError) :
    Outcome Protocol.Error (Header × Reader UInt8 IoError) := do
  let (fileNameLen, r) ← readExact r 8
  let fileNameLen := LittleEndian.decode fileNameLen
  if 2 ^ 63 ≤ fileNameLen ∨ alloc fileNameLen = false then throw .panic
  let (fileName, r) ← readExact r fileNameLen
  let some fileName' := fromUtf8 fileName
    | throw (.error (.stringFormatError fileName))
  let (mode, r) ← readExact r 4
  let mode := UInt32.ofNat (LittleEndian.decode mode)
  let (fileLength, r) ← readExact r 8
  let fileLength := UInt64.ofNat (LittleEndian.decode fileLength)
  return (⟨fileName', mode, fileLength⟩, r)

end Header

namespace Footer

/-- The bytes that `Footer::serialize_to` writes. -/
def serialize (f : Footer) : List UInt8 :=
  LittleEndian.encode 16 f.hash.toNat

/-- `Footer::deserialize_from`. -/
def deserializeFrom (r : Reader UInt8 IoError) :
    Outcome Protocol.Error (Footer × Reader UInt8 IoError) := do
  let (hash, r) ← readExact r 16
  return (⟨BitVec.ofNat 128 (LittleEndian.decode hash)⟩, r)

/-- A footer has 16 bytes. -/
@[simp]
lemma length_serialize (f : Footer) : f.serialize.length = 16 :=
  LittleEndian.length_encode ..

end Footer

section RoundTrip

variable {alloc : ℕ → Bool} {r : Reader UInt8 IoError} {bs rest : List UInt8} {n : ℕ}

/-- Reading the part that a stream starts with. -/
lemma readExact_append (hr : r.bytes = bs ++ rest) (hn : bs.length = n) :
    ∃ r', readExact r n = .ok (bs, r') ∧ r'.bytes = rest ∧ r'.failure = r.failure := by
  obtain ⟨r', heq, hb, hf⟩ := Reader.readExact_append hr hn unexpectedEof
  exact ⟨r', by rw [readExact, heq], hb, hf⟩

/-- Reading a number back. -/
lemma readExact_encode {m : ℕ} (hr : r.bytes = LittleEndian.encode n m ++ rest) :
    ∃ r', readExact r n = .ok (LittleEndian.encode n m, r') ∧ r'.bytes = rest ∧
      r'.failure = r.failure :=
  readExact_append hr (by simp)

/-- **The header is read back**, if there is memory for the name. The bound on the name is that of
every `String` of the source: its length is at most `isize::MAX`. -/
theorem Header.deserializeFrom_serialize {h : Header} (hlen : h.fileName.utf8ByteSize < 2 ^ 63)
    (halloc : alloc h.fileName.utf8ByteSize = true) (hr : r.bytes = h.serialize ++ rest) :
    ∃ r', Header.deserializeFrom alloc r = .ok (h, r') ∧ r'.bytes = rest ∧
      r'.failure = r.failure := by
  simp only [Header.serialize, List.append_assoc] at hr
  obtain ⟨r₁, h₁, hr₁, hf₁⟩ := readExact_encode hr
  obtain ⟨r₂, h₂, hr₂, hf₂⟩ := readExact_append hr₁ (length_utf8 _)
  obtain ⟨r₃, h₃, hr₃, hf₃⟩ := readExact_encode hr₂
  obtain ⟨r₄, h₄, hr₄, hf₄⟩ := readExact_encode hr₃
  have hname : LittleEndian.decode (LittleEndian.encode 8 h.fileName.utf8ByteSize) =
      h.fileName.utf8ByteSize := LittleEndian.decode_encode_of_lt (by omega)
  have hmode : LittleEndian.decode (LittleEndian.encode 4 h.mode.toNat) = h.mode.toNat :=
    LittleEndian.decode_encode_of_lt h.mode.toNat_lt
  have hfile : LittleEndian.decode (LittleEndian.encode 8 h.fileLength.toNat) =
      h.fileLength.toNat := LittleEndian.decode_encode_of_lt h.fileLength.toNat_lt
  refine ⟨r₄, ?_, hr₄, by rw [hf₄, hf₃, hf₂, hf₁]⟩
  unfold Header.deserializeFrom
  simp only [h₁, h₂, h₃, h₄, hname, hmode, hfile, fromUtf8_utf8, Nat.not_le.mpr hlen, halloc,
    UInt32.ofNat_toNat, UInt64.ofNat_toNat, bind, Except.bind, Bool.true_eq_false, or_self,
    if_false]
  rfl

/-- **The footer is read back.** -/
theorem Footer.deserializeFrom_serialize {f : Footer} (hr : r.bytes = f.serialize ++ rest) :
    ∃ r', Footer.deserializeFrom r = .ok (f, r') ∧ r'.bytes = rest ∧ r'.failure = r.failure := by
  obtain ⟨r', h, hb, hf⟩ := readExact_encode hr
  have hhash : LittleEndian.decode (LittleEndian.encode 16 f.hash.toNat) = f.hash.toNat :=
    LittleEndian.decode_encode_of_lt f.hash.isLt
  refine ⟨r', ?_, hb, hf⟩
  unfold Footer.deserializeFrom
  simp only [h, hhash, BitVec.ofNat_toNat, BitVec.setWidth_eq, bind, Except.bind]
  rfl

end RoundTrip

section Inversion

variable {alloc : ℕ → Bool} {r r' : Reader UInt8 IoError} {bs : List UInt8} {n : ℕ}
  {header : Header}

/-- Only the bytes of a `String` are read as that `String`. -/
lemma utf8_of_fromUtf8 {name : String} (h : fromUtf8 bs = some name) : utf8 name = bs := by
  unfold fromUtf8 String.fromUTF8? at h
  split at h
  · rw [Option.some.injEq] at h
    rw [← h]
    rfl
  · cases h

/-- Reading more than there is. -/
lemma readExact_of_lt (h : r.bytes.length < n) :
    readExact r n = .error (.error (.io (r.failure.getD unexpectedEof))) := by
  rw [readExact, Reader.readExact_of_lt h]

/-- What `read_exact` can do: take the bytes that are asked for, or fail since there are fewer. -/
lemma readExact_cases (r : Reader UInt8 IoError) (n : ℕ) :
    (∃ bs r', readExact r n = .ok (bs, r') ∧ r.bytes = bs ++ r'.bytes ∧ bs.length = n ∧
      r'.failure = r.failure) ∨
    readExact r n = .error (.error (.io (r.failure.getD unexpectedEof))) ∧
      r.bytes.length < n := by
  rcases le_or_gt n r.bytes.length with hle | hlt
  · have htake : (r.bytes.take n).length = n := List.length_take_of_le hle
    obtain ⟨r', hread, hb, hf⟩ := readExact_append (List.take_append_drop n r.bytes).symm htake
    exact .inl ⟨r.bytes.take n, r', hread, by rw [hb, List.take_append_drop], htake, hf⟩
  · exact .inr ⟨readExact_of_lt hlt, hlt⟩

/-- The length of the name in the header exceeds `isize::MAX`, or there is no memory for it. -/
def LargeName (alloc : ℕ → Bool) (bytes : List UInt8) : Prop :=
  8 ≤ bytes.length ∧ (2 ^ 63 ≤ LittleEndian.decode (bytes.take 8) ∨
    alloc (LittleEndian.decode (bytes.take 8)) = false)

/-- What reading a header can do. -/
inductive HeaderResult (alloc : ℕ → Bool) (r : Reader UInt8 IoError) :
    Outcome Protocol.Error (Header × Reader UInt8 IoError) → Prop
  | io {e : IoError} (hname : ¬ LargeName alloc r.bytes) :
      HeaderResult alloc r (.error (.error (.io e)))
  | panic (hname : LargeName alloc r.bytes) : HeaderResult alloc r (.error .panic)
  | stringFormatError {name : List UInt8} (hname : ¬ LargeName alloc r.bytes) :
      HeaderResult alloc r (.error (.error (.stringFormatError name)))
  | header {header : Header} {r' : Reader UInt8 IoError}
      (hb : r.bytes = header.serialize ++ r'.bytes) (hlt : header.fileName.utf8ByteSize < 2 ^ 63)
      (halloc : alloc header.fileName.utf8ByteSize = true) (hf : r'.failure = r.failure)
      (hname : ¬ LargeName alloc r.bytes) : HeaderResult alloc r (.ok (header, r'))

/-- **Reading a header does one of these.** -/
theorem headerResult (alloc : ℕ → Bool) (r : Reader UInt8 IoError) :
    HeaderResult alloc r (Header.deserializeFrom alloc r) := by
  unfold Header.deserializeFrom
  rcases readExact_cases r 8 with ⟨nameLen, r₁, h₁, hb₁, hlen₁, hf₁⟩ | ⟨h₁, hlt⟩
  swap
  · rw [h₁, Outcome.error_bind]
    exact .io fun hname => by
      have hle := hname.1
      omega
  rw [h₁, Outcome.ok_bind]
  have hlarge : LargeName alloc r.bytes ↔
      (2 ^ 63 ≤ LittleEndian.decode nameLen ∨ alloc (LittleEndian.decode nameLen) = false) := by
    rw [LargeName, hb₁, List.take_left' hlen₁, List.length_append, hlen₁]
    exact and_iff_right (Nat.le_add_right _ _)
  dsimp only
  by_cases hname : 2 ^ 63 ≤ LittleEndian.decode nameLen ∨
      alloc (LittleEndian.decode nameLen) = false
  · rw [if_pos hname]
    exact .panic (hlarge.mpr hname)
  rw [if_neg hname]
  have hsmall : ¬ LargeName alloc r.bytes := mt hlarge.mp hname
  rcases readExact_cases r₁ (LittleEndian.decode nameLen) with
    ⟨name, r₂, h₂, hb₂, hlen₂, hf₂⟩ | ⟨h₂, -⟩
  swap
  · rw [h₂]
    exact .io hsmall
  rw [h₂, Outcome.ok_bind]
  dsimp only
  cases hutf8 : fromUtf8 name with
  | none => exact .stringFormatError hsmall
  | some fileName =>
    dsimp only
    rcases readExact_cases r₂ 4 with ⟨mode, r₃, h₃, hb₃, hlen₃, hf₃⟩ | ⟨h₃, -⟩
    swap
    · rw [h₃]
      exact .io hsmall
    rw [h₃, Outcome.ok_bind]
    dsimp only
    rcases readExact_cases r₃ 8 with ⟨fileLength, r₄, h₄, hb₄, hlen₄, hf₄⟩ | ⟨h₄, -⟩
    swap
    · rw [h₄]
      exact .io hsmall
    rw [h₄, Outcome.ok_bind]
    have hsize : fileName.utf8ByteSize = LittleEndian.decode nameLen := by
      rw [← length_utf8, utf8_of_fromUtf8 hutf8, hlen₂]
    obtain ⟨hlt, halloc⟩ := not_or.mp hname
    refine .header ?_ ?_ ?_ ?_ hsmall
    · rw [hb₁, hb₂, hb₃, hb₄, Header.serialize, hsize, utf8_of_fromUtf8 hutf8,
        LittleEndian.encode_decode_of_length hlen₁, LittleEndian.toNat_ofNat_decode hlen₃,
        LittleEndian.encode_decode_of_length hlen₃, LittleEndian.toNat_ofNat_decode_eight hlen₄,
        LittleEndian.encode_decode_of_length hlen₄]
      simp only [List.append_assoc]
    · rw [hsize]
      exact not_le.mp hlt
    · rw [hsize]
      exact (Bool.not_eq_false _).mp halloc
    · rw [hf₄, hf₃, hf₂, hf₁]

/-- **A header that is read was written**, and there is memory for its name. -/
theorem Header.serialize_of_deserializeFrom
    (h : Header.deserializeFrom alloc r = .ok (header, r')) :
    r.bytes = header.serialize ++ r'.bytes ∧ header.fileName.utf8ByteSize < 2 ^ 63 ∧
      alloc header.fileName.utf8ByteSize = true ∧ r'.failure = r.failure := by
  have hres := headerResult alloc r
  rw [h] at hres
  cases hres with
  | header hb hlt halloc hf hname => exact ⟨hb, hlt, halloc, hf⟩

/-- Sixteen bytes are a footer. -/
def Footer.ofBytes (bytes : List UInt8) : Footer :=
  ⟨BitVec.ofNat 128 (LittleEndian.decode bytes)⟩

/-- Every 16 bytes are a footer. -/
lemma Footer.serialize_ofBytes (h : bs.length = 16) : (Footer.ofBytes bs).serialize = bs := by
  have hlt := LittleEndian.decode_lt bs
  rw [h] at hlt
  have hnat : (BitVec.ofNat 128 (LittleEndian.decode bs)).toNat = LittleEndian.decode bs := by
    rw [BitVec.toNat_ofNat]
    exact Nat.mod_eq_of_lt (hlt.trans_eq (by rfl))
  rw [Footer.serialize, Footer.ofBytes, hnat, LittleEndian.encode_decode_of_length h]

/-- The footer that 16 bytes are. -/
lemma Footer.ofBytes_serialize (footer : Footer) : Footer.ofBytes footer.serialize = footer := by
  have hlt : footer.hash.toNat < 256 ^ 16 := footer.hash.isLt.trans_eq (by rfl)
  rw [Footer.ofBytes, Footer.serialize, LittleEndian.decode_encode_of_lt hlt]
  simp

/-- A footer is read if the stream is long enough. -/
lemma Footer.deserializeFrom_eq (h : 16 ≤ r.bytes.length) :
    ∃ r', Footer.deserializeFrom r = .ok (Footer.ofBytes (r.bytes.take 16), r') := by
  obtain ⟨r', hread, -⟩ := readExact_append (List.take_append_drop 16 r.bytes).symm
    (List.length_take_of_le h)
  exact ⟨r', by rw [Footer.deserializeFrom, hread]; rfl⟩

/-- It is missing otherwise. -/
lemma Footer.deserializeFrom_of_lt (h : r.bytes.length < 16) :
    Footer.deserializeFrom r = .error (.error (.io (r.failure.getD unexpectedEof))) := by
  rw [Footer.deserializeFrom, readExact_of_lt h]
  rfl

end Inversion

section Same

variable {r s : Reader UInt8 IoError}

/-- What a reader returns does not depend on the chunks. -/
def SameResult {α : Type} (x y : Outcome Protocol.Error (α × Reader UInt8 IoError)) : Prop :=
  (∃ a r s, x = .ok (a, r) ∧ y = .ok (a, s) ∧ Reader.Same r s) ∨ ∃ e, x = .error e ∧ y = .error e

/-- Reading exactly does not depend on how the bytes arrive. -/
lemma readExact_same (h : Reader.Same r s) (n : ℕ) :
    SameResult (readExact r n) (readExact s n) := by
  unfold readExact
  rcases h.readExact n unexpectedEof with ⟨bs, r', s', hr, hs, hsame⟩ | ⟨e, hr, hs⟩
  · rw [hr, hs]
    exact .inl ⟨bs, r', s', rfl, rfl, hsame⟩
  · rw [hr, hs]
    exact .inr ⟨_, rfl, rfl⟩

/-- One reader after the other. -/
lemma SameResult.bind {α β : Type} {x y : Outcome Protocol.Error (α × Reader UInt8 IoError)}
    {f g : α × Reader UInt8 IoError → Outcome Protocol.Error (β × Reader UInt8 IoError)}
    (h : SameResult x y)
    (hfg : ∀ a r s, Reader.Same r s → SameResult (f (a, r)) (g (a, s))) :
    SameResult (x >>= f) (y >>= g) := by
  rcases h with ⟨a, r, s, rfl, rfl, hsame⟩ | ⟨e, rfl, rfl⟩
  · exact hfg a r s hsame
  · exact .inr ⟨e, rfl, rfl⟩

/-- **Reading a header does not depend on the chunks.** -/
theorem Header.deserializeFrom_same (alloc : ℕ → Bool) (h : Reader.Same r s) :
    SameResult (Header.deserializeFrom alloc r) (Header.deserializeFrom alloc s) := by
  unfold Header.deserializeFrom
  refine (readExact_same h 8).bind fun nameLen r₁ s₁ h₁ => ?_
  dsimp only
  split
  · exact .inr ⟨_, rfl, rfl⟩
  refine (readExact_same h₁ _).bind fun name r₂ s₂ h₂ => ?_
  dsimp only
  split
  · refine (readExact_same h₂ 4).bind fun mode r₃ s₃ h₃ => ?_
    refine (readExact_same h₃ 8).bind fun fileLength r₄ s₄ h₄ => ?_
    exact .inl ⟨_, r₄, s₄, rfl, rfl, h₄⟩
  · exact .inr ⟨_, rfl, rfl⟩

end Same

section Faults

variable {alloc : ℕ → Bool} {r : Reader UInt8 IoError}

/-- Reading a header fails with an error of the stream or of the name. -/
lemma Header.deserializeFrom_ne_error {e : Fault Protocol.Error} (hpanic : e ≠ .panic)
    (hio : ∀ i, e ≠ .error (.io i)) (hname : ∀ bytes, e ≠ .error (.stringFormatError bytes)) :
    Header.deserializeFrom alloc r ≠ .error e := by
  have hres := headerResult alloc r
  intro h
  rw [h] at hres
  cases hres with
  | io hsmall => exact hio _ rfl
  | panic hlarge => exact hpanic rfl
  | stringFormatError hsmall => exact hname _ rfl

/-- **Reading a header panics** exactly if the name is too long to be allocated. -/
theorem Header.deserializeFrom_eq_panic_iff :
    Header.deserializeFrom alloc r = .error .panic ↔ LargeName alloc r.bytes := by
  have hres := headerResult alloc r
  generalize Header.deserializeFrom alloc r = res at hres
  cases hres with
  | io hsmall => exact iff_of_false (by simp) hsmall
  | panic hlarge => exact iff_of_true rfl hlarge
  | stringFormatError hsmall => exact iff_of_false (by simp) hsmall
  | header hb hlt halloc hf hsmall => exact iff_of_false (by simp) hsmall

end Faults

end Lidi.File
