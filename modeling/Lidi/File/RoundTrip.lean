import Lidi.File.Receive

set_option relaxedAutoImplicit false
set_option autoImplicit false

/-!
# The transfer of a file

The bytes that the sender of a file writes are what its receiver reads. The two buffers need not
have the same size, and the reads may return any part of what is asked for.

## Main definitions

* `File.Sendable` — a file that can be sent, and a directory without a file of its name.

## Main results

* `File.file_round_trip` — the file is received as it was sent, if hashing is off at the receiver
  or the buffers have the same size.
* `File.hash_agrees_iff` — with hashing on, every hasher accepts the file exactly if the buffers
  have the same size or none of them is ever full.
-/

namespace Lidi.File

/-- A file that can be read to its end and does not change meanwhile, and a directory where no
file has its name. The length of a `String` of the source is at most `isize::MAX`. -/
structure Sendable (files : String → Option (Except IoError OpenFile)) (filePath name : String)
    (file : OpenFile) (outputDir : String) (stored : Files) : Prop where
  opened : files filePath = some (.ok file)
  named : Path.fileName filePath = some name
  length_lt : name.utf8ByteSize < 2 ^ 63
  unchanged : file.len.toNat = file.content.bytes.length
  readable : file.content.failure = none
  fresh : stored (Path.join outputDir name) = none

section RoundTrip

variable {digest : List UInt8 → BitVec 128} {system : System} {sender receiver : Config}
  {files : String → Option (Except IoError OpenFile)} {filePath name outputDir : String}
  {file : OpenFile} {stored : Files} {diode : Reader UInt8 IoError}

/-- Receiving what was sent: the content is stored, and the footer of the sender is checked
against the hash of the receiver. -/
lemma receiveFile_sent (h : Sendable files filePath name file outputDir stored)
    (hgrants : system.Grants outputDir name) (hs : 0 < sender.bufferSize)
    (hr : 0 < receiver.bufferSize)
    (hdiode : diode.bytes = (sendFileAux digest sender files filePath).2) :
    receiveFile digest system receiver diode outputDir stored =
      (checkHash digest file.content.bytes.length (footerOf digest sender file.content.bytes)
        ((newHasher receiver.hash).map
          (·.write (fed receiver.bufferSize.toNat file.content.bytes))),
        Function.update stored (Path.join outputDir name)
          (some ⟨file.content.bytes, file.mode⟩)) := by
  rw [sendFileAux_eq h.opened h.named hs h.readable] at hdiode
  have hname : Path.fileName name = some name :=
    Path.fileName_of_singleComponent (Path.singleComponent_of_fileName h.named)
  have hdiode' : diode.bytes = Header.serialize ⟨name, file.mode, file.len⟩ ++
      (file.content.bytes ++ ((footerOf digest sender file.content.bytes).serialize ++ [])) := by
    rw [hdiode, List.append_nil]
  exact receiveFile_eq ⟨name, file.mode, file.len⟩ h.length_lt hgrants hname h.fresh hr
    h.unchanged.symm hdiode'

/-- **The round trip of a file.** The sender returns the length of the file. If hashing is off at
the receiver, or on at both ends with buffers of one size, and the system of the receiver grants
the name, then the receiver returns the same length, and the file it has created has the content
and the mode of the file that was sent.

**Proof sketch.** Both loops do with the content what `fed` says, whatever their reads return, so
that the two hashes are the same when the buffers have the same size. -/
theorem file_round_trip (h : Sendable files filePath name file outputDir stored)
    (hgrants : system.Grants outputDir name) (hs : 0 < sender.bufferSize)
    (hr : 0 < receiver.bufferSize)
    (hhash : receiver.hash = false ∨
      sender.hash = true ∧ receiver.hash = true ∧ sender.bufferSize = receiver.bufferSize)
    (hdiode : diode.bytes = (sendFileAux digest sender files filePath).2) :
    (sendFileAux digest sender files filePath).1 = .ok file.content.bytes.length ∧
      receiveFile digest system receiver diode outputDir stored =
        (.ok file.content.bytes.length,
          Function.update stored (Path.join outputDir name)
            (some ⟨file.content.bytes, file.mode⟩)) := by
  refine ⟨by rw [sendFileAux_eq h.opened h.named hs h.readable], ?_⟩
  rw [receiveFile_sent h hgrants hs hr hdiode]
  refine Prod.ext (checkHash_eq_ok_iff.mpr ⟨rfl, fun hon => ?_⟩) rfl
  rcases hhash with hoff | ⟨hson, -, hsize⟩
  · rw [hoff] at hon
    cases hon
  · simp [footerOf, hson, hsize]

/-- A transfer of three bytes that are read one and two at a time, hashed at both ends. -/
theorem file_round_trip_abc :
    let files (_ : String) : Option (Except IoError OpenFile) :=
      some (.ok ⟨⟨[[97], [98, 99]], none, by simp⟩, 0o644, 3⟩)
    let digest (bytes : List UInt8) : BitVec 128 := BitVec.ofNat 128 (LittleEndian.decode bytes)
    (sendFileAux digest ⟨2, true⟩ files "dir/abc").1 = .ok 3 ∧
      receiveFile digest .generous ⟨2, true⟩
        (.whole (sendFileAux digest ⟨2, true⟩ files "dir/abc").2) "out" (fun _ => none) =
        (.ok 3, Function.update (fun _ => none) "out/abc" (some ⟨[97, 98, 99], 0o644⟩)) := by
  intro files digest
  have h : Sendable files "dir/abc" "abc" ⟨⟨[[97], [98, 99]], none, by simp⟩, 0o644, 3⟩ "out"
      fun _ => none :=
    ⟨rfl, by decide +kernel, by decide, rfl, rfl, rfl⟩
  exact file_round_trip h (System.generous_grants "out" "abc") (by decide) (by decide)
    (.inr ⟨rfl, rfl, rfl⟩) (by simp)

end RoundTrip

section Hash

/-- Feeding a hasher adds the length of a buffer for each full one. -/
lemma length_fed {n : ℕ} (hn : 0 < n) (content : List UInt8) :
    (fed n content).length = content.length + 8 * (content.length / n) := by
  fun_induction fed n content with
  | case1 content hfull ih =>
    have hdiv : content.length / n = (content.length - n) / n + 1 := by
      rw [← Nat.add_div_right _ hn, Nat.sub_add_cancel hfull.2]
    simp only [List.length_append, LittleEndian.length_encode, List.length_take, ih,
      List.length_drop, hdiv]
    omega
  | case2 content hpart =>
    rw [Nat.div_eq_of_lt (by omega)]
    simp

/-- **When the hashers get the same bytes.** Two sizes of buffers lead to the same bytes exactly
if they are equal or no buffer is ever full.

**Proof sketch.** If a buffer is full then, by the lengths, both sides fill the same number of
buffers, at least one, and the first eight bytes are the sizes. -/
lemma fed_eq_iff {n m : ℕ} (hn : 0 < n) (hm : 0 < m) (hn' : n < 2 ^ 64) (hm' : m < 2 ^ 64)
    (content : List UInt8) :
    fed n content = fed m content ↔ n = m ∨ content.length < min n m := by
  constructor
  · intro h
    by_contra hne
    rw [not_or, not_lt, min_le_iff] at hne
    obtain ⟨hnm, hfull⟩ := hne
    have hdiv : content.length / n = content.length / m := by
      have hlen := congrArg List.length h
      rw [length_fed hn, length_fed hm] at hlen
      omega
    have hboth : n ≤ content.length ∧ m ≤ content.length := by
      rcases hfull with hfull | hfull
      · have hpos := Nat.div_pos hfull hn
        exact ⟨hfull, (Nat.div_pos_iff.mp (hdiv ▸ hpos)).2⟩
      · have hpos := Nat.div_pos hfull hm
        exact ⟨(Nat.div_pos_iff.mp (hdiv ▸ hpos)).2, hfull⟩
    rw [fed.eq_1 n, if_pos ⟨hn, hboth.1⟩, fed.eq_1 m, if_pos ⟨hm, hboth.2⟩] at h
    have hsize : LittleEndian.encode 8 n = LittleEndian.encode 8 m := by
      have htake := congrArg (List.take 8) h
      simpa [List.take_append] using htake
    have hdecode := congrArg LittleEndian.decode hsize
    rw [LittleEndian.decode_encode_of_lt (by omega),
      LittleEndian.decode_encode_of_lt (by omega)] at hdecode
    exact hnm hdecode
  · rintro (rfl | hlt)
    · rfl
    · rw [fed_of_lt (by omega), fed_of_lt (by omega)]

variable {system : System} {sender receiver : Config}
  {files : String → Option (Except IoError OpenFile)} {filePath name outputDir : String}
  {file : OpenFile} {stored : Files}

/-- **When the hash does not depend on the buffers.** With hashing on at both ends, the receiver
accepts the file, for every hasher and whatever the reads return, exactly if the two buffers have
the same size or the file is shorter than both. -/
theorem hash_agrees_iff (h : Sendable files filePath name file outputDir stored)
    (hgrants : system.Grants outputDir name) (hs : 0 < sender.bufferSize)
    (hr : 0 < receiver.bufferSize)
    (hsh : sender.hash = true) (hrh : receiver.hash = true) :
    (∀ (digest : List UInt8 → BitVec 128) (diode : Reader UInt8 IoError),
      diode.bytes = (sendFileAux digest sender files filePath).2 →
      (receiveFile digest system receiver diode outputDir stored).1 =
        .ok file.content.bytes.length) ↔
    sender.bufferSize = receiver.bufferSize ∨
      file.content.bytes.length < min sender.bufferSize.toNat receiver.bufferSize.toNat := by
  have hs' : 0 < sender.bufferSize.toNat := hs
  have hr' : 0 < receiver.bufferSize.toNat := hr
  have hfed := fed_eq_iff hs' hr' sender.bufferSize.toNat_lt receiver.bufferSize.toNat_lt
    file.content.bytes
  rw [← UInt64.toNat_inj, ← hfed]
  constructor
  · intro hall
    -- a hasher that tells the bytes of the sender from all others
    let digest : List UInt8 → BitVec 128 := fun bytes =>
      if bytes = fed sender.bufferSize.toNat file.content.bytes then 1 else 0
    have hok := hall digest (Reader.whole (sendFileAux digest sender files filePath).2) (by simp)
    rw [receiveFile_sent h hgrants hs hr (by simp)] at hok
    have heq := (checkHash_eq_ok_iff.mp hok).2 hrh
    by_contra hne
    simp [footerOf, hsh, digest, Ne.symm hne] at heq
  · intro heq digest diode hdiode
    rw [receiveFile_sent h hgrants hs hr hdiode]
    refine checkHash_eq_ok_iff.mpr ⟨rfl, fun _ => ?_⟩
    simp [footerOf, hsh, heq]

/-- A file of one byte, with buffers of two and three bytes. -/
theorem hash_agrees_iff_short :
    let files (_ : String) : Option (Except IoError OpenFile) :=
      some (.ok ⟨⟨[[97]], none, by simp⟩, 0o644, 1⟩)
    (∀ (digest : List UInt8 → BitVec 128) (diode : Reader UInt8 IoError),
      diode.bytes = (sendFileAux digest ⟨2, true⟩ files "a").2 →
      (receiveFile digest .generous ⟨3, true⟩ diode "out" fun _ => none).1 = .ok 1) ↔
    (2 : UInt64) = 3 ∨ 1 < min 2 3 := by
  intro files
  have h : Sendable files "a" "a" ⟨⟨[[97]], none, by simp⟩, 0o644, 1⟩ "out" fun _ => none :=
    ⟨rfl, by decide +kernel, by decide, rfl, rfl, rfl⟩
  have hs : 0 < (⟨2, true⟩ : Config).bufferSize := by decide
  have hr : 0 < (⟨3, true⟩ : Config).bufferSize := by decide
  exact hash_agrees_iff h (System.generous_grants "out" "a") hs hr rfl rfl

/-- **The hash depends on the buffers.** A file of one byte, sent with a buffer of one byte and
received with a buffer of two, is rejected by a hasher that tells `[1, 0, 0, 0, 0, 0, 0, 0, 97]`
from `[97]`. -/
theorem hash_depends_on_buffers :
    ¬ ∀ (digest : List UInt8 → BitVec 128) (system : System) (sender receiver : Config)
      (files : String → Option (Except IoError OpenFile)) (filePath name outputDir : String)
      (file : OpenFile) (stored : Files) (diode : Reader UInt8 IoError),
      Sendable files filePath name file outputDir stored → system.Grants outputDir name →
      0 < sender.bufferSize → 0 < receiver.bufferSize →
      sender.hash = true → receiver.hash = true →
      diode.bytes = (sendFileAux digest sender files filePath).2 → diode.failure = none →
      (receiveFile digest system receiver diode outputDir stored).1 =
        .ok file.content.bytes.length := by
  intro hall
  have h := hall (fun bytes => BitVec.ofNat 128 (LittleEndian.decode bytes)) .generous ⟨1, true⟩
    ⟨2, true⟩ (fun _ => some (.ok ⟨⟨[[97]], none, by simp⟩, 0o644, 1⟩)) "a" "a" "out"
    ⟨⟨[[97]], none, by simp⟩, 0o644, 1⟩ (fun _ => none) (.whole _)
    ⟨rfl, by decide +kernel, by decide, rfl, rfl, rfl⟩ (System.generous_grants "out" "a")
    (by decide) (by decide) rfl rfl (Reader.bytes_whole _) rfl
  revert h
  decide +kernel

end Hash

end Lidi.File
