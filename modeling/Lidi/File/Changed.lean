import Lidi.File.Accept

set_option relaxedAutoImplicit false
set_option autoImplicit false

/-!
# A file that changes while it is sent

The length in the header is that of the metadata, which are read before the content. Meanwhile the
file may grow or shrink, or a read of it may fail: then no footer is sent, and what is in the buffer
is lost. The receiver stores as many bytes as the header says, and takes the next ones for the
footer.

## Main definitions

* `File.bodyOf` — what is sent after the header.

## Main results

* `File.sendLoop_fails` — what is sent of a file that cannot be read to its end.
* `File.changed_file` — what the receiver makes of any file.
-/

namespace Lidi.File

variable {digest : List UInt8 → BitVec 128} {system : System} {config sender receiver : Config}
  {files : String → Option (Except IoError OpenFile)} {filePath name outputDir : String}
  {file : OpenFile} {stored : Files} {diode : Reader UInt8 IoError}

/-- What is sent of the content if a read fails at its end: the full buffers. -/
def fullBuffers (n : ℕ) (content : List UInt8) : List UInt8 :=
  content.take (n * (content.length / n))

/-- Less than a buffer fills none. -/
lemma fullBuffers_of_lt {n : ℕ} {content : List UInt8} (h : content.length < n) :
    fullBuffers n content = [] := by
  rw [fullBuffers, Nat.div_eq_of_lt h, Nat.mul_zero, List.take_zero]

/-- A first full buffer counts. -/
lemma fullBuffers_append {n : ℕ} {chunk rest : List UInt8} (hn : 0 < n) (h : chunk.length = n) :
    fullBuffers n (chunk ++ rest) = chunk ++ fullBuffers n rest := by
  have hdiv : (chunk ++ rest).length / n = rest.length / n + 1 := by
    rw [List.length_append, h, Nat.add_comm n, Nat.add_div_right _ hn]
  rw [fullBuffers, hdiv, Nat.mul_succ, Nat.add_comm _ n, List.take_append, h,
    Nat.add_sub_cancel_left, List.take_of_length_le (by omega), fullBuffers]

/-- **A file that cannot be read to its end.** The full buffers are written, and the error is
returned.

**Proof sketch.** Induction along the loop. A read fails at the end of what can be read, where the
buffer is not full. -/
lemma sendLoop_fails (digest : List UInt8 → BitVec 128) (buffer : List UInt8)
    (hbuf : buffer.length < config.bufferSize.toNat) (total : ℕ) (hasher : Option Hasher)
    (file : Reader UInt8 IoError) {e : IoError} (hf : file.failure = some e) :
    sendLoop digest config buffer total hasher file =
      (.error (.error (.io e)), fullBuffers config.bufferSize.toNat (buffer ++ file.bytes)) := by
  fun_induction sendLoop digest config buffer total hasher file with
  | case1 buffer total hasher file e' hread =>
    obtain ⟨hb, hf'⟩ := Reader.failure_of_read_error hread
    obtain rfl : e' = e := Option.some.inj (hf'.symm.trans hf)
    rw [hb, List.append_nil, fullBuffers_of_lt hbuf]
  | case2 buffer total hasher file file' total' hasher' footer hread =>
    obtain ⟨-, hf'⟩ := Reader.eof_of_read_nil (by omega) hread
    rw [hf'] at hf
    cases hf
  | case3 buffer total hasher file read file' hread hend hshort ih =>
    obtain ⟨hb, -, hf'⟩ := Reader.bytes_of_read hread
    rw [hb, ← List.append_assoc]
    exact ih (by simpa using hshort) (hf'.trans hf)
  | case4 buffer total hasher file read file' hread hend hfull buffer' rest ih =>
    obtain ⟨hb, hlen, hf'⟩ := Reader.bytes_of_read hread
    have hfull' : (buffer ++ read).length = config.bufferSize.toNat := by
      rw [List.length_append]
      omega
    have hpos : 0 < config.bufferSize.toNat := by omega
    have hrest := ih (by simpa using hpos) (hf'.trans hf)
    rw [List.nil_append] at hrest
    simp only [rest, hrest, buffer', hb]
    rw [← List.append_assoc buffer, fullBuffers_append hpos hfull']

/-- What is sent after the header: the content and the footer, or if a read fails the full buffers
before that. -/
def bodyOf (digest : List UInt8 → BitVec 128) (config : Config)
    (content : Reader UInt8 IoError) : List UInt8 :=
  match content.failure with
  | none => content.bytes ++ (footerOf digest config content.bytes).serialize
  | some _ => fullBuffers config.bufferSize.toNat content.bytes

/-- **What is sent** of any file that can be opened. -/
lemma sendFileAux_sent (digest : List UInt8 → BitVec 128)
    (hfile : files filePath = some (.ok file)) (hname : Path.fileName filePath = some name)
    (hsize : 0 < config.bufferSize) :
    (sendFileAux digest config files filePath).2 =
      Header.serialize ⟨name, file.mode, file.len⟩ ++ bodyOf digest config file.content := by
  unfold bodyOf
  cases hf : file.content.failure with
  | none => rw [sendFileAux_eq hfile hname hsize hf]
  | some e =>
    have hpos : ([] : List UInt8).length < config.bufferSize.toNat := hsize
    have hloop := sendLoop_fails digest [] hpos 0 (newHasher config.hash) file.content hf
    unfold sendFileAux
    simp only [hfile, hname]
    rw [hloop]
    rfl

/-- There is a footer only after the whole content. -/
lemma length_bodyOf_le (digest : List UInt8 → BitVec 128) (config : Config)
    (content : Reader UInt8 IoError) :
    (bodyOf digest config content).length ≤ content.bytes.length + 16 ∧
      (content.failure ≠ none →
        (bodyOf digest config content).length ≤ content.bytes.length) := by
  unfold bodyOf
  cases hf : content.failure with
  | none => simp
  | some e =>
    have hle := List.length_take_le (config.bufferSize.toNat *
      (content.bytes.length / config.bufferSize.toNat)) content.bytes
    have htake := List.length_take_le' (config.bufferSize.toNat *
      (content.bytes.length / config.bufferSize.toNat)) content.bytes
    simp only [fullBuffers]
    omega

/-- What comes before the footer is content. -/
lemma take_bodyOf {n : ℕ} (h : n + 16 ≤ (bodyOf digest config file.content).length) :
    (bodyOf digest config file.content).take n = file.content.bytes.take n := by
  obtain ⟨hle, -⟩ := length_bodyOf_le digest config file.content
  revert h hle
  unfold bodyOf
  cases file.content.failure with
  | none =>
    intro h hle
    exact List.take_append_of_le_length (by omega)
  | some e =>
    intro h hle
    rw [fullBuffers] at h ⊢
    rw [List.length_take] at h
    rw [List.take_take, Nat.min_eq_left (by omega)]

/-- **Receiving what was sent** of any file. -/
lemma receiveFile_sentAny (hfile : files filePath = some (.ok file))
    (hname : Path.fileName filePath = some name) (hlt : name.utf8ByteSize < 2 ^ 63)
    (hgrants : system.Grants outputDir name)
    (hfresh : stored (Path.join outputDir name) = none) (hs : 0 < sender.bufferSize)
    (hr : 0 < receiver.bufferSize)
    (hdiode : diode.bytes = (sendFileAux digest sender files filePath).2)
    (hend : diode.failure = none) :
    receiveFile digest system receiver diode outputDir stored =
      (footerResult digest file.len.toNat
        ((newHasher receiver.hash).map (·.write (fed receiver.bufferSize.toNat
          ((bodyOf digest sender file.content).take file.len.toNat))))
        ((bodyOf digest sender file.content).drop file.len.toNat),
        Function.update stored (Path.join outputDir name)
          (some ⟨(bodyOf digest sender file.content).take file.len.toNat, file.mode⟩)) := by
  rw [sendFileAux_sent digest hfile hname hs] at hdiode
  obtain ⟨diode', hheader, hrest, hf⟩ :=
    Header.deserializeFrom_serialize hlt hgrants.alloc_eq hdiode
  have hname' : Path.fileName name = some name :=
    Path.fileName_of_singleComponent (Path.singleComponent_of_fileName hname)
  rw [receiveFile_of_header hheader hname' hfresh (hgrants.opening_eq _ hname') hr
    (.inr (hf.trans hend)), hrest]

/-- A footer that is there in full decides. -/
lemma footerResult_of_le {fileLength : ℕ} {hasher : Option Hasher} {bytes : List UInt8}
    (h : 16 ≤ bytes.length) : footerResult digest fileLength hasher bytes =
      checkHash digest fileLength (Footer.ofBytes (bytes.take 16)) hasher :=
  if_pos h

/-- A footer that is cut is an error. -/
lemma footerResult_of_lt {fileLength : ℕ} {hasher : Option Hasher} {bytes : List UInt8}
    (h : bytes.length < 16) : footerResult digest fileLength hasher bytes = .error missingFooter :=
  if_neg (not_le.mpr h)

/-- **A file that changes while it is sent.** If the system of the receiver grants the name, the
receiver stores the first bytes of what is sent after the header, as many as the metadata said, and
keeps them if it fails. It accepts the file exactly if there are 16 more bytes, which are the right
hash if it hashes. Then what it has stored is a beginning of the content. A file that has shrunk,
and one of which a read fails before it has grown by a footer, are rejected since there is no
footer. -/
theorem changed_file (hfile : files filePath = some (.ok file))
    (hname : Path.fileName filePath = some name) (hlt : name.utf8ByteSize < 2 ^ 63)
    (hgrants : system.Grants outputDir name)
    (hfresh : stored (Path.join outputDir name) = none) (hs : 0 < sender.bufferSize)
    (hr : 0 < receiver.bufferSize)
    (hdiode : diode.bytes = (sendFileAux digest sender files filePath).2)
    (hend : diode.failure = none) :
    let body := bodyOf digest sender file.content
    let len := file.len.toNat
    let res := receiveFile digest system receiver diode outputDir stored
    (∀ n, res.1 = .ok n ↔ n = len ∧ len + 16 ≤ body.length ∧ (receiver.hash = true →
      (Footer.ofBytes ((body.drop len).take 16)).hash =
        digest (fed receiver.bufferSize.toNat (file.content.bytes.take len)))) ∧
    res.2 = Function.update stored (Path.join outputDir name)
      (some ⟨body.take len, file.mode⟩) ∧
    (∀ n, res.1 = .ok n → body.take len = file.content.bytes.take len) ∧
    (file.content.bytes.length < len → res.1 = .error missingFooter) ∧
    (file.content.failure ≠ none → file.content.bytes.length < len + 16 →
      res.1 = .error missingFooter) := by
  intro body len res
  have hres : res = (footerResult digest len ((newHasher receiver.hash).map
      (·.write (fed receiver.bufferSize.toNat (body.take len)))) (body.drop len),
      Function.update stored (Path.join outputDir name) (some ⟨body.take len, file.mode⟩)) :=
    receiveFile_sentAny hfile hname hlt hgrants hfresh hs hr hdiode hend
  obtain ⟨hle, hfailed⟩ : body.length ≤ file.content.bytes.length + 16 ∧
      (file.content.failure ≠ none → body.length ≤ file.content.bytes.length) :=
    length_bodyOf_le digest sender file.content
  have hshort : body.length < len + 16 → res.1 = .error missingFooter := by
    intro hlt
    rw [hres, footerResult_of_lt]
    rw [List.length_drop]
    omega
  have haccepted : ∀ n, res.1 = .ok n ↔ n = len ∧ len + 16 ≤ body.length ∧
      (receiver.hash = true → (Footer.ofBytes ((body.drop len).take 16)).hash =
        digest (fed receiver.bufferSize.toNat (file.content.bytes.take len))) := by
    intro n
    by_cases hlong : len + 16 ≤ body.length
    · have hfooter : 16 ≤ (body.drop len).length := by
        rw [List.length_drop]
        omega
      rw [hres, footerResult_of_le hfooter, checkHash_eq_ok_iff, take_bodyOf hlong, eq_comm]
      simp [hlong]
    · rw [hshort (not_le.mp hlong)]
      simp [hlong]
  refine ⟨haccepted, by rw [hres], fun n hn => ?_, fun hshrunk => ?_, fun hf hgrown => ?_⟩
  · obtain ⟨-, hlong, -⟩ := (haccepted n).mp hn
    exact take_bodyOf hlong
  · exact hshort (by omega)
  · exact hshort (lt_of_le_of_lt (hfailed hf) hgrown)

/-- A file of three bytes when it was opened has five when it is read. Without hashing the first
three are accepted; with hashing the next two bytes and most of the footer are not the hash. -/
theorem changed_file_grown :
    let file : OpenFile := ⟨⟨[[97, 98, 99], [100, 101]], none, by simp⟩, 0o644, 3⟩
    let digest (bytes : List UInt8) : BitVec 128 := BitVec.ofNat 128 (LittleEndian.decode bytes)
    let files (_ : String) : Option (Except IoError OpenFile) := some (.ok file)
    let stored : Files := fun _ => none
    let sent := (sendFileAux digest ⟨2, true⟩ files "a").2
    (receiveFile digest .generous ⟨2, false⟩ (.whole sent) "out" stored).1 = .ok 3 ∧
    ¬ ∃ n, (receiveFile digest .generous ⟨2, true⟩ (.whole sent) "out" stored).1 = .ok n := by
  intro file digest files stored sent
  have hname : Path.fileName "a" = some "a" := by decide +kernel
  have hlt : "a".utf8ByteSize < 2 ^ 63 := by decide
  have hgrants : System.generous.Grants "out" "a" := System.generous_grants "out" "a"
  have hfile : files "a" = some (.ok file) := rfl
  have hfresh : stored (Path.join "out" "a") = none := rfl
  have hs : 0 < (⟨2, true⟩ : Config).bufferSize := by decide
  have hr : 0 < (⟨2, false⟩ : Config).bufferSize := by decide
  have hdiode : (Reader.whole sent : Reader UInt8 IoError).bytes = sent := Reader.bytes_whole _
  obtain ⟨hplain, -⟩ := changed_file hfile hname hlt hgrants hfresh hs hr hdiode rfl
  obtain ⟨hhashed, -⟩ := changed_file hfile hname hlt hgrants hfresh hs hs hdiode rfl
  refine ⟨(hplain 3).mpr ⟨rfl, by decide +kernel, fun h => absurd h (by decide)⟩, ?_⟩
  rintro ⟨n, hn⟩
  obtain ⟨-, -, hhash⟩ := (hhashed n).mp hn
  exact absurd (hhash rfl) (by decide +kernel)

end Lidi.File
