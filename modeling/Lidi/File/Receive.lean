import Lidi.File.Send

set_option relaxedAutoImplicit false
set_option autoImplicit false

/-!
# Receiving a file

`receive_file` reads the header, creates the file in the output directory, and copies the content
to it through a buffer. The end of each read is computed from the length that remains, so that the
footer is left in the stream. The hasher is fed as in `send_file_aux`.

Whether there is memory for the name in the header, and whether the file can be opened, is up to
the operating system: a name may be too long for the file system, or hold a zero byte.

## Main definitions

* `File.System` — what the operating system answers.
* `File.receiveFile` — the function of the source.
* `File.Files` — the files of a file system.
* `File.System.Grants` — a name that can be allocated, and a file that can be opened.

## Main results

* `File.receiveLoop_eq` — what the loop does with any stream that ends or is long enough.
* `File.receiveFile_of_header` — what the function does after it has read the header.
* `File.receiveFile_eq` — what the function does with a whole header, content and footer.
* `File.receiveFile_ne_error` — what the function can fail with.
-/

namespace Lidi.File

/-- A file in the output directory. -/
structure StoredFile where
  content : List UInt8
  mode : UInt32
  deriving DecidableEq, Repr

/-- The files of a file system, by their paths. -/
abbrev Files :=
  String → Option StoredFile

/-- What the operating system answers to `receive_file`: whether there is memory for a buffer of a
given length, and the error of opening a file for writing, if that fails. -/
structure System where
  alloc : ℕ → Bool
  opening : String → Option IoError

/-- There is memory for everything, and every file can be opened. -/
def System.generous : System where
  alloc _ := true
  opening _ := none

/-- There is memory for the name in a header, and the file that it names can be opened. -/
structure System.Grants (system : System) (outputDir path : String) : Prop where
  alloc_eq : system.alloc path.utf8ByteSize = true
  opening_eq : ∀ name, Path.fileName path = some name →
    system.opening (Path.join outputDir name) = none

/-- Every path is granted by a system that never fails. -/
lemma System.generous_grants (outputDir path : String) : generous.Grants outputDir path :=
  ⟨rfl, fun _ _ => rfl⟩

/-- The check of the footer in `receive_file`. -/
def checkHash (digest : List UInt8 → BitVec 128) (received : ℕ) (footer : Footer) :
    Option Hasher → Outcome Error ℕ
  | none => .ok received
  | some hasher =>
    let hash := hasher.finishExt digest
    if footer.hash ≠ hash then .error (.error (.diode (.invalidHash hash footer.hash)))
    else .ok received

/-- The branch of the loop of `receive_file` for a read of nothing: the rest of the buffer is
written, and the footer is read before the length and the hash are checked. -/
def receiveEnd (digest : List UInt8 → BitVec 128) (fileLength remaining : ℕ)
    (buffer : List UInt8) (hasher : Option Hasher) (written : List UInt8)
    (diode : Reader UInt8 IoError) : Outcome Error ℕ × List UInt8 :=
  let hasher := if 0 < buffer.length then hasher.map (·.write buffer) else hasher
  let written := if 0 < buffer.length then written ++ buffer else written
  let received := fileLength - remaining
  match (Footer.deserializeFrom diode).mapError .diode with
  | .error f => (.error f, written)
  | .ok (footer, _) =>
    if remaining ≠ 0 then
      (.error (.error (.diode (.invalidFileSize fileLength received))), written)
    else (checkHash digest received footer hasher, written)

/-- The loop of `receive_file`. `buffer` is the part of the buffer below the cursor and `written`
what has been written to the file. The result tells what the file holds in the end. -/
def receiveLoop (digest : List UInt8 → BitVec 128) (config : Config) (fileLength remaining : ℕ)
    (buffer : List UInt8) (hasher : Option Hasher) (written : List UInt8)
    (diode : Reader UInt8 IoError) : Outcome Error ℕ × List UInt8 :=
  let stop :=
    if config.bufferSize.toNat - buffer.length ≤ remaining then config.bufferSize.toNat
    else buffer.length + remaining
  match _hread : diode.read (stop - buffer.length) with
  | .error e => (.error (.error (.io e)), written)
  | .ok (read, diode') =>
    if _hend : read = [] then
      receiveEnd digest fileLength remaining buffer hasher written diode'
    else
      let remaining := remaining - read.length
      if buffer.length + read.length < config.bufferSize.toNat then
        receiveLoop digest config fileLength remaining (buffer ++ read) hasher written diode'
      else
        let buffer := buffer ++ read
        receiveLoop digest config fileLength remaining [] (hasher.map (·.hashVec buffer))
          (written ++ buffer) diode'
termination_by diode.bytes.length
decreasing_by
  all_goals
    have hbytes := congrArg List.length (Reader.bytes_of_read _hread).1
    have hpos := List.length_pos_of_ne_nil _hend
    rw [List.length_append] at hbytes
    omega

/-- `receive_file`. The result tells the files after it, where the mode of the file can be set and
writes to it succeed. -/
def receiveFile (digest : List UInt8 → BitVec 128) (system : System) (config : Config)
    (diode : Reader UInt8 IoError) (outputDir : String) (files : Files) :
    Outcome Error ℕ × Files :=
  match (Header.deserializeFrom system.alloc diode).mapError .diode with
  | .error f => (.error f, files)
  | .ok (header, diode) =>
    match Path.fileName header.fileName with
    | none => (.error (.error (.other "unwrap of file_name failed")), files)
    | some fileName =>
      let filePath := Path.join outputDir fileName
      if (files filePath).isSome then
        (.error (.error (.other ("file \"" ++ filePath ++ "\" already exists"))), files)
      else
        match system.opening filePath with
        | some e => (.error (.error (.io e)), files)
        | none =>
          let fileLength := header.fileLength.toNat
          let res := receiveLoop digest config fileLength fileLength [] (newHasher config.hash) []
            diode
          (res.1, Function.update files filePath (some ⟨res.2, header.mode⟩))

section Receive

variable {digest : List UInt8 → BitVec 128} {system : System} {config : Config} {footer : Footer}
  {content tail : List UInt8}

/-- The receiver accepts exactly if it does not hash or its hash is that of the footer. -/
lemma checkHash_eq_ok_iff {received n : ℕ} {bytes : List UInt8} :
    checkHash digest received footer ((newHasher config.hash).map (·.write bytes)) = .ok n ↔
      received = n ∧ (config.hash = true → footer.hash = digest bytes) := by
  cases hon : config.hash with
  | false => simp [newHasher, checkHash]
  | true =>
    by_cases h : footer.hash = digest bytes <;>
      simp [newHasher, checkHash, Hasher.finishExt, Hasher.write, Hasher.default, h]

/-- The error for a stream that ends before its footer does. -/
def missingFooter : Fault Error :=
  .error (.diode (.io unexpectedEof))

/-- What the loop returns once there is nothing left of the content: the footer decides. -/
def footerResult (digest : List UInt8 → BitVec 128) (fileLength : ℕ) (hasher : Option Hasher)
    (bytes : List UInt8) : Outcome Error ℕ :=
  if 16 ≤ bytes.length then
    checkHash digest fileLength (Footer.ofBytes (bytes.take 16)) hasher
  else .error missingFooter

/-- The end of the loop, once the whole content has been read. -/
lemma receiveEnd_zero (fileLength : ℕ) (buffer : List UInt8) (hasher : Option Hasher)
    (written : List UInt8) (diode : Reader UInt8 IoError)
    (hend : 16 ≤ diode.bytes.length ∨ diode.failure = none) :
    receiveEnd digest fileLength 0 buffer hasher written diode =
      (footerResult digest fileLength (hasher.map (·.write buffer)) diode.bytes,
        written ++ buffer) := by
  have hwritten : (if 0 < buffer.length then written ++ buffer else written) =
      written ++ buffer := by
    cases buffer <;> simp
  have hhasher : (if 0 < buffer.length then hasher.map (·.write buffer) else hasher) =
      hasher.map (·.write buffer) := by
    cases buffer <;> cases hasher <;> simp [Hasher.write]
  unfold receiveEnd footerResult
  rw [hwritten, hhasher]
  by_cases hlen : 16 ≤ diode.bytes.length
  · obtain ⟨diode', hfooter⟩ := Footer.deserializeFrom_eq hlen
    simp [hfooter, Outcome.mapError, hlen]
  · have hfooter := Footer.deserializeFrom_of_lt (r := diode) (by omega)
    rw [hend.resolve_left hlen] at hfooter
    simp [hfooter, Outcome.mapError, hlen, missingFooter]

/-- The end of the loop if the stream has ended. -/
lemma receiveEnd_nil (fileLength remaining : ℕ) (buffer : List UInt8) (hasher : Option Hasher)
    (written : List UInt8) {diode : Reader UInt8 IoError} (hb : diode.bytes = [])
    (hf : diode.failure = none) :
    receiveEnd digest fileLength remaining buffer hasher written diode =
      (.error missingFooter, written ++ buffer) := by
  have hfooter := Footer.deserializeFrom_of_lt (r := diode) (by simp [hb])
  rw [hf] at hfooter
  unfold receiveEnd
  cases buffer <;> simp [hfooter, Outcome.mapError, missingFooter]

/-- How much the loop asks for: what fits in the buffer, but no more than remains. -/
lemma stop_sub_length (config : Config) (buffer : List UInt8) (remaining : ℕ) :
    (if config.bufferSize.toNat - buffer.length ≤ remaining then config.bufferSize.toNat
      else buffer.length + remaining) - buffer.length =
    min (config.bufferSize.toNat - buffer.length) remaining := by
  split <;> omega

/-- A stream that ends, or is long enough for the content and a footer, stays so. -/
lemma enough_of_read {diode diode' : Reader UInt8 IoError} {read : List UInt8} {remaining : ℕ}
    (hb : diode.bytes = read ++ diode'.bytes) (hf : diode'.failure = diode.failure)
    (hle : read.length ≤ remaining)
    (hend : remaining + 16 ≤ diode.bytes.length ∨ diode.failure = none) :
    remaining - read.length + 16 ≤ diode'.bytes.length ∨ diode'.failure = none := by
  rw [hf]
  apply hend.imp_left
  intro hlong
  rw [hb, List.length_append] at hlong
  omega

/-- What is read while some of the content remains is the next part of it. -/
lemma take_of_read {diode diode' : Reader UInt8 IoError} {read : List UInt8} {remaining : ℕ}
    (hb : diode.bytes = read ++ diode'.bytes) (hle : read.length ≤ remaining) :
    diode.bytes.take remaining = read ++ diode'.bytes.take (remaining - read.length) ∧
      diode.bytes.drop remaining = diode'.bytes.drop (remaining - read.length) := by
  rw [hb, List.take_append, List.drop_append, List.take_of_length_le hle,
    List.drop_of_length_le hle, List.nil_append]
  exact ⟨rfl, rfl⟩

/-- **What the loop does with any stream.** It takes what remains of the content, as far as it is
there, and writes it; then the footer decides.

**Proof sketch.** Induction along the loop. Each read stops where the content does, so that what
it returns is the next part of the content, and it returns nothing only when the content has been
read or the stream has ended. What the hasher got before and what it still gets for the buffer and
the rest of the content make up `fed` of the whole. -/
lemma receiveLoop_eq (digest : List UInt8 → BitVec 128) (fileLength remaining : ℕ)
    (buffer : List UInt8) (hbuf : buffer.length < config.bufferSize.toNat) (hasher : Option Hasher)
    (written : List UInt8) (diode : Reader UInt8 IoError)
    (hend : remaining + 16 ≤ diode.bytes.length ∨ diode.failure = none) :
    receiveLoop digest config fileLength remaining buffer hasher written diode =
      (footerResult digest fileLength
        (hasher.map (·.write (fed config.bufferSize.toNat (buffer ++ diode.bytes.take remaining))))
        (diode.bytes.drop remaining), written ++ (buffer ++ diode.bytes.take remaining)) := by
  fun_induction receiveLoop digest config fileLength remaining buffer hasher written diode with
  | case1 remaining buffer hasher written diode stop e hread =>
    obtain ⟨hb, hf⟩ := Reader.failure_of_read_error hread
    rcases hend with hlong | hnone
    · rw [hb] at hlong
      simp at hlong
    · rw [hf] at hnone
      cases hnone
  | case2 remaining buffer hasher written diode stop diode' hread =>
    obtain ⟨hb, -, hf⟩ := Reader.bytes_of_read hread
    rw [List.nil_append] at hb
    rcases Nat.eq_zero_or_pos remaining with rfl | hpos
    · -- nothing was asked for
      rw [hb, ← hf] at hend
      rw [receiveEnd_zero _ _ _ _ _ (by simpa using hend), hb, List.take_zero, List.append_nil,
        List.drop_zero, fed_of_lt hbuf]
    · -- the stream has ended, too early
      have hasked : 0 < stop - buffer.length := by
        simp only [stop, dite_eq_ite, stop_sub_length]
        omega
      obtain ⟨hempty, hnone⟩ := Reader.eof_of_read_nil hasked hread
      rw [receiveEnd_nil _ _ _ _ _ (hb ▸ hempty) (hf.trans hnone), hempty]
      simp [footerResult]
  | case3 remaining buffer hasher written diode stop read diode' hread hne left hshort ih =>
    obtain ⟨hb, hlen, hf⟩ := Reader.bytes_of_read hread
    simp only [stop, dite_eq_ite, stop_sub_length] at hlen
    have hle : read.length ≤ remaining := by omega
    obtain ⟨htake, hdrop⟩ := take_of_read hb hle
    rw [ih (by simpa using hshort) (enough_of_read hb hf hle hend), htake, hdrop,
      List.append_assoc buffer]
  | case4 remaining buffer hasher written diode stop read diode' hread hne left hfull buffer' ih =>
    obtain ⟨hb, hlen, hf⟩ := Reader.bytes_of_read hread
    simp only [stop, dite_eq_ite, stop_sub_length] at hlen
    have hle : read.length ≤ remaining := by omega
    obtain ⟨htake, hdrop⟩ := take_of_read hb hle
    have hfull' : (buffer ++ read).length = config.bufferSize.toNat := by
      rw [List.length_append]
      omega
    have hpos : 0 < config.bufferSize.toNat := by omega
    rw [ih (by simpa using hpos) (enough_of_read hb hf hle hend), htake, hdrop,
      ← List.append_assoc buffer, fed_append hpos hfull']
    cases hasher with
    | none => simp [buffer', left]
    | some h => simp [buffer', left, Hasher.hashVec, Hasher.write, hfull']

/-- **Receiving after the header.** What follows the header is written to the file, up to the
length that the header gives, and what follows that decides. -/
theorem receiveFile_of_header {header : Header} {fileName outputDir : String} {files : Files}
    {diode diode' : Reader UInt8 IoError}
    (hheader : Header.deserializeFrom system.alloc diode = .ok (header, diode'))
    (hname : Path.fileName header.fileName = some fileName)
    (hnew : files (Path.join outputDir fileName) = none)
    (hopen : system.opening (Path.join outputDir fileName) = none) (hsize : 0 < config.bufferSize)
    (hend : header.fileLength.toNat + 16 ≤ diode'.bytes.length ∨ diode'.failure = none) :
    receiveFile digest system config diode outputDir files =
      (footerResult digest header.fileLength.toNat
        ((newHasher config.hash).map (·.write
          (fed config.bufferSize.toNat (diode'.bytes.take header.fileLength.toNat))))
        (diode'.bytes.drop header.fileLength.toNat),
        Function.update files (Path.join outputDir fileName)
          (some ⟨diode'.bytes.take header.fileLength.toNat, header.mode⟩)) := by
  have hloop := receiveLoop_eq digest header.fileLength.toNat header.fileLength.toNat [] hsize
    (newHasher config.hash) [] diode' hend
  unfold receiveFile
  simp only [hheader, Outcome.mapError, hname, hnew, hopen]
  rw [hloop]
  rfl

/-- A file that cannot be opened is an error, and nothing is stored. -/
lemma receiveFile_of_opening {header : Header} {fileName outputDir : String} {files : Files}
    {diode diode' : Reader UInt8 IoError} {e : IoError}
    (hheader : Header.deserializeFrom system.alloc diode = .ok (header, diode'))
    (hname : Path.fileName header.fileName = some fileName)
    (hnew : files (Path.join outputDir fileName) = none)
    (hopen : system.opening (Path.join outputDir fileName) = some e) :
    receiveFile digest system config diode outputDir files = (.error (.error (.io e)), files) := by
  simp [receiveFile, hheader, Outcome.mapError, hname, hnew, hopen]

/-- **Receiving a file.** If the stream starts with a header, as many bytes as it says, and a
footer, then these bytes are written to the file, and the footer decides. -/
theorem receiveFile_eq (header : Header) {fileName outputDir : String} {files : Files}
    {diode : Reader UInt8 IoError} (hlen : header.fileName.utf8ByteSize < 2 ^ 63)
    (hgrants : system.Grants outputDir header.fileName)
    (hname : Path.fileName header.fileName = some fileName)
    (hnew : files (Path.join outputDir fileName) = none) (hsize : 0 < config.bufferSize)
    (hcontent : content.length = header.fileLength.toNat)
    (hdiode : diode.bytes = header.serialize ++ (content ++ (footer.serialize ++ tail))) :
    receiveFile digest system config diode outputDir files =
      (checkHash digest content.length footer
        ((newHasher config.hash).map (·.write (fed config.bufferSize.toNat content))),
        Function.update files (Path.join outputDir fileName) (some ⟨content, header.mode⟩)) := by
  obtain ⟨diode', hheader, hrest, -⟩ :=
    Header.deserializeFrom_serialize hlen hgrants.alloc_eq hdiode
  have hlong : header.fileLength.toNat + 16 ≤ diode'.bytes.length := by
    rw [hrest, ← hcontent]
    simp
  rw [receiveFile_of_header hheader hname hnew (hgrants.opening_eq _ hname) hsize (.inl hlong),
    hrest, List.take_left' hcontent, List.drop_left' hcontent, footerResult, if_pos (by simp),
    List.take_left' footer.length_serialize, Footer.ofBytes_serialize, hcontent]

/-- What the end of the loop can fail with. The length is wrong only if a footer follows where some
of the content remains. -/
lemma receiveEnd_ne_error {e : Fault Error} {remaining : ℕ} {diode : Reader UInt8 IoError}
    (hio : ∀ i, e ≠ .error (.diode (.io i)))
    (hhash : ∀ computed expected, e ≠ .error (.diode (.invalidHash computed expected)))
    (hend : (∀ expected received, e ≠ .error (.diode (.invalidFileSize expected received))) ∨
      remaining = 0 ∨ diode.bytes = [])
    (fileLength : ℕ) (buffer : List UInt8) (hasher : Option Hasher) (written : List UInt8) :
    (receiveEnd digest fileLength remaining buffer hasher written diode).1 ≠ .error e := by
  unfold receiveEnd
  by_cases hlen : 16 ≤ diode.bytes.length
  · obtain ⟨diode', hfooter⟩ := Footer.deserializeFrom_eq hlen
    simp only [hfooter, Outcome.mapError]
    by_cases hzero : remaining = 0
    · simp only [hzero, ne_eq, not_true_eq_false, if_false, checkHash]
      split
      · exact fun h => by cases h
      · split
        · exact fun h => hhash _ _ (Except.error.inj h).symm
        · exact fun h => by cases h
    · have hsize := hend.resolve_right fun h => h.elim hzero fun hb => by simp [hb] at hlen
      rw [if_pos hzero]
      exact fun h => hsize _ _ (Except.error.inj h).symm
  · simp only [Footer.deserializeFrom_of_lt (not_le.mp hlen), Outcome.mapError]
    exact fun h => hio _ (Except.error.inj h).symm

/-- **What the loop can fail with:** an error of the stream or a wrong hash, and a wrong length if
the buffer is empty.

**Proof sketch.** A read that is asked for something returns nothing only at the end of the
stream, where there is no footer to read; one that is asked for nothing follows the whole
content. -/
lemma receiveLoop_ne_error {e : Fault Error} (hio : ∀ i, e ≠ .error (.io i))
    (hfooter : ∀ i, e ≠ .error (.diode (.io i)))
    (hhash : ∀ computed expected, e ≠ .error (.diode (.invalidHash computed expected)))
    (fileLength remaining : ℕ) (buffer : List UInt8)
    (hbuf : (∀ expected received, e ≠ .error (.diode (.invalidFileSize expected received))) ∨
      buffer.length < config.bufferSize.toNat)
    (hasher : Option Hasher) (written : List UInt8) (diode : Reader UInt8 IoError) :
    (receiveLoop digest config fileLength remaining buffer hasher written diode).1 ≠ .error e := by
  fun_induction receiveLoop digest config fileLength remaining buffer hasher written diode with
  | case1 remaining buffer hasher written diode stop e' hread =>
    exact fun h => hio _ (Except.error.inj h).symm
  | case2 remaining buffer hasher written diode stop diode' hread =>
    refine receiveEnd_ne_error hfooter hhash (hbuf.imp_right fun hlt => ?_) _ _ _ _
    rcases Nat.eq_zero_or_pos remaining with hzero | hpos
    · exact .inl hzero
    · have hasked : 0 < stop - buffer.length := by
        simp only [stop]
        split <;> omega
      obtain ⟨hb, -⟩ := Reader.bytes_of_read hread
      rw [List.nil_append] at hb
      exact .inr (hb ▸ (Reader.eof_of_read_nil hasked hread).1)
  | case3 remaining buffer hasher written diode stop read diode' hread hne left hshort ih =>
    exact ih (.inr (by simpa using hshort))
  | case4 remaining buffer hasher written diode stop read diode' hread hne left hfull buffer' ih =>
    exact ih (hbuf.imp_right Nat.zero_lt_of_lt)

/-- **What `receive_file` can fail with:** an error of its own, of the stream or of the name, a
wrong hash, a panic for the length of the name, and a wrong length if the buffer is empty. -/
lemma receiveFile_ne_error {e : Fault Error} {diode : Reader UInt8 IoError} {outputDir : String}
    {files : Files} (hother : ∀ message, e ≠ .error (.other message))
    (hio : ∀ i, e ≠ .error (.io i)) (hfooter : ∀ i, e ≠ .error (.diode (.io i)))
    (hhash : ∀ computed expected, e ≠ .error (.diode (.invalidHash computed expected)))
    (hbuf : (∀ expected received, e ≠ .error (.diode (.invalidFileSize expected received))) ∨
      0 < config.bufferSize)
    (hheader : (Header.deserializeFrom system.alloc diode).mapError .diode ≠ .error e) :
    (receiveFile digest system config diode outputDir files).1 ≠ .error e := by
  unfold receiveFile
  split
  · rename_i f hf
    exact fun h => hheader (hf.trans (congrArg Except.error (Except.error.inj h)))
  · split
    · exact fun h => hother _ (Except.error.inj h).symm
    · dsimp only
      split
      · exact fun h => hother _ (Except.error.inj h).symm
      · split
        · exact fun h => hio _ (Except.error.inj h).symm
        · exact receiveLoop_ne_error hio hfooter hhash _ _ [] hbuf _ _ _

end Receive

end Lidi.File
