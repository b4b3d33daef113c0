import Lidi.File.Receive

set_option relaxedAutoImplicit false
set_option autoImplicit false

/-!
# Which streams are accepted as files

`receive_file` tells a read of nothing at the end of the stream from one that was asked for
nothing by what remains of the content. It accepts a stream exactly if there is a header, the whole
content and a footer that agrees with it. A stream that ends within the content is rejected, but
not with the error that is meant for it: the footer is read before the length is checked, and there
is none.

## Main definitions

* `File.WellFormed` — a stream that starts with a file.
* `File.Fresh` — no file has the name in the header of a stream.
* `File.Granted` — the system grants what a stream asks for.

## Main results

* `File.accepted_iff_wellFormed` — the streams that are accepted, and the file that is stored.
* `File.truncation_unreported` — no stream is rejected for its length.
-/

namespace Lidi.File

/-- A stream that starts with a header, as many bytes as it says, and a footer with the hash of
these. The length of a `String` of the source is at most `isize::MAX`. -/
structure WellFormed (digest : List UInt8 → BitVec 128) (config : Config) (bytes : List UInt8)
    (header : Header) (content : List UInt8) (footer : Footer) : Prop where
  length_lt : header.fileName.utf8ByteSize < 2 ^ 63
  named : ∃ name, Path.fileName header.fileName = some name
  whole : content.length = header.fileLength.toNat
  layout : header.serialize ++ (content ++ footer.serialize) <+: bytes
  hashed : config.hash = true → footer.hash = digest (fed config.bufferSize.toNat content)

/-- If a stream starts with a header, then no file has the name in it. -/
def Fresh (outputDir : String) (files : Files) (bytes : List UInt8) : Prop :=
  ∀ (header : Header) (name : String), header.fileName.utf8ByteSize < 2 ^ 63 →
    header.serialize <+: bytes → Path.fileName header.fileName = some name →
    files (Path.join outputDir name) = none

/-- If a stream starts with a header, then there is memory for the name in it, and its file can be
opened; this is not so for a name with a zero byte, or one that is too long for the file system. -/
def Granted (system : System) (outputDir : String) (bytes : List UInt8) : Prop :=
  ∀ header : Header, header.fileName.utf8ByteSize < 2 ^ 63 → header.serialize <+: bytes →
    system.Grants outputDir header.fileName

section Accept

variable {digest : List UInt8 → BitVec 128} {system : System} {config : Config}
  {outputDir : String} {files : Files}
  {diode diode' : Reader UInt8 IoError} {header header' : Header}
  {bytes content content' rest rest' : List UInt8} {footer footer' : Footer}

/-- A stream starts with one header only. -/
lemma Header.serialize_append_inj (h : header.fileName.utf8ByteSize < 2 ^ 63)
    (h' : header'.fileName.utf8ByteSize < 2 ^ 63)
    (heq : header.serialize ++ rest = header'.serialize ++ rest') :
    header = header' ∧ rest = rest' := by
  let diode : Reader UInt8 IoError := .whole (header.serialize ++ rest)
  have hdiode : diode.bytes = header.serialize ++ rest := Reader.bytes_whole _
  have halloc (path : String) : System.generous.alloc path.utf8ByteSize = true := rfl
  obtain ⟨r, hr, hrest, -⟩ := Header.deserializeFrom_serialize h (halloc _) hdiode
  obtain ⟨r', hr', hrest', -⟩ :=
    Header.deserializeFrom_serialize h' (halloc _) (hdiode.trans heq)
  rw [hr, Except.ok.injEq, Prod.mk.injEq] at hr'
  obtain ⟨rfl, rfl⟩ := hr'
  exact ⟨rfl, hrest.symm.trans hrest'⟩

/-- The footer decides: there has to be one, with the right hash. -/
lemma footerResult_eq_ok_iff {fileLength n : ℕ} {fedBytes : List UInt8} :
    footerResult digest fileLength ((newHasher config.hash).map (·.write fedBytes)) bytes = .ok n ↔
      fileLength = n ∧ ∃ footer : Footer, footer.serialize <+: bytes ∧
        (config.hash = true → footer.hash = digest fedBytes) := by
  unfold footerResult
  by_cases hlen : 16 ≤ bytes.length
  · rw [if_pos hlen, checkHash_eq_ok_iff]
    have htake : (Footer.ofBytes (bytes.take 16)).serialize = bytes.take 16 :=
      Footer.serialize_ofBytes (List.length_take_of_le hlen)
    constructor
    · rintro ⟨hn, hhash⟩
      refine ⟨hn, Footer.ofBytes (bytes.take 16), ?_, hhash⟩
      rw [htake]
      exact List.take_prefix 16 bytes
    · rintro ⟨hn, footer, ⟨tail, rfl⟩, hhash⟩
      rw [List.take_left' footer.length_serialize, Footer.ofBytes_serialize]
      exact ⟨hn, hhash⟩
  · rw [if_neg hlen]
    constructor
    · intro h
      cases h
    · rintro ⟨-, footer, hfooter, -⟩
      have hle := hfooter.length_le
      rw [footer.length_serialize] at hle
      exact absurd hle hlen

/-- What was accepted starts with a header that names a new file, which was opened. -/
lemma header_of_receiveFile {n : ℕ}
    (h : (receiveFile digest system config diode outputDir files).1 = .ok n) :
    ∃ header diode' name, Header.deserializeFrom system.alloc diode = .ok (header, diode') ∧
      Path.fileName header.fileName = some name ∧ files (Path.join outputDir name) = none ∧
      system.opening (Path.join outputDir name) = none := by
  unfold receiveFile at h
  split at h
  · cases h
  rename_i header diode' hheader
  split at h
  · cases h
  rename_i name hname
  dsimp only at h
  split at h
  · cases h
  rename_i hnew
  split at h
  · cases h
  rename_i hopen
  exact ⟨header, diode', name, Outcome.mapError_eq_ok_iff.mp hheader, hname, by simpa using hnew,
    hopen⟩

/-- What was accepted starts with a header whose name the system has granted. -/
lemma grants_of_receiveFile {n : ℕ}
    (h : (receiveFile digest system config diode outputDir files).1 = .ok n) :
    ∃ (header : Header) (rest : List UInt8), diode.bytes = header.serialize ++ rest ∧
      header.fileName.utf8ByteSize < 2 ^ 63 ∧ system.Grants outputDir header.fileName := by
  obtain ⟨header, diode', name, hheader, hname, -, hopen⟩ := header_of_receiveFile h
  obtain ⟨hb, hlt, halloc, -⟩ := Header.serialize_of_deserializeFrom hheader
  refine ⟨header, diode'.bytes, hb, hlt, halloc, fun name' hname' => ?_⟩
  obtain rfl : name = name' := Option.some.inj (hname.symm.trans hname')
  exact hopen

/-- What was accepted starts with a file. -/
lemma wellFormed_of_receiveFile {n : ℕ} (hsize : 0 < config.bufferSize)
    (hend : diode.failure = none)
    (h : (receiveFile digest system config diode outputDir files).1 = .ok n) :
    ∃ header content footer, WellFormed digest config diode.bytes header content footer ∧
      content.length = n := by
  obtain ⟨header, diode', name, hheader, hname, hnew, hopen⟩ := header_of_receiveFile h
  obtain ⟨hb, hlt, -, hf⟩ := Header.serialize_of_deserializeFrom hheader
  rw [receiveFile_of_header hheader hname hnew hopen hsize (.inr (hf.trans hend)),
    footerResult_eq_ok_iff] at h
  obtain ⟨hn, footer, hfooter, hhash⟩ := h
  have hlen : header.fileLength.toNat ≤ diode'.bytes.length := by
    have hle := hfooter.length_le
    rw [footer.length_serialize, List.length_drop] at hle
    omega
  have hcontent : (diode'.bytes.take header.fileLength.toNat).length = header.fileLength.toNat :=
    List.length_take_of_le hlen
  refine ⟨header, diode'.bytes.take header.fileLength.toNat, footer,
    ⟨hlt, ⟨name, hname⟩, hcontent, ?_, hhash⟩, hcontent.trans hn⟩
  rw [hb]
  apply (List.prefix_append_right_inj _).mpr
  conv_rhs => rw [← List.take_append_drop header.fileLength.toNat diode'.bytes]
  exact (List.prefix_append_right_inj _).mpr hfooter

/-- What starts with a file is accepted, and the file is stored. -/
lemma receiveFile_of_wellFormed (hsize : 0 < config.bufferSize)
    (hfresh : Fresh outputDir files diode.bytes) (hgranted : Granted system outputDir diode.bytes)
    (h : WellFormed digest config diode.bytes header content footer) :
    ∃ name, Path.fileName header.fileName = some name ∧
      receiveFile digest system config diode outputDir files = (.ok content.length,
        Function.update files (Path.join outputDir name) (some ⟨content, header.mode⟩)) := by
  obtain ⟨name, hname⟩ := h.named
  obtain ⟨tail, hdiode⟩ := h.layout
  rw [List.append_assoc, List.append_assoc] at hdiode
  have hnew : files (Path.join outputDir name) = none :=
    hfresh header name h.length_lt ⟨_, hdiode⟩ hname
  have hgrants : system.Grants outputDir header.fileName :=
    hgranted header h.length_lt ⟨_, hdiode⟩
  refine ⟨name, hname, ?_⟩
  rw [receiveFile_eq header h.length_lt hgrants hname hnew hsize h.whole hdiode.symm]
  exact Prod.ext (checkHash_eq_ok_iff.mpr ⟨rfl, h.hashed⟩) rfl

/-- **Receiving a file does not depend on the chunks.** -/
lemma receiveFile_same (hsize : 0 < config.bufferSize) (hend : diode.failure = none)
    (h : Reader.Same diode' diode) :
    receiveFile digest system config diode' outputDir files =
      receiveFile digest system config diode outputDir files := by
  rcases Header.deserializeFrom_same system.alloc h with ⟨header, r, s, hr, hs, hrs⟩ | ⟨e, hr, hs⟩
  · have hend' : s.failure = none :=
      (Header.serialize_of_deserializeFrom hs).2.2.2.trans hend
    cases hname : Path.fileName header.fileName with
    | none => simp only [receiveFile, hr, hs, Outcome.mapError, hname]
    | some name =>
      cases hnew : files (Path.join outputDir name) with
      | none =>
        cases hopen : system.opening (Path.join outputDir name) with
        | none =>
          rw [receiveFile_of_header hr hname hnew hopen hsize (.inr (hrs.failure_eq.trans hend')),
            receiveFile_of_header hs hname hnew hopen hsize (.inr hend'), hrs.bytes_eq]
        | some e =>
          rw [receiveFile_of_opening hr hname hnew hopen,
            receiveFile_of_opening hs hname hnew hopen]
      | some stored =>
        simp only [receiveFile, hr, hs, Outcome.mapError, hname, hnew, Option.isSome_some, if_true]
  · simp only [receiveFile, hr, hs]

/-- **A file that is cut is not accepted.**

**Proof sketch.** The stream has one header, so that what it starts with would be as long as what
it was cut from. -/
lemma receiveFile_cut (hsize : 0 < config.bufferSize) (hend : diode.failure = none)
    (hlt : header.fileName.utf8ByteSize < 2 ^ 63)
    (hwhole : content.length = header.fileLength.toNat)
    (hpart : diode.bytes <+: header.serialize ++ (content ++ footer.serialize))
    (hcut : diode.bytes ≠ header.serialize ++ (content ++ footer.serialize)) (n : ℕ) :
    (receiveFile digest system config diode outputDir files).1 ≠ .ok n := by
  intro hok
  obtain ⟨header', content', footer', h, -⟩ := wellFormed_of_receiveFile hsize hend hok
  obtain ⟨missing, hmissing⟩ := h.layout.trans hpart
  rw [List.append_assoc] at hmissing
  obtain ⟨rfl, hrest⟩ := Header.serialize_append_inj h.length_lt hlt hmissing
  have hle := h.layout.length_le
  have hlt := lt_of_le_of_ne hpart.length_le fun heq => hcut (hpart.eq_of_length heq)
  simp only [List.length_append, Footer.length_serialize, h.whole, hwhole] at hle hlt
  omega

/-- **A stream is accepted exactly if it starts with a file**, where the system grants what it asks
for. Then the file that is stored has the content and the mode of that file. Neither depends on
what the reads return, and a part of a file is never accepted. -/
theorem accepted_iff_wellFormed (hsize : 0 < config.bufferSize) (hend : diode.failure = none)
    (hfresh : Fresh outputDir files diode.bytes)
    (hgranted : Granted system outputDir diode.bytes) :
    (∀ n, (receiveFile digest system config diode outputDir files).1 = .ok n ↔
      ∃ header content footer, WellFormed digest config diode.bytes header content footer ∧
        content.length = n) ∧
    (∀ header content footer, WellFormed digest config diode.bytes header content footer →
      ∃ name, Path.fileName header.fileName = some name ∧
        (receiveFile digest system config diode outputDir files).2 =
          Function.update files (Path.join outputDir name) (some ⟨content, header.mode⟩)) ∧
    (∀ diode' : Reader UInt8 IoError, diode'.bytes = diode.bytes → diode'.failure = none →
      receiveFile digest system config diode' outputDir files =
        receiveFile digest system config diode outputDir files) ∧
    (∀ (header : Header) (content : List UInt8) (footer : Footer),
      header.fileName.utf8ByteSize < 2 ^ 63 → content.length = header.fileLength.toNat →
      diode.bytes <+: header.serialize ++ (content ++ footer.serialize) →
      diode.bytes ≠ header.serialize ++ (content ++ footer.serialize) →
      ∀ n, (receiveFile digest system config diode outputDir files).1 ≠ .ok n) := by
  refine ⟨fun n => ⟨wellFormed_of_receiveFile hsize hend, ?_⟩, ?_, ?_, ?_⟩
  · rintro ⟨header, content, footer, h, rfl⟩
    obtain ⟨name, -, heq⟩ := receiveFile_of_wellFormed hsize hfresh hgranted h
    rw [heq]
  · intro header content footer h
    obtain ⟨name, hname, heq⟩ := receiveFile_of_wellFormed hsize hfresh hgranted h
    exact ⟨name, hname, by rw [heq]⟩
  · intro diode' hb hf
    exact receiveFile_same hsize hend ⟨hb, hf.trans hend.symm⟩
  · intro header content footer hlt hwhole hpart hcut
    exact receiveFile_cut hsize hend hlt hwhole hpart hcut

/-- A file of two bytes with its footer; the content is read one byte at a time. -/
theorem accepted_two_bytes :
    let header : Header := ⟨"a", 0o644, 2⟩
    (receiveFile (fun _ => 7) .generous ⟨2, true⟩
      ⟨[header.serialize, [1], 2 :: Footer.serialize ⟨7⟩], none,
        by simp [Header.serialize, LittleEndian.encode]⟩ "out" fun _ => none).1 = .ok 2 := by
  intro header
  refine (accepted_iff_wellFormed (by decide) rfl (fun _ _ _ _ _ => rfl)
    fun header _ _ => System.generous_grants "out" header.fileName).1 2 |>.mpr
    ⟨header, [1, 2], ⟨7⟩, ⟨by decide, ⟨"a", by decide +kernel⟩, rfl, ?_, fun _ => rfl⟩, rfl⟩
  exact ⟨[], by decide +kernel⟩

/-- No stream is rejected for its length. -/
lemma receiveFile_ne_invalidFileSize (hsize : 0 < config.bufferSize) (expected received : ℕ) :
    (receiveFile digest system config diode outputDir files).1 ≠
      .error (.error (.diode (.invalidFileSize expected received))) := by
  apply receiveFile_ne_error (by simp) (by simp) (by simp) (by simp) (.inr hsize)
  intro h
  have hheader : Header.deserializeFrom system.alloc diode ≠
      .error (.error (.invalidFileSize expected received)) :=
    Header.deserializeFrom_ne_error (by simp) (by simp) (by simp)
  cases hd : Header.deserializeFrom system.alloc diode with
  | ok res =>
    rw [hd] at h
    cases h
  | error e =>
    rw [hd] at h hheader
    rcases e with _ | e <;> cases h
    exact hheader rfl

/-- A file that is cut within its content is rejected for the footer, which is missing. -/
lemma receiveFile_truncated {name : String} (hsize : 0 < config.bufferSize)
    (hend : diode.failure = none) (hlt : header.fileName.utf8ByteSize < 2 ^ 63)
    (hgrants : system.Grants outputDir header.fileName)
    (hname : Path.fileName header.fileName = some name)
    (hnew : files (Path.join outputDir name) = none)
    (hdiode : diode.bytes = header.serialize ++ content)
    (hcut : content.length < header.fileLength.toNat) :
    (receiveFile digest system config diode outputDir files).1 = .error missingFooter := by
  obtain ⟨diode', hheader, hrest, hf⟩ :=
    Header.deserializeFrom_serialize hlt hgrants.alloc_eq hdiode
  rw [receiveFile_of_header hheader hname hnew (hgrants.opening_eq _ hname) hsize
    (.inr (hf.trans hend)), hrest, List.drop_of_length_le hcut.le, footerResult, if_neg (by simp)]

/-- **A truncated file is not reported as such.** No stream is rejected for its length, whatever
the system answers. One that ends within the content, and whose file was opened, is rejected since
there is no footer.

The check of what remains comes after the footer has been read. It is reached only where something
was read after a read of nothing, so that nothing of the content remains. -/
theorem truncation_unreported (hsize : 0 < config.bufferSize) :
    (∀ expected received, (receiveFile digest system config diode outputDir files).1 ≠
      .error (.error (.diode (.invalidFileSize expected received)))) ∧
    (∀ (header : Header) (content : List UInt8) (name : String), diode.failure = none →
      header.fileName.utf8ByteSize < 2 ^ 63 → system.Grants outputDir header.fileName →
      Path.fileName header.fileName = some name →
      files (Path.join outputDir name) = none → diode.bytes = header.serialize ++ content →
      content.length < header.fileLength.toNat →
      (receiveFile digest system config diode outputDir files).1 =
        .error (.error (.diode (.io unexpectedEof)))) := by
  refine ⟨receiveFile_ne_invalidFileSize hsize, ?_⟩
  intro header content name hend hlt hgrants hname hnew hdiode hcut
  exact receiveFile_truncated hsize hend hlt hgrants hname hnew hdiode hcut

/-- One byte of three. -/
theorem truncation_unreported_one_byte :
    let header : Header := ⟨"a", 0o644, 3⟩
    (receiveFile (fun _ => 7) .generous ⟨2, true⟩ (.whole (header.serialize ++ [1])) "out"
      fun _ => none).1 = .error (.error (.diode (.io unexpectedEof))) := by
  intro header
  exact (truncation_unreported (by decide)).2 header [1] "a" rfl (by decide)
    (System.generous_grants "out" "a") (by decide +kernel) rfl (Reader.bytes_whole _) (by decide)

/-- **The error for a truncated file is not returned** for one byte of three. -/
theorem not_truncation_reported :
    ¬ ∀ (digest : List UInt8 → BitVec 128) (system : System) (config : Config) (header : Header)
      (content : List UInt8) (diode : Reader UInt8 IoError) (outputDir : String) (files : Files),
      (∀ path, system.Grants outputDir path) → 0 < config.bufferSize →
      diode.bytes = header.serialize ++ content → diode.failure = none →
      (∀ path, files path = none) → content.length < header.fileLength.toNat →
      (receiveFile digest system config diode outputDir files).1 = .error (.error (.diode
        (.invalidFileSize header.fileLength.toNat content.length))) := by
  intro hall
  have h := hall (fun _ => 7) .generous ⟨2, true⟩ ⟨"a", 0o644, 3⟩ [1] (.whole _) "out"
    (fun _ => none) (System.generous_grants "out") (by decide) (Reader.bytes_whole _) rfl
    (fun _ => rfl) (by decide)
  revert h
  decide +kernel

end Accept

end Lidi.File
