import Lidi.File.Receive
import Lidi.Udp.Relay

set_option relaxedAutoImplicit false
set_option autoImplicit false

/-!
# Lengths from the diode

Both formats of the streams start with a length of 64 bits. `receive_udp` indexes its buffer with
it and `receive_file` allocates a buffer of this length, before anything is checked, so that a
length that is too large is a panic. On any other stream they return an error or end, whatever the
operating system answers.

## Main definitions

* `Udp.Complete` — the datagrams whose frames are at the front of a stream, up to one that is
  refused.
* `Udp.Oversize` — a stream with a size after some frames that exceeds the buffer.

## Main results

* `Udp.receiveUdp_spec` — the datagrams that are sent, and when the receiver panics.
* `File.receiveFile_eq_panic_iff` — when the receiver of a file panics.
* `Udp.receivers_survive_iff` — the streams that both receivers survive.
-/

namespace Lidi.File

/-- **When `receive_file` panics.** -/
theorem receiveFile_eq_panic_iff {digest : List UInt8 → BitVec 128} {system : System}
    {config : Config} {diode : Reader UInt8 IoError} {outputDir : String} {files : Files} :
    (receiveFile digest system config diode outputDir files).1 = .error .panic ↔
      LargeName system.alloc diode.bytes := by
  rw [← Header.deserializeFrom_eq_panic_iff]
  constructor
  · intro h
    by_contra hheader
    refine receiveFile_ne_error (e := .panic) (by simp) (by simp) (by simp) (by simp)
      (.inl (by simp)) (fun hpanic => ?_) h
    exact hheader (Outcome.mapError_eq_panic_iff.mp hpanic)
  · intro h
    rw [receiveFile, h]
    rfl

end Lidi.File

namespace Lidi.Udp

/-- The stream starts with the frames of `sent`, which fit in the buffer and are taken, and no
further whole frame follows that does and is. -/
def Complete (config : Config) (sendTo : Answers) (bytes : List UInt8) (sent : List (List UInt8)) :
    Prop :=
  ∃ rest, bytes = sent.flatMap frame ++ rest ∧ (∀ d ∈ sent, d.length ≤ config.bufferSize.toNat) ∧
    Taken sendTo sent ∧ ∀ d tail, d.length ≤ config.bufferSize.toNat →
      sendTo sent.length d = none → rest ≠ frame d ++ tail

/-- After some frames that fit in the buffer and are taken, the stream has a size that exceeds the
buffer. -/
def Oversize (config : Config) (sendTo : Answers) (bytes : List UInt8) : Prop :=
  ∃ (sent : List (List UInt8)) (size rest : List UInt8),
    bytes = sent.flatMap frame ++ (size ++ rest) ∧
    (∀ d ∈ sent, d.length ≤ config.bufferSize.toNat) ∧ Taken sendTo sent ∧ size.length = 8 ∧
    config.bufferSize.toNat < LittleEndian.decode size

section Frames

variable {config : Config} {sendTo : Answers} {datagram rest : List UInt8}
  {sent : List (List UInt8)}

/-- A stream with a frame at the front is oversize if its datagram is taken and the rest is. -/
lemma oversize_frame_append (hd : datagram.length ≤ config.bufferSize.toNat) :
    Oversize config sendTo (frame datagram ++ rest) ↔
      sendTo 0 datagram = none ∧ Oversize config sendTo.tail rest := by
  constructor
  · rintro ⟨sent, size, tail, h, hfits, htaken, hsize, hlarge⟩
    cases sent with
    | nil =>
      -- the size would be that of the frame
      obtain ⟨heq, -⟩ := decode_of_frame hd hsize h.symm
      omega
    | cons d ds =>
      rw [List.flatMap_cons, List.append_assoc] at h
      obtain ⟨rfl, hrest⟩ := frame_append_inj hd (hfits d List.mem_cons_self) h
      obtain ⟨hfirst, htaken⟩ := taken_cons.mp htaken
      exact ⟨hfirst, ds, size, tail, hrest, fun d' hd' => hfits d' (List.mem_cons_of_mem _ hd'),
        htaken, hsize, hlarge⟩
  · rintro ⟨hfirst, sent, size, tail, rfl, hfits, htaken, hsize, hlarge⟩
    refine ⟨datagram :: sent, size, tail, by simp, ?_, taken_cons.mpr ⟨hfirst, htaken⟩, hsize,
      hlarge⟩
    simpa using ⟨hd, hfits⟩

/-- An oversize stream starts with a size that is too large or with a frame. -/
lemma front_of_oversize {bytes : List UInt8} (h : Oversize config sendTo bytes) :
    (∃ size rest, bytes = size ++ rest ∧ size.length = 8 ∧
      config.bufferSize.toNat < LittleEndian.decode size) ∨
    ∃ d rest, d.length ≤ config.bufferSize.toNat ∧ bytes = frame d ++ rest := by
  obtain ⟨sent, size, rest, rfl, hfits, -, hsize, hlarge⟩ := h
  cases sent with
  | nil => exact .inl ⟨size, rest, rfl, hsize, hlarge⟩
  | cons d ds =>
    refine .inr ⟨d, ds.flatMap frame ++ (size ++ rest), hfits d List.mem_cons_self, ?_⟩
    rw [List.flatMap_cons, List.append_assoc]

/-- Where no frame is at the front that is taken, nothing is sent. -/
lemma complete_nil {bytes : List UInt8}
    (h : ∀ d tail, d.length ≤ config.bufferSize.toNat → sendTo 0 d = none →
      bytes ≠ frame d ++ tail) : Complete config sendTo bytes [] :=
  ⟨bytes, rfl, by simp, taken_nil, h⟩

/-- A frame at the front whose datagram is taken. -/
lemma complete_cons (hd : datagram.length ≤ config.bufferSize.toNat)
    (hfirst : sendTo 0 datagram = none) (h : Complete config sendTo.tail rest sent) :
    Complete config sendTo (frame datagram ++ rest) (datagram :: sent) := by
  obtain ⟨tail, rfl, hfits, htaken, hnone⟩ := h
  refine ⟨tail, by simp, ?_, taken_cons.mpr ⟨hfirst, htaken⟩, hnone⟩
  simpa using ⟨hd, hfits⟩

/-- **What is received from any stream.** The datagrams whose frames are whole and fit are sent, up
to one that is refused, and then the receiver panics exactly if a size follows that exceeds its
buffer.

**Proof sketch.** Induction on the length of the stream. Each round takes one frame off the front,
and what ends the loop is a stream without one: there is no header, its size is too large, or less
follows than it says; or the datagram of the frame is refused. -/
theorem receiveUdp_spec (config : Config) (sendTo : Answers) (diode : Reader UInt8 IoError) :
    Complete config sendTo diode.bytes (receiveUdp config sendTo diode).1 ∧
      ((receiveUdp config sendTo diode).2 = .error .panic ↔
        Oversize config sendTo diode.bytes) := by
  induction hn : diode.bytes.length using Nat.strong_induction_on generalizing diode sendTo with
  | _ n ih =>
    have hres := receiveResult config sendTo diode
    generalize receiveUdp config sendTo diode = res at hres
    cases hres with
    | short hshort =>
      have hnone (d tail : List UInt8) : diode.bytes ≠ frame d ++ tail := by
        intro h
        rw [h, List.length_append, length_frame] at hshort
        omega
      refine ⟨complete_nil fun d tail _ _ => hnone d tail, iff_of_false (by simp) fun h => ?_⟩
      rcases front_of_oversize h with ⟨size, rest, hb, hsize, -⟩ | ⟨d, rest, -, hb⟩
      · rw [hb, List.length_append] at hshort
        omega
      · exact absurd hb (hnone d rest)
    | @oversize size rest hb hsize hlarge =>
      refine ⟨complete_nil fun d tail hd _ h => ?_,
        iff_of_true rfl ⟨[], size, rest, hb, by simp, taken_nil, hsize, hlarge⟩⟩
      obtain ⟨heq, -⟩ := decode_of_frame hd hsize (hb.symm.trans h)
      omega
    | cut hb hsize hfits hshort =>
      have hnone (d tail : List UInt8) (hd : d.length ≤ config.bufferSize.toNat) :
          diode.bytes ≠ frame d ++ tail := by
        intro h
        obtain ⟨heq, hrest⟩ := decode_of_frame hd hsize (hb.symm.trans h)
        rw [hrest, heq, List.length_append] at hshort
        omega
      refine ⟨complete_nil fun d tail hd _ => hnone d tail hd, iff_of_false (by simp) fun h => ?_⟩
      rcases front_of_oversize h with ⟨size', rest, hb', hsize', hlarge⟩ | ⟨d, rest, hd, hb'⟩
      · obtain ⟨rfl, -⟩ := List.append_inj (hb.symm.trans hb') (hsize.trans hsize'.symm)
        omega
      · exact absurd hb' (hnone d rest hd)
    | @refused datagram rest e hb hfits hsend =>
      rw [hb]
      refine ⟨complete_nil fun d tail hd hnone h => ?_, iff_of_false (by simp) fun h => ?_⟩
      · obtain ⟨rfl, -⟩ := frame_append_inj hfits hd h
        rw [hsend] at hnone
        cases hnone
      · have hfirst := ((oversize_frame_append hfits).mp h).1
        rw [hsend] at hfirst
        cases hfirst
    | @frame datagram diode' hb hfits hsend =>
      have hlt : diode'.bytes.length < n := by
        rw [← hn, hb, List.length_append, length_frame]
        omega
      obtain ⟨hcomplete, hpanic⟩ := ih _ hlt sendTo.tail diode' rfl
      rw [hb]
      refine ⟨complete_cons hfits hsend hcomplete, hpanic.trans ?_⟩
      rw [oversize_frame_append hfits, and_iff_right hsend]

end Frames

/-- **The streams that both receivers survive**, whatever the operating system answers.
`receive_udp` does not panic, and has sent the datagrams of the whole frames at the front, up to one
that is refused, exactly if no frame before that announces more than its buffer holds.
`receive_file` does not panic exactly if the name can be allocated. -/
theorem receivers_survive_iff (udp : Config) (sendTo : Answers) (digest : List UInt8 → BitVec 128)
    (system : File.System) (file : File.Config) (outputDir : String) (files : File.Files)
    (diode : Reader UInt8 IoError) :
    (((receiveUdp udp sendTo diode).2 ≠ .error .panic ∧
        Complete udp sendTo diode.bytes (receiveUdp udp sendTo diode).1) ↔
      ¬ Oversize udp sendTo diode.bytes) ∧
    ((File.receiveFile digest system file diode outputDir files).1 ≠ .error .panic ↔
      ¬ File.LargeName system.alloc diode.bytes) := by
  obtain ⟨hcomplete, hpanic⟩ := receiveUdp_spec udp sendTo diode
  rw [and_iff_left hcomplete]
  exact ⟨not_congr hpanic, not_congr File.receiveFile_eq_panic_iff⟩

/-- **Neither receiver survives every stream**, where the operating system grants everything. A size
of three for a buffer of two bytes, and the largest length of a name. -/
theorem not_receivers_survive :
    ¬ (∀ (config : Config) (diode : Reader UInt8 IoError),
      (receiveUdp config .sent diode).2 ≠ .error .panic) ∧
    ¬ (∀ (digest : List UInt8 → BitVec 128) (config : File.Config) (diode : Reader UInt8 IoError)
      (outputDir : String) (files : File.Files),
      (File.receiveFile digest .generous config diode outputDir files).1 ≠ .error .panic) := by
  constructor
  · intro hall
    refine hall ⟨2⟩ (.whole (LittleEndian.encode 8 3)) ?_
    decide +kernel
  · intro hall
    refine hall (fun _ => 0) ⟨2, false⟩ (.whole (List.replicate 8 255)) "out" (fun _ => none) ?_
    decide +kernel

end Lidi.Udp
