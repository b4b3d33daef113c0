import Lidi.File.Protocol

set_option relaxedAutoImplicit false
set_option autoImplicit false

/-!
# Datagrams over a stream

`send_udp_aux` writes each datagram that it receives to the diode, after a header with its size.
`receive_udp` reads a header, then as many bytes as it says, and sends them as a datagram, until
the stream ends or fails, or a datagram is refused: one that is too large for the network, say.

## Main definitions

* `Udp.sendUdpAux`, `Udp.receiveUdp` — the two functions of the source.
* `Udp.Answers`, `Udp.Taken` — what `send_to` answers, and the datagrams that it takes.
* `Udp.ReceiveResult` — the cases of `Udp.receiveUdp`.

## Main results

* `Udp.receiveResult` — the receiver does one of these.
* `Udp.receiveUdp_frame` — what the receiver does with a whole frame.
* `Udp.receiveUdp_cut` — what it does with a part of a frame.
* `Udp.udp_relay` — the datagrams whose frames are whole are sent, and then an error is returned.
-/

namespace Lidi.Udp

open File (unexpectedEof)

/-- `udp::Config`, without the addresses of the diode. A `usize` has 64 bits. Both programs allocate
a buffer of `bufferSize` bytes before their loops, and the size is taken to be one that can be
allocated: the source panics on it from `2 ^ 63` on, and aborts where there is no memory for it. -/
structure Config where
  bufferSize : UInt64
  deriving DecidableEq, Repr

namespace Protocol

/-- `udp::protocol::Error`. -/
inductive Error
  | io (e : IoError)
  deriving DecidableEq, Repr

end Protocol

/-- `udp::Error`. -/
inductive Error
  | io (e : IoError)
  | diode (e : Protocol.Error)
  | other (message : String)
  deriving DecidableEq, Repr

/-- `udp::protocol::Header`. -/
structure Header where
  size : UInt64
  deriving DecidableEq, Repr

namespace Header

/-- The bytes that `Header::serialize_to` writes. -/
def serialize (h : Header) : List UInt8 :=
  LittleEndian.encode 8 h.size.toNat

/-- `Header::deserialize_from`. -/
def deserializeFrom (r : Reader UInt8 IoError) :
    Except Protocol.Error (Header × Reader UInt8 IoError) :=
  match r.readExact 8 unexpectedEof with
  | .error e => .error (.io e)
  | .ok (size, r) => .ok (⟨UInt64.ofNat (LittleEndian.decode size)⟩, r)

/-- A header that has been read holds the size at the front of the stream. -/
lemma size_of_deserializeFrom {r r' : Reader UInt8 IoError} {header : Header}
    (h : deserializeFrom r = .ok (header, r')) :
    ∃ size, r.bytes = size ++ r'.bytes ∧ size.length = 8 ∧
      header.size.toNat = LittleEndian.decode size := by
  unfold deserializeFrom at h
  split at h
  · cases h
  · rename_i size r'' hread
    cases h
    obtain ⟨hb, hlen⟩ := Reader.bytes_of_readExact hread
    exact ⟨size, hb, hlen, LittleEndian.toNat_ofNat_decode_eight hlen⟩

/-- A header that cannot be read is cut. -/
lemma length_lt_of_deserializeFrom {r : Reader UInt8 IoError} {e : Protocol.Error}
    (h : deserializeFrom r = .error e) : r.bytes.length < 8 := by
  unfold deserializeFrom at h
  split at h
  · rename_i e' hread
    exact Reader.length_lt_of_readExact_error hread
  · cases h

end Header

/-- What `send_udp_aux` writes to the diode for the datagrams that it receives. What does not fit
in the buffer is dropped by `recv_from`. -/
def sendUdpAux (config : Config) : List (List UInt8) → List UInt8
  | [] => []
  | datagram :: datagrams =>
    let received := datagram.take config.bufferSize.toNat
    (Header.mk (UInt64.ofNat received.length)).serialize ++ received ++ sendUdpAux config datagrams

/-- What the calls of `send_to` answer to their datagrams: an error, or nothing if the datagram is
sent. The calls are numbered. -/
abbrev Answers :=
  ℕ → List UInt8 → Option IoError

namespace Answers

/-- The answers after the first. -/
def tail (sendTo : Answers) : Answers :=
  fun i => sendTo (i + 1)

/-- Every datagram is sent. -/
def sent : Answers :=
  fun _ _ => none

end Answers

/-- `receive_udp` after the socket has been bound: the datagrams that it sends, and what it returns.
The buffer is indexed with the size that was read, which panics if it is larger. -/
def receiveUdp (config : Config) (sendTo : Answers) (diode : Reader UInt8 IoError) :
    List (List UInt8) × Outcome Error ℕ :=
  match _hheader : Header.deserializeFrom diode with
  | .error e => ([], .error (.error (.diode e)))
  | .ok (header, diode') =>
    if config.bufferSize < header.size then ([], .error .panic)
    else
      match _hread : diode'.readExact header.size.toNat unexpectedEof with
      | .error e => ([], .error (.error (.io e)))
      | .ok (datagram, diode'') =>
        match sendTo 0 datagram with
        | some e => ([], .error (.error (.io e)))
        | none =>
          let res := receiveUdp config sendTo.tail diode''
          (datagram :: res.1, res.2)
termination_by diode.bytes.length
decreasing_by
  obtain ⟨size, hbytes, hsize, -⟩ := Header.size_of_deserializeFrom _hheader
  rw [hbytes, (Reader.bytes_of_readExact _hread).1, List.length_append, List.length_append]
  omega

section Relay

variable {sender receiver : Config} {sendTo : Answers} {datagrams : List (List UInt8)}
  {datagram size rest tail : List UInt8} {diode : Reader UInt8 IoError}

/-- Every one of the datagrams is sent, if they are sent one after the other. -/
def Taken (sendTo : Answers) (datagrams : List (List UInt8)) : Prop :=
  ∀ i d, datagrams[i]? = some d → sendTo i d = none

/-- No datagrams are taken by any network. -/
@[simp]
lemma taken_nil : Taken sendTo [] := by
  intro i d h
  simp at h

/-- The first datagram is taken, and then the others. -/
@[simp]
lemma taken_cons : Taken sendTo (datagram :: datagrams) ↔
    sendTo 0 datagram = none ∧ Taken sendTo.tail datagrams := by
  constructor
  · intro h
    exact ⟨h 0 datagram rfl, fun i d hd => h (i + 1) d hd⟩
  · rintro ⟨hfirst, hrest⟩ i d hd
    cases i with
    | zero =>
      obtain rfl : datagram = d := Option.some.inj hd
      exact hfirst
    | succ i => exact hrest i d hd

/-- A network that sends everything takes all datagrams. -/
lemma taken_sent (datagrams : List (List UInt8)) : Taken .sent datagrams :=
  fun _ _ _ => rfl

/-- A datagram with its header. -/
def frame (datagram : List UInt8) : List UInt8 :=
  (Header.mk (UInt64.ofNat datagram.length)).serialize ++ datagram

/-- A frame has eight bytes more than its datagram. -/
@[simp]
lemma length_frame (datagram : List UInt8) : (frame datagram).length = 8 + datagram.length := by
  simp [frame, Header.serialize]

/-- Datagrams that fit in the buffer of the sender are written as they are. -/
lemma sendUdpAux_eq (h : ∀ d ∈ datagrams, d.length ≤ sender.bufferSize.toNat) :
    sendUdpAux sender datagrams = datagrams.flatMap frame := by
  induction datagrams with
  | nil => rfl
  | cons d ds ih =>
    have hd := h d List.mem_cons_self
    rw [sendUdpAux, ih fun d' hd' => h d' (List.mem_cons_of_mem _ hd'), List.flatMap_cons, frame]
    simp only [List.take_of_length_le hd]

/-- The size in the header of a frame. -/
lemma decode_of_frame (hd : datagram.length ≤ receiver.bufferSize.toNat) (hsize : size.length = 8)
    (h : size ++ rest = frame datagram ++ tail) :
    LittleEndian.decode size = datagram.length ∧ rest = datagram ++ tail := by
  have hlt : datagram.length < 256 ^ 8 := hd.trans_lt receiver.bufferSize.toNat_lt
  have hnat : (UInt64.ofNat datagram.length).toNat = datagram.length := by
    rw [UInt64.toNat_ofNat']
    exact Nat.mod_eq_of_lt hlt
  rw [frame, List.append_assoc, Header.serialize, hnat] at h
  obtain ⟨rfl, rfl⟩ := List.append_inj h (by simp [hsize])
  exact ⟨LittleEndian.decode_encode_of_lt hlt, rfl⟩

/-- A stream has one frame at the front. -/
lemma frame_append_inj {datagram' : List UInt8}
    (hd : datagram.length ≤ receiver.bufferSize.toNat)
    (hd' : datagram'.length ≤ receiver.bufferSize.toNat)
    (h : frame datagram ++ rest = frame datagram' ++ tail) :
    datagram = datagram' ∧ rest = tail := by
  have hframe : frame datagram ++ rest =
      (Header.mk (UInt64.ofNat datagram.length)).serialize ++ (datagram ++ rest) := by
    rw [frame, List.append_assoc]
  obtain ⟨hlen, -⟩ := decode_of_frame hd (LittleEndian.length_encode ..) hframe.symm
  obtain ⟨hlen', hrest⟩ :=
    decode_of_frame hd' (LittleEndian.length_encode ..) (hframe.symm.trans h)
  exact List.append_inj hrest (hlen.symm.trans hlen')

/-- A size that is followed by as many bytes makes a frame. -/
lemma eq_frame (hsize : size.length = 8) (h : LittleEndian.decode size = datagram.length) :
    size ++ datagram = frame datagram := by
  rw [frame, Header.serialize, ← h, LittleEndian.toNat_ofNat_decode_eight hsize,
    LittleEndian.encode_decode_of_length hsize]

/-- What the receiver can do: find no header, an indexing of the buffer that panics, or less than
the header says, have a datagram refused, or send it and go on. -/
inductive ReceiveResult (config : Config) (sendTo : Answers) (diode : Reader UInt8 IoError) :
    List (List UInt8) × Outcome Error ℕ → Prop
  | short {e : Error} (hshort : diode.bytes.length < 8) :
      ReceiveResult config sendTo diode ([], .error (.error e))
  | oversize {size rest : List UInt8} (hb : diode.bytes = size ++ rest) (hsize : size.length = 8)
      (hlarge : config.bufferSize.toNat < LittleEndian.decode size) :
      ReceiveResult config sendTo diode ([], .error .panic)
  | cut {size rest : List UInt8} {e : Error} (hb : diode.bytes = size ++ rest)
      (hsize : size.length = 8) (hfits : LittleEndian.decode size ≤ config.bufferSize.toNat)
      (hshort : rest.length < LittleEndian.decode size) :
      ReceiveResult config sendTo diode ([], .error (.error e))
  | refused {datagram rest : List UInt8} {e : IoError}
      (hb : diode.bytes = Udp.frame datagram ++ rest)
      (hfits : datagram.length ≤ config.bufferSize.toNat) (hsend : sendTo 0 datagram = some e) :
      ReceiveResult config sendTo diode ([], .error (.error (.io e)))
  | frame {datagram : List UInt8} {diode' : Reader UInt8 IoError}
      (hb : diode.bytes = frame datagram ++ diode'.bytes)
      (hfits : datagram.length ≤ config.bufferSize.toNat) (hsend : sendTo 0 datagram = none) :
      ReceiveResult config sendTo diode (datagram :: (receiveUdp config sendTo.tail diode').1,
        (receiveUdp config sendTo.tail diode').2)

/-- **The receiver does one of these.** -/
theorem receiveResult (config : Config) (sendTo : Answers) (diode : Reader UInt8 IoError) :
    ReceiveResult config sendTo diode (receiveUdp config sendTo diode) := by
  rw [receiveUdp]
  split
  · rename_i e hheader
    exact .short (Header.length_lt_of_deserializeFrom hheader)
  · rename_i header diode' hheader
    obtain ⟨size, hb, hsize, hdecode⟩ := Header.size_of_deserializeFrom hheader
    split
    · rename_i hlarge
      rw [UInt64.lt_iff_toNat_lt, hdecode] at hlarge
      exact .oversize hb hsize hlarge
    · rename_i hfits
      rw [UInt64.lt_iff_toNat_lt, hdecode, not_lt] at hfits
      split
      · rename_i e hread
        have hshort := Reader.length_lt_of_readExact_error hread
        rw [hdecode] at hshort
        exact .cut hb hsize hfits hshort
      · rename_i datagram diode'' hread
        obtain ⟨hb', hlen⟩ := Reader.bytes_of_readExact hread
        rw [hdecode] at hlen
        have hframe : diode.bytes = frame datagram ++ diode''.bytes := by
          rw [hb, hb', ← List.append_assoc, eq_frame hsize hlen.symm]
        split
        · rename_i e hsend
          exact .refused hframe (hlen.trans_le hfits) hsend
        · rename_i hsend
          exact .frame hframe (hlen.trans_le hfits) hsend

/-- **A whole frame** is sent as a datagram, or an error is returned and nothing is sent. -/
theorem receiveUdp_frame (sendTo : Answers)
    (hsize : datagram.length ≤ receiver.bufferSize.toNat)
    (hdiode : diode.bytes = frame datagram ++ rest) :
    (∃ e, sendTo 0 datagram = some e ∧
      receiveUdp receiver sendTo diode = ([], .error (.error (.io e)))) ∨
    ∃ diode' : Reader UInt8 IoError, sendTo 0 datagram = none ∧ diode'.bytes = rest ∧
      receiveUdp receiver sendTo diode = (datagram :: (receiveUdp receiver sendTo.tail diode').1,
        (receiveUdp receiver sendTo.tail diode').2) := by
  have hres := receiveResult receiver sendTo diode
  generalize receiveUdp receiver sendTo diode = res at hres
  cases hres with
  | short hshort =>
    rw [hdiode, List.length_append, length_frame] at hshort
    omega
  | oversize hb hlen hlarge =>
    obtain ⟨heq, -⟩ := decode_of_frame hsize hlen (hb.symm.trans hdiode)
    omega
  | cut hb hlen hfits hshort =>
    obtain ⟨heq, hrest⟩ := decode_of_frame hsize hlen (hb.symm.trans hdiode)
    rw [hrest, heq, List.length_append] at hshort
    omega
  | refused hb hfits hsend =>
    obtain ⟨rfl, -⟩ := frame_append_inj hfits hsize (hb.symm.trans hdiode)
    exact .inl ⟨_, hsend, rfl⟩
  | frame hb hfits hsend =>
    obtain ⟨rfl, hrest⟩ := frame_append_inj hfits hsize (hb.symm.trans hdiode)
    exact .inr ⟨_, hsend, hrest, rfl⟩

/-- **A part of a frame** is an error, and nothing is sent. -/
theorem receiveUdp_cut (hsize : datagram.length ≤ receiver.bufferSize.toNat)
    (hpart : diode.bytes <+: frame datagram) (hcut : diode.bytes.length < (frame datagram).length) :
    ∃ e, receiveUdp receiver sendTo diode = ([], .error (.error e)) := by
  obtain ⟨missing, hmissing⟩ := hpart
  have hframe : diode.bytes ++ missing = frame datagram ++ [] := by
    rw [hmissing, List.append_nil]
  have hres := receiveResult receiver sendTo diode
  generalize receiveUdp receiver sendTo diode = res at hres
  cases hres with
  | short hshort => exact ⟨_, rfl⟩
  | oversize hb hlen hlarge =>
    rw [hb, List.append_assoc] at hframe
    obtain ⟨heq, -⟩ := decode_of_frame hsize hlen hframe
    omega
  | cut hb hlen hfits hshort => exact ⟨_, rfl⟩
  | refused hb hfits hsend => exact ⟨_, rfl⟩
  | frame hb hfits hsend =>
    -- the stream would have the whole frame
    rw [hb, List.append_assoc] at hframe
    obtain ⟨rfl, -⟩ := frame_append_inj hfits hsize hframe
    rw [hb, List.length_append] at hcut
    omega

/-- The end of the stream between two frames is an error. -/
lemma receiveUdp_nil (hdiode : diode.bytes = []) :
    ∃ e, receiveUdp receiver sendTo diode = ([], .error (.error e)) := by
  have hpart : diode.bytes <+: frame [] := by simp [hdiode]
  exact receiveUdp_cut (Nat.zero_le _) hpart (by simp [hdiode])

/-- **The frames of a cut stream.** The datagrams whose frames are whole are sent, up to one that is
refused. -/
lemma receiveUdp_take (sendTo : Answers)
    (hsize : ∀ d ∈ datagrams, d.length ≤ receiver.bufferSize.toNat) (n : ℕ)
    (hdiode : diode.bytes = (datagrams.flatMap frame).take n) :
    ∃ done rest e, datagrams = done ++ rest ∧
      (done.flatMap frame).length ≤ n ∧
      (∀ d, rest.head? = some d → sendTo done.length d = none →
        n < ((done ++ [d]).flatMap frame).length) ∧
      receiveUdp receiver sendTo diode = (done, .error (.error e)) := by
  induction datagrams generalizing n diode sendTo with
  | nil =>
    have hnil : diode.bytes = [] := by simpa using hdiode
    obtain ⟨e, he⟩ : ∃ e, receiveUdp receiver sendTo diode = ([], .error (.error e)) :=
      receiveUdp_nil hnil
    exact ⟨[], [], e, rfl, by simp, by simp, he⟩
  | cons d ds ih =>
    have hd := hsize d List.mem_cons_self
    rw [List.flatMap_cons] at hdiode
    rcases lt_or_ge n (frame d).length with hcut | hwhole
    · rw [List.take_append_of_le_length hcut.le] at hdiode
      obtain ⟨e, he⟩ := receiveUdp_cut hd (hdiode ▸ List.take_prefix _ _)
        (by rw [hdiode, List.length_take]; omega)
      refine ⟨[], d :: ds, e, rfl, by simp, ?_, he⟩
      intro d' hd' _
      obtain rfl : d = d' := Option.some.inj hd'
      simpa using hcut
    rw [List.take_append, List.take_of_length_le hwhole] at hdiode
    rcases receiveUdp_frame sendTo hd hdiode with
      ⟨e, hsend, heq⟩ | ⟨diode', -, hrest, heq⟩
    · -- the first datagram is refused
      refine ⟨[], d :: ds, _, rfl, by simp, ?_, heq⟩
      intro d' hd' hnone
      obtain rfl : d = d' := Option.some.inj hd'
      rw [List.length_nil, hsend] at hnone
      cases hnone
    · obtain ⟨done, rest, e, hds, hle, hlt, hrec⟩ :=
        ih sendTo.tail (fun d' hd' => hsize d' (List.mem_cons_of_mem _ hd'))
          (n - (frame d).length) hrest
      refine ⟨d :: done, rest, e, by rw [hds]; rfl, ?_, ?_, by rw [heq, hrec]⟩
      · rw [List.flatMap_cons, List.length_append]
        omega
      · intro d' hd' hnone
        have hmore := hlt d' hd' hnone
        rw [List.cons_append, List.flatMap_cons, List.length_append]
        omega

/-- **Datagrams over a stream.** Let datagrams that fit in both buffers and that `send_to` takes be
relayed, and the stream be cut after `n` bytes, whatever the reads return. The receiver sends the
datagrams whose frames are within these bytes, in their order, and then returns an error. If the
stream is not cut, these are all of them. -/
theorem udp_relay (hsender : ∀ d ∈ datagrams, d.length ≤ sender.bufferSize.toNat)
    (hreceiver : ∀ d ∈ datagrams, d.length ≤ receiver.bufferSize.toNat)
    (htaken : Taken sendTo datagrams) (n : ℕ)
    (hdiode : diode.bytes = (sendUdpAux sender datagrams).take n) :
    ∃ done rest e, datagrams = done ++ rest ∧
      (sendUdpAux sender done).length ≤ n ∧
      (∀ d, rest.head? = some d → n < (sendUdpAux sender (done ++ [d])).length) ∧
      ((sendUdpAux sender datagrams).length ≤ n → rest = []) ∧
      receiveUdp receiver sendTo diode = (done, .error (.error e)) := by
  rw [sendUdpAux_eq hsender] at hdiode ⊢
  obtain ⟨done, rest, e, rfl, hle, hcut, hrec⟩ := receiveUdp_take sendTo hreceiver n hdiode
  have hlt : ∀ d, rest.head? = some d → n < ((done ++ [d]).flatMap frame).length := by
    intro d hd
    refine hcut d hd (htaken done.length d ?_)
    rw [List.getElem?_append_right le_rfl, Nat.sub_self, ← List.head?_eq_getElem?, hd]
  have hpart : ∀ part, part <+: done ++ rest → sendUdpAux sender part = part.flatMap frame :=
    fun part hpart => sendUdpAux_eq fun d hd => hsender d (hpart.subset hd)
  refine ⟨done, rest, e, rfl, ?_, ?_, ?_, hrec⟩
  · rwa [hpart done (List.prefix_append _ _)]
  · intro d hd
    obtain ⟨tail, rfl⟩ := List.head?_eq_some_iff.mp hd
    rw [hpart (done ++ [d]) ⟨tail, by simp⟩]
    exact hlt d rfl
  · intro hall
    cases rest with
    | nil => rfl
    | cons d tail =>
      have hmore := hlt d rfl
      simp only [List.flatMap_append, List.flatMap_cons, List.flatMap_nil, List.length_append,
        List.length_nil] at hmore hall
      omega

/-- Two datagrams, an empty one and one of two bytes, with the last byte cut off. -/
theorem udp_relay_cut :
    ∃ done rest e, ([[], [1, 2]] : List (List UInt8)) = done ++ rest ∧
      (sendUdpAux ⟨2⟩ done).length ≤ 17 ∧
      (∀ d, rest.head? = some d → 17 < (sendUdpAux ⟨2⟩ (done ++ [d])).length) ∧
      ((sendUdpAux ⟨2⟩ [[], [1, 2]]).length ≤ 17 → rest = []) ∧
      receiveUdp ⟨2⟩ .sent (.whole ((sendUdpAux ⟨2⟩ [[], [1, 2]]).take 17)) =
        (done, .error (.error e)) :=
  udp_relay (by simp) (by simp) (taken_sent _) 17 (by simp)

end Relay

end Lidi.Udp
