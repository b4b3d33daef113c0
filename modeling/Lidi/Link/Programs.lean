import Lidi.Link.Partial
import Lidi.Link.Sizes
import Lidi.Link.Tolerance
import Lidi.Link.Wire

set_option relaxedAutoImplicit false
set_option autoImplicit false

/-!
# The two programs

The programs of the two ends build their geometries apart, each from its own command line, and
that of the sender has no minimum of repair packets. The number of packets of a block is of no
concern to the receiver, and the number that it waits for of none to the sender. So the link of the
two programs is one whose ends share a geometry, if the receiver does not wait for more repair
packets than the sender makes.

## Main definitions

* `Link.Programs` — the configurations of the two programs.
* `Link.Programs.step`, `Link.Programs.wireStep` — the next step, without and with the sockets.
* `Link.Programs.Fit` — when their geometries fit together.
* `Link.Programs.ends` — the ends with a geometry that they share.

## Main results

* `Link.Programs.step_ends`, `Link.Programs.wireStep_ends` — the link of the two programs is the
  link of these ends, without and with the sockets, so that it has the same runs.
* `Link.Programs.fit_of_new` — the geometries of the same MTU and block size.
* `Link.Programs.intact_and_truthful` — integrity, for the two programs.
* `Link.Programs.wire_refines` — the two programs with their sockets.
* `Link.programs_deliver` — delivery over an unreliable network, for the two programs.
-/

namespace Lidi

/-! ## What the workers use of a geometry -/

section Congruence

variable {raptorq raptorq' : RaptorQ}

/-- A block depends on the geometry through its length only. -/
lemma Block.new_congr (h : raptorq'.transferLength = raptorq.transferLength) (type : BlockType)
    (id : ClientId) (data : Option (List UInt8)) :
    Block.new type raptorq' id data = Block.new type raptorq id data := by
  simp only [Block.new, h]

/-- The room for data in a block depends on its length only. -/
lemma Block.maxDataLen_congr (h : raptorq'.transferLength = raptorq.transferLength) :
    Block.maxDataLen raptorq' = Block.maxDataLen raptorq := by
  simp only [Block.maxDataLen, h]

namespace Send

/-- The loop when a read fails. -/
lemma Client.loop_of_error {flush : Bool} {id : ClientId} {len : ℕ} {buffer : List UInt8}
    {client : ClientSocket} {e : IoError} (hread : client.read (len - buffer.length) = .error e) :
    loop raptorq flush id len buffer client = ([], .error (.error (.io e))) := by
  rw [loop]
  split
  · rename_i heq
    rw [hread] at heq
    cases heq
    rfl
  · rename_i heq
    rw [hread] at heq
    cases heq

/-- One round of the loop. -/
lemma Client.loop_of_read {flush : Bool} {id : ClientId} {len : ℕ} {buffer read : List UInt8}
    {client client' : ClientSocket}
    (hread : client.read (len - buffer.length) = .ok (read, client')) :
    loop raptorq flush id len buffer client =
      if 0 < read.length ∧ ¬ (flush ∨ len ≤ (buffer ++ read).length) then
        loop raptorq flush id len (buffer ++ read) client'
      else
        match (Block.new (if read.length = 0 then .end else .data) raptorq id
          (some (buffer ++ read))).mapError Error.protocol with
        | .error f => ([], .error f)
        | .ok block =>
          if read.length = 0 then ([block], .ok ())
          else
            (block :: (loop raptorq flush id len [] client').1,
              (loop raptorq flush id len [] client').2) := by
  rw [loop]
  split
  · rename_i heq
    rw [hread] at heq
    cases heq
  · rename_i heq
    rw [hread] at heq
    cases heq
    rfl

/-- Of the geometry the loop uses the length of the blocks. -/
lemma Client.loop_congr (h : raptorq'.transferLength = raptorq.transferLength) (flush : Bool)
    (id : ClientId) (len : ℕ) (buffer : List UInt8) (client : ClientSocket) :
    loop raptorq' flush id len buffer client = loop raptorq flush id len buffer client := by
  induction hn : client.bytes.length using Nat.strong_induction_on generalizing buffer client with
  | _ n ih =>
    cases hread : client.read (len - buffer.length) with
    | error e => rw [loop_of_error hread, loop_of_error hread]
    | ok res =>
      obtain ⟨read, client'⟩ := res
      have hbytes := congrArg List.length (Reader.bytes_of_read hread).1
      rw [List.length_append] at hbytes
      rw [loop_of_read hread, loop_of_read hread, Block.new_congr h]
      by_cases hend : read.length = 0
      · simp [hend]
      · rw [ih client'.bytes.length (by omega) _ client' rfl,
          ih client'.bytes.length (by omega) _ client' rfl]

/-- A client of the sender depends on the length of the blocks only. -/
lemma Client.start_congr (h : raptorq'.transferLength = raptorq.transferLength) (flush : Bool)
    (id : ClientId) (client : ClientSocket) :
    start raptorq' flush id client = start raptorq flush id client := by
  simp only [start, Block.new_congr h, Block.maxDataLen_congr h, loop_congr h]

/-- The workers of the sender use the length of the blocks. -/
lemma Servers.step_congr {m : ℕ} {cfg : Config}
    (h : raptorq.transferLength = cfg.raptorq.transferLength) (room : Bool) (s : Servers m)
    (a : Servers.Label m) :
    s.step { cfg with raptorq := raptorq } room a = s.step cfg room a := by
  have hafter : ∀ (id : ClientId) (res : Outcome Error Unit),
      afterClient { cfg with raptorq := raptorq } id res = afterClient cfg id res := by
    intro id res
    simp only [afterClient, Block.new_congr h]
  simp only [step, Client.start_congr h, Block.new_congr h, hafter]

/-- Of its own geometry the sender uses what the encoder does and the length of the blocks. -/
lemma Sender.step_congr {m n : ℕ} {Packet : Type*} (cfg : Config)
    (h : raptorq.transferLength = cfg.raptorq.transferLength)
    (encode : UInt8 → List UInt8 → List Packet) (s : Sender m n Packet) (a : Sender.Label m n) :
    s.step { cfg with raptorq := raptorq } encode a = s.step cfg encode a := by
  cases a with
  | server a => simp only [step, Servers.step_congr h]
  | pipeline a => rfl

end Send

namespace Receive

/-- The reblock worker and the decoding threads use the number of packets that are waited for, and
the decoder. -/
lemma Core.step_congr {d : ℕ} {Packet : Type*} {crate : Crate Packet}
    (hmin : raptorq'.minNbPackets = raptorq.minNbPackets)
    (hdecode : raptorq'.decode crate = raptorq.decode crate) (s : Core d Packet)
    (a : Core.Label d) : s.step crate raptorq' a = s.step crate raptorq a := by
  cases a <;> simp only [step, hmin, hdecode]

/-- The end of all transfers depends on the length of the blocks only. -/
lemma Demux.abortAll_congr (h : raptorq'.transferLength = raptorq.transferLength)
    (active : ClientId → Option ℕ) (q : ℕ) (transfers : List Transfer) :
    abortAll raptorq' active q transfers = abortAll raptorq active q transfers := by
  induction transfers generalizing q with
  | nil => rfl
  | cons t transfers ih => simp only [abortAll, ih, Block.new_congr h]

variable {k : ℕ} {cfg : Config}

/-- The dispatch worker uses the length of the blocks. -/
lemma Demux.receive_congr (h : raptorq.transferLength = cfg.raptorq.transferLength) (s : Demux k)
    (message : Option Block) :
    s.receive { cfg with raptorq := raptorq } message = s.receive cfg message := by
  cases message with
  | none => simp only [receive, lose, abortAll_congr h]
  | some b => rfl

/-- A client of the receiver depends on the length of the blocks only. -/
lemma Client.step_congr (h : raptorq.transferLength = cfg.raptorq.transferLength) (alive : Bool)
    (t : Transfer) (stage : Stage) (answer : Answer) :
    step { cfg with raptorq := raptorq } alive t stage answer = step cfg alive t stage answer := by
  have htransmit : ∀ capacity buffer type payload,
      transmit { cfg with raptorq := raptorq } capacity buffer type payload =
        transmit cfg capacity buffer type payload := fun _ _ _ _ => rfl
  cases stage <;> cases answer <;> simp only [step, Block.maxDataLen_congr h, htransmit]

/-- The client workers use the length of the blocks. -/
lemma Demux.clientStep_congr (h : raptorq.transferLength = cfg.raptorq.transferLength)
    (s : Demux k) (w : Fin k) (answer : Client.Answer) :
    s.clientStep { cfg with raptorq := raptorq } w answer = s.clientStep cfg w answer := by
  simp only [clientStep, Client.step_congr h]

end Receive

end Congruence

/-! ## The link of the two programs -/

namespace Link

open Send Receive

/-- The configurations of the two programs, each with its own geometry. -/
structure Programs where
  sender : Send.Config
  receiver : Receive.Config

namespace Programs

variable {m n d k : ℕ} {Packet : Type*} {crate : Crate Packet}

/-- The next step; `none` if the worker is blocked. Each worker uses the geometry of its own
program. -/
def step (crate : Crate Packet) (p : Programs) (s : Lossy m n d k Packet)
    (a : Lossy.Label m n d k) : Option (Lossy m n d k Packet) :=
  s.stepWith crate p.sender p.receiver a

/-- The next step of the link with its sockets; `none` if the worker is blocked or has returned. -/
def wireStep (crate : Crate Packet) (p : Programs) (sockets : Sockets) (s : Wire m n d k Packet)
    (a : Wire.Label m n d k) : Option (Wire m n d k Packet) :=
  s.stepWith crate p.sender p.receiver sockets a

/-- The geometries fit together: the same packets and blocks, and the receiver does not wait for
more repair packets than the sender makes. -/
structure Fit (p : Programs) : Prop where
  maxPacketSize_eq : p.sender.raptorq.maxPacketSize = p.receiver.raptorq.maxPacketSize
  symbolCount_eq : p.sender.raptorq.symbolCount = p.receiver.raptorq.symbolCount
  repair_le : p.receiver.raptorq.minNbRepairPackets.toNat ≤ p.sender.raptorq.nbRepairPackets.toNat

/-- The geometry of the sender, with the minimum of the receiver. -/
def shared (p : Programs) (hfit : p.Fit) : RaptorQ :=
  { p.sender.raptorq with
    minNbRepairPackets := p.receiver.raptorq.minNbRepairPackets
    repair_le := hfit.repair_le }

/-- The ends with the geometry that they share. -/
def ends (p : Programs) (hfit : p.Fit) : Ends where
  sender := { p.sender with raptorq := p.shared hfit }
  receiver := { p.receiver with raptorq := p.shared hfit }
  raptorq_eq := rfl

variable {p : Programs}

/-- The shared geometry has the block length of the receiver. -/
lemma Fit.transferLength_eq (hfit : p.Fit) :
    (p.shared hfit).transferLength = p.receiver.raptorq.transferLength := by
  rw [← UInt32.toNat_inj, (p.shared hfit).length_eq, p.receiver.raptorq.length_eq,
    ← hfit.maxPacketSize_eq, ← hfit.symbolCount_eq]
  rfl

/-- The shared geometry waits for as many packets as the receiver. -/
lemma Fit.minNbPackets_eq (hfit : p.Fit) :
    (p.shared hfit).minNbPackets = p.receiver.raptorq.minNbPackets := by
  rw [RaptorQ.minNbPackets, RaptorQ.minNbPackets, ← hfit.symbolCount_eq]
  rfl

/-- The shared geometry decodes as the receiver does. -/
lemma Fit.decode_eq (hfit : p.Fit) (crate : Crate Packet) :
    (p.shared hfit).decode crate = p.receiver.raptorq.decode crate := by
  have hconfig : (p.shared hfit).config = p.receiver.raptorq.config := by
    rw [RaptorQ.config, RaptorQ.config, hfit.transferLength_eq, ← hfit.maxPacketSize_eq]
    rfl
  funext id packets
  rw [RaptorQ.decode, RaptorQ.decode, hconfig, hfit.transferLength_eq]

/-- The sender takes the same steps with the shared geometry: of the numbers of repair packets its
encoder uses the first. -/
lemma Fit.sender_step_eq (hfit : p.Fit) (crate : Crate Packet) (s : Sender m n Packet)
    (a : Sender.Label m n) :
    s.step (p.ends hfit).sender ((p.ends hfit).sender.raptorq.encode crate) a =
      s.step p.sender (p.sender.raptorq.encode crate) a :=
  Sender.step_congr p.sender (show (p.shared hfit).transferLength = _ from rfl)
    (p.sender.raptorq.encode crate) s a

/-- The reblock worker and the decoding threads take the same steps with the shared geometry. -/
lemma Fit.core_step_eq (hfit : p.Fit) (crate : Crate Packet) (s : Core d Packet)
    (a : Core.Label d) :
    s.step crate (p.ends hfit).receiver.raptorq a = s.step crate p.receiver.raptorq a :=
  Core.step_congr hfit.minNbPackets_eq (hfit.decode_eq crate) s a

/-- The dispatch worker does the same with the shared geometry. -/
lemma Fit.receive_eq (hfit : p.Fit) (s : Demux k) (message : Option Block) :
    s.receive (p.ends hfit).receiver message = s.receive p.receiver message :=
  Demux.receive_congr hfit.transferLength_eq s message

/-- The client workers take the same steps with the shared geometry. -/
lemma Fit.clientStep_eq (hfit : p.Fit) (s : Demux k) (w : Fin k) (answer : Client.Answer) :
    s.clientStep (p.ends hfit).receiver w answer = s.clientStep p.receiver w answer :=
  Demux.clientStep_congr hfit.transferLength_eq s w answer

/-- **The link of the two programs** is the link of the ends that share a geometry. -/
theorem step_ends (hfit : p.Fit) :
    Programs.step (m := m) (n := n) (d := d) (k := k) crate p = Lossy.step crate (p.ends hfit) := by
  funext s a
  rw [Programs.step, Lossy.step]
  cases a with
  | sender a => simp only [Lossy.stepWith, hfit.sender_step_eq]
  | arrive first rest => simp only [Lossy.stepWith, hfit.core_step_eq]
  | timeout | reblock | decode w => simp only [Lossy.stepWith, hfit.core_step_eq]
  | dispatch => simp only [Lossy.stepWith, hfit.core_step_eq, hfit.receive_eq]
  | client w answer => simp only [Lossy.stepWith, hfit.clientStep_eq]

/-- **The two programs with their sockets** are the ends that share a geometry with these
sockets. -/
theorem wireStep_ends (hfit : p.Fit) (sockets : Sockets) :
    Programs.wireStep (m := m) (n := n) (d := d) (k := k) crate p sockets =
      Wire.step crate (p.ends hfit) sockets := by
  funext s a
  rw [wireStep, Wire.step]
  cases a with
  | sender a => simp only [Wire.stepWith, hfit.sender_step_eq]
  | network i | recv | recvFails => rfl
  | datagrams | timeout | reblock | decode w => simp only [Wire.stepWith, hfit.core_step_eq]
  | dispatch => simp only [Wire.stepWith, hfit.core_step_eq, hfit.receive_eq]
  | client w answer => simp only [Wire.stepWith, hfit.clientStep_eq]

/-- **The geometries fit together** if they are made from the same MTU and block size, and the
percentage that the receiver waits for is not larger in packets than that of the sender. -/
theorem fit_of_new {profile profile' : Profile} {mtu : UInt16}
    {blockSize repair repair' minRepair : UInt32}
    (hsender : RaptorQ.new profile mtu blockSize repair 0 = .ok p.sender.raptorq)
    (hreceiver : RaptorQ.new profile' mtu blockSize repair' minRepair = .ok p.receiver.raptorq)
    (hle : RaptorQ.repairCount mtu blockSize minRepair ≤ RaptorQ.repairCount mtu blockSize repair) :
    p.Fit := by
  have hs := RaptorQ.Built.of_new hsender
  have hr := RaptorQ.Built.of_new hreceiver
  constructor
  · rw [← UInt16.toNat_inj, hs.maxPacketSize_eq, hr.maxPacketSize_eq]
  · rw [← UInt16.toNat_inj, hs.symbolCount_eq, hr.symbolCount_eq]
  · rw [hr.minRepair_eq, hs.sender_repair_eq]
    exact hle

/-- The link of the two programs with the history of what has arrived. -/
def tolerant (crate : Crate Packet) (p : Programs) (s : Tolerant m n d k Packet)
    (a : Lossy.Label m n d k) : Option (Tolerant m n d k Packet) :=
  (Programs.step crate p s.link a).map fun link => ⟨link, s.arrivedAfter a⟩

/-- Two programs over a network that loses little are the link with the shared geometry. -/
lemma tolerant_ends (hfit : p.Fit) : Programs.tolerant (m := m) (n := n) (d := d) (k := k) crate p =
    Tolerant.step crate (p.ends hfit) := by
  funext s a
  rw [Programs.tolerant, Tolerant.step, step_ends hfit]

/-- A lawful crate is lawful for the geometry that the ends share. -/
lemma Fit.lawful (hfit : p.Fit) (hlaw : crate.Lawful p.sender.raptorq) :
    crate.Lawful (p.shared hfit) where
  sourceBlockNumber_encode := hlaw.sourceBlockNumber_encode
  deserialize_serialize := hlaw.deserialize_serialize
  decode_encode := hlaw.decode_encode

/-- **Integrity, for the two programs.** If their geometries fit together and every step is sound,
what has been written of a transfer is a beginning of the stream of its client, and all of it if
the transfer has ended with success. -/
theorem intact_and_truthful (hfit : p.Fit) {len : ℕ} {todo : List (Option ClientSocket)}
    {s : Lossy m n d k Packet} (hlaw : crate.Lawful p.sender.raptorq)
    (hmax : Block.maxDataLen p.sender.raptorq = some len) (hpos : 0 < len) (hn : n < 256)
    (hfew : todo.reduceOption.length < 2 ^ 32)
    (h : LTS.ReachVia (Programs.step crate p) (Lossy.Sound crate (p.ends hfit))
      (Lossy.init m n d k Packet todo) s) : s.Intact ∧ s.Truthful := by
  rw [step_ends hfit] at h
  have hmax' : Block.maxDataLen (p.ends hfit).sender.raptorq = some len := hmax
  obtain ⟨hinv, hbegun⟩ := Lossy.inv_and_partial (hfit.lawful hlaw) hmax' hpos hn hfew h
  exact ⟨hinv.intact hmax' hpos, hinv.truthful_of_partial hmax' hpos hbegun⟩

/-- **The two programs with their sockets** refine the link in which packets arrive, if these fit in
the buffers of the receiver, and its reblock worker never panics. -/
theorem wire_refines (hfit : p.Fit) {sockets : Sockets} {len : ℕ}
    {clients : List ClientSocket} {answers : List Bool} {s : Wire m n d k Packet}
    (hlaw : crate.Lawful p.sender.raptorq) (hsized : crate.Sized p.sender.raptorq)
    (hcrate : ∀ d, crate.deserialize d = none ↔ d.length < 4)
    (hfits : p.sender.raptorq.maxPacketSize.toNat + 4 ≤ sockets.fromMtu.toNat)
    (hbatch : sockets.batchReceive ≠ some 0)
    (hmax : Block.maxDataLen p.sender.raptorq = some len) (hpos : 0 < len) (hn : n < 256)
    (hfew : clients.length < 2 ^ 32)
    (h : LTS.Reach (Programs.wireStep crate p sockets)
      (Wire.init m n d k Packet clients answers) s) :
    (∃ l, LTS.Reach (Programs.step crate p) (Lossy.init m n d k Packet (clients.map some)) l ∧
      l.sender = s.sender ∧ l.core = s.core ∧ l.demux = s.demux) ∧
    s.core.reblock.phase ≠ .panicked := by
  rw [wireStep_ends hfit] at h
  obtain ⟨l, hreach, hmodels⟩ :=
    Wire.Models.of_reach (hfit.lawful hlaw) hsized hcrate hfits hbatch hmax hpos hn hfew h
  rw [step_ends hfit]
  refine ⟨⟨l, hreach, hmodels.sender_eq, hmodels.core_eq, hmodels.demux_eq⟩, ?_⟩
  rw [← hmodels.core_eq]
  exact hmodels.safe.1

end Programs

/-- **Delivery, for the two programs.** Each program makes its geometry from its own command line;
they have the same MTU and block size, and the percentage that the receiver waits for is not larger
in packets than that of the sender. The number `least` of packets that the receiver waits for does
not overflow in a debug build. Then what crosses an unreliable network is delivered.

**Proof sketch.** The geometries fit together, so every run of the link of the two programs is one
of ends that share a geometry. -/
theorem programs_deliver {m n d k : ℕ} {Packet : Type*} {crate : Crate Packet} {p : Programs}
    {profile profile' : Profile} {mtu : UInt16} {blockSize repair repair' minRepair : UInt32}
    {spared : ClientId → Prop} {clients : List ClientSocket} {len : ℕ} {least : UInt16}
    (hsender : RaptorQ.new profile mtu blockSize repair 0 = .ok p.sender.raptorq)
    (hreceiver : RaptorQ.new profile' mtu blockSize repair' minRepair = .ok p.receiver.raptorq)
    (hle : RaptorQ.repairCount mtu blockSize minRepair ≤ RaptorQ.repairCount mtu blockSize repair)
    (hlaw : crate.Lawful p.sender.raptorq)
    (hmax : Block.maxDataLen p.sender.raptorq = some len) (hpos : 0 < len)
    (hleast : (p.receiver.raptorq.threshold profile' : Outcome Receive.Error UInt16) = .ok least)
    (hmin : 0 < least.toNat) (hfew : clients.length < 2 ^ 32)
    (hm : 0 < m) (hn : 0 < n ∧ n < 256) (hd : 0 < d ∧ d < 256) (hk : 0 < k) :
    ∃ hfit : p.Fit, ∀ s : Tolerant m n d k Packet,
      LTS.ReachVia (Programs.tolerant crate p) (Tolerant.Benign crate (p.ends hfit) spared)
        (Tolerant.init m n d k Packet clients) s →
      s.Delivers crate (p.ends hfit) spared clients := by
  have hfit := Programs.fit_of_new hsender hreceiver hle
  refine ⟨hfit, fun s h => ?_⟩
  rw [Programs.tolerant_ends hfit] at h
  have hlaw' : crate.Lawful (p.ends hfit).sender.raptorq := hfit.lawful hlaw
  have hmax' : Block.maxDataLen (p.ends hfit).sender.raptorq = some len := hmax
  have hmin' : 0 < (p.ends hfit).receiver.raptorq.minNbPackets.toNat := by
    show 0 < (p.shared hfit).minNbPackets.toNat
    rwa [hfit.minNbPackets_eq, ← RaptorQ.eq_minNbPackets_of_threshold hleast]
  have hinv := Tolerant.Inv.of_benign hlaw' hmax' hpos hmin' hn.2 hd.2 hfew h
  have hchannel := Tolerant.channel_inv hlaw' hmax' hpos hmin' hn.2 hd.2 hfew h
  exact hinv.delivers hchannel hmax' hpos hmin' hfew hm hn.1 hd.1 hk

/-! ## A sender that sends every packet twice -/

/-- The geometry of a sender with one source packet and one repair packet for each block. -/
def doubled : RaptorQ where
  maxPacketSize := 112
  symbolCount := 1
  transferLength := 112
  nbRepairPackets := 1
  minNbRepairPackets := 0
  length_eq := rfl
  repair_le := Nat.zero_le 1

/-- The repair packets repeat the block. -/
def repeating : Crate (UInt8 × List UInt8) :=
  { Crate.single with
    repairPackets := fun id _ data _ _ count => List.replicate count.toNat (id, data) }

/-- The packets of a block are copies of its data. -/
lemma eq_of_mem_repeating {id : UInt8} {data : List UInt8} {p : UInt8 × List UInt8}
    (hp : p ∈ doubled.encode repeating id data) : p = (id, data) := by
  simpa [RaptorQ.encode, doubled, repeating, Crate.single] using hp

/-- Copies of the data are a lawful code. -/
lemma repeating_lawful : repeating.Lawful doubled where
  sourceBlockNumber_encode id data _ p hp := by
    obtain rfl : p = (id, data) := eq_of_mem_repeating hp
    rfl
  deserialize_serialize p := rfl
  decode_encode id data packets _ hall block hdec := by
    simp only [RaptorQ.decode, repeating, Crate.single, Option.map_eq_some_iff] at hdec
    obtain ⟨p, hfind, rfl⟩ := hdec
    have hp := hall p (List.mem_of_find?_eq_some hfind)
    obtain rfl : p = (id, data) := eq_of_mem_repeating hp
    rfl

/-- The receiver has the percentages that are the default, which are less than one packet. -/
def unequal : Programs where
  sender := ⟨doubled, true, 1, false⟩
  receiver := ⟨{ doubled with nbRepairPackets := 0, repair_le := le_rfl }, false, false⟩

/-- Of each block but the last only one of the two packets arrives. -/
def halved : List (Lossy.Label 1 1 1 1) :=
  sendTransfer ++ [.arrive (0, 1) none, .reblock, .reblock, .reblock, .reblock] ++ passBlock ++
    [.arrive (1, 1) (some [(2, 0), (2, 1)]), .reblock, .reblock, .reblock] ++ passBlock ++
    passBlock ++
    [.client 0 .ok, .client 0 .ok, .client 0 .ok, .client 0 .ok, .client 0 .ok, .client 0 .ok,
      .sender (.server (.server 0))]

/-- The two geometries are those of the command lines. -/
lemma unequal_new : RaptorQ.new .dev 144 112 112 0 = .ok unequal.sender.raptorq ∧
    RaptorQ.new .dev 144 112 2 1 = .ok unequal.receiver.raptorq :=
  ⟨rfl, rfl⟩

/-- The two geometries fit. -/
lemma unequal_fit : unequal.Fit := by
  obtain ⟨hsender, hreceiver⟩ := unequal_new
  exact Programs.fit_of_new hsender hreceiver (by decide)

/-- After that run the client has been received to its end, although the geometries are not the
same. -/
theorem programs_deliver_halved : unequal.sender.raptorq ≠ unequal.receiver.raptorq ∧
    ∃ s : Tolerant 1 1 1 1 (UInt8 × List UInt8),
      ∃ t ∈ s.link.demux.transfers, t.clientId = 0 ∧ Complete eightBytes t := by
  have hrun : (LTS.runVia (Programs.tolerant repeating unequal)
      (Tolerant.Benign repeating (unequal.ends unequal_fit) fun _ => True)
      (Tolerant.init 1 1 1 1 _ [eightBytes]) halved).map (fun s =>
        (s.link.expected, s.link.stream.length, oneOfEach.all fun a =>
          (Lossy.step repeating (unequal.ends unequal_fit) s.link a).isNone)) =
      some (3, 3, true) := by
    decide +kernel
  obtain ⟨s, hs, heq⟩ := Option.map_eq_some_iff.mp hrun
  obtain ⟨hexpected, hlength, hall⟩ : s.link.expected = 3 ∧ s.link.stream.length = 3 ∧
      oneOfEach.all (fun a =>
        (Lossy.step repeating (unequal.ends unequal_fit) s.link a).isNone) = true := by
    simpa only [Prod.mk.injEq] using heq
  obtain ⟨hsender, hreceiver⟩ := unequal_new
  have hmax : Block.maxDataLen unequal.sender.raptorq = some 103 := by decide
  have hfew : [eightBytes].length < 2 ^ 32 := by decide
  obtain ⟨hfit, hdeliver⟩ := programs_deliver hsender hreceiver (by decide) repeating_lawful hmax
    (by decide) (by rfl) (by decide) hfew Nat.one_pos ⟨Nat.one_pos, by decide⟩
    ⟨Nat.one_pos, by decide⟩ Nat.one_pos
  have hdelivers : s.Delivers repeating (unequal.ends hfit) (fun _ => True) [eightBytes] :=
    hdeliver s (LTS.reachVia_of_runVia hs)
  obtain ⟨hperm, hwhole⟩ := hdelivers.complete (stuck_of_oneOfEach hall)
    (Tolerant.supplied_of_expected (hexpected.trans hlength.symm))
  have hfirst : s.link.sender.servers.started[0]? = some eightBytes := by
    rw [List.perm_singleton.mp hperm]
    rfl
  exact ⟨by decide, s, hwhole 0 eightBytes hfirst trivial⟩

end Link

end Lidi
