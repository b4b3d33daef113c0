import Lidi.Protocol.Geometry
import Lidi.Receive.Client
import Lidi.Receive.Reblock
import Lidi.Send.Client

set_option relaxedAutoImplicit false
set_option autoImplicit false

/-!
# Sizes derived from a geometry

The receiver waits for a number of packets that it computes from its own geometry, and the sizes of
the socket buffers are products with the MTU. Neither is checked.

## Main definitions

* `RaptorQ.threshold` — `min_nb_packets` in both build profiles.
* `Receive.Udp.bufferSize`, `Send.Udp.bufferSize` — the sizes of the socket buffers.
* `RaptorQ.Agree` — when the receiver waits for no more than the sender makes.

## Main results

* `RaptorQ.ends_agree_iff` — the receiver's number and the packets of the sender.
* `RaptorQ.sizesFit_iff` — when the sizes are exact.
-/

namespace Lidi

/-- `i32::try_from` of an unsigned number. -/
def tryToI32 {ε : Type*} (n : UInt32) (error : ε) : Outcome ε Int32 :=
  if n.toNat < 2 ^ 31 then .ok (Int32.ofNat n.toNat) else .error (.error error)

/-- The size of the receive buffer of the socket in `receive::udp::start`. -/
def Receive.Udp.bufferSize (profile : Profile) (raptorq : RaptorQ) (fromMtu : UInt16) :
    Outcome Receive.Error Int32 := do
  let nbPackets ← tryToI32 raptorq.nbPackets
    (.other "nb_packets: out of range integral type conversion attempted")
  profile.mulI32 (← profile.mulI32 (Int32.ofNat windowWidth.toNat) nbPackets)
    (Int32.ofNat fromMtu.toNat)

/-- The size of the send buffer of the socket in `send::udp::start`. -/
def Send.Udp.bufferSize (profile : Profile) (raptorq : RaptorQ) (toMtu : UInt16) :
    Outcome Send.Error Int32 := do
  let nbPackets ← tryToI32 raptorq.nbPackets
    (.other "nb_packets: out of range integral type conversion attempted")
  profile.mulI32 nbPackets (Int32.ofNat toMtu.toNat)

/-- What the sender relies on: an encoder makes as many packets as it is asked for. -/
structure Crate.Counts {Packet : Type*} (crate : Crate Packet) (raptorq : RaptorQ) : Prop where
  length_sourcePackets : ∀ id (data : List UInt8), data.length = raptorq.transferLength.toNat →
    (crate.sourcePackets id raptorq.config data raptorq.plan).length = raptorq.symbolCount.toNat
  length_repairPackets : ∀ id (data : List UInt8), data.length = raptorq.transferLength.toNat →
    (crate.repairPackets id raptorq.config data raptorq.plan
      (crate.symbolSize raptorq.config).toUInt32 raptorq.nbRepairPackets.toUInt32).length =
    raptorq.nbRepairPackets.toNat

namespace RaptorQ

/-- `min_nb_packets` in both build profiles. -/
def threshold {ε : Type*} (profile : Profile) (raptorq : RaptorQ) : Outcome ε UInt16 :=
  profile.addU16 raptorq.symbolCount raptorq.minNbRepairPackets

/-- In a release build it is the number that the receiver uses. -/
lemma threshold_release {ε : Type*} (raptorq : RaptorQ) :
    (raptorq.threshold .release : Outcome ε UInt16) = .ok raptorq.minNbPackets := by
  rw [threshold, Profile.addU16, Profile.checked_of_fits (by simp), minNbPackets]

/-- In a debug build too, unless it panics. -/
lemma eq_minNbPackets_of_threshold {ε : Type*} {profile : Profile} {raptorq : RaptorQ} {n : UInt16}
    (h : (raptorq.threshold profile : Outcome ε UInt16) = .ok n) : n = raptorq.minNbPackets :=
  (Profile.checked_eq_ok_iff.mp h).2.symm

/-- The number of packets of a block does not overflow. -/
lemma toNat_nbPackets (raptorq : RaptorQ) :
    raptorq.nbPackets.toNat = raptorq.symbolCount.toNat + raptorq.nbRepairPackets.toNat := by
  have hs := raptorq.symbolCount.toNat_lt
  have hr := raptorq.nbRepairPackets.toNat_lt
  rw [nbPackets, UInt32.toNat_add, UInt16.toNat_toUInt32, UInt16.toNat_toUInt32]
  exact Nat.mod_eq_of_lt (by omega)

variable {profile : Profile} {mtu : UInt16} {blockSize repair minRepair : UInt32}
  {raptorq : RaptorQ}

/-- The number of packets of a block fits in 16 bits. -/
lemma Built.symbols_lt (h : Built profile mtu blockSize repair minRepair raptorq) :
    symbols mtu blockSize < 2 ^ 16 :=
  h.symbolCount_eq ▸ raptorq.symbolCount.toNat_lt

/-- So does the least number of repair packets. -/
lemma Built.minRepairCount_lt (h : Built profile mtu blockSize repair minRepair raptorq) :
    repairCount mtu blockSize minRepair < 2 ^ 16 :=
  h.minRepair_eq ▸ raptorq.minNbRepairPackets.toNat_lt

/-! ## The two ends -/

section Ends

variable {Packet : Type*} {crate : Crate Packet} {sender receiver : RaptorQ}

/-- The number of packets of an encoded block. -/
lemma length_encode (hcounts : crate.Counts raptorq) (id : UInt8) {data : List UInt8}
    (hdata : data.length = raptorq.transferLength.toNat) :
    (raptorq.encode crate id data).length =
      raptorq.symbolCount.toNat + raptorq.nbRepairPackets.toNat := by
  unfold encode
  split
  · rw [List.length_append, hcounts.length_sourcePackets id data hdata,
      hcounts.length_repairPackets id data hdata]
  · rename_i h
    have hzero : raptorq.nbRepairPackets.toNat = 0 := by
      have hle := UInt16.le_iff_toNat_le.mp (UInt16.not_lt.mp h)
      exact Nat.le_zero.mp hle
    rw [hcounts.length_sourcePackets id data hdata, hzero, Nat.add_zero]

/-- A sender asks for no minimum, so it makes the repair packets of its percentage. -/
lemma Built.sender_repair_eq (h : Built profile mtu blockSize repair 0 sender) :
    sender.nbRepairPackets.toNat = repairCount mtu blockSize repair := by
  have hzero : repairCount mtu blockSize 0 = 0 := by
    rw [repairCount, repairProduct]
    simp
  rw [h.repair_eq, hzero, Nat.max_zero]

/-- The minimum of the receiver is no more than what the sender makes, and the sum fits in 16
bits; in a release build a sum that does not fit wraps to a small number. -/
def Agree (profile : Profile) (mtu : UInt16) (blockSize repair minRepair : UInt32) : Prop :=
  match profile with
  | .dev => repairCount mtu blockSize minRepair ≤ repairCount mtu blockSize repair ∧
      symbols mtu blockSize + repairCount mtu blockSize minRepair < 2 ^ 16
  | .release => repairCount mtu blockSize minRepair ≤ repairCount mtu blockSize repair ∨
      2 ^ 16 ≤ symbols mtu blockSize + repairCount mtu blockSize minRepair

/-- The number that the receiver waits for, against a bound. -/
lemma Built.threshold_le_iff (ε : Type*)
    (h : Built profile mtu blockSize repair minRepair receiver) :
    (∃ n, (receiver.threshold profile : Outcome ε UInt16) = .ok n ∧
      n.toNat ≤ symbols mtu blockSize + repairCount mtu blockSize repair) ↔
      Agree profile mtu blockSize repair minRepair := by
  have hs := h.symbols_lt
  have hk := h.minRepairCount_lt
  have hsum : (receiver.symbolCount + receiver.minNbRepairPackets).toNat =
      (symbols mtu blockSize + repairCount mtu blockSize minRepair) % 2 ^ 16 := by
    rw [UInt16.toNat_add, h.symbolCount_eq, h.minRepair_eq]
  unfold threshold Profile.addU16 Agree
  rw [h.symbolCount_eq, h.minRepair_eq]
  simp only [Profile.checked_eq_ok_iff]
  cases profile with
  | dev =>
    constructor
    · rintro ⟨n, ⟨hfits, rfl⟩, hle⟩
      have hlt := hfits rfl
      rw [hsum] at hle
      omega
    · rintro ⟨hle, hlt⟩
      refine ⟨_, ⟨fun _ => hlt, rfl⟩, ?_⟩
      rw [hsum]
      omega
  | release =>
    constructor
    · rintro ⟨n, ⟨-, rfl⟩, hle⟩
      rw [hsum] at hle
      omega
    · intro hor
      refine ⟨_, ⟨by simp, rfl⟩, ?_⟩
      rw [hsum]
      omega

/-- **Sender and receiver.** They have the same blocks, and the number of packets that the receiver
waits for is at most the number that the sender makes exactly if they agree on the repair
packets. -/
theorem ends_agree_iff (hcounts : crate.Counts sender)
    (hsender : new profile mtu blockSize repair 0 = .ok sender)
    (hreceiver : new profile mtu blockSize repair minRepair = .ok receiver) :
    sender.symbolCount = receiver.symbolCount ∧
    sender.transferLength = receiver.transferLength ∧
    ((∃ n, (receiver.threshold profile : Outcome Receive.Error UInt16) = .ok n ∧
      ∀ id data, data.length = sender.transferLength.toNat →
        n.toNat ≤ (sender.encode crate id data).length) ↔
      Agree profile mtu blockSize repair minRepair) := by
  have hs := Built.of_new hsender
  have hr := Built.of_new hreceiver
  have hlength : ∀ id data, data.length = sender.transferLength.toNat →
      (sender.encode crate id data).length =
        symbols mtu blockSize + repairCount mtu blockSize repair := by
    intro id data hdata
    rw [length_encode hcounts id hdata, hs.symbolCount_eq, hs.sender_repair_eq]
  refine ⟨?_, ?_, ?_⟩
  · rw [← UInt16.toNat_inj, hs.symbolCount_eq, hr.symbolCount_eq]
  · rw [← UInt32.toNat_inj, hs.transferLength_eq, hr.transferLength_eq]
  rw [← hr.threshold_le_iff Receive.Error]
  constructor
  · rintro ⟨n, hn, hle⟩
    have hzero := List.length_replicate (n := sender.transferLength.toNat) (a := (0 : UInt8))
    refine ⟨n, hn, ?_⟩
    rw [← hlength 0 _ hzero]
    exact hle 0 _ hzero
  · rintro ⟨n, hn, hle⟩
    refine ⟨n, hn, fun id data hdata => ?_⟩
    rw [hlength id data hdata]
    exact hle

/-- The source packets of the crate are the symbols of the block; there are no repair packets. -/
def systematic : Crate (UInt8 × List UInt8) :=
  { Crate.single with
    sourcePackets := fun id config data plan =>
      (List.range plan.symbolCount.toNat).map fun i =>
        (id, (data.drop (i * config.maxPacketSize.toNat)).take config.maxPacketSize.toNat) }

/-- It makes as many packets as it is asked for if none of them are repair packets. -/
lemma systematic_counts (h : raptorq.nbRepairPackets = 0) : systematic.Counts raptorq := by
  constructor
  · intro id data _
    simp [systematic, plan]
  · intro id data _
    simp [systematic, Crate.single, h]

/-- In the smallest geometry the receiver waits for the only packet. -/
theorem threshold_le_single :
    ∃ n, (RaptorQ.single.threshold .release : Outcome Receive.Error UInt16) = .ok n ∧
      ∀ id data, data.length = RaptorQ.single.transferLength.toNat →
        n.toNat ≤ (RaptorQ.single.encode systematic id data).length := by
  have hnew : new .release 48 16 0 0 = .ok .single := rfl
  obtain ⟨-, -, hiff⟩ := ends_agree_iff (systematic_counts rfl) hnew hnew
  exact hiff.mpr (.inl le_rfl)

/-- A geometry of ten source packets of 16 bytes for each block. -/
def tenSymbols (repair : UInt16) : RaptorQ where
  maxPacketSize := 16
  symbolCount := 10
  transferLength := 160
  nbRepairPackets := repair
  minNbRepairPackets := repair
  length_eq := rfl
  repair_le := le_rfl

/-- The sender makes no repair packets of its ten source packets, and the receiver waits for
eleven. -/
theorem threshold_exceeds :
    new .release 48 160 0 0 = .ok (tenSymbols 0) ∧
    new .release 48 160 0 16 = .ok (tenSymbols 1) ∧ systematic.Counts (tenSymbols 0) ∧
    ¬ ∃ n, ((tenSymbols 1).threshold .release : Outcome Receive.Error UInt16) = .ok n ∧
      ∀ id data, data.length = (tenSymbols 0).transferLength.toNat →
        n.toNat ≤ ((tenSymbols 0).encode systematic id data).length := by
  refine ⟨rfl, rfl, systematic_counts rfl, ?_⟩
  rintro ⟨n, hn, hle⟩
  have heleven : n = 11 := by
    rw [threshold_release, Except.ok.injEq] at hn
    exact hn.symm
  have hdata : (List.replicate 160 (0 : UInt8)).length =
      (tenSymbols 0).transferLength.toNat := List.length_replicate
  have hten := hle 0 _ hdata
  rw [heleven, length_encode (systematic_counts rfl) 0 hdata] at hten
  exact absurd hten (by decide)

end Ends

/-! ## The socket buffers -/

/-- The sizes derived from a geometry are what they are meant to be. -/
structure SizesFit (profile : Profile) (mtu : UInt16) (raptorq : RaptorQ) : Prop where
  threshold_eq : ∃ n, (raptorq.threshold profile : Outcome Receive.Error UInt16) = .ok n ∧
    n.toNat = raptorq.symbolCount.toNat + raptorq.minNbRepairPackets.toNat ∧
    raptorq.symbolCount.toNat ≤ n.toNat ∧ n.toNat ≤ raptorq.nbPackets.toNat
  receive_eq : ∃ size, Receive.Udp.bufferSize profile raptorq mtu = .ok size ∧
    size.toInt = 127 * raptorq.nbPackets.toNat * mtu.toNat
  send_eq : ∃ size, Send.Udp.bufferSize profile raptorq mtu = .ok size ∧
    size.toInt = raptorq.nbPackets.toNat * mtu.toNat

/-- The number of packets fits in a signed number. -/
lemma tryToI32_nbPackets {ε : Type*} (raptorq : RaptorQ) (error : ε) :
    ∃ n, tryToI32 raptorq.nbPackets error = .ok n ∧ n.toInt = raptorq.nbPackets.toNat := by
  have hs := raptorq.symbolCount.toNat_lt
  have hr := raptorq.nbRepairPackets.toNat_lt
  have hlt : raptorq.nbPackets.toNat < 2 ^ 31 := by
    rw [toNat_nbPackets]
    omega
  exact ⟨_, if_pos hlt, Int32.toInt_ofNat_of_lt hlt⟩

/-- A number of 16 bits keeps its value as an `i32`. -/
lemma toInt_ofNat_toNat (n : UInt16) : (Int32.ofNat n.toNat).toInt = n.toNat := by
  have hlt := n.toNat_lt
  exact Int32.toInt_ofNat_of_lt (by omega)

/-- The size of the send buffer is exact if it fits. -/
lemma sendBufferSize_exact_iff (profile : Profile) (raptorq : RaptorQ) (mtu : UInt16) :
    (∃ size, Send.Udp.bufferSize profile raptorq mtu = .ok size ∧
      size.toInt = raptorq.nbPackets.toNat * mtu.toNat) ↔
      raptorq.nbPackets.toNat * mtu.toNat < 2 ^ 31 := by
  obtain ⟨n, htry, hn⟩ := raptorq.tryToI32_nbPackets
    (Send.Error.other "nb_packets: out of range integral type conversion attempted")
  have hexact := profile.mulI32_exact_iff Send.Error n (Int32.ofNat mtu.toNat)
  rw [hn, toInt_ofNat_toNat] at hexact
  have hcast : (raptorq.nbPackets.toNat : ℤ) * mtu.toNat =
      ((raptorq.nbPackets.toNat * mtu.toNat : ℕ) : ℤ) := by push_cast; rfl
  rw [Send.Udp.bufferSize, htry, Outcome.ok_bind, hexact, hcast]
  omega

/-- The size of the receive buffer is exact if it fits. The first product always does. -/
lemma receiveBufferSize_exact_iff (profile : Profile) (raptorq : RaptorQ) (mtu : UInt16) :
    (∃ size, Receive.Udp.bufferSize profile raptorq mtu = .ok size ∧
      size.toInt = 127 * raptorq.nbPackets.toNat * mtu.toNat) ↔
      127 * raptorq.nbPackets.toNat * mtu.toNat < 2 ^ 31 := by
  have hs := raptorq.symbolCount.toNat_lt
  have hr := raptorq.nbRepairPackets.toNat_lt
  have hpackets := raptorq.toNat_nbPackets
  obtain ⟨n, htry, hn⟩ := raptorq.tryToI32_nbPackets
    (Receive.Error.other "nb_packets: out of range integral type conversion attempted")
  have hwidth : (Int32.ofNat Receive.windowWidth.toNat).toInt = 127 := by decide
  obtain ⟨w, hmul, hw⟩ := profile.mulI32_of_fits Receive.Error
    (a := Int32.ofNat Receive.windowWidth.toNat) (b := n) (by rw [hwidth]; omega)
    (by rw [hwidth]; omega)
  rw [hwidth, hn] at hw
  have hexact := profile.mulI32_exact_iff Receive.Error w (Int32.ofNat mtu.toNat)
  rw [hw, toInt_ofNat_toNat] at hexact
  have hcast : (127 : ℤ) * raptorq.nbPackets.toNat * mtu.toNat =
      ((127 * raptorq.nbPackets.toNat * mtu.toNat : ℕ) : ℤ) := by push_cast; rfl
  rw [Receive.Udp.bufferSize, htry, Outcome.ok_bind, hmul, Outcome.ok_bind, hexact, hcast]
  omega

/-- **When the derived sizes fit.** -/
theorem sizesFit_iff (h : new profile mtu blockSize repair minRepair = .ok raptorq) :
    SizesFit profile mtu raptorq ↔
      symbols mtu blockSize + repairCount mtu blockSize minRepair < 2 ^ 16 ∧
      127 * (symbols mtu blockSize + max (repairCount mtu blockSize repair)
        (repairCount mtu blockSize minRepair)) * mtu.toNat < 2 ^ 31 := by
  have hb := Built.of_new h
  have hpackets := raptorq.toNat_nbPackets
  rw [hb.symbolCount_eq, hb.repair_eq] at hpackets
  have hsum := profile.addU16_exact_iff Receive.Error raptorq.symbolCount
    raptorq.minNbRepairPackets
  rw [hb.symbolCount_eq, hb.minRepair_eq] at hsum
  have hreceive := receiveBufferSize_exact_iff profile raptorq mtu
  rw [hpackets] at hreceive
  constructor
  · intro hfit
    obtain ⟨n, hn, hexact, -, -⟩ := hfit.threshold_eq
    rw [hb.symbolCount_eq, hb.minRepair_eq] at hexact
    have hrec := hfit.receive_eq
    rw [hpackets] at hrec
    exact ⟨hsum.mp ⟨n, hn, hexact⟩, hreceive.mp hrec⟩
  · rintro ⟨hlt, hbuffer⟩
    obtain ⟨n, hn, hexact⟩ := hsum.mpr hlt
    refine ⟨⟨n, hn, ?_, ?_, ?_⟩, ?_, ?_⟩
    · rw [hb.symbolCount_eq, hb.minRepair_eq, hexact]
    · rw [hb.symbolCount_eq, hexact]
      omega
    · rw [hpackets, hexact]
      omega
    · rw [hpackets]
      exact hreceive.mpr hbuffer
    · apply (sendBufferSize_exact_iff profile raptorq mtu).mpr
      rw [hpackets]
      rw [Nat.mul_assoc] at hbuffer
      omega

/-- In the smallest geometry all sizes fit. -/
theorem sizesFit_single : SizesFit .release 48 .single := by
  have hnew : new .release 48 16 0 0 = .ok .single := rfl
  exact (sizesFit_iff hnew).mpr ⟨by decide, by decide⟩

/-- Blocks of 12000 packets of 1464 bytes with two per cent of repair packets: the size of the
receive buffer is 127 times 12240 times 1500. -/
theorem receiveBuffer_overflows :
    ∃ raptorq, new .release 1500 17568000 2 0 = .ok raptorq ∧
      raptorq.symbolCount = 12000 ∧ ¬ SizesFit .release 1500 raptorq := by
  refine ⟨_, rfl, rfl, fun h => ?_⟩
  have hlt := (receiveBufferSize_exact_iff _ _ _).mp h.receive_eq
  exact absurd hlt (by decide)

end RaptorQ

end Lidi
