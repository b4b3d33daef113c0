import Lidi.Core.Profile
import Lidi.Protocol.Block

set_option relaxedAutoImplicit false
set_option autoImplicit false

/-!
# The constructor of the geometry

The constructor computes the sizes of the code from the MTU, the wanted block size and two
percentages. The conversions to 16 bits are checked; the arithmetic before them is not.

## Main definitions

* `RaptorQ.new` — the constructor, for both build profiles.
* `RaptorQ.packetSize`, `RaptorQ.symbols`, `RaptorQ.blockLength`, `RaptorQ.repairProduct` — the
  numbers it computes, without the overflows after the first subtraction.
* `RaptorQ.NewResult` — the cases of the constructor.
* `RaptorQ.Sound` — what a geometry should be.
* `RaptorQ.Regular` — the arguments on which the constructor keeps to it.

## Main results

* `RaptorQ.newResult_new` — the constructor does one of these.
* `RaptorQ.new_sound_iff` — when it returns a sound geometry or an error.
-/

namespace Lidi.RaptorQ

/-- `PACKET_HEADER_SIZE`. -/
def packetHeaderSize : UInt16 := 20 + 8

/-- `RAPTORQ_ALIGNMENT`. -/
def raptorqAlignment : UInt16 := 8

/-- `RAPTORQ_HEADER_SIZE`. -/
def raptorqHeaderSize : UInt16 := 4

/-- `u16::try_from`, with the name of the field in the error. -/
def tryToU16 (what : String) (n : UInt32) : Outcome Protocol.Error UInt16 :=
  if n.toNat < 2 ^ 16 then .ok n.toUInt16 else .error (.error (Block.conversionError what))

/-- The size of a packet: what the headers leave of the MTU, rounded down to the alignment. -/
def newMaxPacketSize (profile : Profile) (mtu : UInt16) : Outcome Protocol.Error UInt16 := do
  let maxPacketSize ← profile.subU16 (← profile.subU16 mtu packetHeaderSize) raptorqHeaderSize
  profile.subU16 maxPacketSize (maxPacketSize % raptorqAlignment)

/-- The number of repair packets for a percentage. -/
def newRepairPackets (profile : Profile) (what : String) (transferLength : UInt32)
    (maxPacketSize : UInt16) (percentage : UInt32) : Outcome Protocol.Error UInt16 := do
  let product ← profile.mulU32 (transferLength / 100) percentage
  tryToU16 what (← Profile.divU32 product maxPacketSize.toUInt32)

/-- The product of two 16-bit numbers fits in 32 bits. -/
lemma toNat_mul_toUInt32 (a b : UInt16) :
    (a.toUInt32 * b.toUInt32).toNat = a.toNat * b.toNat := by
  have hle : a.toNat * b.toNat ≤ (2 ^ 16 - 1) * (2 ^ 16 - 1) :=
    Nat.mul_le_mul (Nat.le_sub_one_of_lt a.toNat_lt) (Nat.le_sub_one_of_lt b.toNat_lt)
  rw [UInt32.toNat_mul, UInt16.toNat_toUInt32, UInt16.toNat_toUInt32]
  exact Nat.mod_eq_of_lt (by omega)

/-- A value that is raised to another is at least that. -/
lemma toNat_le_raise (a b : UInt16) : b.toNat ≤ (if a < b then b else a).toNat := by
  split
  · exact le_rfl
  · rename_i h
    exact UInt16.le_iff_toNat_le.mp (UInt16.not_lt.mp h)

/-- `RaptorQ::new`. The crate's constructors return normally. -/
def new (profile : Profile) (mtu : UInt16)
    (blockSize repairPercentage minRepairPercentage : UInt32) :
    Outcome Protocol.Error RaptorQ := do
  let maxPacketSize ← newMaxPacketSize profile mtu
  let symbolCount ← tryToU16 "symbol_count" (← Profile.divU32 blockSize maxPacketSize.toUInt32)
  let transferLength := maxPacketSize.toUInt32 * symbolCount.toUInt32
  let nbRepairPackets ← newRepairPackets profile "nb_repair_packets" transferLength maxPacketSize
    repairPercentage
  let minNbRepairPackets ← newRepairPackets profile "min_nb_repair_packets" transferLength
    maxPacketSize minRepairPercentage
  .ok {
    maxPacketSize := maxPacketSize
    symbolCount := symbolCount
    transferLength := transferLength
    nbRepairPackets := if nbRepairPackets < minNbRepairPackets then minNbRepairPackets
      else nbRepairPackets
    minNbRepairPackets := minNbRepairPackets
    length_eq := toNat_mul_toUInt32 maxPacketSize symbolCount
    repair_le := toNat_le_raise nbRepairPackets minNbRepairPackets }

/-! ## The numbers -/

/-- The size of a packet. For an MTU smaller than the headers, it is what a release build gets. -/
def packetSize (mtu : UInt16) : ℕ :=
  (mtu.toNat + (2 ^ 16 - 32)) % 2 ^ 16 / 8 * 8

/-- The number of source packets of a block. -/
def symbols (mtu : UInt16) (blockSize : UInt32) : ℕ :=
  blockSize.toNat / packetSize mtu

/-- The length of a block. -/
def blockLength (mtu : UInt16) (blockSize : UInt32) : ℕ :=
  packetSize mtu * symbols mtu blockSize

/-- The number of bytes of repair packets for a percentage. -/
def repairProduct (mtu : UInt16) (blockSize percentage : UInt32) : ℕ :=
  blockLength mtu blockSize / 100 * percentage.toNat

/-- The number of repair packets that a release build gets for a percentage. -/
def repairCount (mtu : UInt16) (blockSize percentage : UInt32) : ℕ :=
  repairProduct mtu blockSize percentage % 2 ^ 32 / packetSize mtu

/-- The size of a packet is computed, unless a debug build notices that the MTU is too small. -/
lemma newMaxPacketSize_eq (profile : Profile) (mtu : UInt16) :
    profile = .dev ∧ mtu.toNat < 32 ∧ newMaxPacketSize profile mtu = .error .panic ∨
    (profile = .dev → 32 ≤ mtu.toNat) ∧
      ∃ m, newMaxPacketSize profile mtu = .ok m ∧ m.toNat = packetSize mtu := by
  have hlt := mtu.toNat_lt
  have hheader : packetHeaderSize.toNat = 28 := rfl
  have hcode : raptorqHeaderSize.toNat = 4 := rfl
  have halign : raptorqAlignment.toNat = 8 := rfl
  unfold newMaxPacketSize
  rcases profile.subU16_cases Protocol.Error mtu packetHeaderSize with
    ⟨hdev, hsmall, h₁⟩ | ⟨h28, a, h₁, ha⟩
  · refine .inl ⟨hdev, by omega, ?_⟩
    rw [h₁, Outcome.error_bind]
  rw [h₁, Outcome.ok_bind]
  rw [hheader] at ha h28
  rcases profile.subU16_cases Protocol.Error a raptorqHeaderSize with
    ⟨hdev, hsmall, h₂⟩ | ⟨h4, b, h₂, hb⟩
  · have hle := h28 hdev
    refine .inl ⟨hdev, by omega, ?_⟩
    rw [h₂, Outcome.error_bind]
  rw [h₂, Outcome.ok_bind]
  rw [hcode] at hb h4
  -- the last subtraction takes off a remainder
  have hmod : (b % raptorqAlignment).toNat = b.toNat % 8 := by
    rw [UInt16.toNat_mod, halign]
  rcases profile.subU16_cases Protocol.Error b (b % raptorqAlignment) with
    ⟨hdev, hsmall, h₃⟩ | ⟨-, m, h₃, hm⟩
  · omega
  · refine .inr ⟨fun hdev => ?_, m, h₃, ?_⟩
    · have hle := h28 hdev
      have hle' := h4 hdev
      omega
    · rw [hm, hmod, packetSize]
      omega

/-- The number of repair packets is computed, unless a debug build notices that the product
overflows, or the number does not fit. -/
lemma newRepairPackets_eq (profile : Profile) (what : String) {transferLength percentage : UInt32}
    {maxPacketSize : UInt16} {product : ℕ} (hpos : 0 < maxPacketSize.toNat)
    (hproduct : transferLength.toNat / 100 * percentage.toNat = product) :
    (profile = .dev ∧ 2 ^ 32 ≤ product ∧
      newRepairPackets profile what transferLength maxPacketSize percentage = .error .panic) ∨
    (profile = .dev → product < 2 ^ 32) ∧
      (2 ^ 16 ≤ product % 2 ^ 32 / maxPacketSize.toNat ∧
        newRepairPackets profile what transferLength maxPacketSize percentage =
          .error (.error (Block.conversionError what)) ∨
      ∃ n, newRepairPackets profile what transferLength maxPacketSize percentage = .ok n ∧
        n.toNat = product % 2 ^ 32 / maxPacketSize.toNat) := by
  have hhundred : (transferLength / 100).toNat = transferLength.toNat / 100 := by
    rw [UInt32.toNat_div]
    rfl
  have hne : ¬ maxPacketSize.toUInt32 = 0 := by
    rw [← UInt32.toNat_inj, UInt16.toNat_toUInt32]
    exact Nat.ne_of_gt hpos
  have hcount : (transferLength / 100 * percentage / maxPacketSize.toUInt32).toNat =
      product % 2 ^ 32 / maxPacketSize.toNat := by
    rw [UInt32.toNat_div, UInt32.toNat_mul, hhundred, hproduct, UInt16.toNat_toUInt32]
  unfold newRepairPackets Profile.mulU32 Profile.divU32 tryToU16
  rw [hhundred, hproduct]
  by_cases hover : profile = .dev ∧ 2 ^ 32 ≤ product
  · left
    refine ⟨hover.1, hover.2, ?_⟩
    rw [Profile.checked_of_not hover.1 (by omega), Outcome.error_bind]
  · right
    have hfits : profile = .dev → product < 2 ^ 32 := fun hdev => by
      by_contra hge
      exact hover ⟨hdev, by omega⟩
    refine ⟨hfits, ?_⟩
    rw [Profile.checked_of_fits hfits, Outcome.ok_bind, if_neg hne, Outcome.ok_bind, hcount]
    by_cases hlt : product % 2 ^ 32 / maxPacketSize.toNat < 2 ^ 16
    · rw [if_pos hlt]
      refine .inr ⟨_, rfl, ?_⟩
      rw [UInt32.toNat_toUInt16, hcount]
      exact Nat.mod_eq_of_lt hlt
    · rw [if_neg hlt]
      exact .inl ⟨by omega, rfl⟩

/-! ## The cases of the constructor -/

/-- The size of a packet is positive, and a debug build has not noticed an underflow. -/
structure HasPacketSize (profile : Profile) (mtu : UInt16) : Prop where
  mtu_fits : profile = .dev → 32 ≤ mtu.toNat
  pos : 0 < packetSize mtu

/-- What a geometry that the constructor has returned is like. -/
structure Built (profile : Profile) (mtu : UInt16) (blockSize repair minRepair : UInt32)
    (raptorq : RaptorQ) : Prop where
  hasPacketSize : HasPacketSize profile mtu
  repair_fits : profile = .dev → repairProduct mtu blockSize repair < 2 ^ 32
  minRepair_fits : profile = .dev → repairProduct mtu blockSize minRepair < 2 ^ 32
  maxPacketSize_eq : raptorq.maxPacketSize.toNat = packetSize mtu
  symbolCount_eq : raptorq.symbolCount.toNat = symbols mtu blockSize
  minRepair_eq : raptorq.minNbRepairPackets.toNat = repairCount mtu blockSize minRepair
  repair_eq : raptorq.nbRepairPackets.toNat =
    max (repairCount mtu blockSize repair) (repairCount mtu blockSize minRepair)

/-- What the constructor can do. -/
inductive NewResult (profile : Profile) (mtu : UInt16) (blockSize repair minRepair : UInt32) :
    Outcome Protocol.Error RaptorQ → Prop
  | subtraction (hdev : profile = .dev) (hmtu : mtu.toNat < 32) :
      NewResult profile mtu blockSize repair minRepair (.error .panic)
  | division (hm : packetSize mtu = 0) :
      NewResult profile mtu blockSize repair minRepair (.error .panic)
  | symbolCount (hsize : HasPacketSize profile mtu) (hs : 2 ^ 16 ≤ symbols mtu blockSize) :
      NewResult profile mtu blockSize repair minRepair
        (.error (.error (Block.conversionError "symbol_count")))
  | repairOverflow (hs : symbols mtu blockSize < 2 ^ 16) (hdev : profile = .dev)
      (hr : 2 ^ 32 ≤ repairProduct mtu blockSize repair) :
      NewResult profile mtu blockSize repair minRepair (.error .panic)
  | nbRepairPackets (hsize : HasPacketSize profile mtu)
      (hfits : profile = .dev → repairProduct mtu blockSize repair < 2 ^ 32)
      (hr : 2 ^ 16 ≤ repairCount mtu blockSize repair) :
      NewResult profile mtu blockSize repair minRepair
        (.error (.error (Block.conversionError "nb_repair_packets")))
  | minRepairOverflow (hs : symbols mtu blockSize < 2 ^ 16) (hdev : profile = .dev)
      (hr : repairCount mtu blockSize repair < 2 ^ 16)
      (hk : 2 ^ 32 ≤ repairProduct mtu blockSize minRepair) :
      NewResult profile mtu blockSize repair minRepair (.error .panic)
  | minNbRepairPackets (hsize : HasPacketSize profile mtu)
      (hfits : profile = .dev → repairProduct mtu blockSize repair < 2 ^ 32 ∧
        repairProduct mtu blockSize minRepair < 2 ^ 32)
      (hk : 2 ^ 16 ≤ repairCount mtu blockSize minRepair) :
      NewResult profile mtu blockSize repair minRepair
        (.error (.error (Block.conversionError "min_nb_repair_packets")))
  | built {raptorq : RaptorQ} (h : Built profile mtu blockSize repair minRepair raptorq) :
      NewResult profile mtu blockSize repair minRepair (.ok raptorq)

/-- A conversion to 16 bits fails or keeps the value. -/
lemma tryToU16_eq (what : String) (n : UInt32) :
    (2 ^ 16 ≤ n.toNat ∧ tryToU16 what n = .error (.error (Block.conversionError what))) ∨
      ∃ m, tryToU16 what n = .ok m ∧ m.toNat = n.toNat := by
  unfold tryToU16
  by_cases hlt : n.toNat < 2 ^ 16
  · rw [if_pos hlt]
    refine .inr ⟨_, rfl, ?_⟩
    rw [UInt32.toNat_toUInt16]
    exact Nat.mod_eq_of_lt hlt
  · rw [if_neg hlt]
    exact .inl ⟨by omega, rfl⟩

/-- Raising to another value takes the larger one. -/
lemma toNat_raise (a b : UInt16) : (if a < b then b else a).toNat = max a.toNat b.toNat := by
  split
  · rename_i h
    have hlt := UInt16.lt_iff_toNat_lt.mp h
    omega
  · rename_i h
    have hle := UInt16.le_iff_toNat_le.mp (UInt16.not_lt.mp h)
    omega

/-- **The constructor does one of these.** -/
theorem newResult_new (profile : Profile) (mtu : UInt16) (blockSize repair minRepair : UInt32) :
    NewResult profile mtu blockSize repair minRepair
      (new profile mtu blockSize repair minRepair) := by
  unfold new
  rcases newMaxPacketSize_eq profile mtu with ⟨hdev, hlt, hnew⟩ | ⟨hmtu, m, hnew, hm⟩
  · rw [hnew, Outcome.error_bind]
    exact .subtraction hdev hlt
  rw [hnew, Outcome.ok_bind]
  by_cases hzero : m.toUInt32 = 0
  · rw [Profile.divU32, if_pos hzero, Outcome.error_bind]
    apply NewResult.division
    rw [← hm, ← UInt16.toNat_toUInt32, hzero]
    rfl
  have hpos : 0 < m.toNat := by
    apply Nat.pos_of_ne_zero
    intro h
    apply hzero
    rw [← UInt32.toNat_inj, UInt16.toNat_toUInt32, h]
    rfl
  have hsize : HasPacketSize profile mtu := ⟨hmtu, hm ▸ hpos⟩
  rw [Profile.divU32, if_neg hzero, Outcome.ok_bind]
  have hquot : (blockSize / m.toUInt32).toNat = symbols mtu blockSize := by
    rw [UInt32.toNat_div, UInt16.toNat_toUInt32, hm, symbols]
  rcases tryToU16_eq "symbol_count" (blockSize / m.toUInt32) with ⟨hs, htry⟩ | ⟨n, htry, hn⟩
  · rw [htry, Outcome.error_bind]
    rw [hquot] at hs
    exact .symbolCount hsize hs
  rw [htry, Outcome.ok_bind]
  dsimp only
  rw [hquot] at hn
  have hslt : symbols mtu blockSize < 2 ^ 16 := hn ▸ n.toNat_lt
  have hproduct : ∀ percentage : UInt32,
      (m.toUInt32 * n.toUInt32).toNat / 100 * percentage.toNat =
        repairProduct mtu blockSize percentage := by
    intro percentage
    rw [toNat_mul_toUInt32, hm, hn, repairProduct, blockLength]
  rcases newRepairPackets_eq profile "nb_repair_packets" hpos (hproduct repair) with
    ⟨hdev, hover, hcount⟩ | ⟨hrfits, ⟨hge, hcount⟩ | ⟨r, hcount, hr⟩⟩
  · rw [hcount, Outcome.error_bind]
    exact .repairOverflow hslt hdev hover
  · rw [hcount, Outcome.error_bind]
    rw [hm] at hge
    exact .nbRepairPackets hsize hrfits hge
  rw [hcount, Outcome.ok_bind]
  rw [hm] at hr
  have hrlt : repairCount mtu blockSize repair < 2 ^ 16 := by
    rw [repairCount, ← hr]
    exact r.toNat_lt
  rcases newRepairPackets_eq profile "min_nb_repair_packets" hpos (hproduct minRepair) with
    ⟨hdev, hover, hmin⟩ | ⟨hkfits, ⟨hge, hmin⟩ | ⟨k, hmin, hk⟩⟩
  · rw [hmin, Outcome.error_bind]
    exact .minRepairOverflow hslt hdev hrlt hover
  · rw [hmin, Outcome.error_bind]
    rw [hm] at hge
    exact .minNbRepairPackets hsize (fun hdev => ⟨hrfits hdev, hkfits hdev⟩) hge
  rw [hmin, Outcome.ok_bind]
  rw [hm] at hk
  refine .built ⟨hsize, hrfits, hkfits, hm, hn, hk, ?_⟩
  rw [toNat_raise, hr, hk, repairCount, repairCount]

/-- **What `RaptorQ::new` returns.** -/
lemma Built.of_new {profile : Profile} {mtu : UInt16} {blockSize repair minRepair : UInt32}
    {raptorq : RaptorQ} (h : new profile mtu blockSize repair minRepair = .ok raptorq) :
    Built profile mtu blockSize repair minRepair raptorq := by
  have hcase := newResult_new profile mtu blockSize repair minRepair
  rw [h] at hcase
  cases hcase with
  | built hbuilt => exact hbuilt

/-! ## Sound geometries -/

/-- A geometry that is what the arguments ask for: aligned packets that fit in the MTU with their
headers, at least one of them in a block, a block that is not longer than asked for and has room
for data, and the exact numbers of repair packets, of which the first is raised to the second. -/
structure Sound (mtu : UInt16) (blockSize repair minRepair : UInt32) (raptorq : RaptorQ) :
    Prop where
  maxPacketSize_pos : 0 < raptorq.maxPacketSize.toNat
  aligned : 8 ∣ raptorq.maxPacketSize.toNat
  le_mtu : raptorq.maxPacketSize.toNat + 32 ≤ mtu.toNat
  symbolCount_pos : 1 ≤ raptorq.symbolCount.toNat
  transferLength_eq : raptorq.transferLength.toNat =
    raptorq.symbolCount.toNat * raptorq.maxPacketSize.toNat
  transferLength_le : raptorq.transferLength.toNat ≤ blockSize.toNat
  room : 9 < raptorq.transferLength.toNat
  minRepair_eq : raptorq.minNbRepairPackets.toNat =
    raptorq.transferLength.toNat / 100 * minRepair.toNat / raptorq.maxPacketSize.toNat
  repair_eq : raptorq.nbRepairPackets.toNat =
    max (raptorq.transferLength.toNat / 100 * repair.toNat / raptorq.maxPacketSize.toNat)
      (raptorq.transferLength.toNat / 100 * minRepair.toNat / raptorq.maxPacketSize.toNat)
  minRepair_le : raptorq.minNbRepairPackets.toNat ≤ raptorq.nbRepairPackets.toNat

/-- The MTU has room for the headers and eight bytes, and either there are too many source packets,
or there is room for data in a block and no product overflows before a number of repair packets
turns out to be too large. -/
def Regular (mtu : UInt16) (blockSize repair minRepair : UInt32) : Prop :=
  40 ≤ mtu.toNat ∧ (2 ^ 16 ≤ symbols mtu blockSize ∨
    9 < blockLength mtu blockSize ∧ repairProduct mtu blockSize repair < 2 ^ 32 ∧
      (2 ^ 16 ≤ repairProduct mtu blockSize repair / packetSize mtu ∨
        repairProduct mtu blockSize minRepair < 2 ^ 32))

section Sound

variable {profile : Profile} {mtu : UInt16} {blockSize repair minRepair : UInt32}
  {raptorq : RaptorQ}

/-- The size of a packet is exact if the MTU has room for the headers. -/
lemma packetSize_of_le (h : 32 ≤ mtu.toNat) : packetSize mtu = (mtu.toNat - 32) / 8 * 8 := by
  have hlt := mtu.toNat_lt
  have hmod : (mtu.toNat + (2 ^ 16 - 32)) % 2 ^ 16 = mtu.toNat - 32 := by omega
  rw [packetSize, hmod]

/-- A number of repair packets is exact if the product fits. -/
lemma repairCount_of_lt (h : repairProduct mtu blockSize repair < 2 ^ 32) :
    repairCount mtu blockSize repair = repairProduct mtu blockSize repair / packetSize mtu := by
  rw [repairCount, Nat.mod_eq_of_lt h]

/-- Repair packets have a block to protect. -/
lemma room_of_repairCount (h : 0 < repairCount mtu blockSize repair) :
    9 < blockLength mtu blockSize := by
  by_contra hle
  have hzero : blockLength mtu blockSize / 100 = 0 := by omega
  rw [repairCount, repairProduct, hzero, Nat.zero_mul, Nat.zero_mod, Nat.zero_div] at h
  omega

/-- The length of the blocks does not wrap. -/
lemma Built.transferLength_eq (h : Built profile mtu blockSize repair minRepair raptorq) :
    raptorq.transferLength.toNat = blockLength mtu blockSize := by
  rw [raptorq.length_eq, h.maxPacketSize_eq, h.symbolCount_eq, blockLength]

/-- **A geometry with room for data is sound if no product has overflowed.** -/
lemma Built.sound (h : Built profile mtu blockSize repair minRepair raptorq)
    (hmtu : 32 ≤ mtu.toNat) (hroom : 9 < blockLength mtu blockSize)
    (hr : repairProduct mtu blockSize repair < 2 ^ 32)
    (hk : repairProduct mtu blockSize minRepair < 2 ^ 32) :
    Sound mtu blockSize repair minRepair raptorq := by
  have hm := h.maxPacketSize_eq
  have hlen := h.transferLength_eq
  have hmin := h.minRepair_eq
  have hrep := h.repair_eq
  rw [repairCount_of_lt hk] at hmin
  rw [repairCount_of_lt hr, repairCount_of_lt hk] at hrep
  have hsize := packetSize_of_le hmtu
  refine ⟨?_, ?_, ?_, ?_, ?_, ?_, ?_, ?_, ?_, raptorq.repair_le⟩
  · rw [hm]
    exact h.hasPacketSize.pos
  · rw [hm, hsize]
    exact Nat.dvd_mul_left _ _
  · rw [hm, hsize]
    omega
  · rw [h.symbolCount_eq]
    apply Nat.pos_of_ne_zero
    intro hzero
    rw [blockLength, hzero] at hroom
    omega
  · rw [raptorq.length_eq, Nat.mul_comm]
  · rw [hlen, blockLength, symbols, Nat.mul_comm]
    exact Nat.div_mul_le_self _ _
  · rw [hlen]
    exact hroom
  · rw [hmin, hlen, hm, repairProduct]
  · rw [hrep, hlen, hm, repairProduct, repairProduct]

/-- A debug build with a packet size has room for eight bytes of it. -/
lemma HasPacketSize.le_mtu (h : HasPacketSize .dev mtu) : 40 ≤ mtu.toNat := by
  have h32 := h.mtu_fits rfl
  have hpos := h.pos
  rw [packetSize_of_le h32] at hpos
  omega

/-- What a debug build does not panic on and makes no unsound geometry of is regular. -/
lemma regular_of_dev (hpanic : new .dev mtu blockSize repair minRepair ≠ .error .panic)
    (hsound : ∀ raptorq, new .dev mtu blockSize repair minRepair = .ok raptorq →
      Sound mtu blockSize repair minRepair raptorq) :
    Regular mtu blockSize repair minRepair := by
  have hcase := newResult_new .dev mtu blockSize repair minRepair
  generalize new .dev mtu blockSize repair minRepair = res at hpanic hsound hcase
  cases hcase with
  | subtraction hdev hmtu => exact absurd rfl hpanic
  | division hm => exact absurd rfl hpanic
  | symbolCount hsize hs => exact ⟨hsize.le_mtu, .inl hs⟩
  | repairOverflow hs hdev hr => exact absurd rfl hpanic
  | nbRepairPackets hsize hfits hr =>
    have hroom := room_of_repairCount (by omega : 0 < repairCount mtu blockSize repair)
    rw [repairCount_of_lt (hfits rfl)] at hr
    exact ⟨hsize.le_mtu, .inr ⟨hroom, hfits rfl, .inl hr⟩⟩
  | minRepairOverflow hs hdev hr hk => exact absurd rfl hpanic
  | minNbRepairPackets hsize hfits hk =>
    obtain ⟨hr, hk'⟩ := hfits rfl
    have hroom := room_of_repairCount (by omega : 0 < repairCount mtu blockSize minRepair)
    exact ⟨hsize.le_mtu, .inr ⟨hroom, hr, .inr hk'⟩⟩
  | @built raptorq h =>
    have hroom := (hsound raptorq rfl).room
    rw [h.transferLength_eq] at hroom
    exact ⟨h.hasPacketSize.le_mtu, .inr ⟨hroom, h.repair_fits rfl, .inr (h.minRepair_fits rfl)⟩⟩

/-- **When the constructor is sound.** In both profiles it returns a sound geometry or an error
exactly if the arguments are regular. -/
theorem new_sound_iff (mtu : UInt16) (blockSize repair minRepair : UInt32) :
    (∀ profile, new profile mtu blockSize repair minRepair ≠ .error .panic ∧
      ∀ raptorq, new profile mtu blockSize repair minRepair = .ok raptorq →
        Sound mtu blockSize repair minRepair raptorq) ↔
      Regular mtu blockSize repair minRepair := by
  constructor
  · intro h
    exact regular_of_dev (h .dev).1 (h .dev).2
  · rintro ⟨hmtu, hrest⟩ profile
    have hsize := packetSize_of_le (by omega : 32 ≤ mtu.toNat)
    have hcase := newResult_new profile mtu blockSize repair minRepair
    generalize new profile mtu blockSize repair minRepair = res at hcase
    cases hcase with
    | subtraction hdev hlt => omega
    | division hm => omega
    | symbolCount => simp
    | repairOverflow hs hdev hr =>
      obtain ⟨-, hlt, -⟩ := hrest.resolve_left (by omega)
      omega
    | nbRepairPackets => simp
    | minRepairOverflow hs hdev hr hk =>
      obtain ⟨-, hlt, hor⟩ := hrest.resolve_left (by omega)
      rw [repairCount_of_lt hlt] at hr
      omega
    | minNbRepairPackets => simp
    | @built raptorq h =>
      have hs : symbols mtu blockSize < 2 ^ 16 := h.symbolCount_eq ▸ raptorq.symbolCount.toNat_lt
      obtain ⟨hroom, hlt, hor⟩ := hrest.resolve_left (by omega)
      -- the geometry has a number of repair packets, so the first of the two cases is excluded
      have hr : repairCount mtu blockSize repair < 2 ^ 16 := by
        have hnb := raptorq.nbRepairPackets.toNat_lt
        rw [h.repair_eq] at hnb
        omega
      rw [repairCount_of_lt hlt] at hr
      have hk := hor.resolve_left (by omega)
      refine ⟨by simp, fun raptorq' heq => ?_⟩
      cases heq
      exact h.sound (by omega) hroom hlt hk

/-- An MTU of 36 leaves less than eight bytes, and the division by the packet size panics. -/
theorem new_panics : ¬ ∀ profile, new profile 36 17568000 2 0 ≠ .error .panic ∧
    ∀ raptorq, new profile 36 17568000 2 0 = .ok raptorq → Sound 36 17568000 2 0 raptorq := by
  intro h
  exact (h .release).1 (by decide)

end Sound

end Lidi.RaptorQ
