import Mathlib.Data.UInt

set_option relaxedAutoImplicit false
set_option autoImplicit false

/-!
# The RaptorQ geometry and codec

The program uses the `raptorq` crate for its forward error correction. The crate is a parameter
here: `Crate` lists the functions the program calls, and `Crate.Lawful` what it relies on.

## Main definitions

* `Crate` — the functions of the `raptorq` crate.
* `RaptorQ` — the parameters of the code, with the relation between its sizes that its
  constructor establishes.
* `RaptorQ.encode`, `RaptorQ.decode` — one block to packets and back.
* `Crate.single`, `RaptorQ.single` — the smallest geometry, for examples.
-/

namespace Lidi

/-- The configuration given to the crate's encoders and decoders, known by the arguments of
`ObjectTransmissionInformation::with_defaults`. -/
structure ObjectTransmissionInformation where
  transferLength : UInt64
  maxPacketSize : UInt16
  deriving DecidableEq, Repr

/-- An encoding plan, known by the argument of `SourceBlockEncodingPlan::generate`. -/
structure SourceBlockEncodingPlan where
  symbolCount : UInt16
  deriving DecidableEq, Repr

/-- The functions of the `raptorq` crate that the program calls. An encoder is given by the
arguments of `SourceBlockEncoder::with_encoding_plan`, a decoder by those of
`SourceBlockDecoder::new`. `deserialize` returns nothing where the crate panics. -/
structure Crate (Packet : Type*) where
  symbolSize : ObjectTransmissionInformation → UInt16
  sourcePackets : UInt8 → ObjectTransmissionInformation → List UInt8 → SourceBlockEncodingPlan →
    List Packet
  repairPackets : UInt8 → ObjectTransmissionInformation → List UInt8 → SourceBlockEncodingPlan →
    UInt32 → UInt32 → List Packet
  decode : UInt8 → ObjectTransmissionInformation → UInt64 → List Packet → Option (List UInt8)
  serialize : Packet → List UInt8
  deserialize : List UInt8 → Option Packet
  sourceBlockNumber : Packet → UInt8

/-- The parameters of the code. `length_eq` is how the constructor computes the transfer length
and `repair_le` the order it establishes between the two numbers of repair packets. -/
structure RaptorQ where
  maxPacketSize : UInt16
  symbolCount : UInt16
  transferLength : UInt32
  nbRepairPackets : UInt16
  minNbRepairPackets : UInt16
  length_eq : transferLength.toNat = maxPacketSize.toNat * symbolCount.toNat
  repair_le : minNbRepairPackets.toNat ≤ nbRepairPackets.toNat
  deriving DecidableEq

namespace RaptorQ

variable {Packet : Type*}

/-- The encoding plan made by the constructor. -/
def plan (raptorq : RaptorQ) : SourceBlockEncodingPlan :=
  ⟨raptorq.symbolCount⟩

/-- The configuration made by the constructor. -/
def config (raptorq : RaptorQ) : ObjectTransmissionInformation :=
  ⟨raptorq.transferLength.toUInt64, raptorq.maxPacketSize⟩

/-- The number of packets that make the receiver try to decode a block. The addition wraps, as in
a release build. -/
def minNbPackets (raptorq : RaptorQ) : UInt16 :=
  raptorq.symbolCount + raptorq.minNbRepairPackets

/-- The number of packets of an encoded block. -/
def nbPackets (raptorq : RaptorQ) : UInt32 :=
  raptorq.symbolCount.toUInt32 + raptorq.nbRepairPackets.toUInt32

/-- The packets of a block: the source packets, then the repair packets if there are any. -/
def encode (raptorq : RaptorQ) (crate : Crate Packet) (blockId : UInt8) (data : List UInt8) :
    List Packet :=
  let packets := crate.sourcePackets blockId raptorq.config data raptorq.plan
  if 0 < raptorq.nbRepairPackets then
    packets ++ crate.repairPackets blockId raptorq.config data raptorq.plan
      (crate.symbolSize raptorq.config).toUInt32 raptorq.nbRepairPackets.toUInt32
  else packets

/-- The block that the packets decode to, if they do. -/
def decode (raptorq : RaptorQ) (crate : Crate Packet) (blockId : UInt8) (packets : List Packet) :
    Option (List UInt8) :=
  crate.decode blockId raptorq.config raptorq.transferLength.toUInt64 packets

end RaptorQ

variable {Packet : Type*}

/-- What the program relies on: the packets of a block carry its number, they survive the link,
and packets that all come from one block decode to that block or not at all. -/
structure Crate.Lawful (crate : Crate Packet) (raptorq : RaptorQ) : Prop where
  sourceBlockNumber_encode : ∀ id data, data.length = raptorq.transferLength.toNat →
    ∀ p ∈ raptorq.encode crate id data, crate.sourceBlockNumber p = id
  deserialize_serialize : ∀ p, crate.deserialize (crate.serialize p) = some p
  decode_encode : ∀ id data packets, data.length = raptorq.transferLength.toNat →
    (∀ p ∈ packets, p ∈ raptorq.encode crate id data) →
    ∀ block, raptorq.decode crate id packets = some block → block = data

/-! ## The smallest geometry -/

/-- A geometry with one packet of 16 bytes for each block. -/
def RaptorQ.single : RaptorQ where
  maxPacketSize := 16
  symbolCount := 1
  transferLength := 16
  nbRepairPackets := 0
  minNbRepairPackets := 0
  length_eq := rfl
  repair_le := le_rfl

/-- The behaviour of the crate for that geometry: the only source packet is the block itself,
after the four bytes of the payload number. -/
def Crate.single : Crate (UInt8 × List UInt8) where
  symbolSize config := config.maxPacketSize
  sourcePackets id _ data _ := [(id, data)]
  repairPackets _ _ _ _ _ _ := []
  decode id _ _ packets := (packets.find? (·.1 = id)).map (·.2)
  serialize p := p.1 :: 0 :: 0 :: 0 :: p.2
  deserialize bytes := if bytes.length < 4 then none else some (bytes.headD 0, bytes.drop 4)
  sourceBlockNumber p := p.1

/-- The one packet of a block. -/
lemma Crate.single_encode (id : UInt8) (data : List UInt8) :
    RaptorQ.single.encode Crate.single id data = [(id, data)] := rfl

/-- Blocks of one packet are a lawful code. -/
lemma Crate.single_lawful : Crate.single.Lawful RaptorQ.single where
  sourceBlockNumber_encode id data _ p hp := by
    rw [single_encode, List.mem_singleton] at hp
    rw [hp]
    rfl
  deserialize_serialize p := rfl
  decode_encode id data packets _ hall block hdec := by
    simp only [RaptorQ.decode, single, Option.map_eq_some_iff] at hdec
    obtain ⟨p, hfind, rfl⟩ := hdec
    have hp := hall p (List.mem_of_find?_eq_some hfind)
    rw [single_encode, List.mem_singleton] at hp
    rw [hp]

end Lidi
