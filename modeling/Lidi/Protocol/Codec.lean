import Lidi.Protocol.Block

set_option relaxedAutoImplicit false
set_option autoImplicit false

/-!
# The block codec

The constructor and the fields of a block are inverse to each other, in both directions, on the
blocks of the transfer length whose padding is zero.

## Main results

* `Block.codec` — a new block has the transfer length and gives its fields back, and a block with
  a known type, room for its data and a padding of zeros is built from its own fields.
-/

namespace Lidi.Block

variable {raptorq : RaptorQ} {maxLen : ℕ}

/-- The types of blocks are told by their byte. -/
lemma serialized_of_blockType {b : Block} {type : BlockType} (h : b.blockType = .ok type) :
    b.bytes[4]? = some type.serialized := by
  unfold blockType at h
  split at h
  case h_6 => cases h
  all_goals
    cases h
    assumption

/-- **From the fields to the block and back.** -/
lemma fields_of_new (hmax : maxDataLen raptorq = some maxLen) (type : BlockType) (id : ClientId)
    (data : Option (List UInt8)) (hdata : ∀ d ∈ data, d.length ≤ maxLen) :
    ∃ b, new type raptorq id data = .ok b ∧
      b.serialized.length = raptorq.transferLength.toNat ∧
      (∀ x ∈ b.serialized.drop (serializeOverhead + (data.getD []).length), x = 0) ∧
      (deserialize b.serialized).clientId = some id ∧
      (deserialize b.serialized).blockType = .ok type ∧
      (deserialize b.serialized).payload = some (data.getD []) := by
  obtain ⟨b, hb, hc⟩ := new_carries hmax type id data hdata
  refine ⟨b, hb, hc.length_eq, ?_, hc.clientId_eq, hc.blockType_eq, hc.payload_eq⟩
  have hbytes := hb.symm.trans (new_eq hmax type id data hdata)
  rw [Except.ok.injEq] at hbytes
  rw [hbytes, serialized, List.drop_left']
  · exact fun x hx => List.eq_of_mem_replicate hx
  · simp only [List.length_append, LittleEndian.length_encode, List.length_singleton,
      serializeOverhead]

/-- **From the block to the fields and back.** The data are cut out of the block at the length
that it names, and what is left is the padding. -/
lemma new_of_fields (hmax : maxDataLen raptorq = some maxLen) {bytes : List UInt8}
    {type : BlockType} {len : UInt32} (hlength : bytes.length = raptorq.transferLength.toNat)
    (htype : (deserialize bytes).blockType = .ok type)
    (hlen : (deserialize bytes).payloadLen = some len) (hle : len.toNat ≤ maxLen)
    (hzero : ∀ x ∈ bytes.drop (serializeOverhead + len.toNat), x = 0) :
    ∃ id data, (deserialize bytes).clientId = some id ∧
      (deserialize bytes).payload = some data ∧
      ∃ b, new type raptorq id (some data) = .ok b ∧ b.serialized = bytes := by
  have hT := overhead_add_maxDataLen hmax
  have hlong : serializeOverhead ≤ bytes.length := by omega
  obtain ⟨ids, t, lens, rest, rfl, hids, hlens⟩ := exists_layout hlong
  have hrest : rest.length = maxLen := by
    simp only [List.length_append, hids, hlens, List.length_singleton] at hlength
    rw [serializeOverhead] at hT
    omega
  have hdecode : len.toNat = LittleEndian.decode lens := by
    rw [deserialize, payloadLen_layout hids hlens, Option.some.injEq] at hlen
    rw [← hlen, LittleEndian.toNat_ofNat_decode hlens]
  have ht : t = type.serialized := by
    have h := serialized_of_blockType htype
    rw [deserialize, get_layout hids, Option.some.injEq] at h
    exact h
  rw [hdecode] at hle hzero
  have hdata : (rest.take (LittleEndian.decode lens)).length = LittleEndian.decode lens :=
    List.length_take_of_le (by omega)
  -- What the constructor does not write is the padding.
  have hpad : rest.drop (LittleEndian.decode lens) =
      List.replicate (maxLen - LittleEndian.decode lens) 0 := by
    have hdrop : (ids ++ [t] ++ lens ++ rest).drop (serializeOverhead + LittleEndian.decode lens) =
        rest.drop (LittleEndian.decode lens) := by
      rw [← List.drop_drop, List.drop_left' (by simp [hids, hlens, serializeOverhead])]
    rw [hdrop] at hzero
    refine List.eq_replicate_iff.mpr ⟨?_, hzero⟩
    rw [List.length_drop, hrest]
  refine ⟨_, _, clientId_layout hids, payload_layout hids hlens (by omega), _,
    new_eq hmax type _ _ ?_, ?_⟩
  · simp only [Option.mem_some_iff, forall_eq']
    omega
  · rw [serialized, Option.getD_some, LittleEndian.toNat_ofNat_decode hids,
      LittleEndian.encode_decode_of_length hids, ← ht, hdata,
      LittleEndian.encode_decode_of_length hlens, ← hpad, List.append_assoc _ (rest.take _),
      List.take_append_drop]

/-- **The block codec.** -/
theorem codec (hT : serializeOverhead ≤ raptorq.transferLength.toNat) :
    ∃ maxLen, maxDataLen raptorq = some maxLen ∧
      (∀ type id (data : Option (List UInt8)), (∀ d ∈ data, d.length ≤ maxLen) →
        ∃ b, new type raptorq id data = .ok b ∧
          b.serialized.length = raptorq.transferLength.toNat ∧
          (∀ x ∈ b.serialized.drop (serializeOverhead + (data.getD []).length), x = 0) ∧
          (deserialize b.serialized).clientId = some id ∧
          (deserialize b.serialized).blockType = .ok type ∧
          (deserialize b.serialized).payload = some (data.getD [])) ∧
      ∀ bytes type (len : UInt32), bytes.length = raptorq.transferLength.toNat →
        (deserialize bytes).blockType = .ok type →
        (deserialize bytes).payloadLen = some len → len.toNat ≤ maxLen →
        (∀ x ∈ bytes.drop (serializeOverhead + len.toNat), x = 0) →
        ∃ id data, (deserialize bytes).clientId = some id ∧
          (deserialize bytes).payload = some data ∧
          ∃ b, new type raptorq id (some data) = .ok b ∧ b.serialized = bytes := by
  have hmax : maxDataLen raptorq =
      some (raptorq.transferLength.toNat - serializeOverhead) := if_pos hT
  refine ⟨_, hmax, fields_of_new hmax, ?_⟩
  intro bytes type len hlength htype hlen hle hzero
  exact new_of_fields hmax hlength htype hlen hle hzero

/-- Three bytes of data in the smallest geometry. -/
theorem codec_single :
    (∃ b, new .data .single 7 (some [1, 2, 3]) = .ok b ∧ b.serialized.length = 16 ∧
      (deserialize b.serialized).payload = some [1, 2, 3]) ∧
    ∃ id data b, new .data .single id (some data) = .ok b ∧
      b.serialized = [7, 0, 0, 0, 2, 3, 0, 0, 0, 1, 2, 3, 0, 0, 0, 0] := by
  have hT : serializeOverhead ≤ RaptorQ.single.transferLength.toNat := by decide
  obtain ⟨maxLen, hmax, hnew, hfields⟩ := codec hT
  have hseven : maxLen = 7 := by
    have hmax' : maxDataLen .single = some 7 := by decide
    rw [hmax', Option.some.injEq] at hmax
    exact hmax.symm
  subst hseven
  constructor
  · obtain ⟨b, hb, hlength, -, -, -, hpayload⟩ := hnew .data 7 (some [1, 2, 3]) (by simp)
    exact ⟨b, hb, hlength, hpayload⟩
  · have hzero : [7, 0, 0, 0, 2, 3, 0, 0, 0, 1, 2, 3, 0, 0, 0, 0].drop
        (serializeOverhead + (3 : UInt32).toNat) = List.replicate 4 (0 : UInt8) := rfl
    obtain ⟨id, data, -, -, b, hb, hbytes⟩ :=
      hfields [7, 0, 0, 0, 2, 3, 0, 0, 0, 1, 2, 3, 0, 0, 0, 0] .data 3 rfl rfl rfl (by decide)
        (by rw [hzero]; exact fun x hx => List.eq_of_mem_replicate hx)
    exact ⟨id, data, b, hb, hbytes⟩

end Lidi.Block
