import Lidi.Core.LittleEndian
import Lidi.Core.Outcome
import Lidi.Protocol.RaptorQ

set_option relaxedAutoImplicit false
set_option autoImplicit false

/-!
# Protocol blocks

A block is a byte string: four bytes of client number, one byte of type, four bytes of data
length, the data and a padding with zeros. All blocks have the transfer length of the RaptorQ
geometry.

## Main definitions

* `BlockType`, `Block` — the types of blocks and the blocks.
* `Block.new` — the constructor, with its panics.
* `Block.clientId`, `Block.blockType`, `Block.payload` — the fields of a block.
* `Block.Carries` — a block has given fields.

## Main results

* `Block.new_carries` — the fields of a new block are the arguments of the constructor.
-/

namespace Lidi

/-- `protocol::Error`. -/
inductive Protocol.Error
  | io (e : IoError)
  | invalidBlockType (b : Option UInt8)
  | other (message : String)
  deriving DecidableEq, Repr

/-- The number of a client transfer. -/
abbrev ClientId := UInt32

/-- The types of blocks. -/
inductive BlockType
  | heartbeat
  | start
  | data
  | abort
  | «end»
  deriving DecidableEq, Repr

namespace BlockType

/-- `ID_HEARTBEAT` to `ID_END`. -/
def serialized : BlockType → UInt8
  | heartbeat => 0x00
  | start => 0x01
  | data => 0x02
  | abort => 0x03
  | «end» => 0x04

end BlockType

/-- A block, as its bytes. -/
structure Block where
  bytes : List UInt8
  deriving DecidableEq, Repr

namespace Block

/-- `SERIALIZE_OVERHEAD`: the length of the fields before the data. -/
def serializeOverhead : ℕ := 4 + 1 + 4

/-- The longest data that fit in a block; the subtraction fails if the geometry has no room for
the fields. -/
def maxDataLen (raptorq : RaptorQ) : Option ℕ :=
  if serializeOverhead ≤ raptorq.transferLength.toNat then
    some (raptorq.transferLength.toNat - serializeOverhead)
  else none

/-- Writes `pre` over the first elements. -/
def overwrite (content pre : List UInt8) : List UInt8 :=
  pre ++ content.drop pre.length

/-- The error of a failed integer conversion. -/
def conversionError (what : String) : Protocol.Error :=
  .other (what ++ ": out of range integral type conversion attempted")

/-- The constructor. Without data, the first five bytes of a zero vector are set by index, which
panics if it is shorter. With data, the fields and the data are appended to a vector whose
capacity is the transfer length, which is then filled with zeros. -/
def new (block : BlockType) (raptorq : RaptorQ) (clientId : ClientId) (data : Option (List UInt8)) :
    Outcome Protocol.Error Block :=
  let transferLength := raptorq.transferLength.toNat
  match data with
  | none =>
    let content := List.replicate transferLength 0
    let fields := LittleEndian.encode 4 clientId.toNat ++ [block.serialized]
    if content.length < fields.length then .error .panic
    else .ok ⟨overwrite content fields⟩
  | some data =>
    if 2 ^ 32 ≤ data.length then .error (.error (conversionError "data.len()"))
    else
      let content := LittleEndian.encode 4 clientId.toNat ++ [block.serialized] ++
        LittleEndian.encode 4 data.length ++ data
      .ok ⟨content ++ List.replicate (transferLength - content.length) 0⟩

/-- The number in four bytes at the given place; `none` if the index is out of range. -/
def u32At (b : Block) (i : ℕ) : Option UInt32 :=
  if i + 4 ≤ b.bytes.length then
    some (UInt32.ofNat (LittleEndian.decode ((b.bytes.drop i).take 4)))
  else none

/-- The client number; `none` where the index panics. -/
def clientId (b : Block) : Option ClientId :=
  b.u32At 0

/-- The type of a block. -/
def blockType (b : Block) : Except Protocol.Error BlockType :=
  match (b.bytes[4]? : Option UInt8) with
  | some 0x00 => .ok .heartbeat
  | some 0x01 => .ok .start
  | some 0x02 => .ok .data
  | some 0x03 => .ok .abort
  | some 0x04 => .ok .end
  | b => .error (.invalidBlockType b)

/-- The data length; `none` where the index panics. -/
def payloadLen (b : Block) : Option UInt32 :=
  b.u32At 5

/-- A decoded byte string as a block. -/
def deserialize (data : List UInt8) : Block :=
  ⟨data⟩

/-- The bytes of a block. -/
def serialized (b : Block) : List UInt8 :=
  b.bytes

/-- The data of a block; `none` where the slice is out of range. -/
def payload (b : Block) : Option (List UInt8) :=
  b.payloadLen.bind fun len =>
    if serializeOverhead + len.toNat ≤ b.bytes.length then
      some ((b.bytes.drop serializeOverhead).take len.toNat)
    else none

/-- **A block is read back.** -/
@[simp]
lemma deserialize_serialized (b : Block) : deserialize b.serialized = b := rfl

/-- The block has the length of the geometry and the given fields. -/
structure Carries (raptorq : RaptorQ) (b : Block) (type : BlockType) (id : ClientId)
    (data : List UInt8) : Prop where
  length_eq : b.bytes.length = raptorq.transferLength.toNat
  blockType_eq : b.blockType = .ok type
  clientId_eq : b.clientId = some id
  payload_eq : b.payload = some data

/-- The fifth byte is the type. -/
lemma blockType_of_get {b : Block} {type : BlockType} (h : b.bytes[4]? = some type.serialized) :
    b.blockType = .ok type := by
  unfold blockType
  rw [h]
  cases type <;> rfl

/-! ## The places of the fields -/

section Layout

variable {ids lens rest : List UInt8} {t : UInt8}

/-- A block that is long enough is its fields and the rest. -/
lemma exists_layout {bytes : List UInt8} (h : serializeOverhead ≤ bytes.length) :
    ∃ ids t lens rest, bytes = ids ++ [t] ++ lens ++ rest ∧ ids.length = 4 ∧ lens.length = 4 := by
  rw [serializeOverhead] at h
  have htype : (bytes.drop 4).take 1 = [bytes[4]] := by
    rw [← List.getElem_cons_drop (by omega : 4 < bytes.length)]
    rfl
  refine ⟨bytes.take 4, bytes[4], (bytes.drop 5).take 4, bytes.drop 9, ?_, ?_, ?_⟩
  · have hlens : (bytes.drop 5).take 4 ++ bytes.drop 9 = bytes.drop 5 := by
      rw [← List.drop_drop (i := 4) (j := 5)]
      exact List.take_append_drop 4 _
    have htail : [bytes[4]] ++ bytes.drop 5 = bytes.drop 4 := by
      rw [← List.getElem_cons_drop (by omega : 4 < bytes.length)]
      rfl
    rw [List.append_assoc, hlens, List.append_assoc, htail, List.take_append_drop]
  · rw [List.length_take]
    omega
  · rw [List.length_take, List.length_drop]
    omega

/-- The first four bytes are the client. -/
lemma clientId_layout (hids : ids.length = 4) :
    clientId ⟨ids ++ [t] ++ lens ++ rest⟩ = some (UInt32.ofNat (LittleEndian.decode ids)) := by
  have hle : 0 + 4 ≤ (ids ++ [t] ++ lens ++ rest).length := by
    simp only [List.length_append, hids]
    omega
  have htake : (ids ++ [t] ++ lens ++ rest).take 4 = ids := by
    rw [List.append_assoc, List.append_assoc, List.take_left' hids]
  rw [clientId, u32At, if_pos hle, List.drop_zero, htake]

/-- The fifth byte comes after the client. -/
lemma get_layout (hids : ids.length = 4) : (ids ++ [t] ++ lens ++ rest)[4]? = some t := by
  simp [hids]

/-- The four bytes after the type are the length of the data. -/
lemma payloadLen_layout (hids : ids.length = 4) (hlens : lens.length = 4) :
    payloadLen ⟨ids ++ [t] ++ lens ++ rest⟩ = some (UInt32.ofNat (LittleEndian.decode lens)) := by
  have hle : 5 + 4 ≤ (ids ++ [t] ++ lens ++ rest).length := by
    simp only [List.length_append, hids, hlens, List.length_singleton]
    omega
  have hdrop : (ids ++ [t] ++ lens ++ rest).drop 5 = lens ++ rest := by
    rw [List.append_assoc]
    exact List.drop_left' (by simp [hids])
  rw [payloadLen, u32At, if_pos hle, hdrop, List.take_left' hlens]

/-- The data come after their length. -/
lemma payload_layout (hids : ids.length = 4) (hlens : lens.length = 4)
    (hrest : LittleEndian.decode lens ≤ rest.length) :
    payload ⟨ids ++ [t] ++ lens ++ rest⟩ = some (rest.take (LittleEndian.decode lens)) := by
  have hle : serializeOverhead + LittleEndian.decode lens ≤
      (ids ++ [t] ++ lens ++ rest).length := by
    simp only [List.length_append, hids, hlens, List.length_singleton, serializeOverhead]
    omega
  have hdrop : (ids ++ [t] ++ lens ++ rest).drop serializeOverhead = rest :=
    List.drop_left' (by simp [hids, hlens, serializeOverhead])
  rw [payload, payloadLen_layout hids hlens, Option.bind_some,
    LittleEndian.toNat_ofNat_decode hlens, if_pos hle, hdrop]

end Layout

/-- A block that starts with the given fields and data carries them. -/
lemma carries_of_bytes {raptorq : RaptorQ} {type : BlockType} {id : ClientId}
    {data padding : List UInt8} (hdata : data.length < 2 ^ 32)
    (hlen : serializeOverhead + data.length + padding.length = raptorq.transferLength.toNat) :
    Carries raptorq ⟨LittleEndian.encode 4 id.toNat ++ [type.serialized] ++
      LittleEndian.encode 4 data.length ++ data ++ padding⟩ type id data := by
  have hid : (LittleEndian.encode 4 id.toNat).length = 4 := LittleEndian.length_encode _ _
  have hdl : (LittleEndian.encode 4 data.length).length = 4 := LittleEndian.length_encode _ _
  have hdecode : ∀ n < 2 ^ 32, LittleEndian.decode (LittleEndian.encode 4 n) = n :=
    fun n hn => LittleEndian.decode_encode_of_lt (hn.trans_eq (by rfl))
  rw [List.append_assoc _ data]
  refine ⟨?_, blockType_of_get (get_layout hid), ?_, ?_⟩
  · simp only [List.length_append, hid, hdl, List.length_singleton]
    rw [serializeOverhead] at hlen
    omega
  · rw [clientId_layout hid, hdecode _ id.toNat_lt]
    simp
  · have hle : LittleEndian.decode (LittleEndian.encode 4 data.length) ≤
        (data ++ padding).length := by
      rw [hdecode _ hdata, List.length_append]
      omega
    rw [payload_layout hid hdl hle, hdecode _ hdata, List.take_left' rfl]

/-- A block without data that is built by the constructor has the given type. -/
lemma blockType_of_new {raptorq : RaptorQ} {type : BlockType} {id : ClientId} {b : Block}
    (h : new type raptorq id none = .ok b) : b.blockType = .ok type := by
  simp only [new] at h
  split at h
  · cases h
  · cases h
    refine blockType_of_get ?_
    have hid : (LittleEndian.encode 4 id.toNat).length = 4 := LittleEndian.length_encode _ _
    simp [overwrite, hid]

/-- It is addressed to the given client. -/
lemma clientId_of_new {raptorq : RaptorQ} {type : BlockType} {id : ClientId} {b : Block}
    (h : new type raptorq id none = .ok b) : b.clientId = some id := by
  have hid : (LittleEndian.encode 4 id.toNat).length = 4 := LittleEndian.length_encode _ _
  simp only [new] at h
  split at h
  · cases h
  · cases h
    have hle : 0 + 4 ≤ (overwrite (List.replicate raptorq.transferLength.toNat 0)
        (LittleEndian.encode 4 id.toNat ++ [type.serialized])).length := by
      simp [overwrite, hid]
    have htake : (overwrite (List.replicate raptorq.transferLength.toNat 0)
        (LittleEndian.encode 4 id.toNat ++ [type.serialized])).take 4 =
        LittleEndian.encode 4 id.toNat := by
      rw [overwrite, List.append_assoc, List.take_left' hid]
    have hdecode : LittleEndian.decode (LittleEndian.encode 4 id.toNat) = id.toNat :=
      LittleEndian.decode_encode_of_lt (id.toNat_lt.trans_eq (by rfl))
    rw [clientId, u32At, if_pos hle, List.drop_zero, htake, hdecode]
    simp

/-- The longest data and the fields fill the block. -/
lemma overhead_add_maxDataLen {raptorq : RaptorQ} {maxLen : ℕ}
    (hmax : maxDataLen raptorq = some maxLen) :
    serializeOverhead + maxLen = raptorq.transferLength.toNat := by
  unfold maxDataLen at hmax
  split at hmax
  · simp only [Option.some.injEq] at hmax
    omega
  · simp at hmax

/-- **What the constructor builds.** Both of its branches write the fields, the data and zeros. -/
lemma new_eq {raptorq : RaptorQ} {maxLen : ℕ} (hmax : maxDataLen raptorq = some maxLen)
    (type : BlockType) (id : ClientId) (data : Option (List UInt8))
    (hdata : ∀ d ∈ data, d.length ≤ maxLen) :
    new type raptorq id data = .ok ⟨LittleEndian.encode 4 id.toNat ++ [type.serialized] ++
      LittleEndian.encode 4 (data.getD []).length ++ data.getD [] ++
        List.replicate (maxLen - (data.getD []).length) 0⟩ := by
  have hT := overhead_add_maxDataLen hmax
  rw [serializeOverhead] at hT
  have hlt := raptorq.transferLength.toNat_lt
  cases data with
  | none =>
    have hid : (LittleEndian.encode 4 id.toNat).length = 4 := LittleEndian.length_encode _ _
    have hzero : LittleEndian.encode 4 0 = List.replicate 4 0 := by decide
    have hshort : ¬ (List.replicate raptorq.transferLength.toNat (0 : UInt8)).length <
        (LittleEndian.encode 4 id.toNat ++ [type.serialized]).length := by
      simp [hid]
      omega
    have hrest : raptorq.transferLength.toNat - 5 = 4 + maxLen := by omega
    simp only [new, if_neg hshort]
    simp [overwrite, hid, hzero, hrest, List.replicate_add]
  | some d =>
    have hd := hdata d rfl
    have hd32 : ¬ 2 ^ 32 ≤ d.length := by omega
    have hpad : raptorq.transferLength.toNat - (LittleEndian.encode 4 id.toNat ++
        [type.serialized] ++ LittleEndian.encode 4 d.length ++ d).length = maxLen - d.length := by
      simp only [List.length_append, LittleEndian.length_encode, List.length_singleton]
      omega
    simp only [new, if_neg hd32, hpad, Option.getD_some]

/-- **The constructor is the inverse of the fields.** -/
theorem new_carries {raptorq : RaptorQ} {maxLen : ℕ} (hmax : maxDataLen raptorq = some maxLen)
    (type : BlockType) (id : ClientId) (data : Option (List UInt8))
    (hdata : ∀ d ∈ data, d.length ≤ maxLen) :
    ∃ b, new type raptorq id data = .ok b ∧ Carries raptorq b type id (data.getD []) := by
  have hT := overhead_add_maxDataLen hmax
  have hlt := raptorq.transferLength.toNat_lt
  have hlen : (data.getD []).length ≤ maxLen := by
    cases data with
    | none => simp
    | some d => exact hdata d rfl
  refine ⟨_, new_eq hmax type id data hdata, carries_of_bytes (by omega) ?_⟩
  rw [List.length_replicate]
  omega

/-- A block without data in the smallest geometry, for examples. -/
def single (type : BlockType) (id : ClientId) : Block :=
  ⟨LittleEndian.encode 4 id.toNat ++ [type.serialized] ++ List.replicate 11 0⟩

end Block

end Lidi
