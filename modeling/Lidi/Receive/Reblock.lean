import Lidi.Receive.Decode

set_option relaxedAutoImplicit false
set_option autoImplicit false

/-!
# The reblock worker

The reblock worker sorts the packets of incoming datagrams into 256 slots by their 8-bit block
number, of which a window of 127 is open, and puts the packets of the current block on `to_decode`
once there are enough. After a timeout, or when the window would reach a slot that is not empty,
it starts again from the next datagram: it forgets all packets and writes the number of that
datagram to `block_to_dispatch`.

A step of this part is a step of the worker up to its next effect on the shared state: it may put
something on `to_decode`, write `block_to_dispatch`, or wake the decoding threads.

## Main definitions

* `Receive.Datagrams` — what the udp worker hands over.
* `Receive.Reblock` — the state of the worker.
* `Receive.Reblock.onTimeout`, `Receive.Reblock.onDatagrams`, `Receive.Reblock.resync`,
  `Receive.Reblock.openWindow`, `Receive.Reblock.store`, `Receive.Reblock.emission` — the parts of
  its loop.
* `Receive.Core` — the worker together with the decoding threads.
* `Receive.Core.step` — the next step of one of them.

## Main results

* `Receive.Core.step_iff` — the steps as a relation.
* `Receive.Core.Inv.step` — the invariant of the decoding threads is kept.
-/

namespace Lidi.Receive

open Turnstile Function

/-- `udp::Datagrams`. -/
inductive Datagrams
  | single (datagram : List UInt8)
  | multiple (datagrams : List (List UInt8))
  deriving DecidableEq

/-- The datagrams one by one. -/
def Datagrams.toList : Datagrams → List (List UInt8)
  | single datagram => [datagram]
  | multiple datagrams => datagrams

/-- A batch of one datagram, for a block of one packet. -/
def datagramOf (id : UInt8) (data : List UInt8) : Datagrams :=
  .single (Crate.single.serialize (id, data))

/-- `WINDOW_WIDTH`. -/
def windowWidth : UInt8 := 0xff / 2

/-- What the worker is doing: waiting for datagrams, about to write `block_to_dispatch`, about to
wake the decoding threads, looking whether the current block is complete, about to report that the
window has reached a slot in use; or it has panicked. -/
inductive Reblocking
  | recv
  | publish (datagrams : Datagrams)
  | wake (datagrams : Datagrams)
  | loop
  | tooFar
  | panicked
  deriving DecidableEq

/-- The state of the worker. -/
structure Reblock (Packet : Type*) where
  phase : Reblocking
  blocksData : UInt8 → List Packet
  blocksIgnore : UInt8 → Bool
  curId : UInt8
  reset : Bool

namespace Reblock

variable {Packet : Type*}

/-- The initial state: everything is ignored, and the first datagram resets. -/
def init (Packet : Type*) : Reblock Packet where
  phase := .recv
  blocksData := fun _ => []
  blocksIgnore := fun _ => true
  curId := 0
  reset := true

/-- A slot that is ignored is not empty. -/
def damaged (s : Reblock Packet) : Bool :=
  (List.range 256).any fun id =>
    s.blocksIgnore (UInt8.ofNat id) && !(s.blocksData (UInt8.ofNat id)).isEmpty

/-- The reset timeout: the next datagram resets, and a loss is reported if there is damage. -/
def onTimeout (s : Reblock Packet) : Reblock Packet × List (Reassembled Packet) :=
  ({ s with reset := true }, if s.damaged then [.error] else [])

/-- A reset: all slots are emptied and ignored, and the block of the first datagram is the current
one. There is no first datagram in an empty batch, and a datagram may be too short to be a
packet. -/
def resync (crate : Crate Packet) (s : Reblock Packet) (datagrams : Datagrams) : Reblock Packet :=
  let cleared := { s with
    reset := false
    blocksData := fun _ => []
    blocksIgnore := fun _ => true }
  match datagrams.toList.head?.bind crate.deserialize with
  | none => { cleared with phase := .panicked }
  | some packet =>
    { cleared with curId := crate.sourceBlockNumber packet, phase := .publish datagrams }

/-- The slots of the window are no longer ignored. -/
def openWindow (s : Reblock Packet) : Reblock Packet :=
  { s with blocksIgnore := fun id =>
      if (id - s.curId).toNat < windowWidth.toNat then false else s.blocksIgnore id }

/-- One packet is put into its slot, if that is not ignored. -/
def storePacket (crate : Crate Packet) (s : Reblock Packet) (packet : Packet) : Reblock Packet :=
  let id := crate.sourceBlockNumber packet
  if s.blocksIgnore id then s
  else { s with blocksData := update s.blocksData id (s.blocksData id ++ [packet]) }

/-- The packets of the datagrams are put into their slots, and then the current block is looked
at. -/
def store (crate : Crate Packet) (s : Reblock Packet) (datagrams : Datagrams) : Reblock Packet :=
  match datagrams.toList.mapM crate.deserialize with
  | none => { s with phase := .panicked }
  | some packets => { packets.foldl (storePacket crate) s with phase := .loop }

/-- Datagrams arrive. -/
def onDatagrams (crate : Crate Packet) (s : Reblock Packet) (datagrams : Datagrams) :
    Reblock Packet :=
  if s.reset then s.resync crate datagrams else s.store crate datagrams

/-- The current block is emitted if it is complete. Its slot is closed and the one at the other
end of the window is opened; if that is not empty, the worker is about to report a loss. -/
def emission (minNbPackets : ℕ) (s : Reblock Packet) :
    Reblock Packet × List (Reassembled Packet) :=
  let packets := s.blocksData s.curId
  if minNbPackets ≤ packets.length then
    let opposite := s.curId + windowWidth
    let blocksData := update s.blocksData s.curId []
    let s' := { s with
      blocksData := blocksData
      blocksIgnore := update (update s.blocksIgnore s.curId true) opposite false }
    (if (blocksData opposite).isEmpty then { s' with curId := s.curId + 1 }
      else { s' with phase := .tooFar },
      [.block s.curId packets])
  else ({ s with phase := .recv }, [])

/-- What the emission loop can do: stop, emit a block and go on, or emit a block and find the
other end of the window in use. -/
inductive EmissionResult (minNbPackets : ℕ) (s : Reblock Packet) :
    Reblock Packet × List (Reassembled Packet) → Prop
  | incomplete (hlen : (s.blocksData s.curId).length < minNbPackets) :
      EmissionResult minNbPackets s ({ s with phase := .recv }, [])
  | complete (hlen : minNbPackets ≤ (s.blocksData s.curId).length)
      (hopp : update s.blocksData s.curId [] (s.curId + windowWidth) = []) :
      EmissionResult minNbPackets s ({ s with
        blocksData := update s.blocksData s.curId []
        blocksIgnore := update (update s.blocksIgnore s.curId true) (s.curId + windowWidth) false
        curId := s.curId + 1 }, [.block s.curId (s.blocksData s.curId)])
  | tooFar (hlen : minNbPackets ≤ (s.blocksData s.curId).length)
      (hopp : update s.blocksData s.curId [] (s.curId + windowWidth) ≠ []) :
      EmissionResult minNbPackets s ({ s with
        blocksData := update s.blocksData s.curId []
        blocksIgnore := update (update s.blocksIgnore s.curId true) (s.curId + windowWidth) false
        phase := .tooFar }, [.block s.curId (s.blocksData s.curId)])

/-- **The loop of emissions does one of these.** -/
lemma emission_eq (minNbPackets : ℕ) (s : Reblock Packet) :
    EmissionResult minNbPackets s (s.emission minNbPackets) := by
  unfold emission
  by_cases hlen : minNbPackets ≤ (s.blocksData s.curId).length
  · cases hopp : (update s.blocksData s.curId [] (s.curId + windowWidth)).isEmpty with
    | true =>
      simp only [if_pos hlen, hopp, if_true]
      exact .complete hlen (List.isEmpty_iff.mp hopp)
    | false =>
      simp only [if_pos hlen, hopp, Bool.false_eq_true, if_false]
      exact .tooFar hlen (List.isEmpty_eq_false_iff.mp hopp)
  · simp only [if_neg hlen]
    exact .incomplete (by omega)

section Store

variable (crate : Crate Packet) (s : Reblock Packet) (packet : Packet) (packets : List Packet)
  (datagrams : Datagrams)

/-- A packet that is stored does not move the window. -/
@[simp]
lemma curId_storePacket : (s.storePacket crate packet).curId = s.curId := by
  simp only [storePacket]
  split <;> rfl

/-- Nor does it make a reset. -/
@[simp]
lemma reset_storePacket : (s.storePacket crate packet).reset = s.reset := by
  simp only [storePacket]
  split <;> rfl

/-- Nor does it change which slots are ignored. -/
@[simp]
lemma blocksIgnore_storePacket : (s.storePacket crate packet).blocksIgnore = s.blocksIgnore := by
  simp only [storePacket]
  split <;> rfl

/-- Storing packets changes the slots only. -/
lemma foldl_storePacket : (packets.foldl (storePacket crate) s).curId = s.curId ∧
    (packets.foldl (storePacket crate) s).reset = s.reset ∧
    (packets.foldl (storePacket crate) s).blocksIgnore = s.blocksIgnore := by
  induction packets generalizing s with
  | nil => exact ⟨rfl, rfl, rfl⟩
  | cons p ps ih => simpa using ih (s.storePacket crate p)

/-- Nor does a batch of packets do any of this. -/
lemma store_eq : (s.store crate datagrams).curId = s.curId ∧
    (s.store crate datagrams).reset = s.reset ∧
    (s.store crate datagrams).blocksIgnore = s.blocksIgnore := by
  simp only [store]
  split
  · exact ⟨rfl, rfl, rfl⟩
  · rename_i packets _
    exact foldl_storePacket crate s packets

/-- After storing, the worker looks at the current block, or it has panicked. -/
lemma phase_store : (s.store crate datagrams).phase = .loop ∨
    (s.store crate datagrams).phase = .panicked := by
  simp only [store]
  split
  · exact .inr rfl
  · exact .inl rfl

/-- After a reset, the worker is about to write the new number, or it has panicked. -/
lemma phase_resync : (s.resync crate datagrams).phase = .publish datagrams ∨
    (s.resync crate datagrams).phase = .panicked := by
  simp only [resync]
  split
  · exact .inr rfl
  · exact .inl rfl

end Store

/-- The report that the window has reached a slot in use. -/
def onTooFar (s : Reblock Packet) : Reblock Packet × List (Reassembled Packet) :=
  ({ s with reset := true, phase := .recv }, [.error])

end Reblock

/-- The reblock worker and the decoding threads. -/
structure Core (n : ℕ) (Packet : Type*) where
  reblock : Reblock Packet
  decoding : Decoding n Packet

namespace Core

variable {n : ℕ} {Packet : Type*} {crate : Crate Packet} {raptorq : RaptorQ}
  {s s' : Core n Packet}

/-- The initial state. -/
def init (n : ℕ) (Packet : Type*) : Core n Packet where
  reblock := .init Packet
  decoding := .init n Packet 0

/-- Datagrams arrive, the reset timeout fires, or a worker moves. -/
inductive Label (n : ℕ)
  | datagrams (datagrams : Datagrams)
  | timeout
  | reblock
  | decode (w : Fin n)
  | dispatch
  deriving DecidableEq

/-- Items are put on `to_decode`. -/
def emitAll (d : Decoding n Packet) (items : List (Reassembled Packet)) : Decoding n Packet :=
  items.foldl Decoding.emit d

/-- The next step; `none` if the worker is blocked. -/
def step (crate : Crate Packet) (raptorq : RaptorQ) (s : Core n Packet) :
    Label n → Option (Core n Packet)
  | .datagrams datagrams =>
    if s.reblock.phase = .recv then
      some { s with reblock := s.reblock.onDatagrams crate datagrams }
    else none
  | .timeout =>
    if s.reblock.phase = .recv then
      some ⟨s.reblock.onTimeout.1, emitAll s.decoding s.reblock.onTimeout.2⟩
    else none
  | .reblock =>
    match s.reblock.phase with
    | .publish datagrams =>
      if s.decoding.gate.locked then none
      else
        some ⟨{ s.reblock with phase := .wake datagrams },
          { s.decoding with gate := s.decoding.gate.setTurn s.reblock.curId }⟩
    | .wake datagrams =>
      some ⟨s.reblock.openWindow.store crate datagrams,
        { s.decoding with gate := s.decoding.gate.wakeAll }⟩
    | .loop =>
      let res := s.reblock.emission raptorq.minNbPackets.toNat
      some ⟨res.1, emitAll s.decoding res.2⟩
    | .tooFar => some ⟨s.reblock.onTooFar.1, emitAll s.decoding s.reblock.onTooFar.2⟩
    | .recv | .panicked => none
  | .decode w =>
    (s.decoding.step (raptorq.decode crate) (.decode w)).map ({ s with decoding := · })
  | .dispatch => (s.decoding.step (raptorq.decode crate) .dispatch).map ({ s with decoding := · })

/-- The kinds of steps. -/
inductive Trans (crate : Crate Packet) (raptorq : RaptorQ) (s : Core n Packet) :
    Label n → Core n Packet → Prop
  | datagrams (datagrams : Datagrams) (hp : s.reblock.phase = .recv) :
      Trans crate raptorq s (.datagrams datagrams)
        { s with reblock := s.reblock.onDatagrams crate datagrams }
  | timeout (hp : s.reblock.phase = .recv) :
      Trans crate raptorq s .timeout
        ⟨s.reblock.onTimeout.1, emitAll s.decoding s.reblock.onTimeout.2⟩
  | publish {datagrams : Datagrams} (hp : s.reblock.phase = .publish datagrams)
      (hfree : s.decoding.gate.locked = false) :
      Trans crate raptorq s .reblock ⟨{ s.reblock with phase := .wake datagrams },
        { s.decoding with gate := s.decoding.gate.setTurn s.reblock.curId }⟩
  | wake {datagrams : Datagrams} (hp : s.reblock.phase = .wake datagrams) :
      Trans crate raptorq s .reblock ⟨s.reblock.openWindow.store crate datagrams,
        { s.decoding with gate := s.decoding.gate.wakeAll }⟩
  | loop (hp : s.reblock.phase = .loop) :
      Trans crate raptorq s .reblock ⟨(s.reblock.emission raptorq.minNbPackets.toNat).1,
        emitAll s.decoding (s.reblock.emission raptorq.minNbPackets.toNat).2⟩
  | tooFar (hp : s.reblock.phase = .tooFar) :
      Trans crate raptorq s .reblock
        ⟨s.reblock.onTooFar.1, emitAll s.decoding s.reblock.onTooFar.2⟩
  | decode {w : Fin n} {decoding : Decoding n Packet}
      (hd : Decoding.Trans (raptorq.decode crate) s.decoding (.decode w) decoding) :
      Trans crate raptorq s (.decode w) { s with decoding := decoding }
  | dispatch {decoding : Decoding n Packet}
      (hd : Decoding.Trans (raptorq.decode crate) s.decoding .dispatch decoding) :
      Trans crate raptorq s .dispatch { s with decoding := decoding }

/-- The step function does exactly the steps of the relation. -/
theorem step_iff {a : Label n} : step crate raptorq s a = some s' ↔ Trans crate raptorq s a s' := by
  constructor
  · intro h
    cases a with
    | datagrams ds =>
      by_cases hp : s.reblock.phase = .recv
      · simp only [step, if_pos hp, Option.some.injEq] at h
        exact h ▸ .datagrams ds hp
      · simp only [step, if_neg hp, reduceCtorEq] at h
    | timeout =>
      by_cases hp : s.reblock.phase = .recv
      · simp only [step, if_pos hp, Option.some.injEq] at h
        exact h ▸ .timeout hp
      · simp only [step, if_neg hp, reduceCtorEq] at h
    | reblock =>
      cases hp : s.reblock.phase with
      | recv => simp [step, hp] at h
      | publish ds =>
        cases hl : s.decoding.gate.locked with
        | true => simp [step, hp, hl] at h
        | false =>
          simp only [step, hp, hl, Bool.false_eq_true, if_false, Option.some.injEq] at h
          exact h ▸ .publish hp hl
      | wake ds =>
        simp only [step, hp, Option.some.injEq] at h
        exact h ▸ .wake hp
      | loop =>
        simp only [step, hp, Option.some.injEq] at h
        exact h ▸ .loop hp
      | tooFar =>
        simp only [step, hp, Option.some.injEq] at h
        exact h ▸ .tooFar hp
      | panicked => simp [step, hp] at h
    | decode w =>
      simp only [step, Option.map_eq_some_iff] at h
      obtain ⟨d, hd, rfl⟩ := h
      exact .decode (Decoding.step_iff.mp hd)
    | dispatch =>
      simp only [step, Option.map_eq_some_iff] at h
      obtain ⟨d, hd, rfl⟩ := h
      exact .dispatch (Decoding.step_iff.mp hd)
  · intro h
    cases h with
    | datagrams ds hp => simp [step, hp]
    | timeout hp => simp [step, hp]
    | publish hp hfree => simp [step, hp, hfree]
    | wake hp => simp [step, hp]
    | loop hp => simp [step, hp]
    | tooFar hp => simp [step, hp]
    | decode hd => simp only [step, Decoding.step_iff.mpr hd, Option.map_some]
    | dispatch hd => simp only [step, Decoding.step_iff.mpr hd, Option.map_some]

end Core

end Lidi.Receive
