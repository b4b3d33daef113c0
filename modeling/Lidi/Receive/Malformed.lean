import Lidi.Receive.DemuxRun

set_option relaxedAutoImplicit false
set_option autoImplicit false

/-!
# Blocks with any content

The UDP link is not authenticated, so a decoded block may have any content. The dispatch worker
checks its type and looks up its client, but not the data length. The client worker takes the data
out of the block at this length, and panics if the block is shorter.

## Main definitions

* `Receive.Demux.Delivered` — the block gets into the queue of a transfer.
* `Receive.Demux.Survives` — neither worker panics on the block, and it is rejected if it names
  more data than fit in it.

## Main results

* `Receive.Demux.survives_block_iff` — this is so exactly if a block that is delivered names data
  that fit in it.
-/

namespace Lidi

/-- The data that the block names fit in a block of the geometry. -/
def Block.Fits (raptorq : RaptorQ) (b : Block) : Prop :=
  ∃ len, b.payloadLen = some len ∧
    Block.serializeOverhead + len.toNat ≤ raptorq.transferLength.toNat

/-- The block names more data than fit in a block of the geometry. -/
def Block.Oversize (raptorq : RaptorQ) (b : Block) : Prop :=
  ∃ len, b.payloadLen = some len ∧
    raptorq.transferLength.toNat < Block.serializeOverhead + len.toNat

/-- The data can be taken out of a block exactly if they fit. -/
lemma Block.fits_iff {raptorq : RaptorQ} {b : Block}
    (hlen : b.bytes.length = raptorq.transferLength.toNat) :
    b.Fits raptorq ↔ ∃ payload, b.payload = some payload := by
  unfold Block.Fits Block.payload
  rw [hlen]
  cases b.payloadLen with
  | none => simp
  | some len => simp

/-- Data that are longer than their block do not fit in it. -/
lemma Block.Oversize.not_fits {raptorq : RaptorQ} {b : Block} (h : b.Oversize raptorq) :
    ¬ b.Fits raptorq := by
  rintro ⟨len, hlen, hle⟩
  obtain ⟨len', hlen', hlt⟩ := h
  rw [hlen, Option.some.injEq] at hlen'
  subst hlen'
  omega

namespace Receive

open Function

variable {config : Config} {b : Block}

/-- A client worker does not panic on a transfer whose queue starts with the block, whatever it is
doing. -/
def Client.Handles (config : Config) (b : Block) : Prop :=
  ∀ (alive : Bool) (t : Transfer) (rest : List Block) (stage : Stage) (answer : Answer)
    (t' : Transfer), t.queue = b :: rest → step config alive t stage answer ≠ some (.panicked, t')

/-- **A client worker handles a block exactly if the data fit in it.** -/
lemma Client.handles_iff {type : BlockType} (htype : b.blockType = .ok type)
    (hlen : b.bytes.length = config.raptorq.transferLength.toNat) :
    Handles config b ↔ b.Fits config.raptorq := by
  constructor
  · intro h
    rw [Block.fits_iff hlen]
    by_contra hnone
    have hpayload : b.payload = none := by
      cases hp : b.payload with
      | none => rfl
      | some payload => exact absurd ⟨payload, hp⟩ hnone
    -- The worker of any transfer panics when it takes the block.
    exact h true { Transfer.new 0 with queue := [b] } [] (.running []) .ok _ rfl
      (step_iff.mpr (.payloadPanic rfl htype hpayload))
  · rintro hfits alive t rest stage answer t' hq hstep
    obtain ⟨payload, hpayload⟩ := (Block.fits_iff hlen).mp hfits
    cases step_iff.mp hstep with
    | newPanic hmax =>
      obtain ⟨len, -, hle⟩ := hfits
      have hroom : Block.serializeOverhead ≤ config.raptorq.transferLength.toNat := by omega
      rw [Block.maxDataLen, if_pos hroom] at hmax
      cases hmax
    | payloadPanic hq' htype' hnone =>
      rw [hq, List.cons.injEq] at hq'
      rw [← hq'.1, hpayload] at hnone
      cases hnone

namespace Demux

variable {k : ℕ} {s : Demux k}

/-- The block gets into the queue of a transfer: it opens it, or its client has an active transfer
whose queue has not been dropped. -/
def Delivered (s : Demux k) (b : Block) : Prop :=
  ∃ id type, b.addressee = some (id, type) ∧ (type = .start ∨
    ∃ q t, s.active id = some q ∧ s.transfers[q]? = some t ∧ t.dropped = false)

/-- The dispatch worker puts the block in the queue of the transfer `q`. -/
def Enqueues (config : Config) (s : Demux k) (b : Block) (q : ℕ) : Prop :=
  ∃ t, (s.receive config (some b)).transfers[q]? = some t ∧
    t.queue = (s.transfers[q]?).elim [] Transfer.queue ++ [b]

/-- Neither the dispatch worker nor a client worker that gets the block panics on it, and nothing
changes for the other clients if it names too much data. -/
structure Survives (config : Config) (s : Demux k) (b : Block) : Prop where
  dispatch_eq : (s.receive config (some b)).dispatch = s.dispatch
  handles : ∀ q, Enqueues config s b q → Client.Handles config b
  rejected : b.Oversize config.raptorq → ∃ active,
    s.receive config (some b) = { s with active := active } ∧
    ∀ id, b.clientId ≠ some id → active id = s.active id

/-- Putting a block in a queue does not end the dispatch worker. -/
lemma dispatch_forward (s : Demux k) (id : ClientId) (b : Block) (willEnd : Bool) :
    (s.forward id b willEnd).dispatch = s.dispatch := by
  unfold Demux.forward
  split
  · rfl
  · split
    · rfl
    · split
      · rfl
      · split <;> rfl

/-- The dispatch worker does not panic. -/
lemma dispatch_receive (config : Config) (s : Demux k) (b : Block) :
    (s.receive config (some b)).dispatch = s.dispatch := by
  rw [receive_eq]
  split
  · rfl
  · exact dispatch_forward ..
  · exact dispatch_forward ..

/-- The addressee of a block is its client, and the type is known. -/
lemma clientId_of_addressee {id : ClientId} {type : BlockType}
    (h : b.addressee = some (id, type)) : b.clientId = some id ∧ b.blockType = .ok type := by
  unfold Block.addressee at h
  cases htype : b.blockType with
  | error e => simp [htype] at h
  | ok type' => cases type' <;> cases hid : b.clientId <;> simp_all

/-- A block that is delivered has a type. -/
lemma Delivered.exists_blockType (h : Delivered s b) : ∃ type, b.blockType = .ok type := by
  obtain ⟨id, type, hb, -⟩ := h
  exact ⟨type, (clientId_of_addressee hb).2⟩

/-- A block that is not delivered changes at most whether its own client is active. -/
lemma receive_of_not_delivered (h : ¬ Delivered s b) (config : Config) :
    ∃ active, s.receive config (some b) = { s with active := active } ∧
      ∀ id, b.clientId ≠ some id → active id = s.active id := by
  have hsame : ∃ active, s = { s with active := active } ∧
      ∀ id, b.clientId ≠ some id → active id = s.active id := ⟨s.active, rfl, fun _ _ => rfl⟩
  rw [receive_eq]
  split
  · exact hsame
  · rename_i id hb
    exact absurd ⟨id, .start, hb, .inl rfl⟩ h
  · rename_i id type _ hb
    unfold Demux.forward
    split
    · exact hsame
    · rename_i q hactive
      split
      · exact hsame
      · rename_i t ht
        split
        · refine ⟨update s.active id none, rfl, fun id' hid' => ?_⟩
          have hne : id' ≠ id := by
            intro heq
            exact hid' (heq ▸ (clientId_of_addressee hb).1)
          exact update_of_ne hne ..
        · rename_i hopen
          exact absurd ⟨id, type, hb, .inr ⟨q, t, hactive, ht, by simpa using hopen⟩⟩ h

/-- **A block that is delivered gets into a queue.** -/
lemma enqueues_of_delivered (h : Delivered s b) (config : Config) : ∃ q, Enqueues config s b q := by
  obtain ⟨id, type, hb, hto⟩ := h
  have hstart : type = .start → ∃ q, Enqueues config s b q := by
    rintro rfl
    refine ⟨s.transfers.length, (Transfer.new id).put b, ?_, ?_⟩
    · rw [receive_eq, hb]
      simp only [forward_register]
      exact List.getElem?_concat_length
    · simp [Transfer.put, Transfer.new]
  by_cases htype : type = .start
  · exact hstart htype
  · obtain ⟨q, t, hactive, ht, hopen⟩ := hto.resolve_left htype
    have hlt := (List.getElem?_eq_some_iff.mp ht).1
    refine ⟨q, t.put b, ?_, ?_⟩
    · rw [receive_eq, hb]
      split
      · simp_all
      · simp_all
      · rename_i heq
        cases heq
        simp only [Demux.forward, hactive, ht, hopen, Bool.false_eq_true, if_false]
        split <;> exact List.getElem?_set_self hlt
    · simp [Transfer.put, hopen, ht]

/-- Only a block that is delivered gets into a queue. -/
lemma delivered_of_enqueues {q : ℕ} (h : Enqueues config s b q) : Delivered s b := by
  by_contra hnot
  obtain ⟨active, heq, -⟩ := receive_of_not_delivered hnot config
  obtain ⟨t, ht, hqueue⟩ := h
  rw [heq] at ht
  rw [ht] at hqueue
  simp at hqueue

/-- **When the receiver survives a block.** -/
theorem survives_block_iff (hlen : b.bytes.length = config.raptorq.transferLength.toNat) :
    Survives config s b ↔ (Delivered s b → b.Fits config.raptorq) := by
  constructor
  · intro h hdel
    obtain ⟨type, htype⟩ := hdel.exists_blockType
    obtain ⟨q, hq⟩ := enqueues_of_delivered hdel config
    exact (Client.handles_iff htype hlen).mp (h.handles q hq)
  · intro h
    refine ⟨dispatch_receive config s b, fun q hq => ?_, fun hover => ?_⟩
    · have hdel := delivered_of_enqueues hq
      obtain ⟨type, htype⟩ := hdel.exists_blockType
      exact (Client.handles_iff htype hlen).mpr (h hdel)
    · exact receive_of_not_delivered (fun hdel => hover.not_fits (h hdel)) config

/-- The `Start` of client 0 in the smallest geometry, with the given data length. -/
def startWith (len : UInt8) : Block :=
  ⟨[0, 0, 0, 0, 1, len, 0, 0, 0, 0, 0, 0, 0, 0, 0, 0]⟩

/-- The smallest geometry has room for seven bytes. -/
theorem survives_seven : Survives ⟨.single, false, false⟩ (init 1) (startWith 7) :=
  (survives_block_iff (by decide)).mpr fun _ => ⟨7, by decide, by decide⟩

/-- With eight bytes the client worker panics: it gets the transfer, a permit and the client, and
takes the block. -/
theorem not_survives_eight :
    ¬ Survives ⟨.single, false, false⟩ (init 1) (startWith 8) ∧
    ((((((init 1).receive ⟨.single, false, false⟩ (some (startWith 8))).clientStep
      ⟨.single, false, false⟩ 0 .ok).bind fun s => s.clientStep ⟨.single, false, false⟩ 0 .ok).bind
      fun s => s.clientStep ⟨.single, false, false⟩ 0 .ok).bind
      fun s => s.clientStep ⟨.single, false, false⟩ 0 .ok).map (fun s => s.workers 0) =
      some .panicked := by
  constructor
  · intro h
    have hqueue : Enqueues ⟨.single, false, false⟩ (init 1) (startWith 8) 0 :=
      ⟨(Transfer.new 0).put (startWith 8), by rfl, by rfl⟩
    have htype : (startWith 8).blockType = .ok .start := rfl
    obtain ⟨len, hlen, hle⟩ := (Client.handles_iff htype rfl).mp (h.handles 0 hqueue)
    have height : (startWith 8).payloadLen = some 8 := by decide
    rw [height, Option.some.injEq] at hlen
    subst hlen
    revert hle
    decide
  · rfl

end Demux

end Receive

end Lidi
