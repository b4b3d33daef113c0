import Lidi.Receive.Reset
import Lidi.Receive.Tracking

set_option relaxedAutoImplicit false
set_option autoImplicit false

/-!
# The reblock worker and the decoding threads across resets

The receiver up to the dispatch worker, for a stream of numbered blocks of which packets get lost.
After every reset the blocks are numbered anew at the turnstile. What the dispatch worker receives
is the outcome of the blocks in the order in which they were emitted, if `block_to_dispatch` is
overwritten only when that does not change the order of the blocks in flight, and if failed blocks
do not overtake others.

## Main definitions

* `Receive.Core.Orderly` — the condition on the steps.
* `Receive.InSequence` — the invariant.
* `Receive.advance` — the number of the current block after a step.

## Main results

* `Receive.InSequence.arrive` — packets arrive, with a reset or without.
* `Receive.InSequence.step` — every other step emits nothing, or the current block.
* `Receive.InSequence.received_isPrefix` — what the dispatch worker has received.
-/

namespace Lidi.Receive

open Turnstile

variable {n : ℕ} {Packet : Type*} {crate : Crate Packet} {raptorq : RaptorQ}
  {good good' : ℕ → Packet → Prop} {e : ℕ} {s s' : Core n Packet}

/-- The reblock worker writes `block_to_dispatch` while no block is in flight, or writes the number
that is there and that follows on the last block; and the decoding threads take their items
apart. -/
def Core.Orderly (crate : Crate Packet) (raptorq : RaptorQ) (s : Core n Packet) :
    Core.Label n → Prop
  | .reblock =>
    match s.reblock.phase with
    | .publish _ => inFlight crate raptorq s = [] ∨
        (s.reblock.curId = s.decoding.gate.turn ∧
          ∀ k ∈ lastId s.decoding.emitted, s.reblock.curId = k + 1)
    | _ => True
  | .decode w => Apart (Receive.decoding (raptorq.decode crate)) s.decoding.gate w
  | _ => True

/-- A condition on the phase in which `block_to_dispatch` is written. -/
instance (phase : Reblocking) (P : Prop) [Decidable P] :
    Decidable (match phase with | .publish _ => P | _ => True) :=
  match phase with
  | .publish _ => ‹Decidable P›
  | .recv | .wake _ | .loop | .tooFar | .panicked => instDecidableTrue

/-- Whether a step is orderly can be decided. -/
instance (s : Core n Packet) : (a : Core.Label n) → Decidable (s.Orderly crate raptorq a)
  | .reblock =>
    haveI : Decidable (∀ k ∈ lastId s.decoding.emitted, s.reblock.curId = k + 1) :=
      Option.decidableForallMem _
    inferInstanceAs (Decidable (match s.reblock.phase with
      | .publish _ => inFlight crate raptorq s = [] ∨
          (s.reblock.curId = s.decoding.gate.turn ∧
            ∀ k ∈ lastId s.decoding.emitted, s.reblock.curId = k + 1)
      | _ => True))
  | .decode w =>
    inferInstanceAs (Decidable (Apart (decoding (raptorq.decode crate)) s.decoding.gate w))
  | .datagrams _ | .timeout | .dispatch => instDecidableTrue

/-- The number of the current block after a step, if it was `e` before. -/
def advance (e : ℕ) (s s' : Core n Packet) : ℕ :=
  if s'.reblock.curId = s.reblock.curId then e else e + 1

/-- **The invariant.** The worker waits for block `e`, and the blocks in flight are in order, with
respect to the last one that was emitted and to the current one. -/
structure InSequence (crate : Crate Packet) (raptorq : RaptorQ) (good : ℕ → Packet → Prop) (e : ℕ)
    (s : Core n Packet) : Prop where
  worker : s.reblock.WellFormed
  tracks : Tracks crate good e s.reblock
  decoding : s.decoding.Inv (raptorq.decode crate)
  last : ∀ next, (∀ k ∈ lastId s.decoding.emitted, next = k + 1) →
    Ordered (Receive.decoding (raptorq.decode crate)) next s.decoding.gate
  current : InStep s.reblock →
    Ordered (Receive.decoding (raptorq.decode crate)) (UInt8.ofNat e) s.decoding.gate

/-- Nothing is received when something is emitted. -/
@[simp]
lemma Core.received_emitAll (decoding : Decoding n Packet) (items : List (Reassembled Packet)) :
    (Core.emitAll decoding items).received = decoding.received := by
  induction items generalizing decoding with
  | nil => rfl
  | cons r rs ih => exact ih (decoding.emit r)

/-- Only a step of the dispatch worker receives. -/
lemma Core.Trans.received_eq {a : Core.Label n} (h : Core.Trans crate raptorq s a s')
    (ha : a ≠ .dispatch) : s'.decoding.received = s.decoding.received := by
  cases h with
  | datagrams | publish | wake => rfl
  | timeout | loop | tooFar => simp
  | decode hd =>
    cases hd with
    | decode hgate => rfl
  | dispatch hd => exact absurd rfl ha

/-- The dispatch worker receives the first message. -/
lemma Core.Trans.received_dispatch (h : Core.Trans crate raptorq s .dispatch s')
    {message : Option Block} {rest : List (Option Block)}
    (hout : s.decoding.gate.output = message :: rest) :
    s'.decoding.received = s.decoding.received ++ [message] := by
  cases h with
  | dispatch hd =>
    cases hd with
    | dispatch hout' =>
      obtain ⟨rfl, -⟩ := List.cons.inj (hout.symm.trans hout')
      rfl

/-- If no block is in flight, all that is pending at the turnstile are markers. -/
lemma eq_marker_of_inFlight {next : UInt8} (hinv : s.decoding.Inv (raptorq.decode crate))
    (hord : Ordered (decoding (raptorq.decode crate)) next s.decoding.gate)
    (hnil : inFlight crate raptorq s = []) :
    ∀ it ∈ s.decoding.gate.pending (decoding (raptorq.decode crate)), it = .marker := by
  intro it hit
  cases it with
  | marker => rfl
  | pass id x =>
    have hmem : Item.pass id x ∈ inFlight crate raptorq s := by
      rw [inFlight, mem_passes]
      refine ⟨?_, id, x, rfl⟩
      rcases List.mem_append.mp hit with hit | hit
      · exact List.mem_append_left _ ((hord.held_perm hinv.gate.account).mem_iff.mpr hit)
      · exact List.mem_append_right _ hit
    simp [hnil] at hmem

namespace InSequence

/-- The invariant holds at the start. -/
lemma init (crate : Crate Packet) (raptorq : RaptorQ) (good : ℕ → Packet → Prop) (e : ℕ) :
    InSequence crate raptorq good e (Core.init n Packet) where
  worker := .init
  tracks := .init crate good e
  decoding := .init _ _
  last next _ := .init _ _ next
  current _ := .init _ _ _

/-- More packets may become good. -/
lemma mono (h : InSequence crate raptorq good e s) (himp : ∀ n p, good n p → good' n p) :
    InSequence crate raptorq good' e s :=
  ⟨h.worker, h.tracks.mono himp, h.decoding, h.last, h.current⟩

/-- **Packets arrive.** After a reset, the worker goes on at the block of the first of them. -/
theorem arrive (h : InSequence crate raptorq good e s) {a : ℕ × Packet} {rest : List (ℕ × Packet)}
    {datagrams : Datagrams} (hp : s.reblock.phase = .recv)
    (hcarries : Carries crate datagrams (a :: rest))
    (hgenuine : ∀ b ∈ a :: rest,
      Genuine (.init Packet (if s.reblock.reset then a.1 else e)) b)
    (hgood : ∀ b ∈ a :: rest, good b.1 b.2) :
    InSequence crate raptorq good (if s.reblock.reset then a.1 else e)
      { s with reblock := s.reblock.onDatagrams crate datagrams } := by
  have hnext : Reblock.next crate 0 s.reblock (.datagrams datagrams) = some (_, _) := if_pos hp
  have hworker := h.worker.step (Reblock.trans_of_next hnext)
  cases hr : s.reblock.reset with
  | true =>
    rw [hr] at hgenuine
    refine ⟨hworker, .resync hp hr hcarries hgenuine hgood, h.decoding, h.last, fun hstep => ?_⟩
    simp only [Reblock.onDatagrams, hr, if_true] at hstep
    rcases s.reblock.phase_resync crate datagrams with hph | hph <;> simp [InStep, hph] at hstep
  | false =>
    rw [hr] at hgenuine
    exact ⟨hworker, h.tracks.arrive hr hp hcarries hgenuine hgood, h.decoding, h.last,
      fun _ => h.current (.inr (.inr ⟨hp, hr⟩))⟩

/-- The window stays well formed. -/
lemma worker_step (h : s.reblock.WellFormed) {a : Core.Label n}
    (ht : Core.Trans crate raptorq s a s') : s'.reblock.WellFormed := by
  rcases ht.reblock with ⟨heq, -⟩ | ⟨input, res, hres, heq, -⟩
  · rwa [heq]
  · rw [heq]
    exact h.step (Reblock.trans_of_next hres)

/-- The current block is emitted. -/
lemma emit (h : InSequence crate raptorq good e s) (hp : s.reblock.phase = .loop)
    {packets : List Packet} (htracks : Tracks crate good (e + 1) s.reblock.release)
    (hworker : s.reblock.release.WellFormed) :
    InSequence crate raptorq good (e + 1)
      ⟨s.reblock.release, s.decoding.emit (.block (UInt8.ofNat e) packets)⟩ := by
  have hpush := ordered_push_block (h.current (.inr (.inl hp))) packets
  refine ⟨hworker, htracks, h.decoding.emit _, fun next hnext => ?_, fun _ => ?_⟩
  · change ∀ k ∈ lastId (s.decoding.emitted ++ [.block (UInt8.ofNat e) packets]), next = k + 1
      at hnext
    rw [lastId_append_block] at hnext
    rw [hnext _ rfl]
    exact hpush
  · rw [UInt8.ofNat_add]
    exact hpush

/-- **Every step but the arrival of packets** emits nothing, or the current block with packets that
are good for it.

**Proof sketch.** When `block_to_dispatch` is overwritten, either all that is in flight are markers,
and any number may come next, or nothing changes. When the current block is emitted, it has the
number that comes next at the turnstile. The decoding threads take their items apart. -/
theorem step (h : InSequence crate raptorq good e s) {a : Core.Label n}
    (hok : s.Orderly crate raptorq a) (ha : ∀ datagrams, a ≠ .datagrams datagrams)
    (ht : Core.Trans crate raptorq s a s') :
    InSequence crate raptorq good (advance e s s') s' ∧
      ((s'.decoding.emitted = s.decoding.emitted ∧ advance e s s' = e) ∨
        ∃ packets, s'.decoding.emitted = s.decoding.emitted ++ [.block (UInt8.ofNat e) packets] ∧
          (∀ p ∈ packets, good e p) ∧ advance e s s' = e + 1) := by
  have hworker := worker_step h.worker ht
  cases ht with
  | datagrams ds hp => exact absurd rfl (ha ds)
  | timeout hp =>
    have hnone : s.reblock.onTimeout = ({ s.reblock with reset := true }, []) := by
      simp [Reblock.onTimeout, h.worker.damaged_eq]
    rw [hnone] at hworker ⊢
    rw [advance, if_pos rfl]
    refine ⟨⟨hworker, .resetting hp rfl, h.decoding, h.last, fun hstep => ?_⟩, .inl ⟨rfl, rfl⟩⟩
    simp [InStep, hp] at hstep
  | @publish ds hp hfree =>
    rw [advance, if_pos rfl]
    simp only [Core.Orderly, hp] at hok
    have hcur : s.reblock.curId = UInt8.ofNat e :=
      h.tracks.curId_eq (h.tracks.reset_eq (by simp [hp]))
    have hord : ∀ next, (∀ k ∈ lastId s.decoding.emitted, next = k + 1) ∨
        next = s.reblock.curId → Ordered (Receive.decoding (raptorq.decode crate)) next
          (s.decoding.gate.setTurn s.reblock.curId) := by
      intro next hnext
      rcases hok with hnil | ⟨hturn, hfollows⟩
      · obtain ⟨next', hnext'⟩ := exists_next s.decoding.emitted
        have hlast := h.last next' hnext'
        exact hlast.setTurn _ next (eq_marker_of_inFlight h.decoding hlast hnil)
      · have hsame : s.decoding.gate.setTurn s.reblock.curId = s.decoding.gate := by
          rw [hturn]
          rfl
        rw [hsame]
        rcases hnext with hnext | rfl
        · exact h.last next hnext
        · exact h.last _ hfollows
    refine ⟨⟨hworker, h.tracks.publish hp, h.decoding.setTurn hfree _,
      fun next hnext => hord next (.inl hnext), fun _ => hord _ (.inr hcur.symm)⟩, .inl ⟨rfl, rfl⟩⟩
  | @wake ds hp =>
    have hcur : (s.reblock.openWindow.store crate ds).curId = s.reblock.curId :=
      (s.reblock.openWindow.store_eq crate ds).1
    rw [advance, if_pos hcur]
    exact ⟨⟨hworker, h.tracks.wake hp, h.decoding.wakeAll,
      fun next hnext => (h.last next hnext).wakeAll,
      fun _ => (h.current (.inl ⟨ds, hp⟩)).wakeAll⟩, .inl ⟨rfl, rfl⟩⟩
  | loop hp =>
    rcases h.tracks.emission raptorq.minNbPackets.toNat hp with
      ⟨heq, htracks⟩ | ⟨packets, heq, hgood, htracks⟩
    · rw [heq] at hworker ⊢
      rw [advance, if_pos rfl]
      exact ⟨⟨hworker, htracks, h.decoding, h.last, fun _ => h.current (.inr (.inl hp))⟩,
        .inl ⟨rfl, rfl⟩⟩
    · rw [heq] at hworker ⊢
      have hcur : s.reblock.release.curId ≠ s.reblock.curId := by
        show s.reblock.curId + 1 ≠ s.reblock.curId
        simp
      rw [advance, if_neg hcur]
      exact ⟨h.emit hp htracks hworker, .inr ⟨packets, rfl, hgood, rfl⟩⟩
  | tooFar hp => exact absurd hp h.worker.phase_ne
  | decode hd =>
    have hinv := h.decoding.step (Decoding.step_iff.mpr hd)
    rw [advance, if_pos rfl]
    cases hd with
    | decode hgate =>
      exact ⟨⟨hworker, h.tracks, hinv,
        fun next hnext => (h.last next hnext).step h.decoding.gate hok hgate,
        fun hstep => (h.current hstep).step h.decoding.gate hok hgate⟩, .inl ⟨rfl, rfl⟩⟩
  | dispatch hd =>
    have hinv := h.decoding.step (Decoding.step_iff.mpr hd)
    rw [advance, if_pos rfl]
    cases hd with
    | dispatch hout =>
      exact ⟨⟨hworker, h.tracks, hinv, fun next hnext => (h.last next hnext).pop _,
        fun hstep => (h.current hstep).pop _⟩, .inl ⟨rfl, rfl⟩⟩

/-- **What the dispatch worker has received or is about to receive** is the beginning of the
outcomes of what was emitted. -/
theorem received_isPrefix (h : InSequence crate raptorq good e s) :
    s.decoding.received ++ s.decoding.gate.output <+:
      s.decoding.emitted.map (outcome (raptorq.decode crate)) := by
  obtain ⟨next, hnext⟩ := exists_next s.decoding.emitted
  exact h.decoding.received_isPrefix (h.last next hnext)

end InSequence

end Lidi.Receive
