import Lidi.Receive.DecodeOrder
import Lidi.Receive.ReblockRun

set_option relaxedAutoImplicit false
set_option autoImplicit false

/-!
# What the slots of the reblock worker stand for

Whenever the reblock worker waits for datagrams, and has received some, its 256 slots and flags
stand for a window of 127 blocks of which the first is not complete. So the numbers of the blocks
that it emits follow each other, from the number it has written to `block_to_dispatch` on, until it
writes the next one.

## Main definitions

* `Receive.Reblock.Represents` — the invariant at the head of the loop.
* `Receive.Effect` — the worker writes `block_to_dispatch`, or puts something on `to_decode`.
* `Receive.Observed` — the worker with a record of its inputs and effects.
* `Receive.Runs` — effects in which the blocks follow the number written last.

## Main results

* `Receive.Observed.Inv.step` — every step keeps the invariant.
* `Receive.Observed.representation` — the window in every reachable state.
* `Receive.Core.Trans.effects` — within the receiver the effects are those on the shared state.
* `Receive.Core.exists_observed` — every run of the receiver is one of the worker.
-/

namespace Lidi.Receive

open Function

variable {Packet : Type*} {crate : Crate Packet} {minNbPackets : ℕ}

/-! ## Effects -/

/-- What the other workers see of the reblock worker: it writes a number to `block_to_dispatch`, or
it puts something on `to_decode`. -/
inductive Effect (Packet : Type*)
  | published (turn : UInt8)
  | emitted (r : Reassembled Packet)
  deriving DecidableEq

/-- A number is written, and then blocks are emitted, with consecutive numbers from this one on. -/
def resetRun (turn : UInt8) (blocks : List (List Packet)) : List (Effect Packet) :=
  .published turn :: (blockRun turn blocks).map .emitted

/-- The effects are some resets, each with the blocks that are emitted until the next one. -/
def Runs (effects : List (Effect Packet)) : Prop :=
  ∃ resets : List (UInt8 × List (List Packet)), effects = resets.flatMap fun r => resetRun r.1 r.2

/-- There has been a reset, and the next block of its run has the given number. -/
def Ongoing (effects : List (Effect Packet)) (next : UInt8) : Prop :=
  ∃ (resets : List (UInt8 × List (List Packet))) (turn : UInt8) (blocks : List (List Packet)),
    effects = (resets.flatMap fun r => resetRun r.1 r.2) ++ resetRun turn blocks ∧
      next = turn + UInt8.ofNat blocks.length

section Runs

variable {effects : List (Effect Packet)} {next : UInt8}

/-- At the start there has been no reset. -/
lemma Runs.nil : Runs ([] : List (Effect Packet)) :=
  ⟨[], rfl⟩

/-- A run that goes on is one of the runs. -/
lemma Ongoing.runs (h : Ongoing effects next) : Runs effects := by
  obtain ⟨resets, turn, blocks, rfl, -⟩ := h
  exact ⟨resets ++ [(turn, blocks)], by simp⟩

/-- A reset starts a run. -/
lemma Runs.publish (h : Runs effects) (turn : UInt8) :
    Ongoing (effects ++ [.published turn]) turn := by
  obtain ⟨resets, rfl⟩ := h
  exact ⟨resets, turn, [], rfl, by simp⟩

/-- The next block continues a run. -/
lemma Ongoing.emit (h : Ongoing effects next) (packets : List Packet) :
    Ongoing (effects ++ [.emitted (.block next packets)]) (next + 1) := by
  obtain ⟨resets, turn, blocks, rfl, rfl⟩ := h
  refine ⟨resets, turn, blocks ++ [packets], ?_, ?_⟩
  · simp [resetRun, blockRun, List.mapIdx_append]
  · rw [List.length_append, List.length_singleton, UInt8.ofNat_add, ← UInt8.add_assoc]
    rfl

end Runs

namespace Reblock

variable {s s' : Reblock Packet} {events : List (Event Packet)}

/-- The effects of the next step, with the given events. -/
def effects (s : Reblock Packet) (events : List (Event Packet)) : List (Effect Packet) :=
  match s.phase with
  | .publish _ => [.published s.curId]
  | _ => (emittedOf events).map .emitted

/-! ## The window -/

/-- **The representation invariant.** The slots that are not ignored are the 127 from the current
one on, the others are empty; every packet is in the slot of its block, and the current block is
not complete. -/
structure Represents (crate : Crate Packet) (minNbPackets : ℕ) (s : Reblock Packet) : Prop where
  open_iff : ∀ id, s.blocksIgnore id = false ↔ ∃ j < 127, id = s.curId + UInt8.ofNat j
  empty : ∀ id, s.blocksIgnore id = true → s.blocksData id = []
  sorted : ∀ id, ∀ p ∈ s.blocksData id, crate.sourceBlockNumber p = id
  incomplete : (s.blocksData s.curId).length < minNbPackets

/-- The slots of the window are those whose distance to the current one is less than 127. -/
lemma exists_offset_iff {cur id : UInt8} :
    (∃ j < 127, id = cur + UInt8.ofNat j) ↔ (id - cur).toNat < windowWidth.toNat := by
  have hwidth : windowWidth.toNat = 127 := rfl
  rw [hwidth]
  constructor
  · rintro ⟨j, hj, rfl⟩
    rw [UInt8.add_comm, UInt8.add_sub_cancel, UInt8.toNat_ofNat', Nat.mod_eq_of_lt (by omega)]
    exact hj
  · intro hlt
    refine ⟨(id - cur).toNat, hlt, ?_⟩
    rw [UInt8.ofNat_toNat, UInt8.add_comm, UInt8.sub_add_cancel]

/-- Every packet is in the slot of its block. -/
def Sorted (crate : Crate Packet) (s : Reblock Packet) : Prop :=
  ∀ id, ∀ p ∈ s.blocksData id, crate.sourceBlockNumber p = id

namespace Sorted

/-- Packets are put into the slots of their blocks. -/
lemma store (h : s.Sorted crate) (datagrams : Datagrams) :
    (s.store crate datagrams).Sorted crate := by
  intro id p hp
  rw [blocksData_store] at hp
  rcases List.mem_append.mp hp with hold | hnew
  · exact h id p hold
  · simpa using (List.mem_filter.mp hnew).2

/-- A slot is emptied. -/
lemma update_nil (h : s.Sorted crate) (cur id : UInt8) :
    ∀ p ∈ update s.blocksData cur [] id, crate.sourceBlockNumber p = id := by
  intro p hp
  by_cases hid : id = cur
  · rw [hid, update_self] at hp
    cases hp
  · rw [update_of_ne hid] at hp
    exact h id p hp

/-- **Every step keeps the packets sorted.** -/
theorem step {a : Input} (h : s.Sorted crate) (ht : Trans crate minNbPackets s a s' events) :
    s'.Sorted crate := by
  cases ht with
  | resync hp hr =>
    intro id p hp
    simp only [Reblock.resync] at hp
    split at hp <;> cases hp
  | store hp hr => exact h.store _
  | timeout hp => exact h
  | publish hp => exact h
  | wake hp =>
    have hopen : s.openWindow.Sorted crate := h
    exact hopen.store _
  | loop hp hres =>
    cases hres with
    | incomplete => exact h
    | complete | tooFar => exact h.update_nil s.curId
  | tooFar hp => exact h

end Sorted

/-- A run of blocks is ongoing: the number of its first block has been written, and there has been
no timeout since. -/
def Running (s : Reblock Packet) : Prop :=
  s.Live ∨ ∃ datagrams, s.phase = .wake datagrams

end Reblock

/-! ## Runs of the worker -/

/-- The worker with a record of what it has received and of its effects. -/
structure Observed (Packet : Type*) where
  worker : Reblock Packet
  inputs : List Reblock.Input
  effects : List (Effect Packet)

namespace Observed

variable {s s' : Observed Packet}

/-- Nothing has happened. -/
def init (Packet : Type*) : Observed Packet where
  worker := .init Packet
  inputs := []
  effects := []

/-- The next step of the worker. -/
def step (crate : Crate Packet) (minNbPackets : ℕ) (s : Observed Packet) (a : Reblock.Input) :
    Option (Observed Packet) :=
  (s.worker.next crate minNbPackets a).map fun res =>
    ⟨res.1, s.inputs ++ [a], s.effects ++ s.worker.effects res.2⟩

/-- Datagrams have been received. -/
def Received (s : Observed Packet) : Prop :=
  ∃ datagrams, .datagrams datagrams ∈ s.inputs

/-- **The invariant.** -/
structure Inv (crate : Crate Packet) (minNbPackets : ℕ) (s : Observed Packet) : Prop where
  wellFormed : s.worker.WellFormed
  sorted : s.worker.Sorted crate
  head : s.worker.phase = .recv → s.Received →
    (∀ id, s.worker.blocksIgnore id = false ↔
      (id - s.worker.curId).toNat < windowWidth.toNat) ∧
    (s.worker.blocksData s.worker.curId).length < minNbPackets
  runs : Runs s.effects
  ongoing : s.worker.Running → Ongoing s.effects s.worker.curId

namespace Inv

/-- The invariant holds at the start. -/
lemma init : (Observed.init Packet).Inv crate minNbPackets where
  wellFormed := .init
  sorted := by simp [Observed.init, Reblock.Sorted, Reblock.init]
  head := by simp [Observed.init, Received]
  runs := .nil
  ongoing := by simp [Observed.init, Reblock.Running, Reblock.Live, Reblock.init]

/-- The worker waits again only after a timeout, or when the current block is not complete. -/
lemma head_step (h : s.Inv crate minNbPackets) {a : Reblock.Input} {worker : Reblock Packet}
    {events : List (Event Packet)}
    (ht : Reblock.Trans crate minNbPackets s.worker a worker events) (hp : worker.phase = .recv)
    (hreceived : s.Received ∨ ∃ datagrams, a = .datagrams datagrams) :
    (∀ id, worker.blocksIgnore id = false ↔ (id - worker.curId).toNat < windowWidth.toNat) ∧
      (worker.blocksData worker.curId).length < minNbPackets := by
  cases ht with
  | @resync datagrams =>
    rcases s.worker.phase_resync crate datagrams with hph | hph <;> simp [hph] at hp
  | @store datagrams =>
    rcases s.worker.phase_store crate datagrams with hph | hph <;> simp [hph] at hp
  | timeout hwait =>
    refine h.head hwait (hreceived.resolve_right ?_)
    rintro ⟨datagrams, hin⟩
    cases hin
  | publish => cases hp
  | @wake datagrams =>
    rcases s.worker.openWindow.phase_store crate datagrams with hph | hph <;> simp [hph] at hp
  | loop hloop hres =>
    cases hres with
    | incomplete hlen => exact ⟨h.wellFormed.live (.inl hloop), hlen⟩
    | complete => simp [hloop] at hp
    | tooFar => cases hp
  | tooFar hfar => exact absurd hfar h.wellFormed.phase_ne

/-- Blocks are emitted in order, from the number written last on. -/
lemma runs_step (h : s.Inv crate minNbPackets) {a : Reblock.Input} {worker : Reblock Packet}
    {events : List (Event Packet)}
    (ht : Reblock.Trans crate minNbPackets s.worker a worker events) :
    Runs (s.effects ++ s.worker.effects events) ∧
      (worker.Running → Ongoing (s.effects ++ s.worker.effects events) worker.curId) := by
  have hwf := h.wellFormed.step ht
  cases ht with
  | @resync datagrams hp hr =>
    have heff : s.worker.effects [.cleared] = [] := by simp [Reblock.effects, hp]
    rw [heff, List.append_nil]
    refine ⟨h.runs, fun hrun => ?_⟩
    rcases s.worker.phase_resync crate datagrams with hph | hph <;>
      simp [Reblock.Running, Reblock.Live, hph] at hrun
  | @store datagrams hp hr =>
    have heff : s.worker.effects
        (Reblock.acceptedEvents crate (s.worker.acceptances crate datagrams)) = [] := by
      simp [Reblock.effects, hp, Reblock.acceptedEvents]
    rw [heff, List.append_nil, (s.worker.store_eq crate datagrams).1]
    exact ⟨h.runs, fun _ => h.ongoing (.inl (.inr ⟨hp, hr⟩))⟩
  | timeout hp =>
    have heff : s.worker.effects
        ((if s.worker.damaged then [.error] else []).map .emitted) = [] := by
      simp [Reblock.effects, hp, h.wellFormed.damaged_eq]
    rw [heff, List.append_nil]
    refine ⟨h.runs, fun hrun => ?_⟩
    simp [Reblock.Running, Reblock.Live, hp] at hrun
  | publish hp =>
    have heff : s.worker.effects [] = [.published s.worker.curId] := by
      simp [Reblock.effects, hp]
    have hstart := h.runs.publish s.worker.curId
    rw [heff]
    exact ⟨hstart.runs, fun _ => hstart⟩
  | @wake datagrams hp =>
    have heff : s.worker.effects
        (Reblock.acceptedEvents crate (s.worker.openWindow.acceptances crate datagrams)) = [] := by
      simp [Reblock.effects, hp, Reblock.acceptedEvents]
    rw [heff, List.append_nil, (s.worker.openWindow.store_eq crate datagrams).1]
    exact ⟨h.runs, fun _ => h.ongoing (.inr ⟨datagrams, hp⟩)⟩
  | loop hp hres =>
    have hongoing := h.ongoing (.inl (.inl hp))
    cases hres with
    | incomplete =>
      have heff : s.worker.effects (([] : List (Reassembled Packet)).map .emitted) = [] := by
        simp [Reblock.effects, hp]
      rw [heff, List.append_nil]
      exact ⟨h.runs, fun _ => hongoing⟩
    | complete hlen hopp =>
      have heff (r : Reassembled Packet) :
          s.worker.effects ([r].map .emitted) = [.emitted r] := by
        simp [Reblock.effects, hp, emittedOf]
      have hnext := hongoing.emit (s.worker.blocksData s.worker.curId)
      rw [heff]
      exact ⟨hnext.runs, fun _ => hnext⟩
    | tooFar => exact absurd rfl hwf.phase_ne
  | tooFar hfar => exact absurd hfar h.wellFormed.phase_ne

/-- **Every step keeps the invariant.** -/
theorem step (h : s.Inv crate minNbPackets) {a : Reblock.Input}
    (hs : Observed.step crate minNbPackets s a = some s') : s'.Inv crate minNbPackets := by
  simp only [Observed.step, Option.map_eq_some_iff] at hs
  obtain ⟨⟨worker, events⟩, hnext, rfl⟩ := hs
  have ht := Reblock.trans_of_next hnext
  obtain ⟨hruns, hongoing⟩ := h.runs_step ht
  refine ⟨h.wellFormed.step ht, h.sorted.step ht, fun hp hreceived => ?_, hruns, hongoing⟩
  refine h.head_step ht hp ?_
  obtain ⟨datagrams, hmem⟩ := hreceived
  rcases List.mem_append.mp hmem with hold | hnew
  · exact .inl ⟨datagrams, hold⟩
  · exact .inr ⟨datagrams, (List.mem_singleton.mp hnew).symm⟩

end Inv

/-- **The window of the reblock worker.** In every state that the worker reaches with any batches
and timeouts: when it waits and has received datagrams, its slots stand for a window of 127 blocks,
of which the first is not complete; it never finds the other end of the window in use; and between
two resets it emits blocks with consecutive numbers from the one it has written to
`block_to_dispatch` on. -/
theorem representation (h : LTS.Reach (step crate minNbPackets) (init Packet) s) :
    (s.worker.phase = .recv → s.Received → s.worker.Represents crate minNbPackets) ∧
      s.worker.phase ≠ .tooFar ∧ Runs s.effects := by
  have hinv : s.Inv crate minNbPackets :=
    h.invariant .init fun _ _ _ _ hinv _ hs => hinv.step hs
  refine ⟨fun hp hreceived => ?_, hinv.wellFormed.phase_ne, hinv.runs⟩
  obtain ⟨hwindow, hlen⟩ := hinv.head hp hreceived
  exact ⟨fun id => (hwindow id).trans Reblock.exists_offset_iff.symm, hinv.wellFormed.empty,
    hinv.sorted, hlen⟩

/-- A block of two packets is emitted, the first packet of the next one arrives, and a timeout. -/
theorem representation_single : ∃ s : Observed (UInt8 × List UInt8),
    s.effects = [.published 255, .emitted (.block 255 [(255, [1]), (255, [2])])] ∧
    s.worker.phase = .recv ∧ s.worker.Represents Crate.single 2 := by
  have hrun : (LTS.run (step Crate.single 2) (init _)
      [.datagrams (datagramOf 255 [1]), .proceed, .proceed, .proceed,
        .datagrams (datagramOf 255 [2]), .proceed, .proceed,
        .datagrams (datagramOf 0 [3]), .proceed, .timeout]).map
      (fun s => (s.effects, s.worker.phase, s.inputs.head?)) =
      some ([.published 255, .emitted (.block 255 [(255, [1]), (255, [2])])], .recv,
        some (.datagrams (datagramOf 255 [1]))) := by
    decide +kernel
  obtain ⟨s, hs, heq⟩ := Option.map_eq_some_iff.mp hrun
  simp only [Prod.mk.injEq] at heq
  obtain ⟨heffects, hphase, hhead⟩ := heq
  exact ⟨s, heffects, hphase, (representation (LTS.reach_of_run hs)).1 hphase
    ⟨_, List.mem_of_head? hhead⟩⟩

end Observed

/-! ## Within the receiver -/

/-- What is put on `to_decode`. -/
def itemsOf (effects : List (Effect Packet)) : List (Reassembled Packet) :=
  effects.filterMap fun
    | .emitted r => some r
    | .published _ => none

/-- What a step puts on `to_decode` is among its effects. -/
lemma Reblock.itemsOf_effects {s s' : Reblock Packet} {a : Input} {events : List (Event Packet)}
    (ht : Trans crate minNbPackets s a s' events) :
    itemsOf (s.effects events) = emittedOf events := by
  have hitems (items : List (Reassembled Packet)) : itemsOf (items.map .emitted) = items := by
    simp [itemsOf, List.filterMap_map]
  cases ht with
  | publish hp => simp [effects, hp, itemsOf]
  | resync hp | store hp | timeout hp | wake hp | loop hp | tooFar hp =>
    simp only [effects, hp, hitems]

/-- A worker that is about to write a number has done so after its next step. -/
lemma Reblock.fst_ne_of_publish {s s' : Reblock Packet} {a : Input} {datagrams : Datagrams}
    {events : List (Event Packet)} (hp : s.phase = .publish datagrams)
    (ht : Trans crate minNbPackets s a s' events) : s' ≠ s := by
  cases ht with
  | publish =>
    intro heq
    have hphase := congrArg Reblock.phase heq
    simp [hp] at hphase
  | resync hp' | store hp' | timeout hp' | wake hp' | loop hp' | tooFar hp' =>
    simp [hp] at hp'

/-- What the worker writes is the turn of the decoding threads. -/
lemma Core.Trans.turn_of_publish {n : ℕ} {raptorq : RaptorQ} {s s' : Core n Packet}
    {a : Core.Label n} {datagrams : Datagrams} (h : Core.Trans crate raptorq s a s')
    (hp : s.reblock.phase = .publish datagrams) (hne : s'.reblock ≠ s.reblock) :
    s'.decoding.gate.turn = s.reblock.curId := by
  cases h with
  | publish => rfl
  | decode | dispatch => exact absurd rfl hne
  | datagrams _ hp' | timeout hp' | wake hp' | loop hp' | tooFar hp' => simp [hp] at hp'

/-- **Within the receiver the effects are those on the shared state.** What the worker writes to
`block_to_dispatch` is the turn of the decoding threads, and what it emits is put on `to_decode`. -/
theorem Core.Trans.effects {n : ℕ} {raptorq : RaptorQ} {s s' : Core n Packet} {a : Core.Label n}
    (h : Core.Trans crate raptorq s a s') :
    s'.reblock = s.reblock ∧ s'.decoding.emitted = s.decoding.emitted ∨
      ∃ input res, Reblock.next crate raptorq.minNbPackets.toNat s.reblock input = some res ∧
        s'.reblock = res.1 ∧
        s'.decoding.emitted = s.decoding.emitted ++ itemsOf (s.reblock.effects res.2) ∧
        ∀ turn, .published turn ∈ s.reblock.effects res.2 → s'.decoding.gate.turn = turn := by
  rcases h.reblock with hsame | ⟨input, res, hnext, hworker, hemitted, -⟩
  · exact .inl hsame
  · refine .inr ⟨input, res, hnext, hworker, ?_, fun turn hturn => ?_⟩
    · rw [Reblock.itemsOf_effects (Reblock.trans_of_next hnext), hemitted]
    · unfold Reblock.effects at hturn
      split at hturn
      · rename_i hp
        obtain rfl : turn = s.reblock.curId := by simpa using hturn
        refine h.turn_of_publish hp fun hsame => ?_
        rw [hsame] at hworker
        exact Reblock.fst_ne_of_publish hp (Reblock.trans_of_next hnext) hworker.symm
      · simp at hturn

/-- **Every run of the receiver is one of the worker**, with what it has put on `to_decode`. -/
theorem Core.exists_observed {n : ℕ} {raptorq : RaptorQ} {s : Core n Packet}
    (h : LTS.Reach (Core.step crate raptorq) (Core.init n Packet) s) :
    ∃ t : Observed Packet,
      LTS.Reach (Observed.step crate raptorq.minNbPackets.toNat) (Observed.init Packet) t ∧
      t.worker = s.reblock ∧ itemsOf t.effects = s.decoding.emitted := by
  refine h.invariant (P := fun s => ∃ t : Observed Packet,
    LTS.Reach (Observed.step crate raptorq.minNbPackets.toNat) (Observed.init Packet) t ∧
    t.worker = s.reblock ∧ itemsOf t.effects = s.decoding.emitted) ⟨_, .refl, rfl, rfl⟩ ?_
  rintro s a s' - ⟨t, hreach, hworker, hitems⟩ - hs
  rcases (Core.step_iff.mp hs).effects with
    ⟨hsame, hemitted⟩ | ⟨input, res, hnext, hres, hemitted, -⟩
  · exact ⟨t, hreach, hworker.trans hsame.symm, hitems.trans hemitted.symm⟩
  · have hstep : Observed.step crate raptorq.minNbPackets.toNat t input =
        some ⟨res.1, t.inputs ++ [input], t.effects ++ s.reblock.effects res.2⟩ := by
      rw [Observed.step, hworker, hnext]
      rfl
    refine ⟨_, hreach.next hstep, hres.symm, ?_⟩
    rw [itemsOf, List.filterMap_append, hemitted, ← hitems]
    rfl

end Lidi.Receive
