import Lidi.Receive.ReblockWindow

set_option relaxedAutoImplicit false
set_option autoImplicit false

/-!
# The loop that emits blocks

After each batch the reblock worker emits blocks as long as the current one has enough packets.
Each round opens a slot at the far end of the window, so that no counter decreases; but the slot it
opens is empty, and so the part of the window that may hold packets gets shorter.

## Main definitions

* `Receive.Reblock.Within` — only so many slots from the current one on hold packets.
* `Receive.Slots` — the worker with the packets that each slot has accepted since it was opened.

## Main results

* `Receive.Reblock.Within.release` — a round makes the part with packets shorter.
* `Receive.Slots.Inv.step` — an open slot holds what it has accepted since it was opened.
* `Receive.Slots.emission_terminates` — the loop ends after at most 127 rounds, and what is emitted
  was accepted since the slot was opened.
-/

namespace Lidi.Receive

open Function

variable {Packet : Type*} {crate : Crate Packet} {minNbPackets width : ℕ}

namespace Reblock

variable {s s' : Reblock Packet} {events : List (Event Packet)}

/-- Only the first `width` slots from the current one on hold packets. -/
def Within (width : ℕ) (s : Reblock Packet) : Prop :=
  ∀ id, width ≤ (id - s.curId).toNat → s.blocksData id = []

/-- Packets are in the window only. -/
lemma WellFormed.within (h : s.WellFormed) (hlive : s.Live) : s.Within windowWidth.toNat := by
  intro id hfar
  refine h.empty id ?_
  rw [← Bool.not_eq_false, h.live hlive id]
  omega

/-- **A round makes the part with packets shorter.** The slot that is opened is empty. -/
lemma Within.release (h : s.Within (width + 1)) : s.release.Within width := by
  intro id hfar
  show update s.blocksData s.curId [] id = []
  by_cases hcur : id = s.curId
  · rw [hcur, update_self]
  · rw [update_of_ne hcur]
    apply h
    have hdist := UInt8.toNat_sub_add_one hcur
    have hfar' : width ≤ (id - (s.curId + 1)).toNat := hfar
    omega

/-- If no slot holds packets, the current one does not either. -/
lemma Within.current_eq (h : s.Within 0) : s.blocksData s.curId = [] :=
  h s.curId (Nat.zero_le _)

/-- A round of the loop of a worker whose window is well formed. -/
lemma WellFormed.emission_of_le (h : s.WellFormed) (hloop : s.phase = .loop)
    (hlen : minNbPackets ≤ (s.blocksData s.curId).length) :
    s.emission minNbPackets = (s.release, [.block s.curId (s.blocksData s.curId)]) := by
  simp only [emission, if_pos hlen, update_of_ne s.opposite_ne, h.opposite_eq (.inl hloop),
    List.isEmpty_nil, if_true]
  rfl

end Reblock

/-! ## The slots since they were opened -/

/-- The packets that the events put into a slot. -/
def acceptedOf (id : UInt8) (events : List (Event Packet)) : List Packet :=
  events.filterMap fun
    | .accepted id' packet => if id' = id then some packet else none
    | _ => none

/-- Emissions put no packet into a slot. -/
@[simp]
lemma acceptedOf_map_emitted (id : UInt8) (items : List (Reassembled Packet)) :
    acceptedOf id (items.map .emitted) = [] := by
  simp [acceptedOf, List.filterMap_map]

/-- Of the packets that are stored, a slot gets those with its number. -/
@[simp]
lemma acceptedOf_acceptedEvents (id : UInt8) (packets : List Packet) :
    acceptedOf id (Reblock.acceptedEvents crate packets) =
      packets.filter (crate.sourceBlockNumber · = id) := by
  rw [acceptedOf, Reblock.acceptedEvents, List.filterMap_map, ← List.filterMap_eq_filter]
  congr 1
  funext p
  simp [Option.guard]

/-- The worker with the packets that each slot has accepted since it was last opened. -/
structure Slots (Packet : Type*) where
  worker : Reblock Packet
  since : UInt8 → List Packet

namespace Slots

variable {s s' : Slots Packet}

/-- Nothing has happened. -/
def init (Packet : Type*) : Slots Packet where
  worker := .init Packet
  since := fun _ => []

/-- The next step of the worker. A slot that was ignored and no longer is has been opened. -/
def step (crate : Crate Packet) (minNbPackets : ℕ) (s : Slots Packet) (a : Reblock.Input) :
    Option (Slots Packet) :=
  (s.worker.next crate minNbPackets a).map fun res => {
    worker := res.1
    since := fun id =>
      (if s.worker.blocksIgnore id = true ∧ res.1.blocksIgnore id = false then []
        else s.since id) ++ acceptedOf id res.2 }

/-- **The invariant.** An open slot holds what it has accepted since it was opened. -/
structure Inv (s : Slots Packet) : Prop where
  wellFormed : s.worker.WellFormed
  since_eq : ∀ id, s.worker.blocksIgnore id = false → s.worker.blocksData id = s.since id

namespace Inv

/-- The invariant holds at the start. -/
lemma init : (Slots.init Packet).Inv where
  wellFormed := .init
  since_eq := by simp [Slots.init, Reblock.init]

/-- A slot that stays open, or is opened, holds what it has accepted since. -/
lemma since_step (h : s.Inv) {a : Reblock.Input} {worker : Reblock Packet}
    {events : List (Event Packet)}
    (ht : Reblock.Trans crate minNbPackets s.worker a worker events) (id : UInt8)
    (hopen : worker.blocksIgnore id = false) :
    worker.blocksData id =
      (if s.worker.blocksIgnore id = true ∧ worker.blocksIgnore id = false then []
        else s.since id) ++ acceptedOf id events := by
  have hwf := h.wellFormed.step ht
  cases ht with
  | @resync datagrams hp hr =>
    simp only [Reblock.resync] at hopen
    split at hopen <;> cases hopen
  | @store datagrams hp hr =>
    rw [(s.worker.store_eq crate datagrams).2.2] at hopen
    simp [Reblock.blocksData_store, h.since_eq id hopen, hopen]
  | timeout hp =>
    have hold : s.worker.blocksIgnore id = false := hopen
    simp [h.since_eq id hold, hold]
  | publish hp =>
    have hold : s.worker.blocksIgnore id = false := hopen
    simp [h.since_eq id hold, hold, acceptedOf]
  | @wake datagrams hp =>
    -- every slot was ignored, and so empty
    obtain ⟨-, hclosed⟩ := h.wellFormed.cleared datagrams (.inr hp)
    have hempty : s.worker.openWindow.blocksData id = [] := h.wellFormed.empty id (hclosed id)
    simp [Reblock.blocksData_store, hempty, hclosed id, hopen]
  | loop hp hres =>
    cases hres with
    | incomplete =>
      have hold : s.worker.blocksIgnore id = false := hopen
      simp [h.since_eq id hold, hold, acceptedOf]
    | complete hlen hopp =>
      by_cases hid : id = s.worker.curId + windowWidth
      · -- the slot that is opened was ignored before
        subst hid
        have hfar := h.wellFormed.opposite_ignored (.inl hp)
        simp [hopp, hfar, acceptedOf]
      · simp only [update_of_ne hid] at hopen
        by_cases hcur : id = s.worker.curId
        · subst hcur
          simp at hopen
        · rw [update_of_ne hcur] at hopen
          simp [update_of_ne hcur, h.since_eq id hopen, hopen, acceptedOf]
    | tooFar => exact absurd rfl hwf.phase_ne
  | tooFar hfar => exact absurd hfar h.wellFormed.phase_ne

/-- **Every step keeps the invariant.** -/
theorem step (h : s.Inv) {a : Reblock.Input} (hs : Slots.step crate minNbPackets s a = some s') :
    s'.Inv := by
  simp only [Slots.step, Option.map_eq_some_iff] at hs
  obtain ⟨⟨worker, events⟩, hnext, rfl⟩ := hs
  have ht := Reblock.trans_of_next hnext
  exact ⟨h.wellFormed.step ht, h.since_step ht⟩

/-- What is emitted was accepted since the slot was opened. -/
lemma emitted_eq (h : s.Inv) {a : Reblock.Input} {worker : Reblock Packet}
    {events : List (Event Packet)}
    (ht : Reblock.Trans crate minNbPackets s.worker a worker events) {id : UInt8}
    {packets : List Packet} (hmem : .emitted (.block id packets) ∈ events) :
    packets = s.since id := by
  cases ht with
  | resync | publish => simp at hmem
  | store | wake => simp [Reblock.acceptedEvents] at hmem
  | timeout => simp [h.wellFormed.damaged_eq] at hmem
  | loop hp hres =>
    have hcurrent : s.worker.blocksIgnore s.worker.curId = false := by
      rw [h.wellFormed.live (.inl hp), UInt8.sub_self]
      decide
    cases hres with
    | incomplete => simp at hmem
    | complete | tooFar =>
      simp only [List.map_cons, List.map_nil, List.mem_singleton, Event.emitted.injEq,
        Reassembled.block.injEq] at hmem
      obtain ⟨rfl, rfl⟩ := hmem
      exact h.since_eq _ hcurrent
  | tooFar => simp at hmem

end Inv

/-- The invariant holds in every reachable state. -/
lemma inv (h : LTS.Reach (step crate minNbPackets) (init Packet) s) : s.Inv :=
  h.invariant .init fun _ _ _ _ hinv _ hs => hinv.step hs

/-- What the worker does next when it looks at the current block. -/
lemma step_loop (crate : Crate Packet) (minNbPackets : ℕ) (hloop : s.worker.phase = .loop) :
    ∃ t, step crate minNbPackets s .proceed = some t ∧
      t.worker = (s.worker.emission minNbPackets).1 := by
  rw [step, Reblock.next_loop crate minNbPackets hloop]
  exact ⟨_, rfl, rfl⟩

/-- The condition of the loop fails. -/
lemma run_of_lt (crate : Crate Packet) (hloop : s.worker.phase = .loop)
    (hlen : (s.worker.blocksData s.worker.curId).length < minNbPackets) :
    ∃ s', LTS.run (step crate minNbPackets) s [.proceed] = some s' ∧ s'.worker.phase = .recv := by
  obtain ⟨t, ht, hworker⟩ := step_loop crate minNbPackets hloop
  rw [Reblock.Open.emission_of_lt hlen] at hworker
  exact ⟨t, by simp [LTS.run, ht], by rw [hworker]⟩

/-- **The loop ends.**

**Proof sketch.** Induction on the length of the part of the window that may hold packets. If the
current block lacks packets, the loop ends at once. Otherwise there is a round, and after it this
part is shorter. There is no round if it is empty, since a block needs a packet. -/
lemma exists_run (crate : Crate Packet) (hmin : 0 < minNbPackets) (h : s.Inv)
    (hloop : s.worker.phase = .loop) (hwithin : s.worker.Within width) :
    ∃ k ≤ width, ∃ s', LTS.run (step crate minNbPackets) s (List.replicate (k + 1) .proceed) =
      some s' ∧ s'.worker.phase = .recv := by
  induction width generalizing s with
  | zero =>
    have hlen : (s.worker.blocksData s.worker.curId).length < minNbPackets := by
      rwa [hwithin.current_eq]
    exact ⟨0, le_rfl, run_of_lt crate hloop hlen⟩
  | succ width ih =>
    by_cases hlen : (s.worker.blocksData s.worker.curId).length < minNbPackets
    · exact ⟨0, Nat.zero_le _, run_of_lt crate hloop hlen⟩
    · obtain ⟨t, ht, hworker⟩ := step_loop crate minNbPackets hloop
      rw [h.wellFormed.emission_of_le hloop (by omega)] at hworker
      have hloop' : t.worker.phase = .loop := by rw [hworker]; exact hloop
      have hwithin' : t.worker.Within width := by rw [hworker]; exact hwithin.release
      obtain ⟨k, hk, s', hrun, hrecv⟩ := ih (h.step ht) hloop' hwithin'
      refine ⟨k + 1, by omega, s', ?_, hrecv⟩
      rw [List.replicate_succ, LTS.run, ht]
      exact hrun

/-- **The loop that emits blocks terminates.** Whatever batches and timeouts have led to the state:
if the worker is in the loop, each of its next `k` steps is a round and in the one after them the
condition fails, with `k` at most 127; and the packets of every block that it emits are those that
the slot has accepted since it was last opened. -/
theorem emission_terminates (hmin : 0 < minNbPackets)
    (h : LTS.Reach (step crate minNbPackets) (init Packet) s) :
    (s.worker.phase = .loop → ∃ k ≤ 127, ∃ s',
      LTS.run (step crate minNbPackets) s (List.replicate (k + 1) .proceed) = some s' ∧
        s'.worker.phase = .recv) ∧
    ∀ a worker events id packets,
      s.worker.next crate minNbPackets a = some (worker, events) →
        .emitted (.block id packets) ∈ events → packets = s.since id := by
  have hinv := inv h
  constructor
  · intro hloop
    exact exists_run crate hmin hinv hloop (hinv.wellFormed.within (.inl hloop))
  · intro a worker events id packets hnext hmem
    exact hinv.emitted_eq (Reblock.trans_of_next hnext) hmem

/-- The packets of blocks 7 and 8 arrive in one batch, and the first block has been emitted. -/
theorem emission_terminates_single : ∃ s : Slots (UInt8 × List UInt8),
    s.since 8 = [(8, [2])] ∧
    (∃ k ≤ 127, ∃ s', LTS.run (step Crate.single 1) s (List.replicate (k + 1) .proceed) = some s' ∧
      s'.worker.phase = .recv) ∧
    ∀ a worker events id packets, s.worker.next Crate.single 1 a = some (worker, events) →
      .emitted (.block id packets) ∈ events → packets = s.since id := by
  have hrun : (LTS.run (step Crate.single 1) (init _)
      [.datagrams (.multiple [Crate.single.serialize (7, [1]), Crate.single.serialize (8, [2])]),
        .proceed, .proceed, .proceed]).map (fun s => (s.worker.phase, s.since 8)) =
      some (.loop, [(8, [2])]) := by
    decide +kernel
  obtain ⟨s, hs, heq⟩ := Option.map_eq_some_iff.mp hrun
  simp only [Prod.mk.injEq] at heq
  obtain ⟨hrounds, hpackets⟩ := emission_terminates (Nat.one_pos) (LTS.reach_of_run hs)
  exact ⟨s, heq.2, hrounds heq.1, hpackets⟩

end Slots

end Lidi.Receive
