import Mathlib.Data.FinEnum
import Lidi.Receive.ReblockRun

set_option relaxedAutoImplicit false
set_option autoImplicit false

/-!
# Packets abandoned at a reset timeout

After a reset timeout the next datagram empties all slots. The worker means to report a loss when
packets are abandoned that way, but its test looks for packets in the slots that are ignored, and
these are always empty. So nothing is reported, and the loss is silent unless the slots were empty
when the timeout fired.

## Main definitions

* `Receive.Pending` — a packet has been put into its slot and is still there.
* `Receive.SilentLoss` — a packet has been abandoned, and the next block is emitted without a
  report.

## Main results

* `Receive.History.not_silentLoss` — no loss is silent if all slots are empty at every timeout.
* `Receive.History.silentLoss_of_timeout` — otherwise one may be.
-/

namespace Lidi.Receive

open Function

variable {Packet : Type*}

/-- A packet has been put into its slot, and since then neither its block has been emitted nor have
the slots been emptied. -/
def Pending (events : List (Event Packet)) (id : UInt8) (p : Packet) : Prop :=
  ∃ earlier since, events = earlier ++ .accepted id p :: since ∧ .cleared ∉ since ∧
    ∀ packets, .emitted (.block id packets) ∉ since

/-- A packet is put into its slot, and the slots are emptied by a reset before its block is
emitted; then a block is emitted, and in between no loss has been reported. -/
def SilentLoss (events : List (Event Packet)) : Prop :=
  ∃ earlier id p pending abandoned id' packets' later,
    events = earlier ++ .accepted id p ::
      (pending ++ .cleared :: (abandoned ++ .emitted (.block id' packets') :: later)) ∧
    .cleared ∉ pending ∧ (∀ packets, .emitted (.block id packets) ∉ pending) ∧
    (∀ i packets, .emitted (.block i packets) ∉ abandoned) ∧
    .emitted .error ∉ pending ++ abandoned

/-- A packet that is still in its slot has just been put there, or was there before and the slot
has not been emptied. -/
lemma Pending.of_append {events new : List (Event Packet)} {id : UInt8} {p : Packet}
    (h : Pending (events ++ new) id p) :
    .accepted id p ∈ new ∨ Pending events id p ∧ .cleared ∉ new ∧
      ∀ packets, .emitted (.block id packets) ∉ new := by
  obtain ⟨earlier, since, heq, hclear, hblock⟩ := h
  rcases LTS.append_eq_append_cons heq with ⟨more, hevents, rfl⟩ | ⟨more, -, rfl⟩
  · right
    simp only [List.mem_append, not_or] at hclear hblock
    exact ⟨⟨earlier, more, hevents, hclear.1, fun ps => (hblock ps).1⟩, hclear.2,
      fun ps => (hblock ps).2⟩
  · left
    simp

namespace Reblock

variable {crate : Crate Packet} {minNbPackets : ℕ} {s s' : Reblock Packet}
  {events : List (Event Packet)}

/-- Storing datagrams puts the accepted packets into their slots and removes none. -/
lemma mem_store {datagrams : Datagrams} {id : UInt8} {p : Packet}
    (h : .accepted id p ∈ acceptedEvents crate (s.acceptances crate datagrams) ∨
      p ∈ s.blocksData id) :
    p ∈ (s.store crate datagrams).blocksData id := by
  rw [blocksData_store, List.mem_append, List.mem_filter]
  rcases h with h | h
  · simp only [acceptedEvents, List.mem_map, Event.accepted.injEq] at h
    obtain ⟨q, hq, hid, rfl⟩ := h
    exact .inr ⟨hq, by simpa using hid⟩
  · exact .inl h

/-- A packet is put into its slot, or stays there unless its block is emitted or the slots are
emptied. -/
lemma Trans.mem_slot {a : Input} (ht : Trans crate minNbPackets s a s' events) {id : UInt8}
    {p : Packet} (h : .accepted id p ∈ events ∨ p ∈ s.blocksData id ∧ .cleared ∉ events ∧
      ∀ packets, .emitted (.block id packets) ∉ events) :
    p ∈ s'.blocksData id := by
  cases ht with
  | resync hp hr => simp at h
  | store hp hr => exact mem_store (h.imp_right And.left)
  | timeout hp =>
    rcases h with h | h
    · simp at h
    · exact h.1
  | publish hp => simpa using h
  | wake hp => exact mem_store (s := s.openWindow) (h.imp_right And.left)
  | loop hp hres =>
    cases hres with
    | incomplete => simpa using h
    | complete | tooFar =>
      simp only [List.map_cons, List.map_nil, List.mem_singleton, reduceCtorEq, false_or,
        not_false_eq_true, true_and, Event.emitted.injEq, Reassembled.block.injEq, not_and] at h
      have hne : id ≠ s.curId := fun heq => h.2 _ heq rfl
      simpa only [update_of_ne hne] using h.1
  | tooFar hp => simpa using h

/-- If the slots are empty whenever a timeout fires, they are empty whenever the worker is about to
reset. -/
lemma Trans.slots_empty {a : Input} (hwf : s.WellFormed)
    (ht : Trans crate minNbPackets s a s' events)
    (htimeout : a = .timeout → ∀ id, s.blocksData id = [])
    (hreset : s.reset = true → ∀ id, s.blocksData id = []) (hr' : s'.reset = true) (id : UInt8) :
    s'.blocksData id = [] := by
  cases ht with
  | resync hp hr =>
    simp only [Reblock.resync]
    split <;> rfl
  | store hp hr =>
    rw [(s.store_eq crate _).2.1, hr] at hr'
    cases hr'
  | timeout hp => exact htimeout rfl id
  | publish hp => exact hreset hr' id
  | wake hp =>
    rw [(s.openWindow.store_eq crate _).2.1] at hr'
    have hr := (hwf.cleared _ (.inr hp)).1
    simp only [openWindow, hr] at hr'
    cases hr'
  | loop hp hres =>
    cases hres with
    | incomplete => exact hreset hr' id
    | complete | tooFar =>
      simp only [update_apply, hreset hr' id]
      split <;> rfl
  | tooFar hp => exact absurd hp hwf.phase_ne

/-- A step that empties the slots is a reset. -/
lemma Trans.of_cleared {a : Input} (ht : Trans crate minNbPackets s a s' events)
    (h : .cleared ∈ events) : s.reset = true ∧ events = [.cleared] := by
  cases ht with
  | resync hp hr => exact ⟨hr, rfl⟩
  | store => simp [acceptedEvents] at h
  | wake => simp [acceptedEvents] at h
  | timeout | publish | loop | tooFar => simp at h

end Reblock

namespace History

variable {crate : Crate Packet} {minNbPackets : ℕ} {s : History Packet}

/-- All slots are empty when a timeout fires. -/
def TimesOutEmpty (s : History Packet) (a : Reblock.Input) : Prop :=
  a = .timeout → ∀ id, s.worker.blocksData id = []

/-- The invariant: before a reset the slots are empty, packets that are pending are in their slots,
and none has been abandoned. -/
structure Kept (s : History Packet) : Prop where
  empty : s.worker.reset = true → ∀ id, s.worker.blocksData id = []
  pending : ∀ id p, Pending s.events id p → p ∈ s.worker.blocksData id
  abandoned : ∀ earlier id p later, s.events = earlier ++ .cleared :: later →
    ¬ Pending earlier id p

/-- The invariant holds at the start. -/
lemma Kept.init : (History.init Packet).Kept where
  empty := by simp [History.init, Reblock.init]
  pending := by simp [History.init, Pending]
  abandoned := by simp [History.init]

/-- **The step lemma.** -/
theorem Kept.step {s' : History Packet} {a : Reblock.Input} (h : s.Kept)
    (hwf : s.worker.WellFormed) (hok : s.TimesOutEmpty a)
    (hs : step crate minNbPackets s a = some s') : s'.Kept := by
  obtain ⟨events, ht, hev⟩ := trans_of_step hs
  refine ⟨ht.slots_empty hwf hok h.empty, fun id p hp => ?_, fun earlier id p later heq hp => ?_⟩
  · rw [hev] at hp
    exact ht.mem_slot (hp.of_append.imp_right fun hold => ⟨h.pending id p hold.1, hold.2⟩)
  · rw [hev] at heq
    rcases LTS.append_eq_append_cons heq with ⟨more, hold, -⟩ | ⟨more, rfl, hnew⟩
    · exact h.abandoned earlier id p more hold hp
    · -- The reset is this step, and there is nothing in the slots.
      obtain ⟨hr, hcleared⟩ := ht.of_cleared (by rw [hnew]; simp)
      obtain rfl : more = [] := by
        cases more with
        | nil => rfl
        | cons e more => simp [hcleared] at hnew
      rw [List.append_nil] at hp
      have hmem := h.pending id p hp
      rw [h.empty hr id] at hmem
      cases hmem

/-- **No loss is silent if all slots are empty at every timeout.** -/
theorem not_silentLoss
    (h : LTS.ReachVia (step crate minNbPackets) TimesOutEmpty (init Packet) s) :
    ¬ SilentLoss s.events := by
  have hkept : s.Kept := h.invariant Kept.init fun t a t' hreach ht hok hs =>
    ht.step (wellFormed hreach) hok hs
  rintro ⟨earlier, id, p, pending, abandoned, id', packets', later, heq, hclear, hblock, -, -⟩
  refine hkept.abandoned (earlier ++ .accepted id p :: pending) id p
    (abandoned ++ .emitted (.block id' packets') :: later) ?_
    ⟨earlier, pending, rfl, hclear, hblock⟩
  rw [heq, List.append_assoc, List.cons_append]

/-- Whether a timeout finds all slots empty can be decided. -/
instance (s : History Packet) (a : Reblock.Input) : Decidable (TimesOutEmpty s a) := by
  unfold TimesOutEmpty
  exact inferInstance

/-- Block 0 is emitted, the timeout fires while all slots are empty, and block 5 is emitted. -/
theorem not_silentLoss_quiet : ∃ s : History (UInt8 × List UInt8),
    emittedOf s.events = [.block 0 [(0, [1])], .block 5 [(5, [2])]] ∧ ¬ SilentLoss s.events := by
  have hrun : (LTS.runVia (step Crate.single 1) TimesOutEmpty (init (UInt8 × List UInt8))
      [.datagrams (datagramOf 0 [1]), .proceed, .proceed, .proceed, .proceed, .timeout,
        .datagrams (datagramOf 5 [2]), .proceed, .proceed, .proceed]).map
      (emittedOf ·.events) = some [.block 0 [(0, [1])], .block 5 [(5, [2])]] := by
    decide +kernel
  obtain ⟨s, hs, hemitted⟩ := Option.map_eq_some_iff.mp hrun
  exact ⟨s, hemitted, not_silentLoss (LTS.reachVia_of_runVia hs)⟩

/-- **A loss may be silent.** Block 1 is lost, the only packet of block 2 waits in its slot when the
timeout fires, and the next datagram is of block 5. -/
theorem silentLoss_of_timeout : ∃ s : History (UInt8 × List UInt8),
    LTS.Reach (step Crate.single 1) (init _) s ∧ SilentLoss s.events := by
  have hrun : (LTS.run (step Crate.single 1) (init (UInt8 × List UInt8))
      [.datagrams (datagramOf 0 [1]), .proceed, .proceed, .proceed, .proceed,
        .datagrams (datagramOf 2 [2]), .proceed, .timeout,
        .datagrams (datagramOf 5 [3]), .proceed, .proceed, .proceed]).map (·.events) =
      some [.cleared, .accepted 0 (0, [1]), .emitted (.block 0 [(0, [1])]),
        .accepted 2 (2, [2]), .cleared, .accepted 5 (5, [3]),
        .emitted (.block 5 [(5, [3])])] := by
    decide +kernel
  obtain ⟨s, hs, hevents⟩ := Option.map_eq_some_iff.mp hrun
  refine ⟨s, LTS.reach_of_run hs, ?_⟩
  rw [hevents]
  exact ⟨[.cleared, .accepted 0 (0, [1]), .emitted (.block 0 [(0, [1])])], 2, (2, [2]), [],
    [.accepted 5 (5, [3])], 5, [(5, [3])], [], rfl, by simp, by simp, by simp, by simp⟩

end History

end Lidi.Receive
