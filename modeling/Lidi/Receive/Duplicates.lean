import Mathlib.Data.FinEnum
import Lidi.Receive.ReblockRun

set_option relaxedAutoImplicit false
set_option autoImplicit false

/-!
# Duplicated packets

The reblock worker emits a block as soon as its slot holds enough packets, and counts a packet twice
if the network has duplicated it.

## Main definitions

* `Receive.EnoughDistinct` — an emitted block has enough packets with different symbol numbers.
* `Receive.History.FreshSymbols` — no packet is put into a slot that already holds a packet with the
  same symbol number.

## Main results

* `Receive.History.enoughDistinct` — without duplicates every emitted block has enough packets.
* `Receive.History.counts_duplicates` — a duplicated packet counts twice.
-/

namespace Lidi.Receive

open Function

variable {Packet : Type*} {crate : Crate Packet} {minNbPackets : ℕ} {symbolId : Packet → ℕ}

/-- An emitted block has enough packets with pairwise different symbol numbers. -/
def EnoughDistinct (symbolId : Packet → ℕ) (minNbPackets : ℕ) : Reassembled Packet → Prop
  | .block _ packets => ∃ distinct : List Packet, distinct.Sublist packets ∧
    (distinct.map symbolId).Nodup ∧ minNbPackets ≤ distinct.length
  | .error => True

namespace Reblock

variable {s s' : Reblock Packet} {events : List (Event Packet)}

/-- The packets of a slot have pairwise different symbol numbers. -/
def Distinct (symbolId : Packet → ℕ) (s : Reblock Packet) : Prop :=
  ∀ id, ((s.blocksData id).map symbolId).Nodup

/-- The packets of a slot and those that the datagrams add have pairwise different symbol
numbers. -/
def Fresh (crate : Crate Packet) (symbolId : Packet → ℕ) (s : Reblock Packet)
    (datagrams : Datagrams) : Prop :=
  ∀ id, ((s.blocksData id ++
    (s.acceptances crate datagrams).filter (crate.sourceBlockNumber · = id)).map symbolId).Nodup

/-- The datagrams that a step stores have fresh symbol numbers. -/
def FreshSymbols (crate : Crate Packet) (symbolId : Packet → ℕ) (s : Reblock Packet) :
    Input → Prop
  | .datagrams datagrams => s.reset = false → s.Fresh crate symbolId datagrams
  | .timeout => True
  | .proceed =>
    match s.phase with
    | .wake datagrams => s.openWindow.Fresh crate symbolId datagrams
    | _ => True

/-- Fresh packets are stored. -/
lemma Fresh.store {datagrams : Datagrams} (h : s.Fresh crate symbolId datagrams) :
    (s.store crate datagrams).Distinct symbolId := by
  intro id
  rw [blocksData_store]
  exact h id

/-- Slots that are emptied have no duplicates. -/
lemma Distinct.update_nil (h : s.Distinct symbolId) (id' id : UInt8) :
    ((update s.blocksData id' [] id).map symbolId).Nodup := by
  by_cases heq : id = id'
  · rw [heq, update_self]
    exact List.nodup_nil
  · rw [update_of_ne heq]
    exact h id

/-- **The step lemma.** -/
lemma Distinct.step {a : Input} (h : s.Distinct symbolId) (hfresh : s.FreshSymbols crate symbolId a)
    (ht : Trans crate minNbPackets s a s' events) :
    s'.Distinct symbolId ∧ ∀ r ∈ emittedOf events, EnoughDistinct symbolId minNbPackets r := by
  cases ht with
  | resync hp hr =>
    refine ⟨fun id => ?_, by simp⟩
    simp only [Reblock.resync]
    split <;> exact List.nodup_nil
  | store hp hr => exact ⟨(hfresh hr).store, by simp [acceptedEvents]⟩
  | timeout hp =>
    refine ⟨h, fun r hr => ?_⟩
    rw [emittedOf_map_emitted] at hr
    split at hr
    · rw [List.mem_singleton.mp hr]
      trivial
    · cases hr
  | publish hp => exact ⟨h, by simp⟩
  | wake hp =>
    simp only [FreshSymbols, hp] at hfresh
    exact ⟨hfresh.store, by simp [acceptedEvents]⟩
  | loop hp hres =>
    cases hres with
    | incomplete => exact ⟨h, by simp⟩
    | complete hlen | tooFar hlen =>
      refine ⟨h.update_nil s.curId, fun r hr => ?_⟩
      rw [emittedOf_map_emitted] at hr
      rw [List.mem_singleton.mp hr]
      exact ⟨_, List.Sublist.refl _, h s.curId, hlen⟩
  | tooFar hp => exact ⟨h, by simp [EnoughDistinct]⟩

end Reblock

namespace History

variable {s : History Packet}

/-- **Without duplicates every emitted block has enough packets.** -/
theorem enoughDistinct (h : LTS.ReachVia (step crate minNbPackets)
    (fun s a => s.worker.FreshSymbols crate symbolId a) (init Packet) s) :
    ∀ r ∈ emittedOf s.events, EnoughDistinct symbolId minNbPackets r := by
  have hinv : s.worker.Distinct symbolId ∧
      ∀ r ∈ emittedOf s.events, EnoughDistinct symbolId minNbPackets r := by
    refine h.invariant (P := fun t => t.worker.Distinct symbolId ∧
      ∀ r ∈ emittedOf t.events, EnoughDistinct symbolId minNbPackets r) ?_ ?_
    · exact ⟨fun _ => List.nodup_nil, by simp [init]⟩
    · intro t a t' _ ht hok hs
      obtain ⟨events, htrans, hev⟩ := trans_of_step hs
      obtain ⟨hslots, hitems⟩ := ht.1.step hok htrans
      refine ⟨hslots, fun r hr => ?_⟩
      rw [hev, emittedOf_append] at hr
      exact (List.mem_append.mp hr).elim (ht.2 r) (hitems r)
  exact hinv.2

/-- Whether a batch brings no duplicate can be decided. -/
instance (s : Reblock Packet) (datagrams : Datagrams) :
    Decidable (s.Fresh crate symbolId datagrams) := by
  unfold Reblock.Fresh
  infer_instance

/-- Whether a step brings no duplicate can be decided. -/
instance (s : Reblock Packet) (a : Reblock.Input) :
    Decidable (s.FreshSymbols crate symbolId a) := by
  unfold Reblock.FreshSymbols
  split
  · infer_instance
  · infer_instance
  · split <;> infer_instance

/-- The only packets of blocks 0 and 1 arrive. -/
theorem enoughDistinct_single : ∃ s : History (UInt8 × List UInt8),
    emittedOf s.events = [.block 0 [(0, [1])], .block 1 [(1, [2])]] ∧
    ∀ r ∈ emittedOf s.events, EnoughDistinct (fun _ => 0) 1 r := by
  have hrun : (LTS.runVia (step Crate.single 1)
      (fun s a => s.worker.FreshSymbols Crate.single (fun _ => 0) a) (init _)
      [.datagrams (datagramOf 0 [1]), .proceed, .proceed, .proceed, .proceed,
        .datagrams (datagramOf 1 [2]), .proceed]).map (emittedOf ·.events) =
      some [.block 0 [(0, [1])], .block 1 [(1, [2])]] := by
    decide +kernel
  obtain ⟨s, hs, hemitted⟩ := Option.map_eq_some_iff.mp hrun
  exact ⟨s, hemitted, enoughDistinct (LTS.reachVia_of_runVia hs)⟩

/-- **A duplicated packet counts twice.** Two packets are needed for a block; the network delivers
one of them twice and no other. Whatever the symbol numbers are, the block is emitted with too few
different packets. -/
theorem counts_duplicates : ∃ s : History (UInt8 × List UInt8),
    LTS.Reach (step Crate.single 2) (init _) s ∧
    ∀ symbolId, ∃ r ∈ emittedOf s.events, ¬ EnoughDistinct symbolId 2 r := by
  have hrun : (LTS.run (step Crate.single 2) (init _)
      [.datagrams (datagramOf 0 [1]), .proceed, .proceed, .proceed,
        .datagrams (datagramOf 0 [1]), .proceed]).map (emittedOf ·.events) =
      some [.block 0 [(0, [1]), (0, [1])]] := by
    decide +kernel
  obtain ⟨s, hs, hemitted⟩ := Option.map_eq_some_iff.mp hrun
  refine ⟨s, LTS.reach_of_run hs, fun symbolId => ?_⟩
  rw [hemitted]
  refine ⟨_, List.mem_singleton_self _, ?_⟩
  rintro ⟨distinct, hsub, hnodup, hlen⟩
  have hle := hsub.length_le
  obtain rfl := hsub.eq_of_length (Nat.le_antisymm hle hlen)
  simp at hnodup

end History

end Lidi.Receive
