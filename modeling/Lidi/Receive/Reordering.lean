import Lidi.Receive.ReblockWindow

set_option relaxedAutoImplicit false
set_option autoImplicit false

/-!
# Reordering is undone

Without timeouts, and as long as enough packets of every block arrive and none is overtaken by a
packet that is more than 126 blocks ahead, the reblock worker emits every block, in order.

## Main results

* `Receive.undoes_reordering` — what the worker emits.
-/

namespace Lidi.Receive

variable {Packet : Type*} {crate : Crate Packet} {minNbPackets first last : ℕ}
  {arrivals : List (ℕ × Packet)} {datagrams : List (List UInt8)}

/-- **The worker emits every block once and in order**, for packets of the blocks `first` to `last`
that arrive one by one, the first of them being of block `first`. -/
theorem undoes_reordering (hmin : 0 < minNbPackets)
    (hcarries : List.Forall₂ (Carries crate) (datagrams.map .single) (arrivals.map ([·])))
    (hfirst : arrivals.head?.map Prod.fst = some first)
    (hrange : ∀ a ∈ arrivals, first ≤ a.1 ∧ a.1 ≤ last)
    (hall : ∀ n, first ≤ n → n ≤ last → minNbPackets ≤ (packetsOf arrivals n).length)
    (horder : arrivals.Pairwise fun earlier later =>
      later.1 < earlier.1 → earlier.1 - later.1 ≤ 126) :
    ∃ blocks : List (ℕ × List Packet),
      blocks.map Prod.fst = List.range' first (last + 1 - first) ∧
      (∀ b ∈ blocks, minNbPackets ≤ b.2.length ∧ (b.2).Sublist (packetsOf arrivals b.1)) ∧
      (∃ s, Reblock.Processes crate minNbPackets (.init Packet) (datagrams.map .single)
        (blocks.map reassembled) s) ∧
      ∀ out s, Reblock.Processes crate minNbPackets (.init Packet) (datagrams.map .single) out s →
        out = blocks.map reassembled := by
  have hwidth : windowWidth.toNat = 127 := rfl
  obtain ⟨blocks, w, hs, hnumbers, hblocks⟩ := Window.tolerates_reordering hmin
    (show 0 < windowWidth.toNat by omega) hrange hall
    (horder.imp fun hab => by omega)
  cases arrivals with
  | nil => simp at hfirst
  | cons a arrivals =>
    obtain rfl : a.1 = first := by simpa using hfirst
    obtain ⟨s, hprocesses, -, -⟩ := processes_of_window (s := .init Packet)
      (fun _ _ hnear => .of_close hnear.close) hcarries rfl rfl hs
    refine ⟨blocks, hnumbers, hblocks, ⟨s, hprocesses⟩, fun out s' h => ?_⟩
    exact (h.unique hprocesses).1

/-- The packets of blocks 255, 256 and 257 arrive out of order; their numbers wrap. -/
theorem undoes_reordering_wrapping : ∃ s out,
    Reblock.Processes Crate.single 1 (.init _)
      ([[255, 0, 0, 0, 1], [1, 0, 0, 0, 3], [0, 0, 0, 0, 2]].map .single) out s ∧
    out.length = 3 := by
  have hcarries : List.Forall₂ (Carries Crate.single)
      ([[255, 0, 0, 0, 1], [1, 0, 0, 0, 3], [0, 0, 0, 0, 2]].map .single)
      ([(255, (255, [1])), (257, (1, [3])), (256, (0, [2]))].map ([·])) := by
    refine .cons ⟨rfl, ?_⟩ (.cons ⟨rfl, ?_⟩ (.cons ⟨rfl, ?_⟩ .nil)) <;>
      · intro a ha
        rw [List.mem_singleton.mp ha]
        rfl
  have hall : ∀ n, 255 ≤ n → n ≤ 257 → 1 ≤ (packetsOf
      [(255, ((255 : UInt8), [(1 : UInt8)])), (257, (1, [3])), (256, (0, [2]))] n).length := by
    intro n hle hle'
    obtain rfl | rfl | rfl : n = 255 ∨ n = 256 ∨ n = 257 := by omega
    all_goals decide
  have hrange : ∀ a ∈ [(255, ((255 : UInt8), [(1 : UInt8)])), (257, (1, [3])), (256, (0, [2]))],
      255 ≤ a.1 ∧ a.1 ≤ 257 := by decide
  obtain ⟨blocks, hnumbers, -, ⟨s, hs⟩, -⟩ :=
    undoes_reordering (by decide) hcarries rfl hrange hall (by decide)
  refine ⟨s, _, hs, ?_⟩
  have hlen := congrArg List.length hnumbers
  simpa using hlen

end Lidi.Receive
