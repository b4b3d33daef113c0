import Lidi.Core.TurnstileWork
import Lidi.Receive.Reblock

set_option relaxedAutoImplicit false
set_option autoImplicit false

/-!
# The receiver does not go on forever

Between two arrivals of datagrams the reblock worker and the decoding threads can only take finitely
many steps, if a block needs at least one packet: every round of the emission loop takes packets out
of a slot, and a reset throws away what is in the slots.

## Main definitions

* `Receive.Reblock.collected` — the packets in the slots.
* `Receive.Core.work` — the work of the reblock worker and the decoding threads.

## Main results

* `Receive.Core.work_lt` — every step but the arrival of datagrams and the reset timeout leaves less
  work.
-/

namespace Lidi.Receive

open Function Turnstile

variable {Packet : Type*} {crate : Crate Packet}

namespace Reblock

variable {s : Reblock Packet}

/-- The slots by their index. -/
def slots (blocksData : UInt8 → List Packet) (i : Fin 256) : List Packet :=
  blocksData (UInt8.ofNat i)

/-- The packets in the slots. -/
def collected (blocksData : UInt8 → List Packet) : ℕ :=
  ∑ i, (slots blocksData i).length

/-- A slot gets new contents. -/
lemma slots_update (blocksData : UInt8 → List Packet) (id : UInt8) (packets : List Packet) :
    slots (update blocksData id packets) =
      update (slots blocksData) ⟨id.toNat, id.toNat_lt⟩ packets := by
  funext i
  by_cases hi : UInt8.ofNat i = id
  · have hidx : i = ⟨id.toNat, id.toNat_lt⟩ := by
      ext
      have htoNat := congrArg UInt8.toNat hi
      rw [UInt8.toNat_ofNat'] at htoNat
      show i.val = id.toNat
      omega
    rw [slots, hi, update_self, hidx, update_self]
  · have hidx : i ≠ ⟨id.toNat, id.toNat_lt⟩ := by
      rintro rfl
      simp at hi
    rw [slots, update_of_ne hi, update_of_ne hidx]
    rfl

/-- The packets in the slots when a slot gets new contents. -/
lemma collected_update (blocksData : UInt8 → List Packet) (id : UInt8) (packets : List Packet) :
    (blocksData id).length + collected (update blocksData id packets) =
      packets.length + collected blocksData := by
  have hold : (slots blocksData ⟨id.toNat, id.toNat_lt⟩).length = (blocksData id).length := by
    simp [slots]
  rw [collected, slots_update]
  exact Pool.sum_update (g := List.length) hold rfl

/-- A packet is put into its slot, or dropped. -/
lemma collected_storePacket_le (packet : Packet) :
    collected (s.storePacket crate packet).blocksData ≤ collected s.blocksData + 1 := by
  unfold storePacket
  simp only
  split
  · exact Nat.le_succ _
  · have hupdate := collected_update s.blocksData (crate.sourceBlockNumber packet)
      (s.blocksData (crate.sourceBlockNumber packet) ++ [packet])
    rw [List.length_append, List.length_singleton] at hupdate
    have hgoal : collected (update s.blocksData (crate.sourceBlockNumber packet)
        (s.blocksData (crate.sourceBlockNumber packet) ++ [packet])) ≤
        collected s.blocksData + 1 := by
      omega
    exact hgoal

/-- A batch adds at most its packets. -/
lemma collected_foldl_le (packets : List Packet) :
    collected (packets.foldl (storePacket crate) s).blocksData ≤
      collected s.blocksData + packets.length := by
  induction packets generalizing s with
  | nil => exact Nat.le_add_right _ _
  | cons p ps ih =>
    have hrest := ih (s := s.storePacket crate p)
    have hfirst : collected (s.storePacket crate p).blocksData ≤ collected s.blocksData + 1 :=
      collected_storePacket_le p
    rw [List.foldl_cons, List.length_cons]
    omega

/-- Every packet comes from a datagram. -/
lemma length_of_mapM {α β : Type*} {f : α → Option β} {l : List α} {l' : List β}
    (h : l.mapM f = some l') : l'.length = l.length := by
  induction l generalizing l' with
  | nil =>
    obtain rfl : l' = [] := by simpa using h.symm
    rfl
  | cons x l ih =>
    simp only [List.mapM_cons, bind, pure, Option.bind_eq_some_iff, Option.some.injEq] at h
    obtain ⟨y, -, ys, hys, rfl⟩ := h
    rw [List.length_cons, List.length_cons, ih hys]

/-- A batch is stored. -/
lemma collected_store_le (datagrams : Datagrams) :
    collected (s.store crate datagrams).blocksData ≤
      collected s.blocksData + datagrams.toList.length := by
  unfold store
  split
  · exact Nat.le_add_right _ _
  · rename_i packets hpackets
    rw [← length_of_mapM hpackets]
    exact collected_foldl_le packets

end Reblock

/-- The work of the reblock worker apart from what is in the slots, if there are `n` decoding
threads. -/
def Reblocking.work (n : ℕ) : Reblocking → ℕ
  | recv | panicked => 0
  | loop => 1
  | tooFar => n + 6
  | wake datagrams => 2 * (n + 6) * datagrams.toList.length + (n + 2)
  | publish datagrams => 2 * (n + 6) * datagrams.toList.length + (n + 3)

namespace Core

variable {n : ℕ} {raptorq : RaptorQ} {s s' : Core n Packet}

/-- The work of the reblock worker and the decoding threads, with what they have put on
`to_dispatch`. -/
def work (s : Core n Packet) : ℕ :=
  2 * (n + 6) * Reblock.collected s.reblock.blocksData + s.reblock.phase.work n +
    s.decoding.gate.work 1

/-- **The current block is looked at.** What is emitted weighs less than the packets that it takes
out of its slot. -/
lemma work_emission_lt (hmin : 0 < raptorq.minNbPackets.toNat) (hp : s.reblock.phase = .loop) :
    work ⟨(s.reblock.emission raptorq.minNbPackets.toNat).1,
      emitAll s.decoding (s.reblock.emission raptorq.minNbPackets.toNat).2⟩ < s.work := by
  have hupdate := Reblock.collected_update s.reblock.blocksData s.reblock.curId []
  rw [List.length_nil, Nat.zero_add] at hupdate
  have hpush := Turnstile.work_push (c := 1) s.decoding.gate
    (.block s.reblock.curId (s.reblock.blocksData s.reblock.curId))
  have hloop : s.reblock.phase.work n = 1 := by rw [hp]; rfl
  have hweight : 1 ≤ (s.reblock.blocksData s.reblock.curId).length → 2 * (n + 6) *
      Reblock.collected (update s.reblock.blocksData s.reblock.curId []) + 2 * (n + 6) ≤
      2 * (n + 6) * Reblock.collected s.reblock.blocksData := by
    intro hlen
    rw [← Nat.mul_succ]
    exact Nat.mul_le_mul_left _ (by omega)
  have hspec := s.reblock.emission_eq raptorq.minNbPackets.toNat
  generalize s.reblock.emission raptorq.minNbPackets.toNat = res at hspec ⊢
  unfold work
  cases hspec with
  | incomplete hlen =>
    show 2 * (n + 6) * Reblock.collected s.reblock.blocksData + 0 + s.decoding.gate.work 1 < _
    omega
  | complete hlen hopp =>
    have hdrop := hweight (by omega)
    show 2 * (n + 6) * Reblock.collected (update s.reblock.blocksData s.reblock.curId []) +
      s.reblock.phase.work n + (s.decoding.gate.push _).work 1 < _
    omega
  | tooFar hlen hopp =>
    have hdrop := hweight (by omega)
    show 2 * (n + 6) * Reblock.collected (update s.reblock.blocksData s.reblock.curId []) +
      (n + 6) + (s.decoding.gate.push _).work 1 < _
    omega

/-- The window opens, and the first packets are put into their slots. -/
lemma work_wake_lt {datagrams : Datagrams} (hp : s.reblock.phase = .wake datagrams) :
    work ⟨s.reblock.openWindow.store crate datagrams,
      { s.decoding with gate := s.decoding.gate.wakeAll }⟩ < s.work := by
  have hstore : Reblock.collected (s.reblock.openWindow.store crate datagrams).blocksData ≤
      Reblock.collected s.reblock.openWindow.blocksData + datagrams.toList.length :=
    Reblock.collected_store_le datagrams
  have hwake := Turnstile.work_wakeAll_le (c := 1) s.decoding.gate
  have hphase : (s.reblock.openWindow.store crate datagrams).phase.work n ≤ 1 := by
    rcases s.reblock.openWindow.phase_store crate datagrams with hph | hph <;>
      simp [hph, Reblocking.work]
  have hweight := Nat.mul_le_mul_left (2 * (n + 6)) hstore
  rw [Nat.mul_add (2 * (n + 6))] at hweight
  unfold work
  rw [hp]
  change _ ≤ 2 * (n + 6) * Reblock.collected s.reblock.blocksData + _ at hweight
  show 2 * (n + 6) * Reblock.collected (s.reblock.openWindow.store crate datagrams).blocksData +
    (s.reblock.openWindow.store crate datagrams).phase.work n + s.decoding.gate.wakeAll.work 1 <
    _ + (2 * (n + 6) * datagrams.toList.length + (n + 2)) + _
  omega

/-- **Every step but the arrival of datagrams and the reset timeout leaves less work.** -/
theorem work_lt (hmin : 0 < raptorq.minNbPackets.toNat) {a : Label n}
    (hinput : ∀ datagrams, a ≠ .datagrams datagrams) (htimeout : a ≠ .timeout)
    (h : step crate raptorq s a = some s') : s'.work < s.work := by
  cases step_iff.mp h with
  | datagrams ds hp => exact absurd rfl (hinput ds)
  | timeout hp => exact absurd rfl htimeout
  | @publish ds hp hfree =>
    unfold work
    rw [hp]
    show 2 * (n + 6) * Reblock.collected s.reblock.blocksData +
      (2 * (n + 6) * ds.toList.length + (n + 2)) + s.decoding.gate.work 1 <
      _ + (2 * (n + 6) * ds.toList.length + (n + 3)) + _
    omega
  | wake hp => exact work_wake_lt hp
  | loop hp => exact work_emission_lt hmin hp
  | tooFar hp =>
    have hpush := Turnstile.work_push (c := 1) s.decoding.gate .error
    unfold work
    rw [hp]
    show 2 * (n + 6) * Reblock.collected s.reblock.blocksData + 0 +
      (s.decoding.gate.push .error).work 1 < _ + (n + 6) + _
    omega
  | decode hd =>
    cases hd with
    | decode hgate =>
      have hlt := Turnstile.work_lt (c := 1) hgate
      simp only [work]
      omega
  | dispatch hd =>
    cases hd with
    | dispatch hout =>
      have hpop := Turnstile.work_pop (c := 1) hout
      simp only [work]
      omega

end Core

end Lidi.Receive
