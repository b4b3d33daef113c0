import Lidi.Receive.ReblockWindow

set_option relaxedAutoImplicit false
set_option autoImplicit false

/-!
# The reblock worker across resets

The packets of a stream of numbered blocks arrive, some of them never, and the reset timeout fires
at any moment. The first packet after a timeout decides at which block the worker goes on. As long
as no packet is taken for one of another block, the packets that the worker collects for a block
are of that block.

## Main definitions

* `Receive.Tracks` — the worker waits for the block with a given number, and has collected packets
  of the blocks from that number on.

## Main results

* `Receive.Tracks.resync`, `Receive.Tracks.arrive`, `Receive.Tracks.wake`,
  `Receive.Tracks.emission` — the steps of the worker keep the relation.
-/

namespace Lidi.Receive

open Function

variable {Packet : Type*} {crate : Crate Packet} {minNbPackets : ℕ} {s : Reblock Packet}
  {w : Window Packet} {datagrams : Datagrams} {batch : List (ℕ × Packet)}
  {good good' : ℕ → Packet → Prop} {e : ℕ}

/-- The packets collected in a window are good ones for their blocks. -/
def WellSorted (good : ℕ → Packet → Prop) (w : Window Packet) : Prop :=
  ∀ n, ∀ p ∈ w.slots n, good n p

/-- Block `e` is the current one, and the packets in the slots are good ones for their blocks. While
the worker is about to reset, no block is. -/
inductive Tracks (crate : Crate Packet) (good : ℕ → Packet → Prop) (e : ℕ) (s : Reblock Packet) :
    Prop
  | resetting (hp : s.phase = .recv) (hr : s.reset = true)
  | opening {datagrams : Datagrams} {batch : List (ℕ × Packet)}
      (hphase : s.phase = .publish datagrams ∨ s.phase = .wake datagrams)
      (hcarries : Carries crate datagrams batch)
      (hgenuine : ∀ a ∈ batch, Genuine (.init Packet e) a) (hgood : ∀ a ∈ batch, good a.1 a.2)
      (hsim : Sim (.init Packet e) s.openWindow)
  | live {w : Window Packet} (hphase : s.phase = .loop ∨ s.phase = .recv) (hsim : Sim w s)
      (hnext : w.next = e) (hgood : WellSorted good w)

namespace WellSorted

/-- Nothing has been collected. -/
lemma init (n : ℕ) : WellSorted good (.init Packet n) := by
  intro n p hp
  cases hp

/-- Good packets arrive. -/
lemma foldl_put (h : WellSorted good w) (hbatch : ∀ a ∈ batch, good a.1 a.2) (width : ℕ) :
    WellSorted good (batch.foldl (Window.put width) w) := by
  intro n p hp
  rw [Window.slots_foldl_put, List.mem_append] at hp
  rcases hp with hp | hp
  · exact h n p hp
  · split at hp
    · obtain ⟨a, ha, rfl⟩ := List.mem_map.mp hp
      obtain ⟨hmem, hn⟩ := List.mem_filter.mp ha
      obtain rfl : a.1 = n := by simpa using hn
      exact hbatch a hmem
    · cases hp

/-- A block is released. -/
lemma release (h : WellSorted good w) : WellSorted good w.release := by
  intro n p hp
  change p ∈ update w.slots w.next [] n at hp
  by_cases hn : n = w.next
  · rw [hn, update_self] at hp
    cases hp
  · rw [update_of_ne hn] at hp
    exact h n p hp

end WellSorted

namespace Tracks

/-- The invariant holds at the start. -/
lemma init (crate : Crate Packet) (good : ℕ → Packet → Prop) (e : ℕ) :
    Tracks crate good e (.init Packet) :=
  .resetting rfl rfl

/-- More packets may become good. -/
lemma mono (h : Tracks crate good e s) (himp : ∀ n p, good n p → good' n p) :
    Tracks crate good' e s := by
  cases h with
  | resetting hp hr => exact .resetting hp hr
  | opening hphase hcarries hgenuine hgood hsim =>
    exact .opening hphase hcarries hgenuine (fun a ha => himp _ _ (hgood a ha)) hsim
  | live hphase hsim hnext hgood =>
    exact .live hphase hsim hnext fun n p hp => himp n p (hgood n p hp)

/-- While a window is open or about to be, the worker has the number of the current block. -/
lemma curId_eq (h : Tracks crate good e s) (hr : s.reset = false) : s.curId = UInt8.ofNat e := by
  cases h with
  | resetting hp hr' => simp [hr] at hr'
  | opening hphase hcarries hgenuine hgood hsim => exact hsim.curId
  | live hphase hsim hnext hgood => rw [hsim.curId, hnext]

/-- While a window is open or about to be, no reset is pending. -/
lemma reset_eq (h : Tracks crate good e s) (hp : s.phase ≠ .recv) : s.reset = false := by
  cases h with
  | resetting hp' hr => exact absurd hp' hp
  | opening hphase hcarries hgenuine hgood hsim => exact hsim.opened.reset
  | live hphase hsim hnext hgood => exact hsim.opened.reset

/-- **The first packets after a reset** are of the block of the first of them, or of later ones. -/
theorem resync {a : ℕ × Packet} (hp : s.phase = .recv) (hr : s.reset = true)
    (hcarries : Carries crate datagrams (a :: batch))
    (hgenuine : ∀ b ∈ a :: batch, Genuine (.init Packet a.1) b)
    (hgood : ∀ b ∈ a :: batch, good b.1 b.2) :
    Tracks crate good a.1 (s.onDatagrams crate datagrams) := by
  obtain ⟨t, hnext, hphase, hsim⟩ := exists_next_of_reset 0 hp hr hcarries
  simp only [Reblock.next, hp, if_true, Option.some.injEq, Prod.mk.injEq] at hnext
  rw [hnext.1]
  exact .opening (.inl hphase) hcarries hgenuine hgood hsim

/-- **Packets arrive.** -/
theorem arrive (h : Tracks crate good e s) (hr : s.reset = false) (hp : s.phase = .recv)
    (hcarries : Carries crate datagrams batch) (hgenuine : ∀ b ∈ batch, Genuine (.init Packet e) b)
    (hgood : ∀ b ∈ batch, good b.1 b.2) : Tracks crate good e (s.onDatagrams crate datagrams) := by
  cases h with
  | resetting hp' hr' => simp [hr] at hr'
  | opening hphase => rcases hphase with hph | hph <;> simp [hp] at hph
  | @live w hphase hsim hnext hslots =>
    have hg : ∀ b ∈ batch, Genuine w b := fun b hb => by
      rw [Genuine.congr (show w.next = (Window.init Packet e).next from hnext)]
      exact hgenuine b hb
    obtain ⟨hstored, hloop⟩ := hsim.store hcarries hg
    rw [Reblock.onDatagrams, if_neg (by simp [hr])]
    exact .live (.inl hloop) hstored (by rw [Window.next_foldl_put, hnext])
      (hslots.foldl_put hgood _)

/-- The number of the current block is written. -/
lemma publish (h : Tracks crate good e s) (hp : s.phase = .publish datagrams) :
    Tracks crate good e { s with phase := .wake datagrams } := by
  cases h with
  | resetting hp' => simp [hp] at hp'
  | opening hphase hcarries hgenuine hgood hsim =>
    rcases hphase with hph | hph
    · rw [hp] at hph
      cases hph
      exact .opening (.inr rfl) hcarries hgenuine hgood (hsim.with_phase _)
    · simp [hp] at hph
  | live hphase => rcases hphase with hph | hph <;> simp [hp] at hph

/-- **The window opens**, and the first packets are put into their slots. -/
theorem wake (h : Tracks crate good e s) (hp : s.phase = .wake datagrams) :
    Tracks crate good e (s.openWindow.store crate datagrams) := by
  cases h with
  | resetting hp' => simp [hp] at hp'
  | opening hphase hcarries hgenuine hgood hsim =>
    rcases hphase with hph | hph
    · simp [hp] at hph
    · rw [hp] at hph
      cases hph
      obtain ⟨hstored, hloop⟩ := hsim.store hcarries hgenuine
      exact .live (.inl hloop) hstored (by rw [Window.next_foldl_put]; rfl)
        ((WellSorted.init e).foldl_put hgood _)
  | live hphase => rcases hphase with hph | hph <;> simp [hp] at hph

variable (minNbPackets) in
/-- **The current block is looked at.** It lacks packets, or it is emitted with good packets. -/
theorem emission (h : Tracks crate good e s) (hp : s.phase = .loop) :
    (s.emission minNbPackets = ({ s with phase := .recv }, []) ∧
      Tracks crate good e { s with phase := .recv }) ∨
    ∃ packets, s.emission minNbPackets = (s.release, [.block (UInt8.ofNat e) packets]) ∧
      (∀ p ∈ packets, good e p) ∧ Tracks crate good (e + 1) s.release := by
  cases h with
  | resetting hp' => simp [hp] at hp'
  | opening hphase => rcases hphase with hph | hph <;> simp [hp] at hph
  | @live w hphase hsim hnext hslots =>
    subst hnext
    by_cases hlen : (w.slots w.next).length < minNbPackets
    · exact .inl ⟨hsim.emission_of_lt hlen, .live (.inr rfl) (hsim.with_phase _) rfl hslots⟩
    · exact .inr ⟨w.slots w.next, hsim.emission_of_le (by omega), hslots w.next,
        .live (.inl hp) hsim.release rfl hslots.release⟩

end Tracks

end Lidi.Receive
