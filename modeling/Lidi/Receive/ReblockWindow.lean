import Lidi.Core.Window
import Lidi.Receive.ReblockRun

set_option relaxedAutoImplicit false
set_option autoImplicit false

/-!
# The reblock worker as a reordering window

As long as no packet is taken for one of another block, the 256 slots of the reblock worker and its
8-bit numbers behave like a window over unbounded block numbers.

## Main definitions

* `Receive.Carries` — the packets in a batch of datagrams, with the numbers of their blocks.
* `Receive.Genuine` — a packet whose slot is in the window is of the block in the window.
* `Receive.Reblock.Open` — the open slots are a window, and the other slots are empty.
* `Receive.Sim` — the relation between a window and the worker.

## Main results

* `Receive.Sim.store`, `Receive.Sim.settles` — the two halves of the refinement.
* `Receive.processes_of_window` — what a window releases, the worker emits.
-/

namespace Lidi.Receive

open Function

variable {Packet : Type*} {crate : Crate Packet} {minNbPackets : ℕ} {w w' : Window Packet}
  {s s' : Reblock Packet} {datagrams : Datagrams} {batch : List (ℕ × Packet)}

/-- The batch of datagrams carries these packets, in this order. A packet carries the last 8 bits of
the number of its block. -/
structure Carries (crate : Crate Packet) (datagrams : Datagrams) (batch : List (ℕ × Packet)) :
    Prop where
  packets : datagrams.toList.mapM crate.deserialize = some (batch.map Prod.snd)
  numbers : ∀ a ∈ batch, crate.sourceBlockNumber a.2 = UInt8.ofNat a.1

/-- If the slot of the packet is in the window, so is its block. -/
def Genuine (w : Window Packet) (a : ℕ × Packet) : Prop :=
  (UInt8.ofNat a.1 - UInt8.ofNat w.next).toNat < windowWidth.toNat →
    w.Covers windowWidth.toNat a.1

/-- Whether datagrams carry a batch can be decided. -/
instance [DecidableEq Packet] : Decidable (Carries crate datagrams batch) :=
  decidable_of_iff (_ ∧ _) ⟨fun h => ⟨h.1, h.2⟩, fun h => ⟨h.packets, h.numbers⟩⟩

/-- Whether a packet is genuine can be decided. -/
instance (a : ℕ × Packet) : Decidable (Genuine w a) := by
  unfold Genuine
  infer_instance

/-- What the worker emits when a window releases a block. -/
def reassembled (b : ℕ × List Packet) : Reassembled Packet :=
  .block (UInt8.ofNat b.1) b.2

/-- The worker collects packets: the open slots are a window that starts at the current block, and
the other slots are empty. -/
structure Reblock.Open (s : Reblock Packet) : Prop where
  reset : s.reset = false
  open_iff : ∀ id, s.blocksIgnore id = false ↔ (id - s.curId).toNat < windowWidth.toNat
  empty : ∀ id, s.blocksIgnore id = true → s.blocksData id = []

/-- The worker behaves like the window. -/
structure Sim (w : Window Packet) (s : Reblock Packet) : Prop where
  opened : s.Open
  curId : s.curId = UInt8.ofNat w.next
  slots : ∀ n, w.Covers windowWidth.toNat n → s.blocksData (UInt8.ofNat n) = w.slots n
  beyond : ∀ n, w.next + windowWidth.toNat ≤ n → w.slots n = []

/-! ## Numbers modulo 256 -/

/-- The distance of two numbers. -/
lemma toNat_ofNat_sub {m n : ℕ} (h : m ≤ n) :
    (UInt8.ofNat n - UInt8.ofNat m).toNat = (n - m) % 256 := by
  simp only [UInt8.toNat_sub, UInt8.toNat_ofNat']
  omega

/-- Numbers that are less than 256 apart have different last 8 bits. -/
lemma ofNat_inj_of_lt {m n : ℕ} (hmn : m < n + 256) (hnm : n < m + 256)
    (h : UInt8.ofNat m = UInt8.ofNat n) : m = n := by
  have hnat := congrArg UInt8.toNat h
  simp only [UInt8.toNat_ofNat'] at hnat
  omega

/-- The slots of the window are open. -/
lemma toNat_sub_lt_of_covers {n : ℕ} (h : w.Covers windowWidth.toNat n) :
    (UInt8.ofNat n - UInt8.ofNat w.next).toNat < windowWidth.toNat := by
  have hwidth : windowWidth.toNat = 127 := rfl
  obtain ⟨hle, hlt⟩ := h
  rw [toNat_ofNat_sub hle]
  omega

/-- Only the number of the current block matters. -/
lemma Genuine.congr {a : ℕ × Packet} (h : w.next = w'.next) : Genuine w a ↔ Genuine w' a := by
  simp only [Genuine, Window.Covers, h]

/-- A packet that is close to the window is not taken for another one. -/
lemma Genuine.of_close {a : ℕ × Packet} (h : w.Close windowWidth.toNat a) : Genuine w a := by
  have hwidth : windowWidth.toNat = 127 := rfl
  obtain ⟨hlt, hle⟩ := h
  intro hopen
  simp only [UInt8.toNat_sub, UInt8.toNat_ofNat'] at hopen
  constructor <;> omega

/-- A packet goes to the slot of a block of the window if it is of that block. -/
lemma Genuine.slot_iff {a : ℕ × Packet} (h : Genuine w a) {n : ℕ}
    (hn : w.Covers windowWidth.toNat n) : UInt8.ofNat a.1 = UInt8.ofNat n ↔ a.1 = n := by
  refine ⟨fun heq => ?_, fun heq => by rw [heq]⟩
  have hwidth : windowWidth.toNat = 127 := rfl
  have hopen := toNat_sub_lt_of_covers hn
  rw [← heq] at hopen
  obtain ⟨hle, hlt⟩ := h hopen
  obtain ⟨hle', hlt'⟩ := hn
  exact ofNat_inj_of_lt (by omega) (by omega) heq

/-! ## The slots of the worker -/

namespace Reblock

/-- The worker after it has emitted the current block. -/
def release (s : Reblock Packet) : Reblock Packet := { s with
  blocksData := update s.blocksData s.curId []
  blocksIgnore := update (update s.blocksIgnore s.curId true) (s.curId + windowWidth) false
  curId := s.curId + 1 }

/-- The packets of a batch that are put into an open slot, if the slot is the right one for each of
them. -/
lemma acceptances_eq {n : ℕ} (hopen : s.blocksIgnore (UInt8.ofNat n) = false)
    (hc : Carries crate datagrams batch)
    (hslot : ∀ a ∈ batch, UInt8.ofNat a.1 = UInt8.ofNat n ↔ a.1 = n) :
    (s.acceptances crate datagrams).filter (crate.sourceBlockNumber · = UInt8.ofNat n) =
      packetsOf batch n := by
  simp only [acceptances, hc.packets, List.filter_filter, List.filter_map, packetsOf]
  congr 1
  refine List.filter_congr fun a ha => ?_
  simp only [comp_apply, hc.numbers a ha, hslot a ha]
  by_cases heq : a.1 = n
  · simp [heq, hopen]
  · simp [heq]

/-- After storing a batch the worker looks at the current block. -/
lemma phase_store_of_carries (hc : Carries crate datagrams batch) :
    (s.store crate datagrams).phase = .loop := by
  simp only [store, hc.packets]

namespace Open

/-- What the worker is about to do does not matter. -/
lemma with_phase (h : s.Open) (phase : Reblocking) : ({ s with phase := phase } : Reblock _).Open :=
  ⟨h.reset, h.open_iff, h.empty⟩

/-- Storing a batch keeps the window. -/
lemma store (h : s.Open) (datagrams : Datagrams) : (s.store crate datagrams).Open := by
  obtain ⟨hcur, hreset, hignore⟩ := s.store_eq crate datagrams
  have hwf : (s.store crate datagrams).WellFormed := .store h.empty h.open_iff datagrams
  exact ⟨by rw [hreset, h.reset], by rw [hcur, hignore]; exact h.open_iff, hwf.empty⟩

/-- The slot at the other end of the window is empty. -/
lemma opposite_eq (h : s.Open) : s.blocksData (s.curId + windowWidth) = [] := by
  refine h.empty _ ?_
  have hiff := h.open_iff (s.curId + windowWidth)
  rw [UInt8.add_comm, UInt8.add_sub_cancel] at hiff
  rw [UInt8.add_comm]
  simpa using hiff

/-- So does emitting a block. -/
lemma release (h : s.Open) : s.release.Open := by
  refine ⟨h.reset, WellFormed.slide h.open_iff, fun id hid => ?_⟩
  show update s.blocksData s.curId [] id = []
  by_cases hcur : id = s.curId
  · rw [hcur, update_self]
  · rw [update_of_ne hcur]
    by_cases hopp : id = s.curId + windowWidth
    · rw [hopp]
      exact h.opposite_eq
    · refine h.empty id ?_
      simpa only [Reblock.release, update_of_ne hopp, update_of_ne hcur] using hid

/-- The current block lacks packets. -/
lemma emission_of_lt (hlen : (s.blocksData s.curId).length < minNbPackets) :
    s.emission minNbPackets = ({ s with phase := .recv }, []) :=
  if_neg (by omega)

/-- The current block has the packets it needs. -/
lemma emission_of_le (h : s.Open) (hlen : minNbPackets ≤ (s.blocksData s.curId).length) :
    s.emission minNbPackets = (s.release, [.block s.curId (s.blocksData s.curId)]) := by
  simp only [emission, if_pos hlen, update_of_ne s.opposite_ne, h.opposite_eq, List.isEmpty_nil,
    if_true]
  rfl

end Open

end Reblock

/-! ## Packets arriving -/

/-- **A batch arrives.** -/
theorem Sim.store (h : Sim w s) (hc : Carries crate datagrams batch)
    (hg : ∀ a ∈ batch, Genuine w a) :
    Sim (batch.foldl (Window.put windowWidth.toNat) w) (s.store crate datagrams) ∧
      (s.store crate datagrams).phase = .loop := by
  obtain ⟨hcur, -, -⟩ := s.store_eq crate datagrams
  refine ⟨⟨h.opened.store _, by rw [hcur, h.curId, Window.next_foldl_put], fun n hn => ?_,
    fun n hn => ?_⟩, Reblock.phase_store_of_carries hc⟩
  · have hn' : w.Covers windowWidth.toNat n := by simpa [Window.Covers] using hn
    have hopen : s.blocksIgnore (UInt8.ofNat n) = false := by
      rw [h.opened.open_iff, h.curId]
      exact toNat_sub_lt_of_covers hn'
    rw [Reblock.blocksData_store, h.slots n hn',
      Reblock.acceptances_eq hopen hc fun a ha => (hg a ha).slot_iff hn', Window.slots_foldl_put,
      if_pos hn']
  · rw [Window.next_foldl_put] at hn
    have hnot : ¬ w.Covers windowWidth.toNat n := by
      rintro ⟨-, hlt⟩
      omega
    rw [Window.slots_foldl_put, if_neg hnot, h.beyond n hn, List.append_nil]

/-! ## Blocks released -/

/-- The relation does not depend on what the worker is about to do. -/
lemma Sim.with_phase (h : Sim w s) (phase : Reblocking) : Sim w { s with phase := phase } :=
  ⟨h.opened.with_phase phase, h.curId, h.slots, h.beyond⟩

/-- A block is released. -/
lemma Sim.release (h : Sim w s) : Sim w.release s.release := by
  have hwidth : windowWidth.toNat = 127 := rfl
  have hnext : w.release.next = w.next + 1 := rfl
  refine ⟨h.opened.release, ?_, fun n hn => ?_, fun n hn => ?_⟩
  · show s.curId + 1 = _
    rw [hnext, h.curId, UInt8.ofNat_add]
    rfl
  · obtain ⟨hle, hlt⟩ := hn
    rw [hnext] at hle hlt
    have hne : n ≠ w.next := by omega
    have hid : UInt8.ofNat n ≠ s.curId := by
      rw [h.curId]
      intro heq
      exact hne (ofNat_inj_of_lt (by omega) (by omega) heq)
    show update s.blocksData s.curId [] (UInt8.ofNat n) = update w.slots w.next [] n
    rw [update_of_ne hid, update_of_ne hne]
    by_cases hlast : n < w.next + windowWidth.toNat
    · exact h.slots n ⟨by omega, hlast⟩
    · obtain rfl : n = w.next + windowWidth.toNat := by omega
      rw [h.beyond _ (by omega), UInt8.ofNat_add, UInt8.ofNat_toNat, ← h.curId]
      exact h.opened.opposite_eq
  · rw [hnext] at hn
    show update w.slots w.next [] n = []
    rw [update_of_ne (show n ≠ w.next by omega)]
    exact h.beyond n (by omega)

/-- The packets of the current block. -/
lemma Sim.current_eq (h : Sim w s) : s.blocksData s.curId = w.slots w.next := by
  have hwidth : windowWidth.toNat = 127 := rfl
  rw [h.curId]
  exact h.slots _ ⟨Nat.le_refl _, by omega⟩

/-- The current block lacks packets. -/
lemma Sim.emission_of_lt (h : Sim w s) (hlen : (w.slots w.next).length < minNbPackets) :
    s.emission minNbPackets = ({ s with phase := .recv }, []) := by
  rw [← h.current_eq] at hlen
  exact Reblock.Open.emission_of_lt hlen

/-- The current block has the packets it needs. -/
lemma Sim.emission_of_le (h : Sim w s) (hlen : minNbPackets ≤ (w.slots w.next).length) :
    s.emission minNbPackets = (s.release, [reassembled (w.next, w.slots w.next)]) := by
  rw [← h.current_eq] at hlen ⊢
  rw [h.opened.emission_of_le hlen, reassembled, ← h.curId]

variable (crate) in
/-- **What the window releases, the worker emits.** -/
theorem Sim.settles {out : List (ℕ × List Packet)} (h : Sim w s) (hp : s.phase = .loop)
    (hs : Window.Settles minNbPackets w out w') :
    ∃ s', Reblock.Settles crate minNbPackets s (out.map reassembled) s' ∧ Sim w' s' ∧
      s'.phase = .recv := by
  induction hs generalizing s with
  | done hlen =>
    have hnext := Reblock.next_loop crate minNbPackets hp
    rw [h.emission_of_lt hlen] at hnext
    exact ⟨{ s with phase := .recv }, .proceed hnext (.waiting rfl), h.with_phase _, rfl⟩
  | release hlen _ ih =>
    have hnext := Reblock.next_loop crate minNbPackets hp
    rw [h.emission_of_le hlen] at hnext
    obtain ⟨s', hs', hsim', hp'⟩ := ih h.release hp
    exact ⟨s', .proceed hnext hs', hsim', hp'⟩

/-! ## Whole sequences of batches -/

/-- The worker handles a sequence of batches like the window. -/
theorem Sim.processes {ok : Window Packet → ℕ × Packet → Prop}
    (hok : ∀ (w : Window Packet) a, ok w a → Genuine w a) {batches : List (List (ℕ × Packet))}
    {datagrams : List Datagrams} (hc : List.Forall₂ (Carries crate) datagrams batches)
    {out : List (ℕ × List Packet)} (h : Sim w s) (hp : s.phase = .recv)
    (hs : Window.Processes windowWidth.toNat minNbPackets ok w batches out w') :
    ∃ s', Reblock.Processes crate minNbPackets s datagrams (out.map reassembled) s' ∧ Sim w' s' ∧
      s'.phase = .recv := by
  induction hs generalizing s datagrams with
  | nil =>
    cases hc
    exact ⟨s, .nil, h, hp⟩
  | cons hbatch hsettles _ ih =>
    cases hc with
    | @cons ds _ datagrams _ hcarries hc =>
      obtain ⟨hstored, hloop⟩ := h.store hcarries fun a ha => hok _ a (hbatch a ha)
      obtain ⟨t, hst, ht, hpt⟩ := hstored.settles crate hloop hsettles
      obtain ⟨s', hs', hsim', hp'⟩ := ih hc ht hpt
      refine ⟨s', ?_, hsim', hp'⟩
      have hnext : Reblock.next crate minNbPackets s (.datagrams ds) =
          some (s.store crate ds, Reblock.acceptedEvents crate (s.acceptances crate ds)) := by
        simp [Reblock.next, hp, Reblock.onDatagrams, h.opened.reset]
      rw [List.map_append]
      exact .cons hnext hst hs'

/-- The state in which the packets of the first batch after a reset are stored. -/
lemma Sim.start (hr : s.reset = false) {n : ℕ} (hcur : s.curId = UInt8.ofNat n)
    (hdata : ∀ id, s.blocksData id = []) (hignore : ∀ id, s.blocksIgnore id = true) :
    Sim (.init Packet n) s.openWindow where
  opened := ⟨hr, Reblock.WellFormed.openWindow_live hignore, fun id _ => hdata id⟩
  curId := hcur
  slots _ _ := hdata _
  beyond _ _ := rfl

variable (minNbPackets) in
/-- **After a reset** the first batch opens an empty window that starts at the block of its first
packet. -/
theorem exists_next_of_reset {a : ℕ × Packet} (hp : s.phase = .recv) (hr : s.reset = true)
    (hc : Carries crate datagrams (a :: batch)) :
    ∃ t, Reblock.next crate minNbPackets s (.datagrams datagrams) = some (t, [.cleared]) ∧
      t.phase = .publish datagrams ∧ Sim (.init Packet a.1) t.openWindow := by
  have hpackets := hc.packets
  have hfirst : datagrams.toList.head?.bind crate.deserialize = some a.2 := by
    cases hds : datagrams.toList with
    | nil => simp [hds] at hpackets
    | cons d rest =>
      simp only [hds, List.mapM_cons, List.map_cons, bind, Option.bind_eq_some_iff] at hpackets
      obtain ⟨b, hb, bs, -, hcons⟩ := hpackets
      simp only [pure, Option.some.injEq, List.cons.injEq] at hcons
      rw [List.head?_cons, Option.bind_some, hb, hcons.1]
  refine ⟨s.resync crate datagrams, ?_, ?_, ?_⟩
  · simp [Reblock.next, hp, hr, Reblock.onDatagrams]
  · simp [Reblock.resync, hfirst]
  · simp only [Reblock.resync, hfirst]
    exact .start rfl (hc.numbers a List.mem_cons_self) (fun _ => rfl) fun _ => rfl

/-- **After a reset the worker handles a sequence of batches like an empty window** that starts at
the block of the first packet. -/
theorem processes_of_window {ok : Window Packet → ℕ × Packet → Prop}
    (hok : ∀ (w : Window Packet) a, ok w a → Genuine w a) {a : ℕ × Packet}
    {batches : List (List (ℕ × Packet))} {datagrams : List Datagrams}
    (hc : List.Forall₂ (Carries crate) datagrams ((a :: batch) :: batches))
    {out : List (ℕ × List Packet)} (hr : s.reset = true) (hp : s.phase = .recv)
    (hs : Window.Processes windowWidth.toNat minNbPackets ok (.init Packet a.1)
      ((a :: batch) :: batches) out w') :
    ∃ s', Reblock.Processes crate minNbPackets s datagrams (out.map reassembled) s' ∧ Sim w' s' ∧
      s'.phase = .recv := by
  cases hc with
  | cons hcarries hc =>
  cases hs with
  | cons hbatch hsettles hrest =>
  obtain ⟨t, hnext, hphase, hopened⟩ := exists_next_of_reset minNbPackets hp hr hcarries
  obtain ⟨hstored, hloop⟩ := (hopened.with_phase (.wake _)).store hcarries fun b hb =>
    hok _ b (hbatch b hb)
  obtain ⟨u, hsu, hu, hpu⟩ := hstored.settles crate hloop hsettles
  obtain ⟨s', hs', hsim', hp'⟩ := hu.processes hok hc hpu hrest
  refine ⟨s', ?_, hsim', hp'⟩
  have hwake :=
    Reblock.Settles.proceed (Reblock.next_wake (s := { t with phase := .wake _ }) rfl) hsu
  have hpublish := Reblock.Settles.proceed (Reblock.next_publish hphase) hwake
  have hsettled := Reblock.Processes.cons hnext hpublish hs'
  simpa [Reblock.acceptedEvents] using hsettled

end Lidi.Receive
