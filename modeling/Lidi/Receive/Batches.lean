import Lidi.Core.InOrder
import Lidi.Receive.ReblockWindow

set_option relaxedAutoImplicit false
set_option autoImplicit false

/-!
# Batches of datagrams

Datagrams may be received in batches. The reblock worker drops the packets of a batch whose slots
are ignored when the batch arrives, and only then emits blocks and opens further slots. So a batch
that reaches beyond the window loses packets that would not have been lost one by one.

## Main definitions

* `Receive.Reassembles` — the worker emits all blocks, in order and with enough packets each.
* `Receive.Doomed` — the invariant after too many packets of one block have been dropped: some block
  that has not been emitted can no longer get the packets it needs from its own packets alone.

## Main results

* `Receive.Doomed.processes` — not all blocks will be emitted.
* `Receive.reassembles_iff_fits` — all blocks are emitted if and only if no batch reaches too far.
-/

namespace Lidi.Receive

open Function

variable {Packet : Type*} {crate : Crate Packet}
  {minNbPackets size first count pos lost e x : ℕ} {w w' : Window Packet}
  {s s' u : Reblock Packet} {datagrams : Datagrams} {batches : List Datagrams}
  {batch arrivals : List (ℕ × Packet)} {out out' : List (Reassembled Packet)}

/-- From the datagrams the worker emits exactly the blocks `first`, `first + 1` and so on, `count`
of them, each with as many of its packets as are needed. -/
def Reassembles (crate : Crate Packet) (minNbPackets first count : ℕ)
    (arrivals : List (ℕ × Packet)) (batches : List Datagrams) : Prop :=
  ∃ blocks : List (ℕ × List Packet), blocks.map Prod.fst = List.range' first count ∧
    (∀ b ∈ blocks, minNbPackets ≤ b.2.length ∧ (b.2).Sublist (packetsOf arrivals b.1)) ∧
    ∃ s, Reblock.Processes crate minNbPackets (.init Packet) batches (blocks.map reassembled) s

/-! ## Steps of the worker -/

namespace Reblock

/-- A worker that proceeds has not settled before. -/
lemma Settles.of_next {t : Reblock Packet} {events : List (Event Packet)}
    (h : Settles crate minNbPackets s out u)
    (hs : next crate minNbPackets s .proceed = some (t, events)) :
    ∃ rest, out = emittedOf events ++ rest ∧ Settles crate minNbPackets t rest u := by
  cases h with
  | waiting hp =>
    rw [next_of_recv hp] at hs
    cases hs
  | proceed hs' h' =>
    rw [hs, Option.some.injEq, Prod.mk.injEq] at hs'
    obtain ⟨rfl, rfl⟩ := hs'
    exact ⟨_, rfl, h'⟩

/-- The rule for loops of emissions: what holds when the worker looks at the current block, and
still holds after it has emitted it, holds when it has settled. -/
lemma Settles.induction {P : ℕ → Reblock Packet → Prop}
    (hopened : ∀ k (t : Reblock Packet), P k t → t.Open)
    (hphase : ∀ k (t : Reblock Packet) phase, P k t → P k { t with phase := phase })
    (hrelease : ∀ k (t : Reblock Packet), P k t →
      minNbPackets ≤ (t.blocksData t.curId).length → P (k + 1) t.release)
    {k : ℕ} (h : Settles crate minNbPackets s out u) (hloop : s.phase = .loop) (hP : P k s) :
    P (k + out.length) u ∧ u.phase = .recv ∧ (u.blocksData u.curId).length < minNbPackets := by
  induction h generalizing k with
  | waiting hp =>
    rw [hloop] at hp
    cases hp
  | @proceed s t u events out hs h ih =>
    rw [next_loop _ _ hloop, Option.some.injEq, Prod.mk.injEq] at hs
    obtain ⟨rfl, rfl⟩ := hs
    by_cases hlen : (s.blocksData s.curId).length < minNbPackets
    · rw [Open.emission_of_lt hlen] at h ⊢
      cases h with
      | waiting hp => exact ⟨hphase k s .recv hP, rfl, hlen⟩
      | proceed hs _ =>
        rw [next_of_recv rfl] at hs
        cases hs
    · have hle : minNbPackets ≤ (s.blocksData s.curId).length := by omega
      rw [(hopened k s hP).emission_of_le hle] at ih ⊢
      obtain ⟨hu, hp, hinc⟩ := ih hloop (hrelease k s hP hle)
      refine ⟨?_, hp, hinc⟩
      have hcount : k + (emittedOf ([.block s.curId (s.blocksData s.curId)].map .emitted) ++
          out).length = k + 1 + out.length := by
        rw [emittedOf_map_emitted, List.length_append, List.length_singleton]
        omega
      rwa [hcount]

/-- If no packets are needed, the worker never stops emitting blocks. -/
lemma Settles.min_pos (h : Settles crate minNbPackets s out u) (hloop : s.phase = .loop)
    (hopen : s.Open) : 0 < minNbPackets := by
  obtain ⟨-, -, hlen⟩ := h.induction (P := fun _ t => t.Open) (k := 0) (fun _ _ ht => ht)
    (fun _ _ phase ht => ht.with_phase phase) (fun _ _ ht _ => ht.release) hloop hopen
  omega

end Reblock

/-! ## Blocks that lack packets for good -/

/-- The worker waits for the block `first + e` after `pos` packets of the stream, and the block
`first + x` cannot get the packets it needs: those in its slot and those still to come are too
few. -/
structure Doomed (minNbPackets size first count pos e x : ℕ) (s : Reblock Packet) : Prop where
  opened : s.Open
  curId : s.curId = UInt8.ofNat (first + e)
  le : e ≤ x
  begun : x * size ≤ pos
  lt : x < count
  short : (if x < e + windowWidth.toNat then (s.blocksData (UInt8.ofNat (first + x))).length
    else 0) + (size - (pos - x * size)) < minNbPackets

namespace Doomed

/-- The phase of the worker does not matter. -/
lemma with_phase (h : Doomed minNbPackets size first count pos e x s) (phase : Reblocking) :
    Doomed minNbPackets size first count pos e x { s with phase := phase } :=
  ⟨h.opened.with_phase phase, h.curId, h.le, h.begun, h.lt, h.short⟩

/-- The slot of the block is not the current one, or it is not full. -/
lemma release (h : Doomed minNbPackets size first count pos e x s)
    (hlen : minNbPackets ≤ (s.blocksData s.curId).length) :
    Doomed minNbPackets size first count pos (e + 1) x s.release := by
  have hwidth : windowWidth.toNat = 127 := rfl
  have hshort := h.short
  have hle := h.le
  have hne : x ≠ e := by
    rintro rfl
    rw [if_pos (by omega), ← h.curId] at hshort
    omega
  refine ⟨h.opened.release, ?_, by omega, h.begun, h.lt, ?_⟩
  · show s.curId + 1 = _
    rw [h.curId, ← Nat.add_assoc, UInt8.ofNat_add (first + e)]
    rfl
  · show (if x < e + 1 + windowWidth.toNat then
      (update s.blocksData s.curId [] (UInt8.ofNat (first + x))).length else 0) + _ < _
    by_cases hin : x < e + windowWidth.toNat
    · have hid : UInt8.ofNat (first + x) ≠ s.curId := by
        rw [h.curId]
        intro heq
        have := ofNat_inj_of_lt (by omega) (by omega) heq
        omega
      rw [if_pos hin] at hshort
      rw [if_pos (by omega), update_of_ne hid]
      exact hshort
    · rw [if_neg hin] at hshort
      by_cases hnew : x < e + 1 + windowWidth.toNat
      · -- The slot has just been opened.
        have hopp : UInt8.ofNat (first + x) = s.curId + windowWidth := by
          obtain rfl : x = e + windowWidth.toNat := by omega
          rw [h.curId, ← Nat.add_assoc, UInt8.ofNat_add (first + e), UInt8.ofNat_toNat]
        rw [if_pos hnew, hopp, update_of_ne s.opposite_ne, h.opened.opposite_eq]
        exact hshort
      · rw [if_neg hnew]
        exact hshort

/-- A batch arrives. If it brings packets of other blocks to the slot of the block, then the first
block beyond the window is one that lacks packets for good. -/
lemma store (h : Doomed minNbPackets size first count pos e x s) (hsize : 0 < size)
    (hcarries : Carries crate datagrams batch) (hin : InOrder first size pos batch)
    (hend : pos + batch.length ≤ count * size) :
    ∃ y, Doomed minNbPackets size first count (pos + batch.length) e y
      (s.store crate datagrams) := by
  have hwidth : windowWidth.toNat = 127 := rfl
  obtain ⟨hcur, -, -⟩ := s.store_eq crate datagrams
  have hopened : (s.store crate datagrams).Open := h.opened.store datagrams
  have hcurId : (s.store crate datagrams).curId = UInt8.ofNat (first + e) := by rw [hcur, h.curId]
  have hshort := h.short
  have hle := h.le
  have hbegun := h.begun
  by_cases hclosed : e + windowWidth.toNat ≤ x
  · refine ⟨x, hopened, hcurId, hle, by omega, h.lt, ?_⟩
    rw [if_neg (by omega)] at hshort ⊢
    omega
  by_cases halias : ∃ a ∈ batch, first + x + 256 ≤ a.1
  · obtain ⟨a, ha, hfar⟩ := halias
    obtain ⟨i, -, hi, hai⟩ := hin.exists_of_mem ha
    have hmul : (e + 128) * size ≤ i / size * size := Nat.mul_le_mul_right size (by omega)
    have hdiv := Nat.div_mul_le_self i size
    have hsplit : (e + 128) * size = (e + windowWidth.toNat) * size + size := by
      rw [hwidth, ← Nat.succ_mul]
    have hlt : e + windowWidth.toNat < count :=
      Nat.lt_of_mul_lt_mul_right (show (e + windowWidth.toNat) * size < count * size by omega)
    refine ⟨e + windowWidth.toNat, hopened, hcurId, by omega, by omega, hlt, ?_⟩
    rw [if_neg (by omega)]
    omega
  · refine ⟨x, hopened, hcurId, hle, by omega, h.lt, ?_⟩
    have hslot : ∀ a ∈ batch, UInt8.ofNat a.1 = UInt8.ofNat (first + x) ↔ a.1 = first + x := by
      intro a ha
      refine ⟨fun heq => ?_, fun heq => by rw [heq]⟩
      obtain ⟨i, hi, -, hai⟩ := hin.exists_of_mem ha
      have hx : x ≤ i / size := (Nat.le_div_iff_mul_le hsize).mpr (by omega)
      have hnear : a.1 < first + x + 256 := by
        by_contra hfar
        exact halias ⟨a, ha, by omega⟩
      exact ofNat_inj_of_lt hnear (by omega) heq
    have hopen : s.blocksIgnore (UInt8.ofNat (first + x)) = false := by
      rw [h.opened.open_iff, h.curId, toNat_ofNat_sub (by omega)]
      omega
    have hcount := hin.length_packetsOf hsize x
    simp only [countAt] at hcount
    rw [if_pos (by omega)] at hshort ⊢
    rw [Reblock.blocksData_store, Reblock.acceptances_eq hopen hcarries hslot, List.length_append]
    omega

/-- **Not all blocks will be emitted.** -/
theorem processes (h : Doomed minNbPackets size first count pos e x s) (hsize : 0 < size)
    (hphase : s.phase = .recv) {packets : List (List (ℕ × Packet))}
    (hcarries : List.Forall₂ (Carries crate) batches packets)
    (hin : InOrder first size pos packets.flatten)
    (hend : pos + packets.flatten.length ≤ count * size)
    (hs : Reblock.Processes crate minNbPackets s batches out s') :
    e + out.length < count := by
  induction hs generalizing pos e x packets with
  | nil =>
    have hle := h.le
    have hlt := h.lt
    rw [List.length_nil]
    omega
  | @cons s t u s' ds batches events out out' hnext hsettles _ ih =>
    cases hcarries with
    | @cons _ batch _ packets hbatch hrest =>
    rw [List.flatten_cons, InOrder.append_iff] at hin
    rw [List.flatten_cons, List.length_append] at hend
    simp only [Reblock.next, if_pos hphase, Reblock.onDatagrams, h.opened.reset, Option.some.injEq,
      Prod.mk.injEq, Bool.false_eq_true, if_false] at hnext
    obtain ⟨rfl, -⟩ := hnext
    obtain ⟨y, hstored⟩ := h.store hsize hbatch hin.1 (by omega)
    have hloop := Reblock.phase_store_of_carries (s := s) hbatch
    obtain ⟨hu, hp, -⟩ := hsettles.induction
      (P := fun k t => Doomed minNbPackets size first count (pos + batch.length) k y t)
      (fun _ _ ht => ht.opened) (fun _ _ phase ht => ht.with_phase phase)
      (fun _ _ ht hlen => ht.release hlen) hloop hstored
    have := ih hu hp hrest hin.2 (by omega)
    rw [List.length_append]
    omega

/-- A batch that reaches too far: the first block beyond the window lacks packets for good. -/
lemma start (hsim : Sim w s) (hstep : Window.InStep size minNbPackets first pos lost w)
    (hmin : 0 < minNbPackets) (hle : minNbPackets ≤ size)
    (hend : pos + batch.length ≤ count * size)
    (hfar : (Window.currentAt size minNbPackets pos lost + windowWidth.toNat) * size +
      (size - minNbPackets) < pos + batch.length) :
    Doomed minNbPackets size first count (pos + batch.length)
      (Window.currentAt size minNbPackets pos lost)
      (Window.currentAt size minNbPackets pos lost + windowWidth.toNat)
      (s.store crate datagrams) := by
  obtain ⟨hcur, -, -⟩ := s.store_eq crate datagrams
  refine ⟨hsim.opened.store datagrams, by rw [hcur, hsim.curId, hstep.next_eq], by omega, by omega,
    ?_, ?_⟩
  · exact Nat.lt_of_mul_lt_mul_right (a := size) (by omega)
  · rw [if_neg (by omega)]
    omega

end Doomed

/-! ## Batches that do not fit -/

section NotFits

variable {packets : List (List (ℕ × Packet))}

/-- If a batch reaches too far, not all blocks will be emitted. -/
lemma length_lt_of_far (hsize : 0 < size) (hle : minNbPackets ≤ size) (hsim : Sim w s)
    (hstep : Window.InStep size minNbPackets first pos lost w)
    (hcarries : Carries crate datagrams batch)
    (hrest : List.Forall₂ (Carries crate) batches packets)
    (hin : InOrder first size pos (batch ++ packets.flatten))
    (hend : pos + (batch ++ packets.flatten).length ≤ count * size)
    (hsettles : Reblock.Settles crate minNbPackets (s.store crate datagrams) out u)
    (hs : Reblock.Processes crate minNbPackets u batches out' s')
    (hfar : (Window.currentAt size minNbPackets pos lost + windowWidth.toNat) * size +
      (size - minNbPackets) < pos + batch.length) :
    Window.currentAt size minNbPackets pos lost + (out ++ out').length < count := by
  have hloop := Reblock.phase_store_of_carries (s := s) hcarries
  have hmin := hsettles.min_pos hloop (hsim.opened.store _)
  rw [InOrder.append_iff] at hin
  rw [List.length_append] at hend ⊢
  have hdoomed : Doomed minNbPackets size first count (pos + batch.length) _ _
      (s.store crate datagrams) := .start hsim hstep hmin hle (by omega) hfar
  obtain ⟨hu, hp, -⟩ := hsettles.induction
    (P := fun k t => Doomed minNbPackets size first count (pos + batch.length) k _ t)
    (fun _ _ ht => ht.opened) (fun _ _ phase ht => ht.with_phase phase)
    (fun _ _ ht hlen => ht.release hlen) hloop hdoomed
  have := hu.processes hsize hp hrest hin.2 (by omega) hs
  omega

/-- **If some batch reaches too far, not all blocks will be emitted.** The first of the batches is
about to be stored.

**Proof sketch.** Up to the first batch that reaches too far the worker behaves like a window in
step with the stream; from there on some block is doomed. -/
theorem length_lt_of_not_fits (hsize : 0 < size) (hle : minNbPackets ≤ size) (hsim : Sim w s)
    (hstep : Window.InStep size minNbPackets first pos lost w)
    (hcarries : Carries crate datagrams batch)
    (hrest : List.Forall₂ (Carries crate) batches packets)
    (hin : InOrder first size pos (batch ++ packets.flatten))
    (hend : pos + (batch ++ packets.flatten).length ≤ count * size)
    (hsettles : Reblock.Settles crate minNbPackets (s.store crate datagrams) out u)
    (hs : Reblock.Processes crate minNbPackets u batches out' s')
    (hfits : ¬ Window.Fits windowWidth.toNat size minNbPackets pos lost
      ((batch :: packets).map List.length)) :
    Window.currentAt size minNbPackets pos lost + (out ++ out').length < count := by
  have hwidth : windowWidth.toNat = 127 := rfl
  induction packets generalizing pos lost w s datagrams batch batches out u out' with
  | nil =>
    refine length_lt_of_far hsize hle hsim hstep hcarries hrest hin hend hsettles hs ?_
    have hmin := hsettles.min_pos (Reblock.phase_store_of_carries hcarries) (hsim.opened.store _)
    by_contra hfit
    exact hfits ⟨hmin, by omega, trivial⟩
  | cons batch' packets ih =>
    by_cases hfit : pos + batch.length ≤
        (Window.currentAt size minNbPackets pos lost + windowWidth.toNat) * size +
          (size - minNbPackets)
    · have hloop := Reblock.phase_store_of_carries (s := s) hcarries
      have hmin := hsettles.min_pos hloop (hsim.opened.store _)
      rw [InOrder.append_iff] at hin
      obtain ⟨blocks, w', hw, hstep'⟩ := hstep.step hmin hle (show 0 < windowWidth.toNat by omega)
        hin.1 hfit
      obtain ⟨hstored, -⟩ := hsim.store hcarries fun a ha =>
        .of_close (hstep.close hmin hle (by omega) hin.1 hfit ha)
      obtain ⟨u', hu', hsim', hp'⟩ := hstored.settles crate hloop hw
      obtain ⟨rfl, rfl⟩ := hsettles.unique hu'
      cases hrest with
      | cons hcarries' hrest' =>
      cases hs with
      | cons hnext hsettles' hs' =>
      simp only [Reblock.next, if_pos hp', Reblock.onDatagrams, hsim'.opened.reset,
        Option.some.injEq, Prod.mk.injEq, Bool.false_eq_true, if_false] at hnext
      obtain ⟨rfl, -⟩ := hnext
      rw [List.length_append, List.flatten_cons] at hend
      have hlt := ih hsim' hstep' hcarries' hrest' hin.2 (by omega) hsettles' hs'
        fun hfits' => hfits ⟨hmin, hfit, hfits'⟩
      have hcount : blocks.length = w'.next - w.next := by
        rw [hw.spec.out_eq, List.length_map, List.length_range', Window.next_foldl_put]
      have hmono := hw.spec.le
      rw [Window.next_foldl_put] at hmono
      rw [hstep.next_eq, hstep'.next_eq] at hcount hmono
      rw [List.length_append, List.length_map, hcount]
      omega
    · exact length_lt_of_far hsize hle hsim hstep hcarries hrest hin hend hsettles hs (by omega)

end NotFits

/-! ## The stream as a whole -/

section Stream

variable {packets : List (List (ℕ × Packet))}

/-- The packets of `count` blocks of the stream, from its beginning. -/
lemma inOrder_of_map_eq
    (hin : arrivals.map Prod.fst = (List.range (count * size)).map fun i => first + i / size) :
    arrivals.length = count * size ∧ InOrder first size 0 arrivals := by
  have hlen : arrivals.length = count * size := by
    have := congrArg List.length hin
    simpa using this
  refine ⟨hlen, ?_⟩
  rw [InOrder, hin, hlen, List.range_eq_range']

/-- If all batches fit, all blocks are emitted. -/
lemma reassembles_of_fits (hsize : 0 < size) (hle : minNbPackets ≤ size)
    (hcarries : List.Forall₂ (Carries crate) batches packets)
    (hnonempty : ∀ batch ∈ packets, batch ≠ [])
    (hlen : packets.flatten.length = count * size)
    (hin : InOrder first size 0 packets.flatten)
    (hfits : Window.Fits windowWidth.toNat size minNbPackets 0 0 (packets.map List.length)) :
    Reassembles crate minNbPackets first count packets.flatten batches := by
  have hwidth : windowWidth.toNat = 127 := rfl
  cases packets with
  | nil =>
    cases hcarries
    rw [List.flatten_nil, List.length_nil] at hlen
    obtain rfl : count = 0 := by
      rcases Nat.mul_eq_zero.mp hlen.symm with h | h
      · exact h
      · omega
    exact ⟨[], rfl, by simp, _, .nil⟩
  | cons batch packets =>
    have hmin : 0 < minNbPackets := hfits.1
    obtain ⟨blocks, w', lost', hp, hstep⟩ := Window.exists_processes_of_fits hle
      (show 0 < windowWidth.toNat by omega) (.init hmin) hin hfits
    have hreleased := hp.released
    obtain ⟨a, rest, rfl⟩ := List.exists_cons_of_ne_nil (hnonempty batch List.mem_cons_self)
    have hfirst : a.1 = first := by
      rw [List.flatten_cons, List.cons_append, InOrder.cons_iff, Nat.zero_div] at hin
      exact hin.1
    rw [← hfirst] at hp
    obtain ⟨s, hs, -, -⟩ := processes_of_window (s := .init Packet)
      (fun _ _ => Genuine.of_close) hcarries rfl rfl hp
    refine ⟨blocks, ?_, fun b hb => ⟨hreleased.complete b hb, hreleased.sublist b hb⟩, s, hs⟩
    have hend := hstep.next_eq
    have hcur := Window.currentAt_cases size minNbPackets (count * size) lost'
    have hlost := hstep.lost_le.1
    rw [Nat.zero_add, hlen] at hend hlost
    rw [Nat.mul_mod_left] at hcur hlost
    rw [Nat.mul_div_cancel _ hsize] at hcur
    rw [hreleased.numbers]
    show List.range' first (w'.next - first) = _
    rw [hend]
    congr 1
    omega

/-- If all blocks are emitted, all batches fit. -/
lemma fits_of_reassembles (hsize : 0 < size) (hle : minNbPackets ≤ size)
    (hcarries : List.Forall₂ (Carries crate) batches packets)
    (hnonempty : ∀ batch ∈ packets, batch ≠ [])
    (hlen : packets.flatten.length = count * size)
    (hin : InOrder first size 0 packets.flatten)
    (h : Reassembles crate minNbPackets first count packets.flatten batches) :
    Window.Fits windowWidth.toNat size minNbPackets 0 0 (packets.map List.length) := by
  obtain ⟨blocks, hnumbers, -, s, hs⟩ := h
  have hcount : blocks.length = count := by
    have := congrArg List.length hnumbers
    simpa using this
  by_contra hfits
  cases packets with
  | nil => exact hfits trivial
  | cons batch packets =>
    obtain ⟨a, rest, rfl⟩ := List.exists_cons_of_ne_nil (hnonempty batch List.mem_cons_self)
    cases hcarries with
    | @cons ds _ batches _ hbatch hrest =>
    generalize hout : blocks.map reassembled = out at hs
    cases hs with
    | cons hnext hsettles hs =>
    obtain ⟨t, hreset, hphase, hsim⟩ := exists_next_of_reset minNbPackets
      (show (Reblock.init Packet).phase = .recv from rfl) rfl hbatch
    rw [hreset, Option.some.injEq, Prod.mk.injEq] at hnext
    obtain ⟨rfl, rfl⟩ := hnext
    obtain ⟨out₁, rfl, hwoken⟩ := hsettles.of_next (Reblock.next_publish hphase)
    obtain ⟨out₂, rfl, hstored⟩ := hwoken.of_next (Reblock.next_wake rfl)
    have hfirst : a.1 = first := by
      rw [List.flatten_cons, List.cons_append, InOrder.cons_iff, Nat.zero_div] at hin
      exact hin.1
    rw [hfirst] at hsim
    have hwake := hsim.with_phase (.wake ds)
    have hmin := hstored.min_pos (Reblock.phase_store_of_carries hbatch) (hwake.opened.store ds)
    have hend : 0 + (a :: rest ++ packets.flatten).length ≤ count * size := by
      rw [← List.flatten_cons, hlen]
      omega
    have hlt := length_lt_of_not_fits hsize hle hwake (.init hmin) hbatch hrest hin hend hstored hs
      hfits
    have hlength := congrArg List.length hout
    simp only [Reblock.acceptedEvents, emittedOf_map_accepted, List.nil_append,
      List.length_map, List.length_append] at hlength hlt
    omega

/-- Batches of one datagram always fit. -/
lemma fits_replicate_one (hmin : 0 < minNbPackets) (hle : minNbPackets ≤ size) (k : ℕ) :
    Window.Fits windowWidth.toNat size minNbPackets pos lost (List.replicate k 1) := by
  have hwidth : windowWidth.toNat = 127 := rfl
  induction k generalizing pos lost with
  | zero => trivial
  | succ k ih =>
    refine ⟨hmin, ?_, ih⟩
    have hcur := Window.currentAt_cases size minNbPackets pos lost
    have hdiv := Nat.div_add_mod' pos size
    have hmod := Nat.mod_lt pos (show 0 < size by omega)
    have hmul : (pos / size + 1) * size ≤
        (Window.currentAt size minNbPackets pos lost + windowWidth.toNat) * size :=
      Nat.mul_le_mul_right size (by omega)
    rw [Nat.add_mul _ 1] at hmul
    omega

/-- **Batches are as good as single datagrams if and only if none of them reaches too far.** The
packets of blocks of `size` packets each arrive in order. One by one, all blocks are emitted; in
batches, all blocks are emitted exactly if the lengths of the batches fit. -/
theorem reassembles_iff_fits (hsize : 0 < size) (hle : minNbPackets ≤ size)
    (hcarries : List.Forall₂ (Carries crate) batches packets)
    (hnonempty : ∀ batch ∈ packets, batch ≠ [])
    (hin : packets.flatten.map Prod.fst =
      (List.range (count * size)).map fun i => first + i / size) :
    (0 < minNbPackets → ∀ singles : List (List UInt8),
      List.Forall₂ (Carries crate) (singles.map .single) (packets.flatten.map ([·])) →
      Reassembles crate minNbPackets first count packets.flatten (singles.map .single)) ∧
    (Reassembles crate minNbPackets first count packets.flatten batches ↔
      Window.Fits windowWidth.toNat size minNbPackets 0 0 (packets.map List.length)) := by
  obtain ⟨hlen, horder⟩ := inOrder_of_map_eq hin
  refine ⟨fun hmin singles hsingles => ?_,
    fits_of_reassembles hsize hle hcarries hnonempty hlen horder,
    reassembles_of_fits hsize hle hcarries hnonempty hlen horder⟩
  have hflatten : (packets.flatten.map ([·])).flatten = packets.flatten := by
    rw [← List.flatMap_def, List.flatMap_singleton']
  rw [← hflatten] at hlen horder ⊢
  refine reassembles_of_fits hsize hle hsingles ?_ hlen horder ?_
  · intro batch hbatch
    obtain ⟨a, -, rfl⟩ := List.mem_map.mp hbatch
    exact List.cons_ne_nil a []
  · rw [List.map_map, show List.length ∘ (fun a : ℕ × Packet => [a]) = fun _ => 1 from rfl,
      List.map_const']
    exact fits_replicate_one hmin hle _

/-- Two blocks of one packet each in one batch. -/
theorem reassembles_two : Reassembles Crate.single 1 0 2 [(0, (0, [1])), (1, (1, [2]))]
    [.multiple [[0, 0, 0, 0, 1], [1, 0, 0, 0, 2]]] := by
  have hcarries : List.Forall₂ (Carries Crate.single)
      [.multiple [[0, 0, 0, 0, 1], [1, 0, 0, 0, 2]]] [[(0, (0, [1])), (1, (1, [2]))]] :=
    .cons (by decide) .nil
  have hnumbers : [((0 : ℕ), ((0 : UInt8), [(1 : UInt8)])), (1, (1, [2]))].map Prod.fst =
      (List.range (2 * 1)).map (fun i => 0 + i / 1) := by decide
  exact (reassembles_iff_fits (by decide) (by decide) hcarries (by decide) hnumbers).2.mpr
    (by decide)

/-- The first 128 blocks of one packet each. -/
def longBatch : List (ℕ × (UInt8 × List UInt8)) :=
  (List.range 128).map fun n => (n, (UInt8.ofNat n, [1]))

/-- **A batch that reaches too far loses a block.** Blocks 0 to 127 of one packet each arrive in one
batch; block 127 is not in the window. -/
theorem batch_loses_block :
    List.Forall₂ (Carries Crate.single)
      [.multiple (longBatch.map fun a => Crate.single.serialize a.2)] [longBatch] ∧
    longBatch.map Prod.fst = (List.range (128 * 1)).map (fun i => 0 + i / 1) ∧
    ¬ Reassembles Crate.single 1 0 128 longBatch
      [.multiple (longBatch.map fun a => Crate.single.serialize a.2)] := by
  have hcarries : List.Forall₂ (Carries Crate.single)
      [.multiple (longBatch.map fun a => Crate.single.serialize a.2)] [longBatch] :=
    .cons (by decide +kernel) .nil
  have hnumbers : longBatch.map Prod.fst = (List.range (128 * 1)).map (fun i => 0 + i / 1) := by
    decide +kernel
  refine ⟨hcarries, hnumbers, fun h => ?_⟩
  obtain ⟨hlen, horder⟩ := inOrder_of_map_eq hnumbers
  have hflatten : [longBatch].flatten = longBatch := List.append_nil _
  rw [← hflatten] at hlen horder h
  have hfits :=
    fits_of_reassembles (by decide) (by decide) hcarries (by decide +kernel) hlen horder h
  exact absurd hfits (by decide +kernel)

end Stream

end Lidi.Receive
