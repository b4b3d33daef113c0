import Lidi.Receive.Resume

set_option relaxedAutoImplicit false
set_option autoImplicit false

/-!
# The receiver when nothing is lost in the window

`Receive.Tracks` says that what is collected for a block is of that block. Here nothing is lost
either: if no packet arrives that is beyond the window, the slots of the current block and of those
after it have all the packets of these blocks that have arrived since the last reset. So the reblock
worker waits for datagrams only while the current block lacks packets; and if all blocks decode, the
decoding threads do not get stuck with a block in hand.

## Main definitions

* `Receive.Gathers` — the slots have all that has arrived since the last reset.
* `Receive.Advances` — the invariant of the reblock worker and the decoding threads.

## Main results

* `Receive.Gathers.resync`, `Receive.Gathers.arrive`, `Receive.Gathers.publish`,
  `Receive.Gathers.wake`, `Receive.Gathers.emission` — the steps of the reblock worker.
* `Receive.Advances.arrive`, `Receive.Advances.step` — every step keeps the invariant.
* `Receive.Advances.idle` — what holds when neither the worker nor a thread can move.
-/

namespace Lidi.Receive

open Function

variable {Packet : Type*} {crate : Crate Packet} {need : ℕ} {s : Reblock Packet}
  {datagrams : Datagrams} {arrived batch : List (ℕ × Packet)} {e : ℕ}

/-- The packet is not taken for one of another block while block `e` is the current one, and it is
not beyond the window. -/
def InReach (e : ℕ) (a : ℕ × Packet) : Prop :=
  Genuine (.init Packet e) a ∧ a.1 < e + windowWidth.toNat

/-- Whether an arrival is in reach can be decided. -/
instance (e : ℕ) (a : ℕ × Packet) : Decidable (InReach e a) := by
  unfold InReach
  infer_instance

/-- Block `e` is the current one, and `arrived` are the packets that have arrived since the last
reset; those of block `e` and of the later ones are in their slots. While the worker waits for
datagrams, block `e` lacks packets. -/
inductive Gathers (crate : Crate Packet) (need : ℕ) (arrived : List (ℕ × Packet)) (e : ℕ)
    (s : Reblock Packet) : Prop
  | resetting (hp : s.phase = .recv) (hr : s.reset = true)
      (hlacks : (packetsOf arrived e).length < need)
  | opening {datagrams : Datagrams}
      (hphase : s.phase = .publish datagrams ∨ s.phase = .wake datagrams)
      (hcarries : Carries crate datagrams arrived) (hreach : ∀ a ∈ arrived, InReach e a)
      (hsim : Sim (.init Packet e) s.openWindow)
  | live {w : Window Packet} (hphase : s.phase = .loop ∨ s.phase = .recv) (hsim : Sim w s)
      (hnext : w.next = e) (hnear : ∀ a ∈ arrived, a.1 < e + windowWidth.toNat)
      (hslots : ∀ n, e ≤ n → w.slots n = packetsOf arrived n)
      (hlacks : s.phase = .recv → (packetsOf arrived e).length < need)

/-- The slots after packets within the window have arrived. -/
lemma slots_foldl_put_of_inReach {w : Window Packet} (hnext : w.next = e)
    (hslots : ∀ n, e ≤ n → w.slots n = packetsOf arrived n)
    (hnear : ∀ a ∈ batch, a.1 < e + windowWidth.toNat) {n : ℕ} (hn : e ≤ n) :
    (batch.foldl (Window.put windowWidth.toNat) w).slots n = packetsOf (arrived ++ batch) n := by
  rw [Window.slots_foldl_put, hslots n hn, packetsOf_append]
  split
  · rfl
  · rename_i hcovers
    -- no packet of a block beyond the window has arrived
    have hfar : e + windowWidth.toNat ≤ n := by
      by_contra hlt
      exact hcovers ⟨by omega, by omega⟩
    have hnone : packetsOf batch n = [] := packetsOf_eq_nil fun a ha => by
      have := hnear a ha
      omega
    rw [hnone]

namespace Gathers

/-- The invariant holds at the start. -/
lemma init (crate : Crate Packet) (hneed : 0 < need) (e : ℕ) :
    Gathers crate need [] e (.init Packet) :=
  .resetting rfl rfl hneed

/-- **While the worker waits for datagrams** the current block lacks packets. -/
lemma lacks (h : Gathers crate need arrived e s) (hp : s.phase = .recv) :
    (packetsOf arrived e).length < need := by
  cases h with
  | resetting hp' hr hlacks => exact hlacks
  | opening hphase => rcases hphase with hph | hph <;> simp [hp] at hph
  | live hphase hsim hnext hnear hslots hlacks => exact hlacks hp

/-- The worker does not panic, and its window does not meet itself. -/
lemma phase_cases (h : Gathers crate need arrived e s) :
    s.phase = .recv ∨ s.phase = .loop ∨ ∃ datagrams, s.phase = .publish datagrams ∨
      s.phase = .wake datagrams := by
  cases h with
  | resetting hp => exact .inl hp
  | opening hphase => exact .inr (.inr ⟨_, hphase⟩)
  | live hphase => rcases hphase with hp | hp <;> simp [hp]

/-- The reset timeout fires. -/
lemma timeout (h : Gathers crate need arrived e s) (hp : s.phase = .recv) :
    Gathers crate need arrived e { s with reset := true } :=
  .resetting hp rfl (h.lacks hp)

/-- **The first packets after a reset** are of the current block, or of later ones. -/
theorem resync {a : ℕ × Packet} (hp : s.phase = .recv) (hr : s.reset = true)
    (hcarries : Carries crate datagrams (a :: batch)) (hreach : ∀ b ∈ a :: batch, InReach a.1 b) :
    Gathers crate need (a :: batch) a.1 (s.onDatagrams crate datagrams) := by
  obtain ⟨t, hnext, hphase, hsim⟩ := exists_next_of_reset 0 hp hr hcarries
  simp only [Reblock.next, hp, if_true, Option.some.injEq, Prod.mk.injEq] at hnext
  rw [hnext.1]
  exact .opening (.inl hphase) hcarries hreach hsim

/-- **Packets arrive.** -/
theorem arrive (h : Gathers crate need arrived e s) (hr : s.reset = false) (hp : s.phase = .recv)
    (hcarries : Carries crate datagrams batch) (hreach : ∀ b ∈ batch, InReach e b) :
    Gathers crate need (arrived ++ batch) e (s.onDatagrams crate datagrams) := by
  cases h with
  | resetting hp' hr' => simp [hr] at hr'
  | opening hphase => rcases hphase with hph | hph <;> simp [hp] at hph
  | @live w hphase hsim hnext hnear hslots hlacks =>
    have hgenuine : ∀ b ∈ batch, Genuine w b := fun b hb => by
      rw [Genuine.congr (show w.next = (Window.init Packet e).next from hnext)]
      exact (hreach b hb).1
    obtain ⟨hstored, hloop⟩ := hsim.store hcarries hgenuine
    have hnear' : ∀ b ∈ batch, b.1 < e + windowWidth.toNat := fun b hb => (hreach b hb).2
    rw [Reblock.onDatagrams, if_neg (by simp [hr])]
    refine .live (.inl hloop) hstored (by rw [Window.next_foldl_put, hnext]) (fun b hb => ?_)
      (fun n hn => slots_foldl_put_of_inReach hnext hslots hnear' hn) (by simp [hloop])
    rcases List.mem_append.mp hb with hb | hb
    · exact hnear b hb
    · exact hnear' b hb

/-- The number of the current block is written. -/
lemma publish (h : Gathers crate need arrived e s) (hp : s.phase = .publish datagrams) :
    Gathers crate need arrived e { s with phase := .wake datagrams } := by
  cases h with
  | resetting hp' => simp [hp] at hp'
  | opening hphase hcarries hreach hsim =>
    rcases hphase with hph | hph
    · rw [hp] at hph
      cases hph
      exact .opening (.inr rfl) hcarries hreach (hsim.with_phase _)
    · simp [hp] at hph
  | live hphase => rcases hphase with hph | hph <;> simp [hp] at hph

/-- **The window opens**, and the first packets are put into their slots. -/
theorem wake (h : Gathers crate need arrived e s) (hp : s.phase = .wake datagrams) :
    Gathers crate need arrived e (s.openWindow.store crate datagrams) := by
  cases h with
  | resetting hp' => simp [hp] at hp'
  | opening hphase hcarries hreach hsim =>
    rcases hphase with hph | hph
    · simp [hp] at hph
    · rw [hp] at hph
      cases hph
      obtain ⟨hstored, hloop⟩ := hsim.store hcarries fun a ha => (hreach a ha).1
      have hnear : ∀ a ∈ arrived, a.1 < e + windowWidth.toNat := fun a ha => (hreach a ha).2
      refine .live (.inl hloop) hstored (by rw [Window.next_foldl_put]; rfl) hnear (fun n hn => ?_)
        (by simp [hloop])
      have hempty : ∀ j, e ≤ j → (Window.init Packet e).slots j = packetsOf [] j :=
        fun _ _ => rfl
      exact slots_foldl_put_of_inReach (w := .init Packet e) rfl hempty hnear hn
  | live hphase => rcases hphase with hph | hph <;> simp [hp] at hph

/-- **The current block is looked at.** It lacks packets, or it is emitted with all its packets. -/
theorem emission (h : Gathers crate need arrived e s) (hp : s.phase = .loop) :
    ((packetsOf arrived e).length < need ∧ s.emission need = ({ s with phase := .recv }, []) ∧
      Gathers crate need arrived e { s with phase := .recv }) ∨
    (need ≤ (packetsOf arrived e).length ∧
      s.emission need = (s.release, [.block (UInt8.ofNat e) (packetsOf arrived e)]) ∧
      Gathers crate need arrived (e + 1) s.release) := by
  cases h with
  | resetting hp' => simp [hp] at hp'
  | opening hphase => rcases hphase with hph | hph <;> simp [hp] at hph
  | @live w hphase hsim hnext hnear hslots hlacks =>
    subst hnext
    have hcur := hslots w.next le_rfl
    by_cases hlen : (packetsOf arrived w.next).length < need
    · refine .inl ⟨hlen, hsim.emission_of_lt (by rwa [hcur]), ?_⟩
      exact .live (.inr rfl) (hsim.with_phase _) rfl hnear hslots fun _ => hlen
    · refine .inr ⟨by omega, ?_, .live (.inl hp) hsim.release rfl (fun a ha => ?_)
        (fun n hn => ?_) fun hrecv => ?_⟩
      · rw [hsim.emission_of_le (by rw [hcur]; omega), hcur]
        rfl
      · have := hnear a ha
        omega
      · show update w.slots w.next [] n = packetsOf arrived n
        rw [update_of_ne (by omega)]
        exact hslots n (by omega)
      · change s.phase = .recv at hrecv
        simp [hp] at hrecv

end Gathers

/-! ## With the decoding threads -/

section Core

open Turnstile

variable {n : ℕ} {raptorq : RaptorQ} {good : ℕ → Packet → Prop} {c c' : Core n Packet}

/-- What is queued for decoding or in the hands of a decoding thread. -/
def Core.pending (crate : Crate Packet) (raptorq : RaptorQ) (c : Core n Packet) :
    List (Item Block) :=
  c.decoding.gate.held ++ c.decoding.gate.input.map (decodeItem (raptorq.decode crate))

/-- **The invariant.** The reblock worker has lost nothing in its window since the last reset. What
is pending at the decoding threads are blocks that decode, in order; the last one is the block
before the current one. -/
structure Advances (crate : Crate Packet) (raptorq : RaptorQ) (arrived : List (ℕ × Packet)) (e : ℕ)
    (c : Core n Packet) : Prop where
  order : ResetInv crate raptorq c
  gathers : Gathers crate raptorq.minNbPackets.toNat arrived e c.reblock
  decodes : ∀ it ∈ c.pending crate raptorq, it.isPass = true
  last : c.pending crate raptorq ≠ [] → ∀ k ∈ lastId c.decoding.emitted, UInt8.ofNat e = k + 1

/-- What is emitted becomes pending. -/
lemma Core.pending_emitAll (c : Core n Packet) (items : List (Reassembled Packet)) :
    Core.pending crate raptorq { c with decoding := Core.emitAll c.decoding items } =
      c.pending crate raptorq ++ items.map (decodeItem (raptorq.decode crate)) := by
  have hgate : ∀ d : Decoding n Packet, (Core.emitAll d items).gate.held = d.gate.held ∧
      (Core.emitAll d items).gate.input = d.gate.input ++ items := by
    induction items with
    | nil => simp [Core.emitAll]
    | cons r rs ih =>
      intro d
      obtain ⟨hheld, hinput⟩ := ih (d.emit r)
      exact ⟨hheld, hinput.trans (List.append_assoc ..)⟩
  simp [Core.pending, hgate]

/-- Everything that is pending after a step was pending before, or has just been emitted and
decodes. -/
lemma Core.Trans.decodes {a : Core.Label n} (hwf : c.reblock.WellFormed)
    (hdec : AllDecode crate raptorq c a) (ht : Core.Trans crate raptorq c a c') :
    ∃ items, c'.decoding.emitted = c.decoding.emitted ++ items ∧
      (∀ r ∈ items, (decodeItem (raptorq.decode crate) r).isPass = true) ∧
      ∀ it ∈ c'.pending crate raptorq, it ∈ c.pending crate raptorq ∨
        it ∈ items.map (decodeItem (raptorq.decode crate)) := by
  cases ht with
  | datagrams | publish => exact ⟨[], by simp, by simp, fun it hit => .inl hit⟩
  | @wake ds hp =>
    refine ⟨[], by simp, by simp, fun it hit => .inl ?_⟩
    rcases List.mem_append.mp hit with hit | hit
    · obtain ⟨w, hw⟩ := mem_itemsOf.mp hit
      rw [Gate.wakeAll, Phase.item_wake] at hw
      exact List.mem_append_left _ (mem_itemsOf.mpr ⟨w, hw⟩)
    · exact List.mem_append_right _ hit
  | timeout hp =>
    have hnone : c.reblock.onTimeout.2 = [] := by simp [Reblock.onTimeout, hwf.damaged_eq]
    rw [hnone]
    exact ⟨[], by simp [Core.emitAll], by simp, fun it hit => .inl hit⟩
  | loop hp =>
    simp only [AllDecode, hp] at hdec
    refine ⟨_, Core.emitted_emitAll _ _, hdec, fun it hit => ?_⟩
    have hit : it ∈ Core.pending crate raptorq { c with decoding := Core.emitAll c.decoding _ } :=
      hit
    rw [Core.pending_emitAll] at hit
    exact List.mem_append.mp hit
  | tooFar hp => exact absurd hp hwf.phase_ne
  | decode hd =>
    cases hd with
    | decode hgate => exact ⟨[], by simp, by simp, fun it hit => .inl (mem_of_step hgate hit)⟩
  | dispatch hd =>
    cases hd with
    | dispatch hout => exact ⟨[], by simp, by simp, fun it hit => .inl hit⟩

namespace Advances

/-- The invariant holds at the start. -/
lemma init (crate : Crate Packet) (hmin : 0 < raptorq.minNbPackets.toNat) (e : ℕ) :
    Advances crate raptorq [] e (Core.init n Packet) where
  order := .init
  gathers := .init crate hmin e
  decodes it hit := by
    obtain ⟨w, hw⟩ := mem_itemsOf.mp ((List.mem_append.mp hit).resolve_right List.not_mem_nil)
    cases hw
  last _ k hk := by simp [Core.init, Decoding.init, lastId] at hk

/-- **The receiver may begin anew** at any block, when it waits for the first datagrams after a
reset and nothing is pending. -/
lemma restart (hseq : InSequence crate raptorq good e c) (hmin : 0 < raptorq.minNbPackets.toNat)
    (hp : c.reblock.phase = .recv) (hr : c.reblock.reset = true)
    (hnil : c.pending crate raptorq = []) (i : ℕ) : Advances crate raptorq [] i c := by
  obtain ⟨hheld, hinput⟩ := List.append_eq_nil_iff.mp hnil
  rw [List.map_eq_nil_iff] at hinput
  obtain ⟨next, hnext⟩ := exists_next c.decoding.emitted
  have hord := hseq.last next hnext
  have hunsent : c.decoding.gate.unsent (Receive.decoding (raptorq.decode crate)) = [] :=
    List.nil_perm.mp (hheld ▸ hord.held_perm hseq.decoding.gate.account)
  have htaken := hord.taken_eq
  rw [hunsent, List.append_nil] at htaken
  refine ⟨⟨hseq.decoding, fun w id x hw => ?_, c.decoding.gate.turn, ⟨?_, ?_⟩, fun hstep => ?_⟩,
    .resetting hp hr hmin, by simp [hnil], fun hne => absurd hnil hne⟩
  · have hmem : Item.pass id x ∈ c.decoding.gate.held := mem_itemsOf.mpr ⟨w, by rw [hw]; rfl⟩
    simp [hheld] at hmem
  · rw [htaken]
  · simp [Gate.pendingPasses, Gate.unsentPasses, htaken, hinput]
  · simp [InStep, hp, hr] at hstep

/-- **The steps are orderly**, if `block_to_dispatch` is only overwritten while no block is in
flight, or not changed. -/
lemma orderly (h : Advances crate raptorq arrived e c) (hn : n < 256)
    (hseq : InSequence crate raptorq good e c) {a : Core.Label n}
    (hquiet : QuietReset crate raptorq c a) : c.Orderly crate raptorq a := by
  cases a with
  | reblock =>
    simp only [Core.Orderly]
    split
    · rename_i ds hp
      simp only [QuietReset, hp] at hquiet
      by_cases hnil : c.pending crate raptorq = []
      · exact .inl (congrArg passes hnil)
      · refine hquiet.imp_right fun hturn => ⟨hturn.1, fun k hk => ?_⟩
        rw [hseq.tracks.curId_eq (hseq.tracks.reset_eq (by simp [hp]))]
        exact h.last hnil k hk
    · trivial
  | decode w =>
    obtain ⟨next, hnext, -⟩ := h.order.order
    exact hnext.apart h.order.decoding.gate.account hn h.decodes w
  | datagrams | timeout | dispatch => trivial

/-- **Packets arrive.** After a reset, the first one is of the block that the worker waits for. -/
theorem arrive (h : Advances crate raptorq arrived e c) (hn : n < 256) {a : ℕ × Packet}
    (hp : c.reblock.phase = .recv) (hcarries : Carries crate datagrams (a :: batch))
    (hreach : ∀ b ∈ a :: batch, InReach e b) (hfirst : c.reblock.reset = true → a.1 = e) :
    Advances crate raptorq ((if c.reblock.reset then [] else arrived) ++ a :: batch) e
      { c with reblock := c.reblock.onDatagrams crate datagrams } := by
  have hstep : Core.step crate raptorq c (.datagrams datagrams) = some
      { c with reblock := c.reblock.onDatagrams crate datagrams } := if_pos hp
  have hdec : AllDecode crate raptorq c (.datagrams datagrams) := trivial
  refine ⟨h.order.step hn hdec trivial hstep, ?_, h.decodes, h.last⟩
  cases hr : c.reblock.reset with
  | true =>
    obtain rfl := hfirst hr
    exact .resync hp hr hcarries hreach
  | false => exact h.gathers.arrive hr hp hcarries hreach

/-- The reblock worker after a step. -/
lemma gathers_step (h : Advances crate raptorq arrived e c) (hwf : c.reblock.WellFormed)
    {a : Core.Label n} (ha : ∀ datagrams, a ≠ .datagrams datagrams)
    (ht : Core.Trans crate raptorq c a c') :
    Gathers crate raptorq.minNbPackets.toNat arrived (advance e c c') c'.reblock := by
  cases ht with
  | datagrams ds hp => exact absurd rfl (ha ds)
  | timeout hp =>
    have hcur : c.reblock.onTimeout.1.curId = c.reblock.curId := rfl
    rw [advance, if_pos hcur]
    exact h.gathers.timeout hp
  | publish hp hfree =>
    rw [advance, if_pos rfl]
    exact h.gathers.publish hp
  | @wake ds hp =>
    have hcur : (c.reblock.openWindow.store crate ds).curId = c.reblock.curId :=
      (c.reblock.openWindow.store_eq crate ds).1
    rw [advance, if_pos hcur]
    exact h.gathers.wake hp
  | loop hp =>
    rcases h.gathers.emission hp with ⟨-, heq, hnext⟩ | ⟨-, heq, hnext⟩
    · rw [heq, advance, if_pos rfl]
      exact hnext
    · have hcur : c.reblock.release.curId ≠ c.reblock.curId := by
        show c.reblock.curId + 1 ≠ c.reblock.curId
        simp
      rw [heq, advance, if_neg hcur]
      exact hnext
  | tooFar hp => exact absurd hp hwf.phase_ne
  | decode hd | dispatch hd =>
    rw [advance, if_pos rfl]
    exact h.gathers

/-- **Every step but the arrival of packets.** -/
theorem step (h : Advances crate raptorq arrived e c) (hn : n < 256)
    (hseq : InSequence crate raptorq good e c) {a : Core.Label n}
    (hdec : AllDecode crate raptorq c a) (hquiet : QuietReset crate raptorq c a)
    (ha : ∀ datagrams, a ≠ .datagrams datagrams) (ht : Core.Trans crate raptorq c a c') :
    Advances crate raptorq arrived (advance e c c') c' := by
  obtain ⟨items, hitems, hpass, hpending⟩ := ht.decodes hseq.worker hdec
  obtain ⟨-, hcases⟩ := hseq.step (h.orderly hn hseq hquiet) ha ht
  refine ⟨h.order.step hn hdec hquiet (Core.step_iff.mpr ht), h.gathers_step hseq.worker ha ht,
    fun it hit => ?_, fun hne => ?_⟩
  · rcases hpending it hit with hit | hit
    · exact h.decodes it hit
    · obtain ⟨r, hr, rfl⟩ := List.mem_map.mp hit
      exact hpass r hr
  · rcases hcases with ⟨hemitted, hadvance⟩ | ⟨packets, hemitted, -, hadvance⟩
    · rw [hemitted, hadvance]
      refine h.last fun hnil => hne (List.eq_nil_iff_forall_not_mem.mpr fun it hit => ?_)
      obtain rfl : items = [] := by simpa [hemitted] using hitems
      simpa [hnil] using hpending it hit
    · rw [hemitted, hadvance, lastId_append_block, UInt8.ofNat_add]
      intro k hk
      obtain rfl : UInt8.ofNat e = k := by simpa using hk
      rfl

/-- **When neither the worker nor a thread can move**, the worker waits for datagrams, the current
block lacks packets, and all that was emitted has been passed on.

**Proof sketch.** A thread that has the mutex could move, so that the worker could write
`block_to_dispatch`; and it could take any other step. With something to decode one of the threads
could move, because the blocks in flight are in order. -/
theorem idle (h : Advances crate raptorq arrived e c) (hpos : 0 < n)
    (hreblock : Core.step crate raptorq c .reblock = none)
    (hdecode : ∀ w, Core.step crate raptorq c (.decode w) = none) :
    (packetsOf arrived e).length < raptorq.minNbPackets.toNat ∧
      (c.decoding.received ++ c.decoding.gate.output).length = c.decoding.emitted.length := by
  obtain ⟨hinv, hawake, next, hnext, -⟩ := h.order
  have hroom :
      HasRoom (Receive.decoding (raptorq.decode crate)).capacity c.decoding.gate.output := by
    simp [HasRoom, Receive.decoding]
  have hgate : ∀ w, Turnstile.step (Receive.decoding (raptorq.decode crate)) c.decoding.gate w =
      none := by
    intro w
    simpa only [Core.step, Decoding.step, Option.map_eq_none_iff] using hdecode w
  have hfree : c.decoding.gate.locked = false := by
    by_contra hlocked
    obtain ⟨w, id, x, hw⟩ := hinv.gate.mutex.holder (by simpa using hlocked)
    have hblocked := hgate w
    simp [Turnstile.step, hw, hroom] at hblocked
  have hrecv : c.reblock.phase = .recv := by
    rcases h.gathers.phase_cases with hp | hp | ⟨ds, hp | hp⟩
    · exact hp
    · simp [Core.step, hp] at hreblock
    · simp [Core.step, hp, hfree] at hreblock
    · simp [Core.step, hp] at hreblock
  have hquiet : c.decoding.gate.held = [] ∧ c.decoding.gate.input = [] := by
    by_contra hbusy
    obtain ⟨w, hw⟩ := progress hnext hinv.gate hawake hpos hroom hinv.running (by tauto)
    simp [hgate w] at hw
  refine ⟨h.gathers.lacks hrecv, ?_⟩
  have haccount := hinv.gate.account.length_eq
  have hreceived := congrArg List.length hinv.received_eq
  rw [hquiet.1, List.nil_append, List.length_map] at haccount
  rw [List.length_map] at hreceived
  rw [hinv.emitted_eq, hquiet.2, List.append_nil]
  omega

end Advances

end Core

end Lidi.Receive
