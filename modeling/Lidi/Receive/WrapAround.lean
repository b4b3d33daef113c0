import Lidi.Core.Linked
import Lidi.Receive.ReblockWindow

set_option relaxedAutoImplicit false
set_option autoImplicit false

/-!
# Block numbers that wrap around

The blocks that are sent have unbounded numbers, and a packet carries the last 8 bits of the number
of its block only. While the current block lacks packets the window stays where it is, and packets
that are sent 256 blocks later reach the same slots. Nothing in the worker notices.

## Main definitions

* `Receive.Stream` — the worker with the packets that have arrived, known by their true numbers, and
  with what has been emitted.
* `Receive.Stream.Traffic` — packets arrive that have been overtaken by packets of at most 126 later
  blocks, and there is no timeout.
* `Receive.Stream.Unmixed` — what is emitted are blocks of one number each, and consecutive ones
  unless a loss has been reported.
* `Receive.Stream.InTurn` — a packet that reaches an open slot is of the block in the window.

## Main results

* `Receive.Stream.unmixed` — blocks are not mixed while packets are in turn.
* `Receive.Stream.mixes_blocks` — a packet that is 256 blocks ahead is mixed into the wrong block.
-/

namespace Lidi.Receive

/-- The worker, what has arrived and what has been emitted. -/
structure Stream (Packet : Type*) where
  worker : Reblock Packet
  arrived : List (ℕ × Packet)
  emitted : List (Reassembled Packet)

namespace Stream

variable {Packet : Type*} {crate : Crate Packet} {minNbPackets : ℕ} {s s' : Stream Packet}

/-- Nothing has arrived. -/
def init (Packet : Type*) : Stream Packet where
  worker := .init Packet
  arrived := []
  emitted := []

/-- A batch of datagrams arrives, or the worker proceeds. -/
inductive Label (Packet : Type*)
  | arrive (datagrams : Datagrams) (batch : List (ℕ × Packet))
  | proceed
  deriving DecidableEq

/-- The next step of the worker. -/
def step (crate : Crate Packet) (minNbPackets : ℕ) (s : Stream Packet) :
    Label Packet → Option (Stream Packet)
  | .arrive datagrams batch =>
    (s.worker.next crate minNbPackets (.datagrams datagrams)).map fun res =>
      ⟨res.1, s.arrived ++ batch, s.emitted ++ emittedOf res.2⟩
  | .proceed =>
    (s.worker.next crate minNbPackets .proceed).map fun res =>
      ⟨res.1, s.arrived, s.emitted ++ emittedOf res.2⟩

/-- What arrives are packets with their true numbers, and a packet arrives after one of a later
block only if that is at most 126 blocks ahead. -/
def Traffic (crate : Crate Packet) (s : Stream Packet) : Label Packet → Prop
  | .arrive datagrams batch => batch ≠ [] ∧ Carries crate datagrams batch ∧
    (s.arrived ++ batch).Pairwise fun earlier later =>
      later.1 < earlier.1 → earlier.1 - later.1 ≤ 126
  | .proceed => True

/-- The emitted blocks consist of packets of one block each; if one is emitted directly after
another one, its number is the next one. -/
def Unmixed (s : Stream Packet) : Prop :=
  ∃ items : List (Option (ℕ × List Packet)),
    s.emitted = items.map (fun item => item.elim .error reassembled) ∧
    (∀ b, some b ∈ items → (b.2).Sublist (packetsOf s.arrived b.1)) ∧
    ∃ e, Linked Nat.succ none (items.map (Option.map Prod.fst)) e

/-- The number of the current block when a batch has arrived: the worker starts at the block of the
first packet. -/
def current (s : Stream Packet) (batch : List (ℕ × Packet)) : ℕ :=
  ((s.arrived ++ batch).head?.elim 0 Prod.fst) + s.emitted.length

/-- Every packet that arrives and whose slot is in the window is of the block in the window. -/
def InTurn (s : Stream Packet) : Label Packet → Prop
  | .arrive _ batch => ∀ a ∈ batch, Genuine (.init Packet (s.current batch)) a
  | .proceed => True

/-- The states that are reached while packets are in turn: nothing has arrived, the first batch is
about to be stored, or the worker behaves like a window. -/
inductive Inv (crate : Crate Packet) (s : Stream Packet) : Prop
  | idle (hworker : s.worker = .init Packet) (harrived : s.arrived = [])
      (hemitted : s.emitted = [])
  | opening {a : ℕ × Packet} {rest : List (ℕ × Packet)} {datagrams : Datagrams}
      (harrived : s.arrived = a :: rest) (hcarries : Carries crate datagrams (a :: rest))
      (hturn : ∀ b ∈ a :: rest, Genuine (.init Packet a.1) b)
      (hphase : s.worker.phase = .publish datagrams ∨ s.worker.phase = .wake datagrams)
      (hopened : Sim (.init Packet a.1) s.worker.openWindow) (hemitted : s.emitted = [])
  | live {a : ℕ × Packet} {rest : List (ℕ × Packet)} {w : Window Packet}
      {blocks : List (ℕ × List Packet)} (harrived : s.arrived = a :: rest)
      (hsim : Sim w s.worker) (hphase : s.worker.phase = .loop ∨ s.worker.phase = .recv)
      (hnext : w.next = a.1 + blocks.length)
      (hslots : ∀ n, (w.slots n).Sublist (packetsOf s.arrived n))
      (hemitted : s.emitted = blocks.map reassembled)
      (hnumbers : blocks.map Prod.fst = List.range' a.1 blocks.length)
      (hblocks : ∀ b ∈ blocks, (b.2).Sublist (packetsOf s.arrived b.1))

/-- What has arrived stays arrived. -/
lemma sublist_packetsOf_append {packets : List Packet} {arrived : List (ℕ × Packet)} {n : ℕ}
    (h : packets.Sublist (packetsOf arrived n)) (batch : List (ℕ × Packet)) :
    packets.Sublist (packetsOf (arrived ++ batch) n) := by
  rw [packetsOf_append]
  exact h.trans (List.sublist_append_left _ _)

/-- The slots after a batch hold packets that have arrived. -/
lemma sublist_foldl_put {w : Window Packet} {arrived : List (ℕ × Packet)} {n : ℕ}
    (h : (w.slots n).Sublist (packetsOf arrived n)) (batch : List (ℕ × Packet)) :
    ((batch.foldl (Window.put windowWidth.toNat) w).slots n).Sublist
      (packetsOf (arrived ++ batch) n) := by
  rw [Window.slots_foldl_put, packetsOf_append]
  refine h.append ?_
  split
  · exact List.Sublist.refl _
  · exact List.nil_sublist _

namespace Inv

/-- The first batch is stored, or another one. -/
lemma stored {a : ℕ × Packet} {rest batch : List (ℕ × Packet)} {w : Window Packet}
    {blocks : List (ℕ × List Packet)} {datagrams : Datagrams} {worker : Reblock Packet}
    {arrived : List (ℕ × Packet)} (harrived : arrived ++ batch = a :: rest) (hsim : Sim w worker)
    (hcarries : Carries crate datagrams batch) (hturn : ∀ b ∈ batch, Genuine w b)
    (hnext : w.next = a.1 + blocks.length)
    (hslots : ∀ n, (w.slots n).Sublist (packetsOf arrived n))
    (hnumbers : blocks.map Prod.fst = List.range' a.1 blocks.length)
    (hblocks : ∀ b ∈ blocks, (b.2).Sublist (packetsOf arrived b.1)) :
    Inv crate ⟨worker.store crate datagrams, arrived ++ batch, blocks.map reassembled⟩ := by
  obtain ⟨hstored, hloop⟩ := hsim.store hcarries hturn
  exact .live harrived hstored (.inl hloop) (by simpa using hnext)
    (fun n => sublist_foldl_put (hslots n) batch) rfl hnumbers
    fun b hb => sublist_packetsOf_append (hblocks b hb) batch

/-- A batch arrives. -/
lemma arrive {ds : Datagrams} {batch : List (ℕ × Packet)} (h : Inv crate s)
    (htraffic : s.Traffic crate (.arrive ds batch)) (hturn : s.InTurn (.arrive ds batch))
    (hs : Stream.step crate minNbPackets s (.arrive ds batch) = some s') : Inv crate s' := by
  obtain ⟨hne, hcarries, -⟩ := htraffic
  simp only [Stream.step, Option.map_eq_some_iff] at hs
  obtain ⟨res, hres, rfl⟩ := hs
  cases h with
  | idle hworker harrived hemitted =>
    obtain ⟨a, rest, rfl⟩ := List.exists_cons_of_ne_nil hne
    have hp : s.worker.phase = .recv := by rw [hworker]; rfl
    have hr : s.worker.reset = true := by rw [hworker]; rfl
    obtain ⟨t, hnext, hphase, hopened⟩ := exists_next_of_reset minNbPackets hp hr hcarries
    rw [hres, Option.some.injEq] at hnext
    subst hnext
    refine .opening ?_ hcarries ?_ (.inl hphase) hopened ?_
    · rw [harrived]
      rfl
    · simpa [InTurn, current, harrived, hemitted] using hturn
    · rw [hemitted]
      rfl
  | opening harrived _ _ hphase =>
    rcases hphase with hp | hp <;> simp [Reblock.next, hp] at hres
  | @live a rest w blocks harrived hsim hphase hnext hslots hemitted hnumbers hblocks =>
    rcases hphase with hp | hp
    · simp [Reblock.next, hp] at hres
    · simp only [Reblock.next, hp, if_true, Reblock.onDatagrams, hsim.opened.reset,
        Bool.false_eq_true, if_false, Option.some.injEq] at hres
      subst hres
      have hcurrent : s.current batch = w.next := by
        simp [current, harrived, hemitted, hnext]
      have hgenuine : ∀ b ∈ batch, Genuine w b := by
        intro b hb
        have := hturn b hb
        rwa [hcurrent, Genuine.congr (show (Window.init Packet w.next).next = w.next from rfl)]
          at this
      have hstored := stored (by rw [harrived]; rfl) hsim hcarries hgenuine hnext hslots hnumbers
        hblocks
      simpa [hemitted, Reblock.acceptedEvents] using hstored

/-- The worker goes on. -/
lemma proceed (h : Inv crate s) (hs : Stream.step crate minNbPackets s .proceed = some s') :
    Inv crate s' := by
  simp only [Stream.step, Option.map_eq_some_iff] at hs
  obtain ⟨res, hres, rfl⟩ := hs
  cases h with
  | idle hworker harrived hemitted => simp [hworker, Reblock.next, Reblock.init] at hres
  | @opening a _ _ harrived hcarries hgenuine hphase hopened hemitted =>
    rcases hphase with hp | hp
    · rw [Reblock.next_publish hp, Option.some.injEq] at hres
      subst hres
      refine .opening harrived hcarries hgenuine (.inr rfl) (hopened.with_phase _) ?_
      simp [hemitted]
    · rw [Reblock.next_wake hp, Option.some.injEq] at hres
      subst hres
      have hslots : ∀ n, ((Window.init Packet a.1).slots n).Sublist (packetsOf [] n) :=
        fun _ => List.Sublist.refl _
      have hblocks : ∀ b ∈ ([] : List (ℕ × List Packet)), (b.2).Sublist (packetsOf [] b.1) := by
        simp
      have hstored := stored rfl hopened hcarries hgenuine rfl hslots rfl hblocks
      simpa [hemitted, harrived, Reblock.acceptedEvents] using hstored
  | @live a rest w blocks harrived hsim hphase hnext hslots hemitted hnumbers hblocks =>
    rcases hphase with hp | hp
    · rw [Reblock.next_loop _ _ hp, Option.some.injEq] at hres
      subst hres
      by_cases hlen : (w.slots w.next).length < minNbPackets
      · rw [hsim.emission_of_lt hlen]
        exact .live harrived (hsim.with_phase _) (.inr rfl) hnext hslots (by simp [hemitted])
          hnumbers hblocks
      · rw [hsim.emission_of_le (by omega)]
        have hout : s.emitted ++ [reassembled (w.next, w.slots w.next)] =
            (blocks ++ [(w.next, w.slots w.next)]).map reassembled := by simp [hemitted]
        refine .live harrived hsim.release (.inl hp) ?_ (fun n => ?_) hout ?_ ?_
        · show w.next + 1 = _
          rw [hnext, List.length_append]
          rfl
        · show (Function.update w.slots w.next [] n).Sublist _
          by_cases hn : n = w.next
          · rw [hn, Function.update_self]
            exact List.nil_sublist _
          · rw [Function.update_of_ne hn]
            exact hslots n
        · rw [List.map_append, hnumbers, List.length_append, ← List.range'_append_1, ← hnext]
          rfl
        · intro b hb
          rcases List.mem_append.mp hb with hb | hb
          · exact hblocks b hb
          · rw [List.mem_singleton.mp hb]
            exact hslots w.next
    · simp [Reblock.next, hp] at hres

/-- **The step lemma.** -/
theorem step {l : Label Packet} (h : Inv crate s) (htraffic : s.Traffic crate l)
    (hturn : s.InTurn l) (hs : Stream.step crate minNbPackets s l = some s') :
    Inv crate s' := by
  cases l with
  | arrive ds batch => exact h.arrive htraffic hturn hs
  | proceed => exact h.proceed hs

/-- What has been emitted is not mixed. -/
lemma not_mixed (h : Inv crate s) : s.Unmixed := by
  cases h with
  | idle _ _ hemitted => exact ⟨[], by simp [hemitted], by simp, 0, by simp⟩
  | opening _ _ _ _ _ hemitted => exact ⟨[], by simp [hemitted], by simp, 0, by simp⟩
  | @live a rest w blocks _ _ _ _ _ hemitted hnumbers hblocks =>
    refine ⟨blocks.map some, by simp [hemitted, Function.comp_def], ?_, a.1 + blocks.length, ?_⟩
    · intro b hb
      obtain ⟨b', hb', heq⟩ := List.mem_map.mp hb
      obtain rfl := Option.some.inj heq
      exact hblocks b' hb'
    · have hlinked := (Linked.range' a.1 blocks.length).forget
      rw [← hnumbers, List.map_map] at hlinked
      rwa [List.map_map]

end Inv

/-- **Blocks are not mixed while packets are in turn.** -/
theorem unmixed (h : LTS.ReachVia (step crate minNbPackets)
    (fun s l => s.Traffic crate l ∧ s.InTurn l) (init Packet) s) : s.Unmixed := by
  have hinv : Inv crate s := h.invariant (.idle rfl rfl rfl) fun t l t' _ ht hok hs =>
    ht.step hok.1 hok.2 hs
  exact hinv.not_mixed

/-- Whether a batch is of the stream can be decided. -/
instance [DecidableEq Packet] (s : Stream Packet) (l : Label Packet) :
    Decidable (s.Traffic crate l) := by
  cases l <;> unfold Traffic <;> infer_instance

/-- Whether the packets of a batch are in turn can be decided. -/
instance (s : Stream Packet) (l : Label Packet) : Decidable (s.InTurn l) := by
  cases l <;> unfold InTurn <;> infer_instance

/-- The packets of blocks 255, 256 and 257 arrive out of order; their numbers wrap. -/
theorem unmixed_wrapping : ∃ s : Stream (UInt8 × List UInt8),
    s.emitted = [.block 255 [(255, [1])], .block 0 [(0, [2])], .block 1 [(1, [3])]] ∧
    s.Unmixed := by
  have hrun : (LTS.runVia (step Crate.single 1)
      (fun s l => s.Traffic Crate.single l ∧ s.InTurn l) (init _)
      [.arrive (datagramOf 255 [1]) [(255, (255, [1]))], .proceed, .proceed, .proceed, .proceed,
        .arrive (datagramOf 1 [3]) [(257, (1, [3]))], .proceed,
        .arrive (datagramOf 0 [2]) [(256, (0, [2]))], .proceed, .proceed]).map (·.emitted) =
      some [.block 255 [(255, [1])], .block 0 [(0, [2])], .block 1 [(1, [3])]] := by
    decide +kernel
  obtain ⟨s, hs, hemitted⟩ := Option.map_eq_some_iff.mp hrun
  exact ⟨s, hemitted, unmixed (LTS.reachVia_of_runVia hs)⟩

/-- **A packet that is 256 blocks ahead is mixed into the wrong block.** Two packets are needed for
a block. One packet of block 0 arrives, then nothing until one of block 256 does. -/
theorem mixes_blocks : ∃ s : Stream (UInt8 × List UInt8),
    LTS.ReachVia (step Crate.single 2) (Traffic Crate.single) (init _) s ∧ ¬ s.Unmixed := by
  have hrun : (LTS.runVia (step Crate.single 2) (Traffic Crate.single) (init _)
      [.arrive (datagramOf 0 [1]) [(0, (0, [1]))], .proceed, .proceed, .proceed,
        .arrive (datagramOf 0 [2]) [(256, (0, [2]))], .proceed]).map
      (fun s => (s.arrived, s.emitted)) =
      some ([(0, (0, [1])), (256, (0, [2]))], [.block 0 [(0, [1]), (0, [2])]]) := by
    decide +kernel
  obtain ⟨s, hs, heq⟩ := Option.map_eq_some_iff.mp hrun
  obtain ⟨harrived, hemitted⟩ := Prod.mk.inj heq
  refine ⟨s, LTS.reachVia_of_runVia hs, ?_⟩
  rintro ⟨items, hitems, hsub, -⟩
  obtain ⟨b, hb, hpackets⟩ : ∃ b, some b ∈ items ∧
      b.2 = [((0 : UInt8), [(1 : UInt8)]), (0, [2])] := by
    rw [hemitted] at hitems
    obtain ⟨item, hitem, hblock⟩ := List.mem_map.mp (hitems ▸ List.mem_singleton_self _)
    cases item with
    | none => simp at hblock
    | some b =>
      simp only [Option.elim_some, reassembled, Reassembled.block.injEq] at hblock
      exact ⟨b, hitem, hblock.2⟩
  have hlen := (hsub b hb).length_le
  rw [hpackets, harrived, packetsOf] at hlen
  by_cases h₀ : b.1 = 0
  · simp [h₀] at hlen
  · have h₀' : (0 : ℕ) ≠ b.1 := fun h => h₀ h.symm
    by_cases h₁ : 256 = b.1 <;> simp [h₀', h₁] at hlen

end Stream

end Lidi.Receive
