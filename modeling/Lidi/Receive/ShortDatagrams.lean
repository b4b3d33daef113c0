import Lidi.Receive.ReblockRun

set_option relaxedAutoImplicit false
set_option autoImplicit false

/-!
# Datagrams that are too short

Nothing between the socket and the reblock worker looks at the length of a datagram. The worker
deserializes each one, which panics if it has less than the four bytes of the payload id, and it
takes the first one of a batch by its index after a reset, which panics if the batch is empty.

## Main definitions

* `Receive.Reblock.Survives` — the worker gets through a batch without a panic, and datagrams that
  are too short are dropped.
* `Receive.Reblock.Readable` — what a batch must be like.

## Main results

* `Receive.Reblock.survives_iff` — the worker survives exactly the readable batches.
* `Receive.Reblock.survives_run` — it never panics in a run with readable batches.
-/

namespace Lidi.Receive

/-- A list of options is defined if all of its entries are. -/
lemma mapM_eq_none_iff {α β : Type*} {f : α → Option β} {l : List α} :
    l.mapM f = none ↔ ∃ a ∈ l, f a = none := by
  induction l with
  | nil => simp
  | cons a l ih =>
    cases ha : f a with
    | none => simp [List.mapM_cons, ha]
    | some b =>
      cases hl : l.mapM f with
      | none => simpa [List.mapM_cons, ha, hl] using ih.mp hl
      | some bs =>
        have hnone : ¬ ∃ a ∈ l, f a = none := fun hex => by
          rw [ih.mpr hex] at hl
          cases hl
        simpa [List.mapM_cons, ha, hl] using hnone

/-- Every datagram has the four bytes of the payload id. -/
def Datagrams.Long (datagrams : Datagrams) : Prop :=
  ∀ d ∈ datagrams.toList, 4 ≤ d.length

namespace Reblock

variable {Packet : Type*} {crate : Crate Packet} {minNbPackets : ℕ} {s s' : Reblock Packet}
  {datagrams : Datagrams}

/-- The current block and the slots are the same. -/
structure SameSlots (s s' : Reblock Packet) : Prop where
  curId_eq : s.curId = s'.curId
  blocksData_eq : s.blocksData = s'.blocksData
  blocksIgnore_eq : s.blocksIgnore = s'.blocksIgnore

/-- The worker proceeds by itself. -/
def proceed (crate : Crate Packet) (minNbPackets : ℕ) (s : Reblock Packet) (_ : Unit) :
    Option (Reblock Packet) :=
  (s.next crate minNbPackets .proceed).map Prod.fst

/-- The worker does not panic on a batch, however far it proceeds. A batch of datagrams that are
too short leaves the current block and the slots as they were, and in another batch such datagrams
make no difference. -/
structure Survives (crate : Crate Packet) (minNbPackets : ℕ) (s : Reblock Packet)
    (datagrams : Datagrams) : Prop where
  no_panic : ∀ s', LTS.Reach (proceed crate minNbPackets) (s.onDatagrams crate datagrams) s' →
    s'.phase ≠ .panicked
  unchanged : (∀ d ∈ datagrams.toList, d.length < 4) →
    SameSlots (s.onDatagrams crate datagrams) s
  dropped : ∀ others : Datagrams,
    others.toList = datagrams.toList.filter (4 ≤ ·.length) → others.toList ≠ [] →
    SameSlots (s.onDatagrams crate datagrams) (s.onDatagrams crate others)

/-- No datagram of the batch is too short, and after a reset there is a first one. -/
def Readable (s : Reblock Packet) (datagrams : Datagrams) : Prop :=
  datagrams.Long ∧ (s.reset = true → datagrams.toList ≠ [])

/-- The worker has not panicked, and the batch that it has in hand is not going to make it. -/
def Safe (s : Reblock Packet) : Prop :=
  s.phase ≠ .panicked ∧
    ∀ datagrams, s.phase = .publish datagrams ∨ s.phase = .wake datagrams → datagrams.Long

/-- A worker with no batch in hand is safe. -/
lemma Safe.of_phase (h : s.phase = .recv ∨ s.phase = .loop ∨ s.phase = .tooFar) : s.Safe := by
  rcases h with h | h | h <;> exact ⟨by simp [h], by simp [h]⟩

section Deserialize

variable (hcrate : ∀ d, crate.deserialize d = none ↔ d.length < 4)
include hcrate

/-- Storing a batch panics exactly if one of its datagrams is too short. -/
lemma phase_store_iff (s : Reblock Packet) (datagrams : Datagrams) :
    (s.store crate datagrams).phase = .panicked ↔ ¬ datagrams.Long := by
  have hnone : datagrams.toList.mapM crate.deserialize = none ↔ ¬ datagrams.Long := by
    simp [mapM_eq_none_iff, hcrate, Datagrams.Long]
  rw [← hnone]
  unfold store
  split
  · rename_i h
    simp [h]
  · rename_i packets h
    simp [h]

/-- A reset panics exactly if there is no first datagram or it is too short. -/
lemma phase_resync_iff (s : Reblock Packet) (datagrams : Datagrams) :
    (s.resync crate datagrams).phase = .panicked ↔
      ∀ d ∈ datagrams.toList.head?, d.length < 4 := by
  have hnone : datagrams.toList.head?.bind crate.deserialize = none ↔
      ∀ d ∈ datagrams.toList.head?, d.length < 4 := by
    simp [Option.bind_eq_none_iff, hcrate]
  rw [← hnone]
  unfold resync
  split
  · rename_i h
    simp [h]
  · rename_i packet h
    simp [h]

/-- A batch that is long is stored. -/
lemma Safe.store (h : datagrams.Long) (s : Reblock Packet) : (s.store crate datagrams).Safe := by
  have hphase := (s.phase_store crate datagrams).resolve_right fun hp =>
    (phase_store_iff hcrate s datagrams).mp hp h
  exact .of_phase (.inr (.inl hphase))

/-- **A readable batch is safe.** -/
lemma Safe.onDatagrams (h : s.Readable datagrams) : (s.onDatagrams crate datagrams).Safe := by
  obtain ⟨hlong, hfirst⟩ := h
  unfold Reblock.onDatagrams
  split
  · rename_i hr
    have hsome : ¬ ∀ d ∈ datagrams.toList.head?, d.length < 4 := by
      intro hshort
      obtain ⟨d, ds, hd⟩ := List.exists_cons_of_ne_nil (hfirst hr)
      have hlt := hshort d (by simp [hd])
      have hle := hlong d (by simp [hd])
      omega
    have hphase := (s.phase_resync crate datagrams).resolve_right fun hp =>
      hsome ((phase_resync_iff hcrate s datagrams).mp hp)
    refine ⟨by simp [hphase], fun ds hds => ?_⟩
    rw [hphase] at hds
    simp only [Reblocking.publish.injEq, reduceCtorEq, or_false] at hds
    exact hds ▸ hlong
  · exact .store hcrate hlong s

/-- **The worker stays safe.** -/
lemma Safe.next {input : Input} {events : List (Event Packet)} (h : s.Safe)
    (hin : ∀ ds, input = .datagrams ds → s.Readable ds)
    (hnext : s.next crate minNbPackets input = some (s', events)) : s'.Safe := by
  cases trans_of_next hnext with
  | resync hp hr =>
    have hsafe := Safe.onDatagrams hcrate (hin _ rfl)
    rwa [Reblock.onDatagrams, if_pos hr] at hsafe
  | store hp hr => exact .store hcrate (hin _ rfl).1 s
  | timeout hp => exact .of_phase (.inl hp)
  | publish hp => exact ⟨by simp, by simpa using h.2 _ (.inl hp)⟩
  | wake hp => exact .store hcrate (h.2 _ (.inr hp)) _
  | loop hp hres =>
    cases hres with
    | incomplete => exact .of_phase (.inl rfl)
    | complete => exact .of_phase (.inr (.inl hp))
    | tooFar => exact .of_phase (.inr (.inr rfl))
  | tooFar hp => exact .of_phase (.inl rfl)

/-- A batch that is not readable makes the worker panic: at once, or after a reset for its first
datagram. -/
lemma panics_of_not_readable (h : ¬ s.Readable datagrams) (minNbPackets : ℕ) :
    ∃ s', LTS.Reach (proceed crate minNbPackets) (s.onDatagrams crate datagrams) s' ∧
      s'.phase = .panicked := by
  cases hr : s.reset with
  | false =>
    have hshort : ¬ datagrams.Long := fun hlong => h ⟨hlong, by simp [hr]⟩
    refine ⟨_, .refl, ?_⟩
    rw [onDatagrams, hr, if_neg (by simp)]
    exact (phase_store_iff hcrate s datagrams).mpr hshort
  | true =>
    rw [onDatagrams, hr, if_pos rfl]
    rcases s.phase_resync crate datagrams with hp | hp
    · -- The first datagram is long, so another one is too short.
      have hsome : ¬ ∀ d ∈ datagrams.toList.head?, d.length < 4 := fun hshort => by
        rw [(phase_resync_iff hcrate s datagrams).mpr hshort] at hp
        cases hp
      have hshort : ¬ datagrams.Long := fun hlong => h ⟨hlong, fun _ hnil => hsome (by simp [hnil])⟩
      have hpublish : proceed crate minNbPackets (s.resync crate datagrams) () =
          some { s.resync crate datagrams with phase := .wake datagrams } := by
        rw [proceed, next_publish hp, Option.map_some]
      have hwake : proceed crate minNbPackets
          { s.resync crate datagrams with phase := .wake datagrams } () =
          some (Reblock.store crate (openWindow { s.resync crate datagrams with
            phase := .wake datagrams }) datagrams) := by
        rw [proceed, next_wake rfl, Option.map_some]
      exact ⟨_, (LTS.ReachVia.refl.tail trivial hpublish).tail trivial hwake,
        (phase_store_iff hcrate _ datagrams).mpr hshort⟩
    · exact ⟨_, .refl, hp⟩

/-- **The worker survives exactly the readable batches.** -/
lemma survives_iff (minNbPackets : ℕ) (s : Reblock Packet) (datagrams : Datagrams) :
    Survives crate minNbPackets s datagrams ↔ s.Readable datagrams := by
  constructor
  · intro h
    by_contra hnot
    obtain ⟨s', hreach, hp⟩ := panics_of_not_readable hcrate hnot minNbPackets
    exact h.no_panic s' hreach hp
  · intro h
    refine ⟨fun s' hreach => ?_, fun hshort => ?_, fun others hothers _ => ?_⟩
    · have hsafe : s'.Safe := by
        apply hreach.invariant (P := Safe) (.onDatagrams hcrate h)
        intro t _ t' _ ht _ hstep
        simp only [proceed, Option.map_eq_some_iff] at hstep
        obtain ⟨res, hres, rfl⟩ := hstep
        exact ht.next hcrate (by simp) hres
      exact hsafe.1
    · -- There is no datagram at all, and so no reset.
      have hnil : datagrams.toList = [] := by
        apply List.eq_nil_iff_forall_not_mem.mpr
        intro d hd
        have hlt := hshort d hd
        have hle := h.1 d hd
        omega
      have hr : ¬ s.reset = true := fun hr => h.2 hr hnil
      rw [onDatagrams, if_neg hr, store, hnil]
      exact ⟨rfl, rfl, rfl⟩
    · have hsame : others.toList = datagrams.toList := by
        rw [hothers, List.filter_eq_self]
        exact fun d hd => by simpa using h.1 d hd
      unfold onDatagrams
      split
      · unfold resync
        rw [hsame]
        split <;> exact ⟨rfl, rfl, rfl⟩
      · unfold store
        rw [hsame]
        exact ⟨rfl, rfl, rfl⟩

end Deserialize

/-- **When the worker survives.** A batch is survived exactly if it is readable, and in a run whose
batches are all readable the worker never panics. -/
theorem survives_run (hcrate : ∀ d, crate.deserialize d = none ↔ d.length < 4) :
    (∀ minNbPackets (s : Reblock Packet) datagrams,
      Survives crate minNbPackets s datagrams ↔ s.Readable datagrams) ∧
    ∀ (n : ℕ) (raptorq : RaptorQ) (s : Core n Packet),
      LTS.ReachVia (Core.step crate raptorq)
        (fun s a => ∀ datagrams, a = .datagrams datagrams → s.reblock.Readable datagrams)
        (Core.init n Packet) s →
      s.reblock.phase ≠ .panicked := by
  refine ⟨survives_iff hcrate, fun n raptorq s hreach => ?_⟩
  have hsafe : s.reblock.Safe := by
    apply hreach.invariant (P := fun t => t.reblock.Safe) (.of_phase (.inl rfl))
    intro t a t' _ ht hok hstep
    rcases (Core.step_iff.mp hstep).reblock with ⟨heq, -⟩ | ⟨input, res, hres, heq, -, hin⟩
    · rwa [heq]
    · rw [heq]
      exact ht.next hcrate (fun ds hds => hok ds (hin ds hds)) hres
  exact hsafe.1

/-- The smallest geometry. -/
theorem survives_run_single :
    Survives Crate.single 1 (.init _) (datagramOf 0 []) ∧
    ¬ Survives Crate.single 1 (.init _) (.multiple []) := by
  have hcrate : ∀ d, Crate.single.deserialize d = none ↔ d.length < 4 := by
    intro d
    simp [Crate.single]
  obtain ⟨hiff, -⟩ := survives_run hcrate
  constructor
  · refine (hiff _ _ _).mpr ⟨?_, ?_⟩ <;> simp [Datagrams.Long, Datagrams.toList, datagramOf,
      Crate.single]
  · intro h
    exact ((hiff _ _ _).mp h).2 rfl rfl

/-- An empty datagram as the first one makes the worker panic. -/
theorem not_survives_empty : ¬ Survives Crate.single 1 (.init _) (.single []) := by
  intro h
  exact h.no_panic _ .refl rfl

end Reblock

end Lidi.Receive
