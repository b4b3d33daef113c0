import Lidi.Core.LTS
import Lidi.Receive.Reblock

set_option relaxedAutoImplicit false
set_option autoImplicit false

/-!
# The reblock worker on its own

What the reblock worker does depends on the datagrams and the timeouts only, and not on the other
workers. Here it takes its steps alone, with a history of what happens to the packets.

## Main definitions

* `Receive.Event` — a packet is put into its slot, something is emitted, the slots are emptied.
* `Receive.Reblock.next` — the next step of the worker, with its events.
* `Receive.Reblock.WellFormed` — the invariant: while the worker is not about to reset, the open
  slots are a window of 127 that starts at the current block, and the other slots are empty.
* `Receive.Reblock.Processes` — how the worker handles a sequence of datagrams.

## Main results

* `Receive.Reblock.WellFormed.step` — every step keeps the invariant.
* `Receive.Reblock.WellFormed.damaged_eq` — the test at the timeout never finds any damage.
* `Receive.Core.Trans.reblock` — within the receiver the worker takes the same steps.
-/

namespace Lidi.Receive

open Function

/-- What happens to packets: one is put into its slot, something is emitted, or all slots are
emptied. -/
inductive Event (Packet : Type*)
  | accepted (id : UInt8) (packet : Packet)
  | emitted (r : Reassembled Packet)
  | cleared
  deriving DecidableEq

/-- What is emitted. -/
def emittedOf {Packet : Type*} (events : List (Event Packet)) : List (Reassembled Packet) :=
  events.filterMap fun
    | .emitted r => some r
    | _ => none

section EmittedOf

variable {Packet : Type*} (events events' : List (Event Packet))

/-- No events emit nothing. -/
@[simp]
lemma emittedOf_nil : emittedOf ([] : List (Event Packet)) = [] := rfl

/-- What two runs of events emit. -/
@[simp]
lemma emittedOf_append : emittedOf (events ++ events') = emittedOf events ++ emittedOf events' :=
  List.filterMap_append

/-- What emissions emit. -/
@[simp]
lemma emittedOf_map_emitted (items : List (Reassembled Packet)) :
    emittedOf (items.map .emitted) = items := by
  simp [emittedOf, List.filterMap_map]

/-- A packet that is stored is no emission. -/
@[simp]
lemma emittedOf_map_accepted (number : Packet → UInt8) (packets : List Packet) :
    emittedOf (packets.map fun p => .accepted (number p) p) = [] := by
  simp [emittedOf, List.filterMap_map]

/-- What an emission emits. -/
@[simp]
lemma emittedOf_emitted (r : Reassembled Packet) :
    emittedOf [(.emitted r : Event Packet)] = [r] := rfl

/-- A reset is no emission. -/
@[simp]
lemma emittedOf_cleared : emittedOf [(.cleared : Event Packet)] = [] := rfl

end EmittedOf

namespace Reblock

variable {Packet : Type*} {crate : Crate Packet} {minNbPackets : ℕ} {s s' : Reblock Packet}
  {events : List (Event Packet)}

/-- The packets of the datagrams that are put into their slots. -/
def acceptances (crate : Crate Packet) (s : Reblock Packet) (datagrams : Datagrams) :
    List Packet :=
  match datagrams.toList.mapM crate.deserialize with
  | none => []
  | some packets => packets.filter fun p => !s.blocksIgnore (crate.sourceBlockNumber p)

/-- The events of putting packets into their slots. -/
def acceptedEvents (crate : Crate Packet) (packets : List Packet) : List (Event Packet) :=
  packets.map fun p => .accepted (crate.sourceBlockNumber p) p

/-- Datagrams arrive, the reset timeout fires, or the worker proceeds. -/
inductive Input
  | datagrams (datagrams : Datagrams)
  | timeout
  | proceed
  deriving DecidableEq

/-- The next step of the worker, with its events; `none` if it waits or has panicked. -/
def next (crate : Crate Packet) (minNbPackets : ℕ) (s : Reblock Packet) :
    Input → Option (Reblock Packet × List (Event Packet))
  | .datagrams datagrams =>
    if s.phase = .recv then
      some (s.onDatagrams crate datagrams, if s.reset then [.cleared]
        else acceptedEvents crate (s.acceptances crate datagrams))
    else none
  | .timeout =>
    if s.phase = .recv then some (s.onTimeout.1, s.onTimeout.2.map .emitted) else none
  | .proceed =>
    match s.phase with
    | .publish datagrams => some ({ s with phase := .wake datagrams }, [])
    | .wake datagrams =>
      some (s.openWindow.store crate datagrams,
        acceptedEvents crate (s.openWindow.acceptances crate datagrams))
    | .loop => some ((s.emission minNbPackets).1, (s.emission minNbPackets).2.map .emitted)
    | .tooFar => some (s.onTooFar.1, s.onTooFar.2.map .emitted)
    | .recv | .panicked => none

/-- The kinds of steps. -/
inductive Trans (crate : Crate Packet) (minNbPackets : ℕ) (s : Reblock Packet) :
    Input → Reblock Packet → List (Event Packet) → Prop
  | resync {datagrams : Datagrams} (hp : s.phase = .recv) (hr : s.reset = true) :
      Trans crate minNbPackets s (.datagrams datagrams) (s.resync crate datagrams) [.cleared]
  | store {datagrams : Datagrams} (hp : s.phase = .recv) (hr : s.reset = false) :
      Trans crate minNbPackets s (.datagrams datagrams) (s.store crate datagrams)
        (acceptedEvents crate (s.acceptances crate datagrams))
  | timeout (hp : s.phase = .recv) :
      Trans crate minNbPackets s .timeout { s with reset := true }
        ((if s.damaged then [.error] else []).map .emitted)
  | publish {datagrams : Datagrams} (hp : s.phase = .publish datagrams) :
      Trans crate minNbPackets s .proceed { s with phase := .wake datagrams } []
  | wake {datagrams : Datagrams} (hp : s.phase = .wake datagrams) :
      Trans crate minNbPackets s .proceed (s.openWindow.store crate datagrams)
        (acceptedEvents crate (s.openWindow.acceptances crate datagrams))
  | loop {res : Reblock Packet × List (Reassembled Packet)} (hp : s.phase = .loop)
      (hres : EmissionResult minNbPackets s res) :
      Trans crate minNbPackets s .proceed res.1 (res.2.map .emitted)
  | tooFar (hp : s.phase = .tooFar) :
      Trans crate minNbPackets s .proceed { s with reset := true, phase := .recv }
        [.emitted .error]

section Next

variable {datagrams : Datagrams}

/-- The step that writes `block_to_dispatch`. -/
lemma next_publish (hp : s.phase = .publish datagrams) :
    next crate minNbPackets s .proceed = some ({ s with phase := .wake datagrams }, []) := by
  simp only [next, hp]

/-- The step that wakes the decoding threads and stores the batch. -/
lemma next_wake (hp : s.phase = .wake datagrams) : next crate minNbPackets s .proceed =
    some (s.openWindow.store crate datagrams,
      acceptedEvents crate (s.openWindow.acceptances crate datagrams)) := by
  simp only [next, hp]

variable (crate minNbPackets) in
/-- The step that emits the current block, or waits. -/
lemma next_loop (hp : s.phase = .loop) : next crate minNbPackets s .proceed =
    some ((s.emission minNbPackets).1, (s.emission minNbPackets).2.map .emitted) := by
  simp only [next, hp]

/-- A worker that waits does not proceed. -/
lemma next_of_recv (hp : s.phase = .recv) : next crate minNbPackets s .proceed = none := by
  simp only [next, hp]

end Next

/-- Every step is one of these. -/
theorem trans_of_next {a : Input} (h : next crate minNbPackets s a = some (s', events)) :
    Trans crate minNbPackets s a s' events := by
  cases a with
  | datagrams ds =>
    by_cases hp : s.phase = .recv
    · simp only [next, if_pos hp, Option.some.injEq, Prod.mk.injEq] at h
      obtain ⟨rfl, rfl⟩ := h
      cases hr : s.reset with
      | true =>
        simp only [onDatagrams, hr, if_true]
        exact .resync hp hr
      | false =>
        simp only [onDatagrams, hr, Bool.false_eq_true, if_false]
        exact .store hp hr
    · simp only [next, if_neg hp, reduceCtorEq] at h
  | timeout =>
    by_cases hp : s.phase = .recv
    · simp only [next, if_pos hp, Option.some.injEq, Prod.mk.injEq] at h
      obtain ⟨rfl, rfl⟩ := h
      exact .timeout hp
    · simp only [next, if_neg hp, reduceCtorEq] at h
  | proceed =>
    cases hp : s.phase with
    | recv => simp [next, hp] at h
    | publish ds =>
      simp only [next, hp, Option.some.injEq, Prod.mk.injEq] at h
      obtain ⟨rfl, rfl⟩ := h
      exact .publish hp
    | wake ds =>
      simp only [next, hp, Option.some.injEq, Prod.mk.injEq] at h
      obtain ⟨rfl, rfl⟩ := h
      exact .wake hp
    | loop =>
      simp only [next, hp, Option.some.injEq, Prod.mk.injEq] at h
      obtain ⟨rfl, rfl⟩ := h
      exact .loop hp (s.emission_eq minNbPackets)
    | tooFar =>
      simp only [next, hp, Option.some.injEq, Prod.mk.injEq] at h
      obtain ⟨rfl, rfl⟩ := h
      exact .tooFar hp
    | panicked => simp [next, hp] at h

/-! ## The slots -/

/-- What is in the slots after some packets have been stored. -/
lemma blocksData_foldl (crate : Crate Packet) (s : Reblock Packet) (packets : List Packet)
    (id : UInt8) : (packets.foldl (storePacket crate) s).blocksData id = s.blocksData id ++
      (packets.filter fun p => !s.blocksIgnore (crate.sourceBlockNumber p)).filter
        (crate.sourceBlockNumber · = id) := by
  induction packets generalizing s with
  | nil => simp
  | cons p ps ih =>
    rw [List.foldl_cons, ih, blocksIgnore_storePacket]
    cases hp : s.blocksIgnore (crate.sourceBlockNumber p) with
    | true => simp [storePacket, hp]
    | false =>
      by_cases hid : crate.sourceBlockNumber p = id
      · subst hid
        simp [storePacket, hp]
      · have hne : id ≠ crate.sourceBlockNumber p := Ne.symm hid
        simp [storePacket, hp, hid, update_of_ne hne]

/-- **What is in the slots after some datagrams have been stored.** -/
theorem blocksData_store (crate : Crate Packet) (s : Reblock Packet) (datagrams : Datagrams)
    (id : UInt8) : (s.store crate datagrams).blocksData id = s.blocksData id ++
      (s.acceptances crate datagrams).filter (crate.sourceBlockNumber · = id) := by
  cases h : datagrams.toList.mapM crate.deserialize with
  | none => simp [store, acceptances, h]
  | some packets => simpa [store, acceptances, h] using blocksData_foldl crate s packets id

/-- Only packets of open slots are accepted. -/
lemma blocksIgnore_of_mem_acceptances {datagrams : Datagrams} {p : Packet}
    (h : p ∈ s.acceptances crate datagrams) :
    s.blocksIgnore (crate.sourceBlockNumber p) = false := by
  unfold acceptances at h
  split at h
  · simp at h
  · simpa using (List.mem_filter.mp h).2

/-! ## The window -/

/-- The slot at the other end of the window is another one. -/
lemma opposite_ne (s : Reblock Packet) : s.curId + windowWidth ≠ s.curId := by
  intro heq
  have hzero := congrArg (· - s.curId) heq
  rw [UInt8.sub_self, UInt8.add_comm, UInt8.add_sub_cancel] at hzero
  cases hzero

/-- The worker is collecting packets, and not about to reset. -/
def Live (s : Reblock Packet) : Prop :=
  s.phase = .loop ∨ s.phase = .recv ∧ s.reset = false

/-- **The invariant of the window.** -/
structure WellFormed (s : Reblock Packet) : Prop where
  empty : ∀ id, s.blocksIgnore id = true → s.blocksData id = []
  live : s.Live → ∀ id, s.blocksIgnore id = false ↔ (id - s.curId).toNat < windowWidth.toNat
  cleared : ∀ datagrams, s.phase = .publish datagrams ∨ s.phase = .wake datagrams →
    s.reset = false ∧ ∀ id, s.blocksIgnore id = true
  phase_ne : s.phase ≠ .tooFar

namespace WellFormed

/-- The invariant holds at the start. -/
lemma init : (Reblock.init Packet).WellFormed where
  empty := by simp [Reblock.init]
  live := by simp [Live, Reblock.init]
  cleared := by simp [Reblock.init]
  phase_ne := by simp [Reblock.init]

/-- The test at the timeout never finds any damage: a slot that is ignored is empty. -/
theorem damaged_eq (h : s.WellFormed) : s.damaged = false := by
  rw [damaged, List.any_eq_false]
  intro id _
  cases hid : s.blocksIgnore (UInt8.ofNat id) with
  | false => simp
  | true => simp [h.empty _ hid]

/-- The slot at the other end of the window is ignored. -/
lemma opposite_ignored (h : s.WellFormed) (hlive : s.Live) :
    s.blocksIgnore (s.curId + windowWidth) = true := by
  have hiff := h.live hlive (s.curId + windowWidth)
  have hdist : s.curId + windowWidth - s.curId = windowWidth := by
    rw [UInt8.add_comm, UInt8.add_sub_cancel]
  rw [hdist] at hiff
  simpa using hiff

/-- The slot at the other end of the window is empty. -/
lemma opposite_eq (h : s.WellFormed) (hlive : s.Live) :
    s.blocksData (s.curId + windowWidth) = [] :=
  h.empty _ (h.opposite_ignored hlive)

/-- Storing datagrams keeps the window. -/
lemma store (hempty : ∀ id, s.blocksIgnore id = true → s.blocksData id = [])
    (hlive : ∀ id, s.blocksIgnore id = false ↔ (id - s.curId).toNat < windowWidth.toNat)
    (datagrams : Datagrams) : (s.store crate datagrams).WellFormed := by
  obtain ⟨hcur, -, hignore⟩ := s.store_eq crate datagrams
  refine ⟨fun id hid => ?_, fun _ => by rwa [hcur, hignore], fun ds hds => ?_, fun hp => ?_⟩
  · rw [hignore] at hid
    rw [blocksData_store, hempty id hid, List.nil_append, List.filter_eq_nil_iff]
    intro p hp
    have hopen := blocksIgnore_of_mem_acceptances hp
    simp only [decide_eq_true_eq]
    rintro rfl
    rw [hid] at hopen
    cases hopen
  · rcases s.phase_store crate datagrams with hph | hph <;> simp [hph] at hds
  · rcases s.phase_store crate datagrams with hph | hph <;> simp [hph] at hp

/-- The window that is opened after a reset. -/
lemma openWindow_live (hclosed : ∀ id, s.blocksIgnore id = true) (id : UInt8) :
    s.openWindow.blocksIgnore id = false ↔
      (id - s.openWindow.curId).toNat < windowWidth.toNat := by
  simp [openWindow, hclosed]

/-- The window after a block has been emitted. -/
lemma slide (hlive : ∀ id, s.blocksIgnore id = false ↔ (id - s.curId).toNat < windowWidth.toNat)
    (id : UInt8) :
    update (update s.blocksIgnore s.curId true) (s.curId + windowWidth) false id = false ↔
      (id - (s.curId + 1)).toNat < windowWidth.toNat := by
  have hwidth : windowWidth.toNat = 127 := rfl
  by_cases hcur : id = s.curId
  · subst hcur
    have hdist : (s.curId - (s.curId + 1)).toNat = 255 := by
      have hlt := s.curId.toNat_lt
      simp only [UInt8.toNat_sub, UInt8.toNat_add, UInt8.toNat_ofNat]
      omega
    rw [update_of_ne s.opposite_ne.symm, update_self, hdist]
    simp [hwidth]
  · have hdist := UInt8.toNat_sub_add_one hcur
    by_cases hopp : id = s.curId + windowWidth
    · have hid : id - s.curId = windowWidth := by
        rw [hopp, UInt8.add_comm, UInt8.add_sub_cancel]
      rw [hid] at hdist
      rw [← hopp, update_self]
      simp only [true_iff]
      omega
    · have hne : (id - s.curId).toNat ≠ 127 := by
        intro heq
        apply hopp
        have hsub : id - s.curId = windowWidth := UInt8.toNat_inj.mp heq
        rw [← hsub, UInt8.add_comm, UInt8.sub_add_cancel]
      rw [update_of_ne hopp, update_of_ne hcur, hlive id]
      omega

/-- **Every step keeps the invariant.** -/
theorem step {a : Input} (h : s.WellFormed) (ht : Trans crate minNbPackets s a s' events) :
    s'.WellFormed := by
  cases ht with
  | resync hp hr =>
    simp only [Reblock.resync]
    split
    · exact ⟨by simp, by simp [Live], by simp, by simp⟩
    · exact ⟨by simp, by simp [Live], by simp, by simp⟩
  | store hp hr => exact .store h.empty (h.live (.inr ⟨hp, hr⟩)) _
  | timeout hp => exact ⟨h.empty, by simp [Live, hp], by simp [hp], by simp [hp]⟩
  | publish hp =>
    obtain ⟨hr, hclosed⟩ := h.cleared _ (.inl hp)
    exact ⟨h.empty, by simp [Live], fun _ _ => ⟨hr, hclosed⟩, by simp⟩
  | wake hp =>
    obtain ⟨-, hclosed⟩ := h.cleared _ (.inr hp)
    have hempty : ∀ id, s.openWindow.blocksIgnore id = true → s.openWindow.blocksData id = [] :=
      fun id _ => h.empty id (hclosed id)
    exact .store hempty (openWindow_live hclosed) _
  | loop hp hres =>
    have hlive := h.live (.inl hp)
    cases hres with
    | incomplete hlen =>
      refine ⟨h.empty, fun hl => ?_, by simp, by simp⟩
      exact hlive
    | complete hlen hopp =>
      refine ⟨fun id hid => ?_, fun _ => slide hlive, by simp [hp], by simp [hp]⟩
      by_cases hcur : id = s.curId
      · subst hcur
        simp
      · simp only [update_of_ne hcur]
        by_cases hid' : id = s.curId + windowWidth
        · subst hid'
          simp at hid
        · simp only [update_of_ne hid', update_of_ne hcur] at hid
          exact h.empty id hid
    | tooFar hlen hopp =>
      by_cases hcur : s.curId + windowWidth = s.curId
      · rw [hcur, update_self] at hopp
        exact absurd rfl hopp
      · rw [update_of_ne hcur] at hopp
        exact absurd (h.opposite_eq (.inl hp)) hopp
  | tooFar hp => exact absurd hp h.phase_ne

/-- A step never emits an error. -/
lemma error_notMem {a : Input} (h : s.WellFormed) (ht : Trans crate minNbPackets s a s' events) :
    Reassembled.error ∉ emittedOf events := by
  cases ht with
  | resync => simp
  | store => simp [acceptedEvents]
  | timeout => simp [h.damaged_eq]
  | publish => simp
  | wake => simp [acceptedEvents]
  | loop hp hres => cases hres <;> simp
  | tooFar hp => exact absurd hp h.phase_ne

end WellFormed

/-! ## Whole batches -/

/-- The worker proceeds until it waits for datagrams again; `out` is what it emits. -/
inductive Settles (crate : Crate Packet) (minNbPackets : ℕ) :
    Reblock Packet → List (Reassembled Packet) → Reblock Packet → Prop
  | waiting {s : Reblock Packet} (hp : s.phase = .recv) : Settles crate minNbPackets s [] s
  | proceed {s t s' : Reblock Packet} {events : List (Event Packet)}
      {out : List (Reassembled Packet)}
      (hs : next crate minNbPackets s .proceed = some (t, events))
      (h : Settles crate minNbPackets t out s') :
      Settles crate minNbPackets s (emittedOf events ++ out) s'

/-- The worker receives a sequence of batches without a timeout and finishes with each of them
before the next one; `out` is what it emits. -/
inductive Processes (crate : Crate Packet) (minNbPackets : ℕ) :
    Reblock Packet → List Datagrams → List (Reassembled Packet) → Reblock Packet → Prop
  | nil {s : Reblock Packet} : Processes crate minNbPackets s [] [] s
  | cons {s t u s' : Reblock Packet} {datagrams : Datagrams} {batches : List Datagrams}
      {events : List (Event Packet)} {out out' : List (Reassembled Packet)}
      (hs : next crate minNbPackets s (.datagrams datagrams) = some (t, events))
      (hsettles : Settles crate minNbPackets t out u)
      (h : Processes crate minNbPackets u batches out' s') :
      Processes crate minNbPackets s (datagrams :: batches) (out ++ out') s'

section Deterministic

variable {s₁ s₂ : Reblock Packet} {out₁ out₂ : List (Reassembled Packet)}
  {batches : List Datagrams}

/-- How the worker settles is determined. -/
lemma Settles.unique (h₁ : Settles crate minNbPackets s out₁ s₁)
    (h₂ : Settles crate minNbPackets s out₂ s₂) : out₁ = out₂ ∧ s₁ = s₂ := by
  induction h₁ generalizing out₂ with
  | waiting hp =>
    cases h₂ with
    | waiting => exact ⟨rfl, rfl⟩
    | proceed hs =>
      rw [next_of_recv hp] at hs
      cases hs
  | proceed hs _ ih =>
    cases h₂ with
    | waiting hp =>
      rw [next_of_recv hp] at hs
      cases hs
    | proceed hs' h' =>
      rw [hs, Option.some.injEq, Prod.mk.injEq] at hs'
      obtain ⟨rfl, rfl⟩ := hs'
      obtain ⟨rfl, rfl⟩ := ih h'
      exact ⟨rfl, rfl⟩

/-- **What the worker emits is determined by what it receives.** -/
theorem Processes.unique (h₁ : Processes crate minNbPackets s batches out₁ s₁)
    (h₂ : Processes crate minNbPackets s batches out₂ s₂) : out₁ = out₂ ∧ s₁ = s₂ := by
  induction h₁ generalizing out₂ with
  | nil =>
    cases h₂
    exact ⟨rfl, rfl⟩
  | cons hs hsettles _ ih =>
    cases h₂ with
    | cons hs' hsettles' h' =>
      rw [hs, Option.some.injEq, Prod.mk.injEq] at hs'
      obtain ⟨rfl, rfl⟩ := hs'
      obtain ⟨rfl, rfl⟩ := hsettles.unique hsettles'
      obtain ⟨rfl, rfl⟩ := ih h'
      exact ⟨rfl, rfl⟩

end Deterministic

end Reblock

/-! ## Runs with a history -/

/-- The worker with what has happened so far. -/
structure History (Packet : Type*) where
  worker : Reblock Packet
  events : List (Event Packet)

namespace History

variable {Packet : Type*} {crate : Crate Packet} {minNbPackets : ℕ} {s s' : History Packet}
  {ok : History Packet → Reblock.Input → Prop}

/-- Nothing has happened. -/
def init (Packet : Type*) : History Packet where
  worker := .init Packet
  events := []

/-- The next step of the worker. -/
def step (crate : Crate Packet) (minNbPackets : ℕ) (s : History Packet) (a : Reblock.Input) :
    Option (History Packet) :=
  (s.worker.next crate minNbPackets a).map fun res => ⟨res.1, s.events ++ res.2⟩

/-- A step adds its events. -/
lemma trans_of_step {a : Reblock.Input} (h : step crate minNbPackets s a = some s') :
    ∃ events, Reblock.Trans crate minNbPackets s.worker a s'.worker events ∧
      s'.events = s.events ++ events := by
  simp only [step, Option.map_eq_some_iff] at h
  obtain ⟨res, hres, rfl⟩ := h
  exact ⟨res.2, Reblock.trans_of_next hres, rfl⟩

/-- **The window is well formed in every reachable state.** -/
theorem wellFormed (h : LTS.ReachVia (step crate minNbPackets) ok (init Packet) s) :
    s.worker.WellFormed := by
  refine h.invariant (P := fun t => t.worker.WellFormed) Reblock.WellFormed.init ?_
  intro t a t' _ ht _ hs
  obtain ⟨events, htrans, -⟩ := trans_of_step hs
  exact ht.step htrans

/-- **The worker never reports a loss.** -/
theorem error_notMem (h : LTS.ReachVia (step crate minNbPackets) ok (init Packet) s) :
    Reassembled.error ∉ emittedOf s.events := by
  refine h.invariant (P := fun t => Reassembled.error ∉ emittedOf t.events) (by simp [init]) ?_
  intro t a t' hreach ht _ hs
  obtain ⟨events, htrans, hev⟩ := trans_of_step hs
  rw [hev, emittedOf_append, List.mem_append, not_or]
  exact ⟨ht, (wellFormed hreach).error_notMem htrans⟩

end History

/-! ## Within the receiver -/

/-- Items put on `to_decode` are recorded in the history. -/
@[simp]
lemma Core.emitted_emitAll {n : ℕ} {Packet : Type*} (d : Decoding n Packet)
    (items : List (Reassembled Packet)) :
    (Core.emitAll d items).emitted = d.emitted ++ items := by
  induction items generalizing d with
  | nil => simp [Core.emitAll]
  | cons r rs ih =>
    have := ih (d.emit r)
    simpa [Core.emitAll, Decoding.emit] using this

/-- **Within the receiver the worker takes the same steps.** Every step of the receiver either
leaves the worker and what it has emitted alone, or is a step of the worker, with the same
datagrams. -/
theorem Core.Trans.reblock {n : ℕ} {Packet : Type*} {crate : Crate Packet} {raptorq : RaptorQ}
    {s s' : Core n Packet} {a : Core.Label n} (h : Core.Trans crate raptorq s a s') :
    s'.reblock = s.reblock ∧ s'.decoding.emitted = s.decoding.emitted ∨
      ∃ input res, Reblock.next crate raptorq.minNbPackets.toNat s.reblock input = some res ∧
        s'.reblock = res.1 ∧
        s'.decoding.emitted = s.decoding.emitted ++ emittedOf res.2 ∧
        ∀ datagrams, input = .datagrams datagrams → a = .datagrams datagrams := by
  cases h with
  | datagrams ds hp =>
    refine .inr ⟨.datagrams ds, _, if_pos hp, rfl, ?_, by simp⟩
    by_cases hr : s.reblock.reset = true <;> simp [hr, Reblock.acceptedEvents]
  | timeout hp =>
    refine .inr ⟨.timeout, _, if_pos hp, rfl, ?_, by simp⟩
    simp
  | publish hp hfree => exact .inr ⟨.proceed, _, Reblock.next_publish hp, rfl, by simp, by simp⟩
  | wake hp =>
    exact .inr ⟨.proceed, _, Reblock.next_wake hp, rfl, by simp [Reblock.acceptedEvents], by simp⟩
  | loop hp => exact .inr ⟨.proceed, _, Reblock.next_loop _ _ hp, rfl, by simp, by simp⟩
  | tooFar hp =>
    refine .inr ⟨.proceed, _, by simp only [Reblock.next, hp]; rfl, rfl, ?_, by simp⟩
    simp
  | decode hd =>
    cases hd with
    | decode hgate => exact .inl ⟨rfl, rfl⟩
  | dispatch hd =>
    cases hd with
    | dispatch hout => exact .inl ⟨rfl, rfl⟩

end Lidi.Receive
