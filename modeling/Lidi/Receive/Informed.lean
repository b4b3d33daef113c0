import Lidi.Core.Marked
import Lidi.Receive.Delivery
import Lidi.Receive.DemuxRun

set_option relaxedAutoImplicit false
set_option autoImplicit false

/-!
# Losses that the dispatch worker is told of

Some of the blocks that are sent never get to the dispatch worker. It gets a marker in the place of
a block that does not decode, and then aborts all active transfers. Other blocks are lost without
a marker. That does no harm if none of them is of a transfer that is active when the dispatch
worker gets there, and whether one can be active is known from the messages before.

## Main definitions

* `Receive.activeAfter`, `Receive.viewOf` — the clients with an active transfer, as far as the
  messages tell.
* `Receive.Unmissed` — a block is of no active transfer.
* `Receive.Informed` — every block that is lost without a marker is of no active transfer.

## Main results

* `Receive.Informed.receive`, `Receive.Informed.clientStep` — the steps of the dispatch worker and
  of the client workers.
* `Receive.Informed.item`, `Receive.Informed.marker`, `Receive.Informed.jump` — what is put on the
  way to the dispatch worker, and what is not.
* `Receive.Informed.delivered` — when all messages have been received.
-/

namespace Lidi.Receive

open Function

variable {k : ℕ} {stream : List Block} {received pending : List (Option Block)} {e : ℕ}
  {s s' : Demux k} {b : Block} {view : ClientId → Bool} {m : Option Block} {config : Config}

/-- The clients with an active transfer after a message, as far as the messages tell. -/
def activeAfter (view : ClientId → Bool) : Option Block → ClientId → Bool
  | none => fun _ => false
  | some b =>
    match b.addressee with
    | some (id, .start) => update view id true
    | some (id, .abort) => update view id false
    | some (id, .end) => update view id false
    | _ => view

/-- The clients with an active transfer after some messages, as far as these tell. -/
def viewOf (messages : List (Option Block)) : ClientId → Bool :=
  messages.foldl activeAfter fun _ => false

/-- The block is of no active transfer. -/
def Unmissed (view : ClientId → Bool) (b : Block) : Prop :=
  ∀ id, b.IsOf id → view id = false

/-- Whether a block is of no active transfer can be decided. -/
instance (view : ClientId → Bool) (b : Block) : Decidable (Unmissed view b) :=
  haveI : Decidable (∀ id ∈ b.clientId, b.IsOf id → view id = false) :=
    Option.decidableForallMem _
  decidable_of_iff (∀ id ∈ b.clientId, b.IsOf id → view id = false)
    ⟨fun h id hb => h id hb.1 hb, fun h id _ hb => h id hb⟩

/-- One more message changes the view. -/
@[simp]
lemma viewOf_append (messages : List (Option Block)) (m : Option Block) :
    viewOf (messages ++ [m]) = activeAfter (viewOf messages) m := by
  simp [viewOf]

/-- **No transfer is active but those that the messages tell of.** -/
lemma Demux.Received.active (h : Demux.Received config s m s') (hrunning : s'.dispatch = none)
    (hview : ∀ id, s.active id ≠ none → view id = true) (id : ClientId)
    (hactive : s'.active id ≠ none) : activeAfter view m id = true := by
  cases h with
  | lost hget => exact absurd rfl hactive
  | stopped hlt => cases hrunning
  | ignored hb => simpa [activeAfter, hb] using hview id hactive
  | @start b id' hb =>
    simp only [activeAfter, hb]
    by_cases hid : id = id'
    · rw [hid, update_self]
    · rw [update_of_ne hid]
      refine hview id ?_
      simpa [Demux.register, update_of_ne hid] using hactive
  | @inactive b id' type hb htype hnone =>
    have hne : id ≠ id' := by
      rintro rfl
      exact hactive hnone
    cases type with
    | start => exact absurd rfl htype
    | heartbeat | data => simpa [activeAfter, hb] using hview id hactive
    | abort | «end» => simpa [activeAfter, hb, update_of_ne hne] using hview id hactive
  | @gone b id' type q t hb htype hsome ht hdropped =>
    have hne : id ≠ id' := by
      rintro rfl
      exact hactive (update_self ..)
    have hold : s.active id ≠ none := by simpa [update_of_ne hne] using hactive
    cases type with
    | start => exact absurd rfl htype
    | heartbeat | data => simpa [activeAfter, hb] using hview id hold
    | abort | «end» => simpa [activeAfter, hb, update_of_ne hne] using hview id hold
  | data hb hsome ht hopen => simpa [activeAfter, hb] using hview id hactive
  | @last b id' type q t hb htype hsome ht hopen =>
    have hne : id ≠ id' := by
      rintro rfl
      exact hactive (update_self ..)
    have hold : s.active id ≠ none := by simpa [update_of_ne hne] using hactive
    rcases htype with rfl | rfl <;> simpa [activeAfter, hb, update_of_ne hne] using hview id hold

/-- The active transfers are there, if the queues have got what they should. -/
lemma Delivered.valid (h : Delivered stream s) : s.Valid := fun id q hactive => by
  obtain ⟨t, ht, hid, -⟩ := h.active id q hactive
  exact ⟨t, ht, hid⟩

/-- **The invariant of the dispatch worker.** Of the blocks `stream`, those up to some position have
got to the dispatch worker, as the messages `received`, or are lost; those from there up to position
`e` are on their way as the messages `pending`, or are lost. -/
def Informed (stream : List Block) (received pending : List (Option Block)) (e : ℕ)
    (s : Demux k) : Prop :=
  ∃ pos, Delivered (stream.take pos) s ∧ (pos ≤ stream.length ∨ ∀ id, s.active id = none) ∧
    (s.dispatch = none → Marked activeAfter Unmissed stream (viewOf received) pos pending e ∧
      ∀ id, s.active id ≠ none → viewOf received id = true)

namespace Informed

/-- The invariant holds at the start. -/
lemma init (stream : List Block) : Informed stream [] [] 0 (Demux.init k) :=
  ⟨0, .init k, .inl (Nat.zero_le _), fun _ => ⟨.nil, by simp [Demux.init]⟩⟩

/-- A block is put on the way. -/
lemma item (h : Informed stream received pending e s) (hb : stream[e]? = some b) :
    Informed stream received (pending ++ [some b]) (e + 1) s := by
  obtain ⟨pos, hdel, hahead, hrun⟩ := h
  exact ⟨pos, hdel, hahead, fun hr => ⟨(hrun hr).1.append_item hb, (hrun hr).2⟩⟩

/-- A marker is put on the way in the place of a block. -/
lemma marker (h : Informed stream received pending e s) :
    Informed stream received (pending ++ [none]) (e + 1) s := by
  obtain ⟨pos, hdel, hahead, hrun⟩ := h
  exact ⟨pos, hdel, hahead, fun hr => ⟨(hrun hr).1.append_marker, (hrun hr).2⟩⟩

/-- Blocks that will not be missed are lost without a marker. -/
lemma jump (h : Informed stream received pending e s) {i : ℕ} (hle : e ≤ i)
    (hlt : i ≤ stream.length)
    (hmissed : ∀ b ∈ (stream.take i).drop e, Unmissed (viewOf (received ++ pending)) b) :
    Informed stream received pending i s := by
  obtain ⟨pos, hdel, hahead, hrun⟩ := h
  have hview : viewOf (received ++ pending) = pending.foldl activeAfter (viewOf received) := by
    rw [viewOf, List.foldl_append, viewOf]
  rw [hview] at hmissed
  exact ⟨pos, hdel, hahead, fun hr => ⟨(hrun hr).1.skipAll hle hlt hmissed, (hrun hr).2⟩⟩

/-- More blocks are sent. -/
lemma mono (h : Informed stream received pending e s) (more : List Block) :
    Informed (stream ++ more) received pending e s := by
  obtain ⟨pos, hdel, hahead, hrun⟩ := h
  refine ⟨pos, ?_, ?_, fun hr => ⟨(hrun hr).1.mono (List.prefix_append _ _), (hrun hr).2⟩⟩
  · rcases hahead with hle | hnone
    · rwa [List.take_append_of_le_length hle]
    · rw [List.take_append]
      exact hdel.skip hnone _
  · refine hahead.imp_left fun hle => ?_
    rw [List.length_append]
    omega

/-- **The client workers.** -/
lemma clientStep (h : Informed stream received pending e s) {w : Fin k} {answer : Client.Answer}
    (ht : Demux.ClientTrans config s w answer s') : Informed stream received pending e s' := by
  have haside : Demux.Aside s s' :=
    Demux.aside_of_step (a := .client w answer) (Demux.clientStep_iff.mpr ht) nofun
  obtain ⟨pos, hdel, hahead, hrun⟩ := h
  refine ⟨pos, hdel.clientStep ht, ?_, fun hr => ?_⟩
  · rwa [haside.active_eq]
  · rw [haside.active_eq]
    exact hrun (haside.dispatch_eq.symm.trans hr)

/-- A block that is not missed makes no difference to the queues. -/
lemma delivered_skip {i : ℕ} (hdel : Delivered (stream.take i) s) (hb : stream[i]? = some b)
    (hview : ∀ id, s.active id ≠ none → view id = true) (hmissed : Unmissed view b) :
    Delivered (stream.take (i + 1)) s := by
  rw [List.take_add_one, hb]
  by_cases hof : ∃ id, b.IsOf id
  · obtain ⟨id, hof⟩ := hof
    refine hdel.drop hof ?_
    by_contra hactive
    have htrue := hview id hactive
    rw [hmissed id hof] at htrue
    cases htrue
  · exact hdel.ignore fun id hof' => hof ⟨id, hof'⟩

/-- **The dispatch worker receives the next message.**

**Proof sketch.** Blocks that are lost before the message are not missed, so the queues are as if
they had been received. Then the message is the next block, or a marker; after a marker no transfer
is active, so it does not matter which block has been lost. -/
theorem receive {raptorq : RaptorQ} (h : Informed stream received (m :: pending) e s)
    (hrunning : s.dispatch = none) (hsource : Source raptorq stream) (config : Config) :
    Informed stream (received ++ [m]) pending e (s.receive config m) := by
  obtain ⟨pos, hdel, hahead, hrun⟩ := h
  obtain ⟨hmarked, hview⟩ := hrun hrunning
  obtain ⟨i, ⟨hdel, hahead⟩, hitem, hrest⟩ := hmarked.receive
    (P := fun i => Delivered (stream.take i) s ∧ (i ≤ stream.length ∨ ∀ id, s.active id = none))
    ⟨hdel, hahead⟩ fun i a hP ha hmissed =>
      ⟨delivered_skip hP.1 ha hview hmissed, .inl (List.getElem?_eq_some_iff.mp ha).1⟩
  have hvalid : s.Valid := fun id q hactive => by
    obtain ⟨t, ht, hid, -⟩ := hdel.active id q hactive
    exact ⟨t, ht, hid⟩
  have hreceived := Demux.received_of_receive hvalid config m
  have hactive := fun hr => hreceived.active hr hview
  rw [← viewOf_append] at hrest hactive
  cases m with
  | some b =>
    have hb := hitem b rfl
    have htake : stream.take (i + 1) = stream.take i ++ [b] := by
      rw [List.take_add_one, hb]
      rfl
    have hsource' : Source raptorq (stream.take i ++ [b]) := by
      rw [← htake]
      rw [← List.take_append_drop (i + 1) stream] at hsource
      exact hsource.of_append
    obtain ⟨type, id, data, hcarries⟩ := hsource'.carries b (by simp)
    refine ⟨i + 1, ?_, .inl (List.getElem?_eq_some_iff.mp hb).1, fun hr => ⟨hrest, hactive hr⟩⟩
    rw [htake]
    refine hdel.receive config hcarries fun htype => ?_
    exact (hsource'.start_iff hcarries (by simp [htype])).mp htype
  | none =>
    obtain ⟨hlose, hinactive⟩ := hdel.lose config
    cases hr : (s.receive config none).dispatch with
    | none =>
      have hnone := hinactive hr
      refine ⟨i + 1, ?_, .inr hnone, fun _ => ⟨hrest, hactive hr⟩⟩
      rw [List.take_add]
      exact hlose.skip hnone _
    | some f =>
      refine ⟨i, hlose, hahead.imp_right fun hnone => ?_, fun hr' => by simp [hr] at hr'⟩
      generalize s.receive config none = s' at hreceived
      cases hreceived with
      | lost hget => exact fun _ => rfl
      | stopped hlt => exact hnone

/-- The next message is a marker, or the block after those that the queues have got what they should
of. -/
lemma exists_pos (h : Informed stream received (m :: pending) e s) (hrunning : s.dispatch = none) :
    ∃ i, Delivered (stream.take i) s ∧ ∀ b ∈ m, stream[i]? = some b := by
  obtain ⟨pos, hdel, -, hrun⟩ := h
  obtain ⟨hmarked, hview⟩ := hrun hrunning
  obtain ⟨i, hdel, hitem, -⟩ := hmarked.receive (P := fun i => Delivered (stream.take i) s) hdel
    fun i b hP hb hmissed => delivered_skip hP hb hview hmissed
  exact ⟨i, hdel, hitem⟩

/-- With no message on its way, the queues have got what they should of all blocks up to the
position. -/
lemma delivered (h : Informed stream received [] e s) (hrunning : s.dispatch = none) :
    Delivered (stream.take e) s := by
  obtain ⟨pos, hdel, -, hrun⟩ := h
  obtain ⟨hmarked, hview⟩ := hrun hrunning
  exact hmarked.caughtUp (P := fun i => Delivered (stream.take i) s) hdel
    fun i b hP hb hmissed => delivered_skip hP hb hview hmissed

end Informed

end Lidi.Receive
