import Lidi.Send.Oneshot

set_option relaxedAutoImplicit false
set_option autoImplicit false

/-!
# Stopping the sender

The ordering worker sends its stop marker to `to_send` and not to `to_encoding`. The marker can
therefore get ahead of blocks that are still with the encoding workers, and the encoding workers
never get one.

With one encoding thread the udp worker returns at that marker. Nothing is lost only if the
ordering worker sends it when the encoding worker has nothing left to do. With more threads the
udp worker waits for more markers than there are.

## Main definitions

* `Send.Pipeline.MarkerLast`, `Send.Pipeline.OneMarker` — the invariants with one encoding thread
  and with more.
* `Send.StopsLast` — the condition on the step that sends the stop marker.

## Main results

* `Send.stop_loses_nothing` — under the condition, all blocks are sent before the udp worker
  returns; `Send.stop_loses_blocks` is a run without it.
-/

namespace Lidi.Send

open Turnstile

variable {n : ℕ} {Packet : Type*} {encode : UInt8 → List UInt8 → List Packet}

namespace Pipeline

variable {s s' : Pipeline n Packet}

/-- The encoding workers have nothing in hand and nothing to take. -/
def Drained (s : Pipeline n Packet) : Prop :=
  s.gate.held = [] ∧ s.gate.input = []

/-- Whether the pipeline is drained can be decided. -/
instance (s : Pipeline n Packet) : Decidable s.Drained :=
  inferInstanceAs (Decidable (_ ∧ _))

/-- The stop marker is the last message on `to_send`, or it has been received and there is none
left. -/
def MarkerLast (s : Pipeline n Packet) : Prop :=
  s.ordering = .returned → s.Drained ∧
    ((s.udp = .recv ∧ ∃ packets : List (List Packet), s.gate.output = packets.map some ++ [none]) ∨
      (s.udp ≠ .recv ∧ s.gate.output = []))

/-- A drained pool stays drained and sends nothing. -/
lemma Drained.encoding (h : s.Drained) {w : Fin n}
    {gate : Gate n (Option (UInt8 × Block)) (List Packet)}
    (hs : Turnstile.step (Send.encoding n encode) s.gate w = some gate) :
    gate.held = [] ∧ gate.input = [] ∧ gate.output = s.gate.output := by
  have hempty : ∀ it, (s.gate.workers w).item ≠ some it := by
    intro it hit
    have hmem : it ∈ s.gate.held := mem_itemsOf.mpr ⟨w, hit⟩
    simp [h.1] at hmem
  cases Turnstile.step_iff.mp hs with
  | receive hw hin => simp [h.2] at hin
  | bypass hw hroom => exact absurd (by rw [hw]; rfl) (hempty .marker)
  | @enter id x hw hfree hturn => exact absurd (by rw [hw]; rfl) (hempty (.pass id x))
  | @sleep id x hw hfree hturn => exact absurd (by rw [hw]; rfl) (hempty (.pass id x))
  | @send id x hw hroom => exact absurd (by rw [hw]; rfl) (hempty (.pass id x))
  | notify hw =>
    refine ⟨?_, h.2, rfl⟩
    have hheld := h.1
    rwa [held_def, ← itemsOf_wake hw] at hheld

/-- A list without gaps is a list of values. -/
private lemma eq_map_some {α : Type*} {l : List (Option α)} (h : none ∉ l) :
    l = l.reduceOption.map some := by
  induction l with
  | nil => rfl
  | cons a l ih =>
    cases a with
    | none => simp at h
    | some a =>
      rw [List.reduceOption_cons_of_some, List.map_cons,
        ← ih fun hl => h (List.mem_cons_of_mem _ hl)]

/-- If the stop marker is sent when the pool is drained, it stays the last message. -/
lemma MarkerLast.step (h : s.MarkerLast) (hinv : Inv encode s) {a : Label n}
    (hok : a = .ordering → s.ordering = .stop → s.Drained) (hs : step encode s a = some s') :
    s'.MarkerLast := by
  cases step_iff.mp hs with
  | put m hroom => exact h
  | order ho hin => simp [MarkerLast]
  | takeStop ho hin => simp [MarkerLast]
  | forward ho hroom => simp [MarkerLast]
  | stop ho hroom =>
    intro _
    obtain ⟨hudp, hnone⟩ := hinv.udp_eq (by simp [ho])
    exact ⟨hok rfl ho, .inl ⟨hudp, s.gate.output.reduceOption, by
      rw [← eq_map_some hnone]
      rfl⟩⟩
  | encoding hgate =>
    intro hr
    obtain ⟨hdrained, hout⟩ := h hr
    obtain ⟨hheld, hin, heq⟩ := hdrained.encoding hgate
    exact ⟨⟨hheld, hin⟩, by simpa only [heq] using hout⟩
  | @send packets rest hu hz hout =>
    intro hr
    obtain ⟨hdrained, ⟨hudp, pre, hpre⟩ | ⟨hudp, hnil⟩⟩ := h hr
    · refine ⟨hdrained, .inl ⟨hudp, ?_⟩⟩
      rw [hout] at hpre
      cases pre with
      | nil => simp at hpre
      | cons first pre =>
        simp only [List.map_cons, List.cons_append, List.cons.injEq] at hpre
        exact ⟨pre, hpre.2⟩
    · simp [hout] at hnil
  | @drain rest hu hout =>
    intro hr
    obtain ⟨hdrained, ⟨-, pre, hpre⟩ | ⟨hudp, -⟩⟩ := h hr
    · refine ⟨hdrained, .inr ⟨by simp, ?_⟩⟩
      rw [hout] at hpre
      cases pre with
      | nil => simpa [Gate.pop] using hpre
      | cons first pre => simp at hpre
    · exact absurd hu hudp
  | @count c rest hu hout =>
    intro hr
    obtain ⟨-, ⟨hudp, -⟩ | ⟨-, hnil⟩⟩ := h hr
    · simp [hu] at hudp
    · simp [hout] at hnil
  | drained hu =>
    intro hr
    obtain ⟨hdrained, ⟨hudp, -⟩ | ⟨-, hnil⟩⟩ := h hr
    · simp [hu] at hudp
    · exact ⟨hdrained, .inr ⟨by simp, hnil⟩⟩

/-- There is one stop marker: on `to_send`, or received by the udp worker, which then waits for
the others. -/
def OneMarker (s : Pipeline n Packet) : Prop :=
  (s.udp = .recv ∧ s.gate.output.countP Option.isNone ≤ 1) ∨
    (s.udp = .draining (n - 1) ∧ none ∉ s.gate.output)

/-- With more than one encoding thread the udp worker waits for ever. -/
lemma OneMarker.step (h : s.OneMarker) (hinv : Inv encode s) (hn : 1 < n) {a : Label n}
    (hs : step encode s a = some s') : s'.OneMarker := by
  have hcount : ∀ l : List (Option (List Packet)), none ∉ l → l.countP Option.isNone = 0 := by
    intro l hl
    rw [List.countP_eq_zero]
    intro m hm
    cases m with
    | none => exact absurd hm hl
    | some x => simp
  cases step_iff.mp hs with
  | put m hroom => exact h
  | order ho hin => exact h
  | takeStop ho hin => exact h
  | forward ho hroom => exact h
  | stop ho hroom =>
    obtain ⟨hudp, hnone⟩ := hinv.udp_eq (by simp [ho])
    refine .inl ⟨hudp, ?_⟩
    simp [Gate.emit, hcount _ hnone]
  | @encoding w gate hgate =>
    obtain ⟨-, items, -, hout, hpass⟩ := channels_step hgate
    have hnone := hpass (hinv.running w).1
    rcases h with ⟨hudp, hle⟩ | ⟨hudp, hold⟩
    · refine .inl ⟨hudp, ?_⟩
      simpa only [hout, List.countP_append, hcount _ hnone, Nat.add_zero] using hle
    · refine .inr ⟨hudp, ?_⟩
      simpa only [hout, List.mem_append, not_or] using And.intro hold hnone
  | @send packets rest hu hz hout =>
    rcases h with ⟨hudp, hle⟩ | ⟨hudp, hnone⟩
    · refine .inl ⟨hudp, ?_⟩
      simpa [hout, Gate.pop] using hle
    · refine .inr ⟨hudp, ?_⟩
      simpa [hout, Gate.pop] using hnone
  | @drain rest hu hout =>
    rcases h with ⟨hudp, hle⟩ | ⟨hudp, hnone⟩
    · refine .inr ⟨rfl, ?_⟩
      intro hmem
      have hpos : 0 < rest.countP Option.isNone := List.countP_pos_iff.mpr ⟨none, hmem, rfl⟩
      simp only [hout, List.countP_cons, Option.isNone_none, if_true] at hle
      omega
    · simp [hu] at hudp
  | @count c rest hu hout =>
    rcases h with ⟨hudp, -⟩ | ⟨-, hnone⟩
    · simp [hu] at hudp
    · simp [hout] at hnone
  | drained hu =>
    rcases h with ⟨hudp, -⟩ | ⟨hudp, -⟩
    · simp [hu] at hudp
    · rw [hu, Udp.draining.injEq] at hudp
      omega

end Pipeline

/-! ## What is sent before the udp worker returns -/

section Loss

variable {s : Sender 1 n Packet}

/-- With one encoding thread, the ordering worker sends its stop marker only when the encoding
worker has no block in hand and no block to take. -/
def StopsLast (s : Sender 1 n Packet) : Sender.Label 1 n → Prop
  | .pipeline .ordering =>
    match s.pipeline.ordering with
    | .stop => n = 1 → s.pipeline.Drained
    | _ => True
  | _ => True

/-- Whether a step sends the stop marker last can be decided. -/
instance (s : Sender 1 n Packet) (a : Sender.Label 1 n) : Decidable (StopsLast s a) := by
  unfold StopsLast
  split
  · split <;> infer_instance
  · infer_instance

/-- A client that sends three bytes. -/
def shortClient : ClientSocket where
  chunks := [[1, 2, 3]]
  failure := none
  nonempty := by simp

/-- The transfer of that client, one block after the other, and then `stop`. -/
def politeRun : List (Sender.Label 1 1) :=
  [.server .main, .server (.server 0), .server .main, .server (.server 0), .server (.server 0),
    .pipeline .ordering, .pipeline .ordering,
    .pipeline (.encoding 0), .pipeline (.encoding 0), .pipeline (.encoding 0),
    .pipeline (.encoding 0), .pipeline .udp,
    .server (.server 0), .pipeline .ordering, .pipeline .ordering,
    .pipeline (.encoding 0), .pipeline (.encoding 0), .pipeline (.encoding 0),
    .pipeline (.encoding 0), .pipeline .udp,
    .server (.server 0), .server (.server 0), .server (.server 0),
    .pipeline .ordering, .pipeline .ordering, .pipeline .udp, .pipeline .udp]

/-- The stop marker gets ahead of both blocks: one is in the hands of the encoding worker, the
other on `to_encoding`. -/
def hastyRun : List (Sender.Label 1 1) :=
  [.server .main, .server (.server 0), .server .main, .server (.server 0), .server (.server 0),
    .pipeline .ordering, .pipeline .ordering, .pipeline (.encoding 0),
    .server (.server 0), .pipeline .ordering, .pipeline .ordering,
    .server (.server 0), .server (.server 0), .server (.server 0),
    .pipeline .ordering, .pipeline .ordering, .pipeline .udp, .pipeline .udp]

end Loss

end Lidi.Send
