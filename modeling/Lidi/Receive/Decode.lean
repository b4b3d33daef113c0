import Lidi.Core.TurnstileOrder
import Lidi.Core.TurnstileRun
import Lidi.Protocol.Block

set_option relaxedAutoImplicit false
set_option autoImplicit false

/-!
# The decoding threads of the receiver

The decoding threads take what the reblock worker has reassembled, decode it in parallel and pass
the blocks on to the dispatch worker in the order of their numbers. They are a turnstile whose
turn is `block_to_dispatch`; a loss marker, and a block that fails to decode, is passed on as
`None` without waiting for a turn. The channels are unbounded.

## Main definitions

* `Receive.Reassembled` — what the reblock worker sends.
* `Receive.decoding` — the decoding threads as a turnstile.
* `Receive.Decoding` — the threads with their channels; `emitted` and `received` are histories of
  what was put on `to_decode` and of what the dispatch worker received.
* `Receive.Decoding.step` — the next step of a thread or of the dispatch worker, or an emission.

## Main results

* `Receive.Decoding.Inv.step` — the invariant that needs no assumption on what is emitted.
-/

namespace Lidi.Receive

open Turnstile

/-- `receive::Reassembled`. -/
inductive Reassembled (Packet : Type*)
  | error
  | block (id : UInt8) (packets : List Packet)
  deriving DecidableEq

/-- The number of a reassembled block. -/
def Reassembled.id? {Packet : Type*} : Reassembled Packet → Option UInt8
  | error => none
  | block id _ => some id

/-- A reassembled block, or a loss marker, as a decoding thread treats it. -/
def decodeItem {Packet : Type*} (decode : UInt8 → List Packet → Option (List UInt8)) :
    Reassembled Packet → Item Block
  | .error => .marker
  | .block id packets =>
    match decode id packets with
    | none => .marker
    | some block => .pass id (.deserialize block)

/-- A block that decodes keeps its number. -/
lemma decodeItem_block {Packet : Type*} {decode : UInt8 → List Packet → Option (List UInt8)}
    {id : UInt8} {packets : List Packet}
    (h : (decodeItem decode (.block id packets)).isPass = true) :
    ∃ x, decodeItem decode (.block id packets) = .pass id x := by
  simp only [decodeItem] at h ⊢
  split at h
  · simp at h
  · rename_i block _
    exact ⟨.deserialize block, rfl⟩

/-- The decoding threads as a turnstile: `to_dispatch` is unbounded and the threads run for
ever. -/
def decoding {Packet : Type*} (decode : UInt8 → List Packet → Option (List UInt8)) :
    Params (Reassembled Packet) Block where
  classify := decodeItem decode
  capacity := none
  stops := false

/-- The decoding threads and their channels. The `input` of the gate is `to_decode`, its `output`
is `to_dispatch` and its `turn` is `block_to_dispatch`. -/
structure Decoding (n : ℕ) (Packet : Type*) where
  gate : Gate n (Reassembled Packet) Block
  received : List (Option Block)
  emitted : List (Reassembled Packet)

namespace Decoding

variable {n : ℕ} {Packet : Type*} {decode : UInt8 → List Packet → Option (List UInt8)}
  {s s' : Decoding n Packet}

/-- The initial state. -/
def init (n : ℕ) (Packet : Type*) (turn : UInt8) : Decoding n Packet where
  gate := Gate.init n _ _ turn
  received := []
  emitted := []

/-- Something is put on `to_decode`, a decoding thread moves, or the dispatch worker receives. -/
inductive Label (n : ℕ) (Packet : Type*)
  | emit (r : Reassembled Packet)
  | decode (w : Fin n)
  | dispatch

/-- Something is put on `to_decode`. -/
def emit (s : Decoding n Packet) (r : Reassembled Packet) : Decoding n Packet :=
  { s with gate := s.gate.push r, emitted := s.emitted ++ [r] }

/-- The next step; `none` if the thread is blocked. -/
def step (decode : UInt8 → List Packet → Option (List UInt8)) (s : Decoding n Packet) :
    Label n Packet → Option (Decoding n Packet)
  | .emit r => some (s.emit r)
  | .decode w => (Turnstile.step (decoding decode) s.gate w).map ({ s with gate := · })
  | .dispatch =>
    match s.gate.output with
    | [] => none
    | m :: rest => some { s with gate := s.gate.pop rest, received := s.received ++ [m] }

/-- The kinds of steps. -/
inductive Trans (decode : UInt8 → List Packet → Option (List UInt8)) (s : Decoding n Packet) :
    Label n Packet → Decoding n Packet → Prop
  | emit (r : Reassembled Packet) : Trans decode s (.emit r) (s.emit r)
  | decode {w : Fin n} {gate : Gate n (Reassembled Packet) Block}
      (hgate : Turnstile.step (decoding decode) s.gate w = some gate) :
      Trans decode s (.decode w) { s with gate := gate }
  | dispatch {m : Option Block} {rest : List (Option Block)} (hout : s.gate.output = m :: rest) :
      Trans decode s .dispatch { s with gate := s.gate.pop rest, received := s.received ++ [m] }

/-- The step function does exactly the steps of the relation. -/
theorem step_iff {a : Label n Packet} : step decode s a = some s' ↔ Trans decode s a s' := by
  constructor
  · intro h
    cases a with
    | emit r =>
      simp only [step, Option.some.injEq] at h
      exact h ▸ .emit r
    | decode w =>
      simp only [step, Option.map_eq_some_iff] at h
      obtain ⟨gate, hgate, rfl⟩ := h
      exact .decode hgate
    | dispatch =>
      cases hout : s.gate.output with
      | nil => simp [step, hout] at h
      | cons m rest =>
        simp only [step, hout, Option.some.injEq] at h
        exact h ▸ .dispatch hout
  · intro h
    cases h with
    | emit r => rfl
    | decode hgate => simp [step, hgate]
    | dispatch hout => simp [step, hout]

/-- The invariant that needs no assumption on what is emitted: the discipline of the turnstile,
and an account of both channels. -/
structure Inv (decode : UInt8 → List Packet → Option (List UInt8)) (s : Decoding n Packet) :
    Prop where
  gate : Turnstile.Inv (decoding decode) s.gate
  running : ∀ w, s.gate.workers w ≠ .done
  emitted_eq : s.emitted = s.gate.taken ++ s.gate.input
  received_eq : s.gate.sent.map Item.msg = s.received ++ s.gate.output

/-- The invariant holds at the start. -/
lemma Inv.init (decode : UInt8 → List Packet → Option (List UInt8)) (turn : UInt8) :
    Inv decode (init n Packet turn) where
  gate := Turnstile.Inv.init _ _
  running := by simp [Decoding.init, Gate.init]
  emitted_eq := rfl
  received_eq := rfl

/-- An emission keeps the invariant. -/
lemma Inv.emit (h : Inv decode s) (r : Reassembled Packet) : Inv decode (s.emit r) where
  gate := h.gate.push r
  running := h.running
  emitted_eq := by simp [Decoding.emit, Gate.push, h.emitted_eq]
  received_eq := h.received_eq

/-- So does a step of a decoding thread. -/
lemma Inv.thread (h : Inv decode s) {w : Fin n} {gate : Gate n (Reassembled Packet) Block}
    (hs : Turnstile.step (decoding decode) s.gate w = some gate) :
    Inv decode { s with gate := gate } := by
  obtain ⟨hin, items, hsent, hout, -⟩ := channels_step hs
  exact ⟨h.gate.step hs, ne_done_of_step rfl h.running hs,
    by rw [h.emitted_eq, hin], by simp [hsent, hout, h.received_eq]⟩

/-- So does writing `block_to_dispatch`, while nobody holds the mutex. -/
lemma Inv.setTurn (h : Inv decode s) (hfree : s.gate.locked = false) (id : UInt8) :
    Inv decode { s with gate := s.gate.setTurn id } where
  gate := h.gate.setTurn hfree id
  running := h.running
  emitted_eq := h.emitted_eq
  received_eq := h.received_eq

/-- So does the notification after it. -/
lemma Inv.wakeAll (h : Inv decode s) : Inv decode { s with gate := s.gate.wakeAll } where
  gate := h.gate.wakeAll
  running w := by
    have hrun := h.running w
    simp only [Gate.wakeAll]
    cases hph : s.gate.workers w <;> simp_all [Phase.wake]
  emitted_eq := h.emitted_eq
  received_eq := h.received_eq

/-- No wake-up is lost while `block_to_dispatch` is left to the decoding threads. -/
lemma awake_step (h : Awake s.gate) {a : Label n Packet} (hs : step decode s a = some s') :
    Awake s'.gate := by
  cases step_iff.mp hs with
  | decode hgate => exact h.step hgate
  | _ => exact h

/-- **Every step keeps the invariant.** -/
theorem Inv.step (h : Inv decode s) {a : Label n Packet} (hs : step decode s a = some s') :
    Inv decode s' := by
  cases step_iff.mp hs with
  | emit r => exact h.emit r
  | decode hgate => exact h.thread hgate
  | dispatch hout =>
    exact ⟨h.gate.pop _, h.running, h.emitted_eq, by simp [h.received_eq, hout, Gate.pop]⟩

end Decoding

end Lidi.Receive
