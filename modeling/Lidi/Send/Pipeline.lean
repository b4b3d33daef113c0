import Lidi.Core.LTS
import Lidi.Core.TurnstileOrder
import Lidi.Protocol.Block
import Mathlib.Data.List.ReduceOption

set_option relaxedAutoImplicit false
set_option autoImplicit false

/-!
# The sender from `to_ordering` to the socket

The ordering worker numbers the blocks modulo 256, the `n` encoding workers turn them into packets
in parallel and pass them on in the order of the numbers, and the udp worker sends them. The
channels between them have `n` places each. The encoding workers are a turnstile: the turn is
`block_to_send`, an input is a numbered block or a stop marker.

## Main definitions

* `Send.Pipeline` — the state; `put` and `ordered` are histories of what was put on `to_ordering`
  and of the blocks the ordering worker received.
* `Send.Pipeline.step` — the next step of one worker, or a message put on `to_ordering`.
* `Send.Pipeline.Trans` — the kinds of steps.

## Main results

* `Send.Pipeline.step_iff` — the step function does exactly the steps of the relation.
-/

namespace Lidi.Send

open Turnstile

/-- What the ordering worker is doing. -/
inductive Ordering
  | recv
  | forward (block : Block)
  | stop
  | returned

/-- What the udp worker is doing: sending packets, or sending packets until `count` more stop
markers have come, or nothing any more. -/
inductive Udp
  | recv
  | draining (count : ℕ)
  | returned
  deriving DecidableEq

/-- A numbered block, or a stop marker, as an encoding worker treats it. -/
def encodeItem {Packet : Type*} (encode : UInt8 → List UInt8 → List Packet) :
    Option (UInt8 × Block) → Item (List Packet)
  | some (id, block) => .pass id (encode id block.serialized)
  | none => .marker

/-- The encoding workers as a turnstile: `to_send` has `n` places, and a worker that has sent a
stop marker returns. -/
def encoding {Packet : Type*} (n : ℕ) (encode : UInt8 → List UInt8 → List Packet) :
    Params (Option (UInt8 × Block)) (List Packet) where
  classify := encodeItem encode
  capacity := some n
  stops := true

/-- The workers and channels. The `input` of the gate is `to_encoding`, its `output` is `to_send`
and its `turn` is `block_to_send`. `sent` lists the arguments of `udp.send`. -/
structure Pipeline (n : ℕ) (Packet : Type*) where
  toOrdering : List (Option Block)
  ordering : Ordering
  id : UInt8
  gate : Gate n (Option (UInt8 × Block)) (List Packet)
  udp : Udp
  sent : List (List Packet)
  put : List (Option Block)
  ordered : List Block

namespace Pipeline

variable {n : ℕ} {Packet : Type*} {encode : UInt8 → List UInt8 → List Packet}
  {s s' : Pipeline n Packet}

/-- The initial state. -/
def init (n : ℕ) (Packet : Type*) : Pipeline n Packet where
  toOrdering := []
  ordering := .recv
  id := 0
  gate := Gate.init n _ _ 0
  udp := .recv
  sent := []
  put := []
  ordered := []

/-- Which worker takes the step; or a message is put on `to_ordering`. -/
inductive Label (n : ℕ)
  | put (m : Option Block)
  | ordering
  | encoding (w : Fin n)
  | udp

/-- A step of the pipeline itself. -/
def Label.isWorker : Label n → Bool
  | put _ => false
  | _ => true

/-- The next step; `none` if the worker is blocked or has returned. -/
def step (encode : UInt8 → List UInt8 → List Packet) (s : Pipeline n Packet) :
    Label n → Option (Pipeline n Packet)
  | .put m =>
    if HasRoom (some n) s.toOrdering then
      some { s with toOrdering := s.toOrdering ++ [m], put := s.put ++ [m] }
    else none
  | .ordering =>
    match s.ordering with
    | .recv =>
      match s.toOrdering with
      | [] => none
      | some block :: rest =>
        some { s with
          toOrdering := rest
          ordering := .forward block
          ordered := s.ordered ++ [block] }
      | none :: rest => some { s with toOrdering := rest, ordering := .stop }
    | .forward block =>
      if HasRoom (some n) s.gate.input then
        some { s with
          gate := s.gate.push (some (s.id, block))
          id := s.id + 1
          ordering := .recv }
      else none
    | .stop =>
      if HasRoom (some n) s.gate.output then
        some { s with gate := s.gate.emit none, ordering := .returned }
      else none
    | .returned => none
  | .encoding w => (Turnstile.step (Send.encoding n encode) s.gate w).map ({ s with gate := · })
  | .udp =>
    match s.udp, s.gate.output with
    | .recv, some packets :: rest =>
      some { s with gate := s.gate.pop rest, sent := s.sent ++ [packets] }
    | .recv, none :: rest => some { s with gate := s.gate.pop rest, udp := .draining (n - 1) }
    | .draining (_ + 1), some packets :: rest =>
      some { s with gate := s.gate.pop rest, sent := s.sent ++ [packets] }
    | .draining (count + 1), none :: rest =>
      some { s with gate := s.gate.pop rest, udp := .draining count }
    | .draining 0, _ => some { s with udp := .returned }
    | _, _ => none

/-- The kinds of steps. -/
inductive Trans (encode : UInt8 → List UInt8 → List Packet) (s : Pipeline n Packet) :
    Label n → Pipeline n Packet → Prop
  | put (m : Option Block) (hroom : HasRoom (some n) s.toOrdering) :
      Trans encode s (.put m) { s with toOrdering := s.toOrdering ++ [m], put := s.put ++ [m] }
  | order {block : Block} {rest : List (Option Block)} (ho : s.ordering = .recv)
      (hin : s.toOrdering = some block :: rest) :
      Trans encode s .ordering { s with
        toOrdering := rest
        ordering := .forward block
        ordered := s.ordered ++ [block] }
  | takeStop {rest : List (Option Block)} (ho : s.ordering = .recv)
      (hin : s.toOrdering = none :: rest) :
      Trans encode s .ordering { s with toOrdering := rest, ordering := .stop }
  | forward {block : Block} (ho : s.ordering = .forward block)
      (hroom : HasRoom (some n) s.gate.input) :
      Trans encode s .ordering { s with
        gate := s.gate.push (some (s.id, block))
        id := s.id + 1
        ordering := .recv }
  | stop (ho : s.ordering = .stop) (hroom : HasRoom (some n) s.gate.output) :
      Trans encode s .ordering { s with gate := s.gate.emit none, ordering := .returned }
  | encoding {w : Fin n} {gate : Gate n (Option (UInt8 × Block)) (List Packet)}
      (hgate : Turnstile.step (Send.encoding n encode) s.gate w = some gate) :
      Trans encode s (.encoding w) { s with gate := gate }
  | send {packets : List Packet} {rest : List (Option (List Packet))} (hu : s.udp ≠ .returned)
      (hz : s.udp ≠ .draining 0) (hout : s.gate.output = some packets :: rest) :
      Trans encode s .udp { s with gate := s.gate.pop rest, sent := s.sent ++ [packets] }
  | drain {rest : List (Option (List Packet))} (hu : s.udp = .recv)
      (hout : s.gate.output = none :: rest) :
      Trans encode s .udp { s with gate := s.gate.pop rest, udp := .draining (n - 1) }
  | count {count : ℕ} {rest : List (Option (List Packet))} (hu : s.udp = .draining (count + 1))
      (hout : s.gate.output = none :: rest) :
      Trans encode s .udp { s with gate := s.gate.pop rest, udp := .draining count }
  | drained (hu : s.udp = .draining 0) : Trans encode s .udp { s with udp := .returned }

/-- The step function does exactly the steps of the relation. -/
theorem step_iff {a : Label n} : step encode s a = some s' ↔ Trans encode s a s' := by
  constructor
  · intro h
    cases a with
    | put m =>
      by_cases hroom : HasRoom (some n) s.toOrdering
      · simp only [step, if_pos hroom, Option.some.injEq] at h
        exact h ▸ .put m hroom
      · simp only [step, if_neg hroom, reduceCtorEq] at h
    | ordering =>
      cases ho : s.ordering with
      | recv =>
        cases hin : s.toOrdering with
        | nil => simp [step, ho, hin] at h
        | cons m rest =>
          cases m with
          | none =>
            simp only [step, ho, hin, Option.some.injEq] at h
            exact h ▸ .takeStop ho hin
          | some block =>
            simp only [step, ho, hin, Option.some.injEq] at h
            exact h ▸ .order ho hin
      | forward block =>
        by_cases hroom : HasRoom (some n) s.gate.input
        · simp only [step, ho, if_pos hroom, Option.some.injEq] at h
          exact h ▸ .forward ho hroom
        · simp only [step, ho, if_neg hroom, reduceCtorEq] at h
      | stop =>
        by_cases hroom : HasRoom (some n) s.gate.output
        · simp only [step, ho, if_pos hroom, Option.some.injEq] at h
          exact h ▸ .stop ho hroom
        · simp only [step, ho, if_neg hroom, reduceCtorEq] at h
      | returned => simp [step, ho] at h
    | encoding w =>
      simp only [step, Option.map_eq_some_iff] at h
      obtain ⟨gate, hg, rfl⟩ := h
      exact .encoding hg
    | udp =>
      cases hu : s.udp with
      | recv =>
        cases hout : s.gate.output with
        | nil => simp [step, hu, hout] at h
        | cons m rest =>
          cases m with
          | none =>
            simp only [step, hu, hout, Option.some.injEq] at h
            exact h ▸ .drain hu hout
          | some packets =>
            simp only [step, hu, hout, Option.some.injEq] at h
            have ht := @Trans.send _ _ encode s _ _ (by simp [hu]) (by simp [hu]) hout
            rw [hu] at ht
            exact h ▸ ht
      | draining count =>
        cases count with
        | zero =>
          simp only [step, hu, Option.some.injEq] at h
          exact h ▸ .drained hu
        | succ count =>
          cases hout : s.gate.output with
          | nil => simp [step, hu, hout] at h
          | cons m rest =>
            cases m with
            | none =>
              simp only [step, hu, hout, Option.some.injEq] at h
              exact h ▸ .count hu hout
            | some packets =>
              simp only [step, hu, hout, Option.some.injEq] at h
              have ht := @Trans.send _ _ encode s _ _ (by simp [hu]) (by simp [hu]) hout
              rw [hu] at ht
              exact h ▸ ht
      | returned => simp [step, hu] at h
  · intro h
    cases h with
    | put m hroom => simp [step, hroom]
    | order ho hin => simp [step, ho, hin]
    | takeStop ho hin => simp [step, ho, hin]
    | forward ho hroom => simp [step, ho, hroom]
    | stop ho hroom => simp [step, ho, hroom]
    | encoding hgate => simp [step, hgate]
    | send hu hz hout =>
      cases hudp : s.udp with
      | recv => simp [step, hudp, hout]
      | draining count =>
        cases count with
        | zero => exact absurd hudp hz
        | succ count => simp [step, hudp, hout]
      | returned => exact absurd hudp hu
    | drain hu hout => simp [step, hu, hout]
    | count hu hout => simp [step, hu, hout]
    | drained hu => simp [step, hu]

end Pipeline

end Lidi.Send
