import Lidi.Core.Pool
import Lidi.Send.Client

set_option relaxedAutoImplicit false
set_option autoImplicit false

/-!
# The server workers and what feeds them

The part of the sender before `to_ordering`: the threads that call `Sender::new_client` and
`Sender::stop`, the server workers, and the heartbeat worker. A step of this part may put one
message on `to_ordering`; the channel itself belongs to the rest of the sender, which says whether
it has room.

## Main definitions

* `Send.Servers` — the state; `started` is a history of the clients that got a number.
* `Send.Servers.step` — the next step of one worker, with the message it puts on `to_ordering`.

## Main results

* `Send.Servers.step_iff` — the steps as a relation.
-/

namespace Lidi.Send

/-- A client socket, as the answers of its reads. -/
abbrev ClientSocket := Reader UInt8 IoError

/-- The part of `send::Config` that these workers use. -/
structure Config where
  raptorq : RaptorQ
  flush : Bool
  nbEncodeThreads : ℕ
  heartbeat : Bool

/-- What a server worker is doing: waiting for a client, waiting for the semaphore, running the
client worker, sending the `Abort` of a failed client, sending the stop markers; or it has
returned or failed. The client worker is given by the blocks it still has to send and by its
result. -/
inductive Server
  | recv
  | wait (client : ClientSocket)
  | client (id : ClientId) (blocks : List Block) (res : Outcome Error Unit)
  | abort (id : ClientId) (block : Block)
  | stopping (left : ℕ)
  | returned
  | failed (f : Fault Error)

/-- The workers before `to_ordering`: the calls that are still to be made of `new_client`
(`some`) and `stop` (`none`), the channel `to_server`, the `m` server workers, the semaphore and
the counter of the client numbers. -/
structure Servers (m : ℕ) where
  todo : List (Option ClientSocket)
  toServer : List (Option ClientSocket)
  workers : Fin m → Server
  multiplexControl : ℕ
  clientIdCounter : ClientId
  started : List ClientSocket

namespace Servers

open Function

variable {m : ℕ} {cfg : Config} {room : Bool} {s s' : Servers m} {out : List (Option Block)}

/-- The initial state, with one permit of the semaphore for each server worker. -/
def init (m : ℕ) (todo : List (Option ClientSocket)) : Servers m where
  todo := todo
  toServer := []
  workers := fun _ => .recv
  multiplexControl := m
  clientIdCounter := 0
  started := []

/-- Which worker takes the step. -/
inductive Label (m : ℕ)
  | main
  | server (w : Fin m)
  | heartbeat
  deriving DecidableEq

/-- The permits that a server worker gives back when its client worker has returned: none if it
has panicked. -/
def signals : Outcome Error Unit → ℕ
  | .error .panic => 0
  | _ => 1

/-- What a server worker does when its client worker has returned. -/
def afterClient (cfg : Config) (id : ClientId) : Outcome Error Unit → Server
  | .ok () => .recv
  | .error .panic => .failed .panic
  | .error (.error _) =>
    match (Block.new .abort cfg.raptorq id none).mapError Error.protocol with
    | .ok block => .abort id block
    | .error f => .failed f

/-- After a client a worker waits, sends an `Abort`, or has failed. -/
lemma afterClient_cases (cfg : Config) (id : ClientId) (res : Outcome Error Unit) :
    afterClient cfg id res = .recv ∨ (∃ block, afterClient cfg id res = .abort id block) ∨
      ∃ f, afterClient cfg id res = .failed f := by
  rcases res with (_ | e) | _
  · exact .inr (.inr ⟨_, rfl⟩)
  · simp only [afterClient]
    split
    · exact .inr (.inl ⟨_, rfl⟩)
    · exact .inr (.inr ⟨_, rfl⟩)
  · exact .inl rfl

/-- The next step of a worker, with what it puts on `to_ordering`; `none` if it is blocked or has
returned. `room` says whether `to_ordering` accepts a message. Taking a permit of the semaphore
and drawing a client number are one step. -/
def step (cfg : Config) (room : Bool) (s : Servers m) :
    Label m → Option (Servers m × List (Option Block))
  | .main =>
    match s.todo with
    | [] => none
    | c :: rest =>
      if s.toServer.length < 1 then
        some ({ s with todo := rest, toServer := s.toServer ++ [c] }, [])
      else none
  | .server w =>
    match s.workers w with
    | .recv =>
      match s.toServer with
      | [] => none
      | some c :: rest =>
        some ({ s with toServer := rest, workers := update s.workers w (.wait c) }, [])
      | none :: rest =>
        some ({ s with
          toServer := rest
          workers := update s.workers w (.stopping cfg.nbEncodeThreads) }, [])
    | .wait c =>
      match s.multiplexControl with
      | 0 => none
      | permits + 1 =>
        let id := s.clientIdCounter
        let run := Client.start cfg.raptorq cfg.flush id c
        some ({ s with
          multiplexControl := permits
          clientIdCounter := s.clientIdCounter + 1
          started := s.started ++ [c]
          workers := update s.workers w (.client id run.1 run.2) }, [])
    | .client id (b :: blocks) res =>
      if room then some ({ s with workers := update s.workers w (.client id blocks res) }, [some b])
      else none
    | .client id [] res =>
      some ({ s with
        multiplexControl := s.multiplexControl + signals res
        workers := update s.workers w (afterClient cfg id res) }, [])
    | .abort _ block =>
      if room then some ({ s with workers := update s.workers w .recv }, [some block]) else none
    | .stopping (left + 1) =>
      if room then some ({ s with workers := update s.workers w (.stopping left) }, [none])
      else none
    | .stopping 0 => some ({ s with workers := update s.workers w .returned }, [])
    | .returned => none
    | .failed _ => none
  | .heartbeat =>
    if cfg.heartbeat ∧ room then
      match Block.new .heartbeat cfg.raptorq 0 none with
      | .ok block => some (s, [some block])
      | .error _ => none
    else none

/-- The kinds of steps. -/
inductive Trans (cfg : Config) (room : Bool) (s : Servers m) :
    Label m → Servers m → List (Option Block) → Prop
  | main {c : Option ClientSocket} {rest : List (Option ClientSocket)}
      (htodo : s.todo = c :: rest) (hroom : s.toServer = []) :
      Trans cfg room s .main { s with todo := rest, toServer := s.toServer ++ [c] } []
  | take {w : Fin m} {c : ClientSocket} {rest : List (Option ClientSocket)}
      (hw : s.workers w = .recv) (hin : s.toServer = some c :: rest) :
      Trans cfg room s (.server w)
        { s with toServer := rest, workers := update s.workers w (.wait c) } []
  | takeStop {w : Fin m} {rest : List (Option ClientSocket)}
      (hw : s.workers w = .recv) (hin : s.toServer = none :: rest) :
      Trans cfg room s (.server w) { s with
        toServer := rest
        workers := update s.workers w (.stopping cfg.nbEncodeThreads) } []
  | start {w : Fin m} {c : ClientSocket} {permits : ℕ}
      (hw : s.workers w = .wait c) (hsem : s.multiplexControl = permits + 1) :
      Trans cfg room s (.server w) { s with
        multiplexControl := permits
        clientIdCounter := s.clientIdCounter + 1
        started := s.started ++ [c]
        workers := update s.workers w (.client s.clientIdCounter
          (Client.start cfg.raptorq cfg.flush s.clientIdCounter c).1
          (Client.start cfg.raptorq cfg.flush s.clientIdCounter c).2) } []
  | send {w : Fin m} {id : ClientId} {b : Block} {blocks : List Block} {res : Outcome Error Unit}
      (hw : s.workers w = .client id (b :: blocks) res) (hroom : room = true) :
      Trans cfg room s (.server w)
        { s with workers := update s.workers w (.client id blocks res) } [some b]
  | finish {w : Fin m} {id : ClientId} {res : Outcome Error Unit}
      (hw : s.workers w = .client id [] res) :
      Trans cfg room s (.server w) { s with
        multiplexControl := s.multiplexControl + signals res
        workers := update s.workers w (afterClient cfg id res) } []
  | abort {w : Fin m} {id : ClientId} {b : Block}
      (hw : s.workers w = .abort id b) (hroom : room = true) :
      Trans cfg room s (.server w) { s with workers := update s.workers w .recv } [some b]
  | stop {w : Fin m} {left : ℕ} (hw : s.workers w = .stopping (left + 1)) (hroom : room = true) :
      Trans cfg room s (.server w) { s with workers := update s.workers w (.stopping left) } [none]
  | stopped {w : Fin m} (hw : s.workers w = .stopping 0) :
      Trans cfg room s (.server w) { s with workers := update s.workers w .returned } []
  | heartbeat {b : Block} (hcfg : cfg.heartbeat = true) (hroom : room = true)
      (hb : Block.new .heartbeat cfg.raptorq 0 none = .ok b) :
      Trans cfg room s .heartbeat s [some b]

/-- The step function does exactly the steps of the relation. -/
theorem step_iff {a : Label m} :
    step cfg room s a = some (s', out) ↔ Trans cfg room s a s' out := by
  constructor
  · intro h
    cases a with
    | main =>
      cases htodo : s.todo with
      | nil => simp [step, htodo] at h
      | cons c rest =>
        by_cases hlen : s.toServer.length < 1
        · simp only [step, htodo, if_pos hlen, Option.some.injEq, Prod.mk.injEq] at h
          obtain ⟨rfl, rfl⟩ := h
          exact .main htodo (List.length_eq_zero_iff.mp (by omega))
        · simp only [step, htodo, if_neg hlen, reduceCtorEq] at h
    | server w =>
      cases hw : s.workers w with
      | recv =>
        cases hin : s.toServer with
        | nil => simp [step, hw, hin] at h
        | cons c rest =>
          cases c with
          | none =>
            simp only [step, hw, hin, Option.some.injEq, Prod.mk.injEq] at h
            obtain ⟨rfl, rfl⟩ := h
            exact .takeStop hw hin
          | some c =>
            simp only [step, hw, hin, Option.some.injEq, Prod.mk.injEq] at h
            obtain ⟨rfl, rfl⟩ := h
            exact .take hw hin
      | wait c =>
        cases hsem : s.multiplexControl with
        | zero => simp [step, hw, hsem] at h
        | succ permits =>
          simp only [step, hw, hsem, Option.some.injEq, Prod.mk.injEq] at h
          obtain ⟨rfl, rfl⟩ := h
          exact .start hw hsem
      | client id blocks res =>
        cases blocks with
        | nil =>
          simp only [step, hw, Option.some.injEq, Prod.mk.injEq] at h
          obtain ⟨rfl, rfl⟩ := h
          exact .finish hw
        | cons b blocks =>
          cases hroom : room with
          | false => simp [step, hw, hroom] at h
          | true =>
            simp only [step, hw, hroom, if_true, Option.some.injEq, Prod.mk.injEq] at h
            obtain ⟨rfl, rfl⟩ := h
            exact .send hw rfl
      | abort id b =>
        cases hroom : room with
        | false => simp [step, hw, hroom] at h
        | true =>
          simp only [step, hw, hroom, if_true, Option.some.injEq, Prod.mk.injEq] at h
          obtain ⟨rfl, rfl⟩ := h
          exact .abort hw rfl
      | stopping left =>
        cases left with
        | zero =>
          simp only [step, hw, Option.some.injEq, Prod.mk.injEq] at h
          obtain ⟨rfl, rfl⟩ := h
          exact .stopped hw
        | succ left =>
          cases hroom : room with
          | false => simp [step, hw, hroom] at h
          | true =>
            simp only [step, hw, hroom, if_true, Option.some.injEq, Prod.mk.injEq] at h
            obtain ⟨rfl, rfl⟩ := h
            exact .stop hw rfl
      | returned => simp [step, hw] at h
      | failed f => simp [step, hw] at h
    | heartbeat =>
      by_cases hcond : cfg.heartbeat = true ∧ room = true
      · cases hb : Block.new .heartbeat cfg.raptorq 0 none with
        | error e => simp [step, hb] at h
        | ok b =>
          simp only [step, if_pos hcond, hb, Option.some.injEq, Prod.mk.injEq] at h
          obtain ⟨rfl, rfl⟩ := h
          exact .heartbeat hcond.1 hcond.2 hb
      · simp only [step, if_neg hcond, reduceCtorEq] at h
  · intro h
    cases h with
    | main htodo hroom => simp [step, htodo, hroom]
    | take hw hin => simp [step, hw, hin]
    | takeStop hw hin => simp [step, hw, hin]
    | start hw hsem => simp [step, hw, hsem]
    | send hw hroom => simp [step, hw, hroom]
    | finish hw => simp [step, hw]
    | abort hw hroom => simp [step, hw, hroom]
    | stop hw hroom => simp [step, hw, hroom]
    | stopped hw => simp [step, hw]
    | heartbeat hcfg hroom hb => simp [step, hcfg, hroom, hb]

end Servers

end Lidi.Send
