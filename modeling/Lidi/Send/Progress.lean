import Lidi.Core.LTS
import Lidi.Core.TurnstileWork
import Lidi.Send.Idle
import Lidi.Send.Sender
import Mathlib.Data.Prod.Lex

set_option relaxedAutoImplicit false
set_option autoImplicit false

/-!
# The sender does not go on forever

Every step of the sender but a heartbeat either starts to serve a client, or brings a block or a
stop marker nearer to the socket.

## Main definitions

* `Send.Servers.unstarted`, `Send.Servers.work` — the clients that are not started, and the work of
  the server workers on the others.
* `Send.Pipeline.work` — the work of the workers after `to_ordering`.

## Main results

* `Send.Servers.Trans.progress` — every step of a server worker makes progress.
* `Send.Pipeline.work_lt` — so does every step of a worker after `to_ordering`.
* `Send.Sender.terminates` — without heartbeats, every sequence of steps is finite.
-/

namespace Lidi.Send

/-! ## Before `to_ordering` -/

open Function

/-- One for a worker that has taken a client but not started it. -/
def Server.unstarted : Server → ℕ
  | .wait _ => 1
  | _ => 0

/-- The work of a server worker on the client that it has started. A block on the channel weighs
less than in the hands of a worker. -/
def Server.work : Server → ℕ
  | .client _ blocks _ => 7 * blocks.length + 9
  | .abort _ _ => 8
  | .stopping left => left + 1
  | _ => 0

namespace Servers

variable {m : ℕ} {cfg : Config} {room : Bool} {s s' : Servers m} {out : List (Option Block)}

/-- The clients that are not started, with the steps until they are. -/
def unstarted (s : Servers m) : ℕ :=
  3 * s.todo.length + 2 * s.toServer.length + ∑ w, (s.workers w).unstarted

/-- The work of the server workers. -/
def work (s : Servers m) : ℕ :=
  ∑ w, (s.workers w).work

/-- A worker has no client and less work after its client worker has returned. -/
lemma work_afterClient (cfg : Config) (id : ClientId) (res : Outcome Error Unit) :
    (afterClient cfg id res).work ≤ 8 ∧ (afterClient cfg id res).unstarted = 0 := by
  rcases afterClient_cases cfg id res with h | ⟨b, h⟩ | ⟨f, h⟩ <;>
    simp [h, Server.work, Server.unstarted]

/-- **Every step of a server worker makes progress.** -/
theorem Trans.progress {a : Label m} (h : Trans cfg room s a s' out) (ha : a ≠ .heartbeat) :
    s'.unstarted < s.unstarted ∨
      s'.unstarted = s.unstarted ∧ s'.work + 6 * out.reduceOption.length < s.work := by
  unfold unstarted work
  cases h with
  | main htodo hroom =>
    left
    simp only [htodo, hroom, List.length_cons, List.length_nil, List.nil_append]
    omega
  | @take w c rest hw hin =>
    have hsum := Pool.sum_update (v := .wait c) (a := 0) (b := 1)
      (congrArg Server.unstarted hw) rfl
    left
    simp only [hin, List.length_cons]
    omega
  | @takeStop w rest hw hin =>
    have hsum := Pool.sum_update (v := .stopping cfg.nbEncodeThreads) (a := 0) (b := 0)
      (congrArg Server.unstarted hw) rfl
    left
    simp only [hin, List.length_cons]
    omega
  | @start w c permits hw hsem =>
    have hsum := Pool.sum_update (v := .client s.clientIdCounter
      (Client.start cfg.raptorq cfg.flush s.clientIdCounter c).1
      (Client.start cfg.raptorq cfg.flush s.clientIdCounter c).2) (a := 1) (b := 0)
      (congrArg Server.unstarted hw) rfl
    left
    simp only
    omega
  | @send w id b blocks res hw hroom =>
    have hsum := Pool.sum_update (v := .client id blocks res) (a := 0) (b := 0)
      (congrArg Server.unstarted hw) rfl
    have hwork := Pool.sum_update (v := .client id blocks res) (a := 7 * (blocks.length + 1) + 9)
      (b := 7 * blocks.length + 9) (congrArg Server.work hw) rfl
    right
    simp only [List.reduceOption_singleton, Option.length_toList, Option.isSome_some, if_true]
    omega
  | @finish w id res hw =>
    obtain ⟨hle, hzero⟩ := work_afterClient cfg id res
    have hsum := Pool.sum_update (a := 0) (congrArg Server.unstarted hw) hzero
    have hwork := Pool.sum_update (v := afterClient cfg id res) (a := 9)
      (congrArg Server.work hw) rfl
    right
    simp only [List.reduceOption_nil, List.length_nil]
    omega
  | @abort w id b hw hroom =>
    have hsum := Pool.sum_update (v := .recv) (a := 0) (b := 0)
      (congrArg Server.unstarted hw) rfl
    have hwork := Pool.sum_update (v := .recv) (a := 8) (b := 0) (congrArg Server.work hw) rfl
    right
    simp only [List.reduceOption_singleton, Option.length_toList, Option.isSome_some, if_true]
    omega
  | @stop w left hw hroom =>
    have hsum := Pool.sum_update (v := .stopping left) (a := 0) (b := 0)
      (congrArg Server.unstarted hw) rfl
    have hwork := Pool.sum_update (v := .stopping left) (a := left + 2) (b := left + 1)
      (congrArg Server.work hw) rfl
    right
    simp only [List.reduceOption_singleton, Option.length_toList, Option.isSome_none,
      Bool.false_eq_true, if_false]
    omega
  | @stopped w hw =>
    have hsum := Pool.sum_update (v := .returned) (a := 0) (b := 0)
      (congrArg Server.unstarted hw) rfl
    have hwork := Pool.sum_update (v := .returned) (a := 1) (b := 0)
      (congrArg Server.work hw) rfl
    right
    simp only [List.reduceOption_nil, List.length_nil]
    omega
  | heartbeat hcfg hroom hb => exact absurd rfl ha

end Servers

/-! ## After `to_ordering` -/

/-- The work of the ordering worker, if a message that it has received weighs as much. -/
def Ordering.work (n : ℕ) : Ordering → ℕ
  | recv | returned => 0
  | forward _ => n + 6
  | stop => 2

/-- The work of the udp worker, apart from what is on `to_send`. -/
def Udp.work : Udp → ℕ
  | recv => 2
  | draining _ => 1
  | returned => 0

namespace Pipeline

open Turnstile

variable {n : ℕ} {Packet : Type*} {encode : UInt8 → List UInt8 → List Packet}
  {s s' : Pipeline n Packet}

/-- The work of the workers after `to_ordering`. -/
def work (s : Pipeline n Packet) : ℕ :=
  (n + 7) * s.toOrdering.length + s.ordering.work n + s.gate.work 1 + s.udp.work

/-- **Every step of a worker leaves less work.** -/
theorem work_lt {a : Label n} (ha : a.isWorker = true) (h : step encode s a = some s') :
    s'.work < s.work := by
  unfold work
  cases step_iff.mp h with
  | put m hroom => cases ha
  | order ho hin =>
    simp only [hin, ho, Ordering.work, List.length_cons, Nat.mul_succ]
    omega
  | takeStop ho hin =>
    simp only [hin, ho, Ordering.work, List.length_cons, Nat.mul_succ]
    omega
  | @forward block ho hroom =>
    have hpush := Turnstile.work_push (c := 1) s.gate (some (s.id, block))
    simp only [ho, Ordering.work]
    omega
  | stop ho hroom =>
    have hemit := Turnstile.work_emit (c := 1) s.gate none
    simp only [ho, Ordering.work]
    omega
  | encoding hgate =>
    have hlt := Turnstile.work_lt (c := 1) hgate
    simp only
    omega
  | send hu hz hout =>
    have hpop := Turnstile.work_pop (c := 1) hout
    simp only
    omega
  | drain hu hout =>
    have hpop := Turnstile.work_pop (c := 1) hout
    simp only [hu, Udp.work]
    omega
  | count hu hout =>
    have hpop := Turnstile.work_pop (c := 1) hout
    simp only [hu, Udp.work]
    omega
  | drained hu =>
    simp only [hu, Udp.work]
    omega

end Pipeline

/-! ## The whole sender -/

/-- A step of a server worker puts at most one message on `to_ordering`. -/
lemma Servers.Trans.length_out_le {m : ℕ} {cfg : Config} {room : Bool} {s s' : Servers m}
    {out : List (Option Block)} {a : Servers.Label m} (h : Servers.Trans cfg room s a s' out) :
    out.length ≤ 1 := by
  cases h <;> simp

namespace Sender

variable {m n : ℕ} {Packet : Type*} {cfg : Config} {encode : UInt8 → List UInt8 → List Packet}
  {s s' : Sender m n Packet}

/-- The clients that are not started, and the work on the others. -/
def measure (s : Sender m n Packet) : ℕ ×ₗ ℕ :=
  toLex (s.servers.unstarted, (n + 8) * s.servers.work + s.pipeline.work)

/-- **Every step but a heartbeat makes progress.** -/
theorem measure_lt {a : Label m n} (ha : a ≠ .server .heartbeat)
    (h : step cfg encode s a = some s') : s'.measure < s.measure := by
  unfold measure
  cases step_iff.mp h with
  | @server a servers out pipeline hserver hput =>
    rw [Prod.Lex.toLex_lt_toLex]
    rcases hserver.progress fun heq => ha (congrArg _ heq) with hlt | ⟨heq, hlt⟩
    · exact .inl hlt
    · refine .inr ⟨heq, ?_⟩
      have hwork : (n + 8) * (servers.work + 1) ≤ (n + 8) * s.servers.work :=
        Nat.mul_le_mul_left _ (by omega)
      have hout : (n + 7) * out.length ≤ (n + 7) * 1 :=
        Nat.mul_le_mul_left _ hserver.length_out_le
      have hpipeline : pipeline.work = s.pipeline.work + (n + 7) * out.length := by
        rw [putAll_eq hput]
        simp only [Pipeline.work, List.length_append, Nat.mul_add]
        omega
      rw [Nat.mul_succ] at hwork
      show (n + 8) * servers.work + pipeline.work < (n + 8) * s.servers.work + s.pipeline.work
      omega
  | pipeline hworker hpipe =>
    rw [Prod.Lex.toLex_lt_toLex]
    exact .inr ⟨rfl, Nat.add_lt_add_left (Pipeline.work_lt hworker hpipe) _⟩

/-- **Without heartbeats every sequence of steps is finite.** -/
theorem terminates (cfg : Config) (encode : UInt8 → List UInt8 → List Packet)
    (s : Sender m n Packet) :
    LTS.Terminates (step cfg encode) (fun a => a ≠ .server .heartbeat) s :=
  LTS.terminates_of_measure wellFounded_lt measure (fun _ _ _ ha hs => measure_lt ha hs) s

end Sender

end Lidi.Send
