import Lidi.Send.Progress
import Lidi.Send.Transfers

set_option relaxedAutoImplicit false
set_option autoImplicit false

/-!
# The sender sends everything, in bounded memory

A sender that is not stopped serves all its clients and sends all their blocks, whatever the order
in which its workers move. Its channels are bounded, so that only a bounded number of blocks is on
its way between the server workers and the socket.

## Main definitions

* `Send.Sender.Inv` — the invariant of a sender that is not stopped.
* `Send.Pipeline.Bounded` — no channel has more messages than it has places.

## Main results

* `Send.Sender.finishes` — what has been sent when no worker can move any more.
* `Send.Sender.backpressure` — how many blocks are on their way.
-/

namespace Lidi.Send

open Turnstile

section Healthy

variable {m : ℕ} {cfg : Config} {room : Bool} {s s' : Servers m} {out : List (Option Block)}

/-- A healthy server worker sends no stop marker. -/
lemma Servers.Healthy.none_notMem (h : s.Healthy) {a : Servers.Label m}
    (ht : Servers.Trans cfg room s a s' out) : none ∉ out := by
  cases ht with
  | @stop w left hw hroom => exact absurd (h.workers w) (by simp [hw, Server.Healthy])
  | _ => simp

/-- A server worker can take the same step if there is room on `to_ordering`. -/
lemma Servers.Trans.of_room {a : Servers.Label m} (h : Servers.Trans cfg room s a s' out) :
    Servers.Trans cfg true s a s' out := by
  cases h with
  | main htodo hroom => exact .main htodo hroom
  | take hw hin => exact .take hw hin
  | takeStop hw hin => exact .takeStop hw hin
  | start hw hsem => exact .start hw hsem
  | send hw hroom => exact .send hw rfl
  | finish hw => exact .finish hw
  | abort hw hroom => exact .abort hw rfl
  | stop hw hroom => exact .stop hw rfl
  | stopped hw => exact .stopped hw
  | heartbeat hcfg hroom hb => exact .heartbeat hcfg rfl hb

/-- **When no server worker has a client**, and none is left, all clients were started, and their
transfers were sent to their ends. -/
lemma Servers.Inv.served {todo : List (Option ClientSocket)} {sent : List Block}
    (h : Servers.Inv cfg todo s sent) (hrecv : ∀ w, s.workers w = .recv) (hin : s.toServer = [])
    (htodo : s.todo = []) :
    s.started.Perm todo.reduceOption ∧ ∀ (id : ClientId) c, s.started[id.toNat]? = some c →
      blocksOf id sent = transfer cfg.raptorq cfg.flush id c := by
  have hwaiting : Pool.holding (fun w => (s.workers w).waiting) = [] :=
    Pool.holding_eq_nil.mpr fun w => by rw [hrecv]; rfl
  refine ⟨?_, fun id c hc => ?_⟩
  · have hperm := h.clients
    simpa only [hwaiting, hin, htodo, List.append_nil, List.reduceOption_nil] using hperm
  · exact h.shares.done_eq id c hc fun w rest => by simp [hrecv, Server.rest]

end Healthy

/-! ## What has been sent in the end -/

namespace Pipeline

variable {n : ℕ} {Packet : Type*} {encode : UInt8 → List UInt8 → List Packet}
  {s s' : Pipeline n Packet}

/-- **When no worker can move**, and no stop marker has come, all channels are empty and the packets
of all blocks have been sent. -/
lemma Inv.idle (h : Inv encode s) (hpos : 0 < n) (hstop : none ∉ s.put)
    (hstuck : ∀ a : Label n, a.isWorker = true → Pipeline.step encode s a = none) :
    s.toOrdering = [] ∧ s.sent = encodeAll encode s.put.reduceOption := by
  have hall : s.put.length ≤ s.sent.length := by
    by_contra hlt
    obtain ⟨a, ha, hmove⟩ := h.progress hpos hstop (by omega)
    simp [hstuck a ha] at hmove
  have hsent : s.sent <+: encodeAll encode s.ordered :=
    (List.prefix_append _ _).trans h.sentPrefix
  have hle := hsent.length_le
  have hordered := h.orderedPrefix
  have hput : s.put.reduceOption.length ≤ s.put.length := List.reduceOption_length_le _
  have hle' := hordered.length_le
  rw [length_encodeAll] at hle
  constructor
  · have hlen := congrArg List.length h.put_eq
    simp only [List.length_append, List.length_map] at hlen
    exact List.length_eq_zero_iff.mp (by omega)
  · refine (hsent.trans (encodeAll_mono hordered)).eq_of_length ?_
    rw [length_encodeAll]
    omega

end Pipeline

namespace Sender

variable {m n : ℕ} {Packet : Type*} {cfg : Config} {encode : UInt8 → List UInt8 → List Packet}
  {clients : List ClientSocket} {len : ℕ} {s s' : Sender m n Packet}

/-- **The invariant** of a sender that is not stopped. -/
structure Inv (cfg : Config) (encode : UInt8 → List UInt8 → List Packet)
    (clients : List ClientSocket) (s : Sender m n Packet) : Prop where
  servers : Servers.Inv cfg (clients.map some) s.servers s.pipeline.put.reduceOption
  healthy : s.servers.Healthy
  pipeline : s.pipeline.Inv encode
  noStop : none ∉ s.pipeline.put

/-- The invariant holds at the start. -/
lemma Inv.init (cfg : Config) (encode : UInt8 → List UInt8 → List Packet)
    (clients : List ClientSocket) :
    Inv cfg encode clients (init m n Packet (clients.map some)) where
  servers := .init cfg _
  healthy := .init clients
  pipeline := .init encode
  noStop := by simp [Sender.init, Pipeline.init]

/-- **Every step keeps the invariant.** -/
theorem Inv.step (h : Inv cfg encode clients s) (hmax : Block.maxDataLen cfg.raptorq = some len)
    (hpos : 0 < len) (hn : n < 256) (hfew : clients.length < 2 ^ 32) {a : Label m n}
    (ht : Trans cfg encode s a s') : Inv cfg encode clients s' := by
  have hfew' : (clients.map some).reduceOption.length < 2 ^ 32 := by
    rwa [Pool.reduceOption_map_some]
  cases ht with
  | @server a servers out pipeline hserver hput =>
    have hreach : LTS.Reach (Pipeline.step encode) s.pipeline pipeline :=
      putAll_reach (fun _ _ _ => trivial) hput
    have heq : pipeline.put = s.pipeline.put ++ out := by rw [putAll_eq hput]
    refine ⟨?_, h.healthy.step hmax hpos hserver,
      hreach.invariant h.pipeline fun _ _ _ _ hinv _ hs => hinv.step hn hs, ?_⟩
    · show Servers.Inv cfg _ servers pipeline.put.reduceOption
      rw [heq, List.reduceOption_append]
      exact h.servers.step hmax hpos hfew' hserver
    · show none ∉ pipeline.put
      rw [heq, List.mem_append, not_or]
      exact ⟨h.noStop, h.healthy.none_notMem hserver⟩
  | @pipeline a pipeline ha hpipe =>
    have heq : pipeline.put = s.pipeline.put := by
      cases Pipeline.step_iff.mp hpipe with
      | put => cases ha
      | _ => rfl
    refine ⟨?_, h.healthy, h.pipeline.step hn hpipe, ?_⟩
    · show Servers.Inv cfg _ s.servers pipeline.put.reduceOption
      rw [heq]
      exact h.servers
    · show none ∉ pipeline.put
      rw [heq]
      exact h.noStop

/-- **What a step of the sender sends**: nothing, or the packets of one more block. -/
lemma Trans.sent_eq {a : Label m n} (h : Trans cfg encode s a s') :
    s'.pipeline.sent = s.pipeline.sent ∨
      ∃ packets, s'.pipeline.sent = s.pipeline.sent ++ [packets] := by
  cases h with
  | server hserver hput =>
    rw [putAll_eq hput]
    exact .inl rfl
  | pipeline ha hpipe =>
    cases Pipeline.step_iff.mp hpipe with
    | send => exact .inr ⟨_, rfl⟩
    | _ => exact .inl rfl

/-- The packets that have been sent are those of blocks that have the length of the geometry. -/
lemma Inv.mem_encode (h : Inv cfg encode clients s) {packets : List Packet}
    (hpackets : packets ∈ s.pipeline.sent) :
    ∃ id, ∃ data : List UInt8, data.length = cfg.raptorq.transferLength.toNat ∧
      packets = encode id data := by
  have hsent : s.pipeline.sent <+: encodeAll encode s.pipeline.ordered :=
    (List.prefix_append _ _).trans h.pipeline.sentPrefix
  have hmem := hsent.subset hpackets
  simp only [encodeAll, List.mem_mapIdx] at hmem
  obtain ⟨i, hi, heq⟩ := hmem
  have hput := h.pipeline.orderedPrefix.subset (List.getElem_mem hi)
  obtain ⟨type, id, data, hcarries⟩ := h.servers.carries _ hput
  exact ⟨UInt8.ofNat i, _, hcarries.length_eq, heq.symm⟩

variable (encode) in
/-- With room on `to_ordering`, what a server worker sends is put there. -/
lemma isSome_putAll {p : Pipeline n Packet} {out : List (Option Block)} (hin : p.toOrdering = [])
    (hpos : 0 < n) (hout : out.length ≤ 1) : (putAll encode p out).isSome = true := by
  have hroom : HasRoom (some n) p.toOrdering := by simpa [HasRoom, hin] using hpos
  cases out with
  | nil => rfl
  | cons m out =>
    obtain rfl : out = [] := by
      rw [List.length_cons] at hout
      exact List.length_eq_zero_iff.mp (by omega)
    simp [putAll, Pipeline.step, hroom]

/-- **When no worker can move but the heartbeat**, nothing is on its way to the socket, and no
server worker could move even if there were more room on `to_ordering`.

**Proof sketch.** The workers after `to_ordering` can only stand still if nothing is on its way.
Then there is room on `to_ordering`. -/
lemma Inv.blocked (h : Inv cfg encode clients s) (hpos : 0 < n)
    (hstuck : LTS.Stuck (Sender.step cfg encode) (fun a => a ≠ .server .heartbeat) s) :
    s.pipeline.sent = encodeAll encode s.pipeline.put.reduceOption ∧
      ∀ a, a ≠ Servers.Label.heartbeat → s.servers.step cfg true a = none := by
  obtain ⟨hin, hsent⟩ := h.pipeline.idle hpos h.noStop fun a ha => by
    have hs := hstuck (.pipeline a) (by simp)
    simpa only [Sender.step, if_pos ha, Option.map_eq_none_iff] using hs
  refine ⟨hsent, fun a ha => ?_⟩
  have hroom : HasRoom (some n) s.pipeline.toOrdering := by simpa [HasRoom, hin] using hpos
  have hs := hstuck (.server a) fun heq => ha (Label.server.inj heq)
  simp only [Sender.step, hroom, decide_true, Option.bind_eq_none_iff,
    Option.map_eq_none_iff] at hs
  by_contra hmove
  obtain ⟨⟨servers, out⟩, hmove⟩ := Option.ne_none_iff_exists'.mp hmove
  have hput := isSome_putAll encode hin hpos (Servers.step_iff.mp hmove).length_out_le
  rw [hs _ hmove] at hput
  cases hput

/-- **When no worker can move but the heartbeat**, all clients were started, their transfers were
put on `to_ordering` to their ends, and all that was put there has been sent. -/
theorem Inv.idle (h : Inv cfg encode clients s) (hm : 0 < m) (hpos : 0 < n)
    (hstuck : LTS.Stuck (Sender.step cfg encode) (fun a => a ≠ .server .heartbeat) s) :
    s.servers.started.Perm clients ∧
    (∀ (id : ClientId) c, s.servers.started[id.toNat]? = some c →
      blocksOf id s.pipeline.put.reduceOption = transfer cfg.raptorq cfg.flush id c) ∧
    s.pipeline.sent = encodeAll encode s.pipeline.put.reduceOption := by
  obtain ⟨hsent, hserver⟩ := h.blocked hpos hstuck
  obtain ⟨hrecv, htoServer, htodo⟩ := h.healthy.idle hm (hserver .main (by simp))
    fun w => hserver (.server w) (by simp)
  obtain ⟨hperm, hdone⟩ := h.servers.served hrecv htoServer htodo
  rw [Pool.reduceOption_map_some] at hperm
  exact ⟨hperm, hdone, hsent⟩

/-- No read of the first of the two clients is empty. -/
lemma nonempty_eightBytes : ∀ c ∈ ([[1, 2, 3, 4, 5, 6, 7, 8]] : List (List UInt8)), c ≠ [] :=
  List.forall_mem_singleton.2 (List.cons_ne_nil _ _)

/-- No read of the second one is empty. -/
lemma nonempty_noBytes : ∀ c ∈ ([] : List (List UInt8)), c ≠ [] :=
  List.forall_mem_nil _

/-- A client that sends eight bytes, and one whose first read fails. -/
def oneFails : List ClientSocket :=
  [⟨[[1, 2, 3, 4, 5, 6, 7, 8]], none, nonempty_eightBytes⟩,
    ⟨[], some ⟨"connection reset"⟩, nonempty_noBytes⟩]

/-- The two clients connect one after the other, and their five blocks are sent. -/
def serveBoth : List (Label 1 2) :=
  let send (w : Fin 2) : List (Label 1 2) :=
    [.server (.server 0), .pipeline .ordering, .pipeline .ordering, .pipeline (.encoding w),
      .pipeline (.encoding w), .pipeline (.encoding w), .pipeline (.encoding w), .pipeline .udp]
  let connect : List (Label 1 2) := [.server .main, .server (.server 0), .server (.server 0)]
  connect ++ send 0 ++ send 1 ++ send 1 ++ [.server (.server 0)] ++ connect ++
    send 0 ++ [.server (.server 0)] ++ send 1

end Sender

/-! ## Bounded memory -/

namespace Pipeline

variable {n : ℕ} {Packet : Type*} {encode : UInt8 → List UInt8 → List Packet}
  {s s' : Pipeline n Packet}

/-- No channel has more messages than it has places. -/
structure Bounded (s : Pipeline n Packet) : Prop where
  toOrdering : s.toOrdering.length ≤ n
  input : s.gate.input.length ≤ n
  output : s.gate.output.length ≤ n

/-- At the start the channels are empty. -/
lemma Bounded.init (n : ℕ) (Packet : Type*) : (init n Packet).Bounded :=
  ⟨Nat.zero_le _, Nat.zero_le _, Nat.zero_le _⟩

/-- A channel with room takes one more message. -/
private lemma length_snoc_le {γ : Type*} {l : List γ} (hroom : HasRoom (some n) l) (x : γ) :
    (l ++ [x]).length ≤ n := by
  have hlt := hroom n rfl
  rw [List.length_append, List.length_singleton]
  omega

/-- A message is taken from a channel. -/
private lemma length_rest_le {γ : Type*} {l rest : List γ} {x : γ} (hin : l = x :: rest)
    (hle : l.length ≤ n) : rest.length ≤ n := by
  rw [hin, List.length_cons] at hle
  omega

/-- **Every step keeps the channels within their bounds.** -/
lemma Bounded.step (h : s.Bounded) {a : Label n} (hs : Pipeline.step encode s a = some s') :
    s'.Bounded := by
  obtain ⟨hordering, hinput, houtput⟩ := h
  cases step_iff.mp hs with
  | put m hroom => exact ⟨length_snoc_le hroom m, hinput, houtput⟩
  | order ho hin | takeStop ho hin => exact ⟨length_rest_le hin hordering, hinput, houtput⟩
  | forward ho hroom => exact ⟨hordering, length_snoc_le hroom _, houtput⟩
  | stop ho hroom => exact ⟨hordering, hinput, length_snoc_le hroom _⟩
  | encoding hgate =>
    cases Turnstile.step_iff.mp hgate with
    | receive hw hin => exact ⟨hordering, length_rest_le hin hinput, houtput⟩
    | bypass hw hroom | send hw hroom => exact ⟨hordering, hinput, length_snoc_le hroom _⟩
    | enter | sleep | notify => exact ⟨hordering, hinput, houtput⟩
  | send hu hz hout => exact ⟨hordering, hinput, length_rest_le hout houtput⟩
  | drain hu hout | count hu hout => exact ⟨hordering, hinput, length_rest_le hout houtput⟩
  | drained => exact ⟨hordering, hinput, houtput⟩

/-- **What is on its way.** A message that was put on `to_ordering` is on one of the three channels,
in the hands of a worker, or has been sent. -/
lemma Inv.length_put_le (h : Inv encode s) (hb : s.Bounded) :
    s.put.length ≤ s.sent.length + (4 * n + 1) := by
  have hput := congrArg List.length h.put_eq
  have hinput := congrArg List.length h.input_eq
  have hsent := length_filterMap_msg_passes s.gate.sent
  have hheld := length_held_le s.gate
  have haccount := h.gate.account.length_eq
  have hone : s.ordering.stopMarker.length + (s.ordering.inHand s.id).length ≤ 1 := by
    cases s.ordering <;> simp
  rw [h.passes_sent, h.output_eq] at hsent
  have hgap := List.reduceOption_length_le s.gate.output
  simp only [List.length_append, List.length_map, length_number] at hput hinput hsent haccount
  have := hb.toOrdering
  have := hb.input
  have := hb.output
  omega

end Pipeline

namespace Sender

variable {m n : ℕ} {Packet : Type*} {cfg : Config} {encode : UInt8 → List UInt8 → List Packet}
  {todo : List (Option ClientSocket)} {s : Sender m n Packet}

/-- **The sender runs in bounded memory.** However many clients there are and whatever the order of
the steps, at most `4 * n + 1` messages are on their way between the server workers and the socket,
where `n` is the number of encoding threads. -/
theorem backpressure (hn : n < 256)
    (h : LTS.Reach (Sender.step cfg encode) (Sender.init m n Packet todo) s) :
    s.pipeline.put.length ≤ s.pipeline.sent.length + (4 * n + 1) := by
  have hreach : LTS.Reach (Pipeline.step encode) (Pipeline.init n Packet) s.pipeline :=
    pipeline_reach h (fun _ _ => trivial) fun _ _ _ => trivial
  have hbounded : s.pipeline.Bounded :=
    hreach.invariant (.init n Packet) fun _ _ _ _ hb _ hs => hb.step hs
  exact (Pipeline.Inv.of_reach hn hreach).length_put_le hbounded

/-- One encoding thread, and a client that sends before anything else moves: the third block has to
wait for the ordering worker. -/
theorem backpressure_waiting :
    let cfg : Config := ⟨RaptorQ.single, false, 1, false⟩
    let encode := RaptorQ.single.encode Crate.single
    ∃ s : Sender 1 1 (UInt8 × List UInt8),
      s.pipeline.put.length = 2 ∧ Sender.step cfg encode s (.server (.server 0)) = none ∧
      s.pipeline.put.length ≤ s.pipeline.sent.length + (4 * 1 + 1) := by
  intro cfg encode
  have hrun : (LTS.run (Sender.step cfg encode) (Sender.init 1 1 _ (oneFails.map some))
      [.server .main, .server (.server 0), .server (.server 0), .server (.server 0),
        .pipeline .ordering, .server (.server 0)]).map (fun s => (s.pipeline.put.length,
          (Sender.step cfg encode s (.server (.server 0))).isSome)) = some (2, false) := by
    decide +kernel
  obtain ⟨s, hs, heq⟩ := Option.map_eq_some_iff.mp hrun
  obtain ⟨hput, hblocked⟩ := Prod.mk.inj heq
  exact ⟨s, hput, by simpa using hblocked, backpressure (by decide) (LTS.reach_of_run hs)⟩

end Sender

end Lidi.Send
