import Lidi.Send.Stop

set_option relaxedAutoImplicit false
set_option autoImplicit false

/-!
# A stopped sender does not end

The encoding workers return only at a stop marker on `to_encoding`, and the ordering worker never
puts one there. So no run of the sender ends with all workers returned; and there are runs, for
every client, that come to a standstill after `stop`.

## Main definitions

* `Send.AllReturned` — all workers of a sender have returned.
* `Send.StopEnds` — a sender that stands still after `stop` has ended.
* `Send.Pipeline.Quiet` — nothing is on its way in the pipeline.

## Main results

* `Send.Pipeline.Quiet.block` — a quiet pipeline can carry one block to the socket.
* `Send.exists_standstill` — the run that handles one block after the other stands still.
* `Send.stop_never_ends` — a stopped sender does not end.
-/

namespace Lidi.Send

open Turnstile

variable {n : ℕ} {Packet : Type*} {encode : UInt8 → List UInt8 → List Packet}

namespace Pipeline

variable {p : Pipeline n Packet}

/-- Nothing is on its way, and all workers wait for something. -/
structure Quiet (p : Pipeline n Packet) : Prop where
  toOrdering : p.toOrdering = []
  ordering : p.ordering = .recv
  turn : p.gate.turn = p.id
  input : p.gate.input = []
  workers : p.gate.workers = fun _ => .idle
  locked : p.gate.locked = false
  output : p.gate.output = []
  udp : p.udp = .recv

/-- At the start the pipeline is quiet. -/
lemma Quiet.init : (init n Packet).Quiet :=
  ⟨rfl, rfl, rfl, rfl, rfl, rfl, rfl, rfl⟩

/-- What a quiet pipeline still records: the number of the next block, and the past. -/
lemma Quiet.exists_eq (h : p.Quiet) : ∃ turn taken gateSent sent put ordered, p =
    ⟨[], .recv, turn, ⟨[], fun _ => .idle, turn, false, [], taken, gateSent⟩, .recv, sent, put,
      ordered⟩ := by
  obtain ⟨toOrdering, ordering, id, ⟨input, workers, turn, locked, output, taken, gateSent⟩, udp,
    sent, put, ordered⟩ := p
  obtain ⟨h₁, h₂, h₃, h₄, h₅, h₆, h₇, h₈⟩ := h
  dsimp only at h₁ h₂ h₃ h₄ h₅ h₆ h₇ h₈
  subst h₁ h₂ h₃ h₄ h₅ h₆ h₇ h₈
  exact ⟨turn, taken, gateSent, sent, put, ordered, rfl⟩

/-- **One block.** A block put on `to_ordering` of a quiet pipeline can be carried to the socket
by the first encoding worker, after which the pipeline is quiet again. -/
lemma Quiet.block (encode : UInt8 → List UInt8 → List Packet) (h : p.Quiet) (hpos : 0 < n)
    (block : Block) :
    ∃ p', LTS.ReachVia (step encode) (fun _ a => a.isWorker = true)
      { p with toOrdering := [some block], put := p.put ++ [some block] } p' ∧ p'.Quiet := by
  obtain ⟨turn, taken, gateSent, sent, put, ordered, rfl⟩ := h.exists_eq
  -- the first worker wakes the others, which are not asleep
  have hidle : Function.update (fun w => (Function.update (fun _ : Fin n =>
      (Phase.idle : Phase (List Packet))) ⟨0, hpos⟩ .notify w).wake) ⟨0, hpos⟩ .idle =
      fun _ => .idle := by
    funext w
    rcases eq_or_ne w ⟨0, hpos⟩ with rfl | hne
    · simp
    · simp [hne, Phase.wake]
  have hrun : LTS.run (step encode) (⟨[some block], .recv, turn,
      ⟨[], fun _ => .idle, turn, false, [], taken, gateSent⟩, .recv, sent, put ++ [some block],
        ordered⟩ : Pipeline n Packet)
      [.ordering, .ordering, .encoding ⟨0, hpos⟩, .encoding ⟨0, hpos⟩, .encoding ⟨0, hpos⟩,
        .encoding ⟨0, hpos⟩, .udp] =
      some ⟨[], .recv, turn + 1, ⟨[], fun _ => .idle, turn + 1, false, [],
        taken ++ [some (turn, block)], gateSent ++ [.pass turn (encode turn block.serialized)]⟩,
        .recv, sent ++ [encode turn block.serialized], put ++ [some block],
        ordered ++ [block]⟩ := by
    simp [LTS.run, step, Turnstile.step, HasRoom, hpos, Send.encoding, encodeItem, Phase.ofItem,
      Gate.push, Gate.pop, hidle]
  exact ⟨_, LTS.reachVia_of_run hrun (by simp [Label.isWorker]),
    ⟨rfl, rfl, rfl, rfl, rfl, rfl, rfl, rfl⟩⟩

/-- The ordering worker has returned, the encoding workers wait for blocks, and there are none. -/
structure Over (p : Pipeline n Packet) : Prop where
  ordering : p.ordering = .returned
  input : p.gate.input = []
  workers : p.gate.workers = fun _ => .idle
  output : p.gate.output = []
  udp : p.udp = .returned ∨ ∃ count, p.udp = .draining (count + 1)

/-- A stop marker put on `to_ordering` of a quiet pipeline can be carried to the socket; the
udp worker then returns, or waits for more. -/
lemma Quiet.stop (encode : UInt8 → List UInt8 → List Packet) (h : p.Quiet) (hpos : 0 < n) :
    ∃ p', LTS.ReachVia (step encode) (fun _ a => a.isWorker = true)
      { p with toOrdering := [none], put := p.put ++ [none] } p' ∧ p'.Over ∧
      p'.toOrdering = [] := by
  obtain ⟨turn, taken, gateSent, sent, put, ordered, rfl⟩ := h.exists_eq
  have hdrain : LTS.run (step encode) (⟨[none], .recv, turn,
      ⟨[], fun _ => .idle, turn, false, [], taken, gateSent⟩, .recv, sent, put ++ [none],
        ordered⟩ : Pipeline n Packet) [.ordering, .ordering, .udp] = some ⟨[], .returned, turn,
      ⟨[], fun _ => .idle, turn, false, [], taken, gateSent⟩, .draining (n - 1), sent,
        put ++ [none], ordered⟩ := by
    simp [LTS.run, step, HasRoom, hpos, Gate.emit, Gate.pop]
  have hlabels : ∀ a ∈ ([.ordering, .ordering, .udp] : List (Label n)), a.isWorker = true := by
    simp [Label.isWorker]
  have hreach := LTS.reachVia_of_run hdrain hlabels
  cases hcount : n - 1 with
  | zero =>
    rw [hcount] at hreach
    exact ⟨_, hreach.tail (a := .udp) rfl (step_iff.mpr (.drained rfl)),
      ⟨rfl, rfl, rfl, rfl, .inl rfl⟩, rfl⟩
  | succ count =>
    rw [hcount] at hreach
    exact ⟨_, hreach, ⟨rfl, rfl, rfl, rfl, .inr ⟨count, rfl⟩⟩, rfl⟩

end Pipeline

section Standstill

variable {raptorq : RaptorQ} {flush : Bool} {client : ClientSocket} {s : Sender 1 n Packet}

/-- All workers have returned. -/
def AllReturned (s : Sender 1 n Packet) : Prop :=
  s.servers.workers 0 = .returned ∧ s.pipeline.ordering = .returned ∧
    (∀ w, s.pipeline.gate.workers w = .done) ∧ s.pipeline.udp = .returned

/-- Whenever `stop` has been called and no worker can take a step, all workers have returned. -/
def StopEnds (raptorq : RaptorQ) (flush : Bool) (n : ℕ)
    (encode : UInt8 → List UInt8 → List Packet) (client : ClientSocket) : Prop :=
  ∀ s, LTS.Reach (Sender.step (oneshotConfig raptorq flush n) encode) (oneshot n Packet client) s →
    s.servers.todo = [] →
    LTS.Stuck (Sender.step (oneshotConfig raptorq flush n) encode) (fun _ => True) s →
    AllReturned s

/-- The encoding workers never return. -/
lemma not_allReturned (hpos : 0 < n) (hn : n < 256)
    (h : LTS.Reach (Sender.step (oneshotConfig raptorq flush n) encode) (oneshot n Packet client)
      s) :
    ¬ AllReturned s := by
  rintro ⟨-, -, hdone, -⟩
  have hpipe : LTS.Reach (Pipeline.step encode) (Pipeline.init n Packet) s.pipeline :=
    Sender.pipeline_reach h (fun _ _ => trivial) fun _ _ _ => trivial
  exact ((Pipeline.Inv.of_reach hn hpipe).running ⟨0, hpos⟩).2 (hdone _)

/-- `stop` has been called, the server worker is in the given phase with the given queue, and
nothing is on its way in the pipeline. -/
structure Calm (toServer : List (Option ClientSocket)) (server : Server) (s : Sender 1 n Packet) :
    Prop where
  todo : s.servers.todo = []
  toServer : s.servers.toServer = toServer
  server : s.servers.workers 0 = server
  quiet : s.pipeline.Quiet

variable {toServer : List (Option ClientSocket)}

/-- A step of the server worker that puts a block on `to_ordering`, and the way of the block to
the socket. -/
lemma Calm.put (raptorq : RaptorQ) (flush : Bool) (encode : UInt8 → List UInt8 → List Packet)
    {server : Server} (h : Calm toServer server s) (hpos : 0 < n) (block : Block) (server' : Server)
    (hstep : Servers.Trans (oneshotConfig raptorq flush n) (HasRoom (some n) s.pipeline.toOrdering)
      s.servers (.server 0)
      { s.servers with workers := Function.update s.servers.workers 0 server' } [some block]) :
    ∃ s', LTS.Reach (Sender.step (oneshotConfig raptorq flush n) encode) s s' ∧
      Calm toServer server' s' := by
  obtain ⟨p', hreach, hquiet⟩ := h.quiet.block encode hpos block
  have hput : Sender.putAll encode s.pipeline [some block] =
      some { s.pipeline with
        toOrdering := [some block]
        put := s.pipeline.put ++ [some block] } := by
    simp [Sender.putAll, Pipeline.step, HasRoom, h.quiet.toOrdering, hpos]
  refine ⟨_, (LTS.Reach.next .refl (Sender.step_iff.mpr (.server hstep hput))).trans
    (Sender.lift hreach), ?_⟩
  exact ⟨h.todo, h.toServer, by simp, hquiet⟩

/-- The server worker can send all blocks of its client. -/
lemma Calm.blocks (raptorq : RaptorQ) (flush : Bool)
    (encode : UInt8 → List UInt8 → List Packet) {id : ClientId} {blocks : List Block}
    {res : Outcome Error Unit}
    (h : Calm toServer (.client id blocks res) s) (hpos : 0 < n) :
    ∃ s', LTS.Reach (Sender.step (oneshotConfig raptorq flush n) encode) s s' ∧
      Calm toServer (.client id [] res) s' := by
  induction blocks generalizing s with
  | nil => exact ⟨s, .refl, h⟩
  | cons b blocks ih =>
    have hroom : (decide (HasRoom (some n) s.pipeline.toOrdering)) = true := by
      simp [HasRoom, h.quiet.toOrdering, hpos]
    obtain ⟨t, ht, hcalm⟩ :=
      h.put raptorq flush encode hpos b (.client id blocks res) (.send h.server hroom)
    obtain ⟨s', hs', hcalm'⟩ := ih hcalm
    exact ⟨s', ht.trans hs', hcalm'⟩

/-- The server worker can finish with its client, and is then ready for the stop marker, or has
failed. -/
lemma Calm.finish (raptorq : RaptorQ) (flush : Bool)
    (encode : UInt8 → List UInt8 → List Packet) {id : ClientId} {blocks : List Block}
    {res : Outcome Error Unit}
    (h : Calm toServer (.client id blocks res) s) (hpos : 0 < n) :
    ∃ s' server, LTS.Reach (Sender.step (oneshotConfig raptorq flush n) encode) s s' ∧
      Calm toServer server s' ∧ (server = .recv ∨ ∃ f, server = .failed f) := by
  obtain ⟨t, ht, hcalm⟩ := h.blocks raptorq flush encode hpos
  have hnext := LTS.Reach.next ht
    (Sender.step_iff.mpr (.server (a := .server 0) (.finish hcalm.server) rfl))
  have hafter : Calm toServer (Servers.afterClient (oneshotConfig raptorq flush n) id res)
      (⟨{ t.servers with
        multiplexControl := t.servers.multiplexControl + Servers.signals res
        workers := Function.update t.servers.workers 0
          (Servers.afterClient (oneshotConfig raptorq flush n) id res) }, t.pipeline⟩ :
        Sender 1 n Packet) :=
    ⟨hcalm.todo, hcalm.toServer, by simp, hcalm.quiet⟩
  rcases Servers.afterClient_cases (oneshotConfig raptorq flush n) id res with
    hphase | ⟨block, hphase⟩ | ⟨f, hphase⟩
  · rw [hphase] at hafter hnext
    exact ⟨_, _, hnext, hafter, .inl rfl⟩
  · rw [hphase] at hafter hnext
    have hroom : (decide (HasRoom (some n) t.pipeline.toOrdering)) = true := by
      simp [HasRoom, hcalm.quiet.toOrdering, hpos]
    obtain ⟨s', hs', hcalm'⟩ := hafter.put raptorq flush encode hpos block .recv
      (.abort hafter.server hroom)
    exact ⟨s', _, hnext.trans hs', hcalm', .inl rfl⟩
  · rw [hphase] at hafter hnext
    exact ⟨_, _, hnext, hafter, .inr ⟨f, rfl⟩⟩

/-- The first stop marker can be carried to the socket. -/
lemma Calm.firstStop (raptorq : RaptorQ) (flush : Bool)
    (encode : UInt8 → List UInt8 → List Packet) {left : ℕ}
    (h : Calm toServer (.stopping (left + 1)) s) (hpos : 0 < n) :
    ∃ s', LTS.Reach (Sender.step (oneshotConfig raptorq flush n) encode) s s' ∧
      s'.servers.workers 0 = .stopping left ∧ s'.servers.todo = [] ∧ s'.pipeline.Over ∧
      s'.pipeline.toOrdering = [] := by
  have hroom : HasRoom (some n) s.pipeline.toOrdering := by
    simp [HasRoom, h.quiet.toOrdering, hpos]
  have hput : Sender.putAll encode s.pipeline [none] =
      some { s.pipeline with toOrdering := [none], put := s.pipeline.put ++ [none] } := by
    simp [Sender.putAll, Pipeline.step, HasRoom, h.quiet.toOrdering, hpos]
  have hstop : Servers.Trans (oneshotConfig raptorq flush n)
      (HasRoom (some n) s.pipeline.toOrdering) s.servers (.server 0) _ _ :=
    .stop h.server (decide_eq_true hroom)
  have hnext := LTS.Reach.next .refl (Sender.step_iff.mpr (.server hstop hput))
  obtain ⟨p, hp, hover, hempty⟩ := h.quiet.stop encode hpos
  exact ⟨⟨_, p⟩, hnext.trans (Sender.lift hp), by simp, h.todo, hover, hempty⟩

/-- The remaining stop markers fit on `to_ordering`, and the server worker can return. -/
lemma stop_servers (raptorq : RaptorQ) (flush : Bool)
    (encode : UInt8 → List UInt8 → List Packet) {left : ℕ}
    (hserver : s.servers.workers 0 = .stopping left)
    (htodo : s.servers.todo = []) (hover : s.pipeline.Over)
    (hfull : s.pipeline.toOrdering.length + left < n) :
    ∃ s', LTS.Reach (Sender.step (oneshotConfig raptorq flush n) encode) s s' ∧
      s'.servers.workers 0 = .returned ∧ s'.servers.todo = [] ∧ s'.pipeline.Over := by
  induction left generalizing s with
  | zero =>
    exact ⟨_, .next .refl (Sender.step_iff.mpr (.server (a := .server 0) (.stopped hserver) rfl)),
      by simp, htodo, hover⟩
  | succ left ih =>
    have hroom : HasRoom (some n) s.pipeline.toOrdering := by
      simp only [HasRoom, Option.mem_some_iff, forall_eq']
      omega
    have hput : Sender.putAll encode s.pipeline [none] =
        some { s.pipeline with
          toOrdering := s.pipeline.toOrdering ++ [none]
          put := s.pipeline.put ++ [none] } := by
      simp [Sender.putAll, Pipeline.step, hroom]
    have hstop : Servers.Trans (oneshotConfig raptorq flush n)
        (HasRoom (some n) s.pipeline.toOrdering) s.servers _ _ _ :=
      .stop hserver (decide_eq_true hroom)
    have hnext := LTS.Reach.next .refl (Sender.step_iff.mpr (.server hstop hput))
    obtain ⟨s', hs', hrest⟩ := @ih ⟨{ s.servers with
        workers := Function.update s.servers.workers 0 (.stopping left) }, { s.pipeline with
        toOrdering := s.pipeline.toOrdering ++ [none]
        put := s.pipeline.put ++ [none] }⟩ (by simp) htodo
      ⟨hover.ordering, hover.input, hover.workers, hover.output, hover.udp⟩ (by simp; omega)
    exact ⟨s', hnext.trans hs', hrest⟩

/-- A sender whose pipeline is quiet or over, and whose server worker has ended, stands still. -/
lemma stuck_of {raptorq : RaptorQ} {flush : Bool} (htodo : s.servers.todo = [])
    (hserver : s.servers.workers 0 = .returned ∨ ∃ f, s.servers.workers 0 = .failed f)
    (hpipe : s.pipeline.Quiet ∨ s.pipeline.Over) :
    LTS.Stuck (Sender.step (oneshotConfig raptorq flush n) encode) (fun _ => True) s := by
  intro a _
  cases a with
  | server a =>
    cases a with
    | main => simp [Sender.step, Servers.step, htodo]
    | server w =>
      obtain rfl : w = 0 := Subsingleton.elim w 0
      rcases hserver with hw | ⟨f, hw⟩ <;> simp [Sender.step, Servers.step, hw]
    | heartbeat => simp [Sender.step, Servers.step, oneshotConfig]
  | pipeline a =>
    cases a with
    | put m => simp [Sender.step, Pipeline.Label.isWorker]
    | ordering =>
      rcases hpipe with hq | ho
      · simp [Sender.step, Pipeline.step, hq.ordering, hq.toOrdering]
      · simp [Sender.step, Pipeline.step, ho.ordering]
    | encoding w =>
      rcases hpipe with hq | ho
      · simp [Sender.step, Pipeline.step, Turnstile.step, hq.workers, hq.input]
      · simp [Sender.step, Pipeline.step, Turnstile.step, ho.workers, ho.input]
    | udp =>
      rcases hpipe with hq | ho
      · simp [Sender.step, Pipeline.step, hq.udp, hq.output]
      · rcases ho.udp with hu | ⟨count, hu⟩ <;>
        simp [Sender.step, Pipeline.step, hu, ho.output]

/-- **A standstill after `stop`.** For every client there is a run to a state in which `stop` has
been called and no worker can move.

**Proof sketch.** All blocks of the client are carried to the socket one by one. Then the first
stop marker is, and the others stay on `to_ordering`, whose worker has returned. -/
theorem exists_standstill (raptorq : RaptorQ) (flush : Bool)
    (encode : UInt8 → List UInt8 → List Packet) (client : ClientSocket) (hpos : 0 < n) :
    ∃ s, LTS.Reach (Sender.step (oneshotConfig raptorq flush n) encode) (oneshot n Packet client)
        s ∧
      s.servers.todo = [] ∧
      LTS.Stuck (Sender.step (oneshotConfig raptorq flush n) encode) (fun _ => True) s := by
  -- both calls are made, and the server worker takes its client
  obtain ⟨s₁, hs₁, hcalm₁⟩ : ∃ s, LTS.Reach (Sender.step (oneshotConfig raptorq flush n) encode)
      (oneshot n Packet client) s ∧ Calm [none] (.client 0
        (Client.start raptorq flush 0 client).1 (Client.start raptorq flush 0 client).2) s := by
    obtain ⟨s, hs⟩ : ∃ s, LTS.run (Sender.step (oneshotConfig raptorq flush n) encode)
        (oneshot n Packet client)
        [.server .main, .server (.server 0), .server .main, .server (.server 0)] = some s :=
      ⟨_, rfl⟩
    refine ⟨s, LTS.reach_of_run hs, ?_⟩
    cases hs
    exact ⟨rfl, rfl, rfl, .init⟩
  obtain ⟨s₂, server, hs₂, hcalm₂, hserver⟩ := hcalm₁.finish raptorq flush encode hpos
  rcases hserver with rfl | ⟨f, rfl⟩
  · -- the server worker takes `stop` and sends the first marker
    have htake : Servers.Trans (oneshotConfig raptorq flush n)
        (HasRoom (some n) s₂.pipeline.toOrdering) s₂.servers _ _ _ :=
      .takeStop hcalm₂.server hcalm₂.toServer
    have hs₃ := LTS.Reach.next (hs₁.trans hs₂) (Sender.step_iff.mpr (.server htake rfl))
    have hcalm₃ : Calm [] (.stopping n) (⟨{ s₂.servers with
        toServer := []
        workers := Function.update s₂.servers.workers 0 (.stopping n) }, s₂.pipeline⟩ :
        Sender 1 n Packet) :=
      ⟨hcalm₂.todo, rfl, by simp, hcalm₂.quiet⟩
    obtain ⟨k, rfl⟩ := Nat.exists_eq_succ_of_ne_zero hpos.ne'
    obtain ⟨s₄, hs₄, hleft, htodo, hover, hempty⟩ := hcalm₃.firstStop raptorq flush encode hpos
    obtain ⟨s₅, hs₅, hreturned, htodo', hover'⟩ := stop_servers raptorq flush encode hleft htodo
      hover (by simp [hempty])
    exact ⟨s₅, (hs₃.trans hs₄).trans hs₅, htodo', stuck_of htodo' (.inl hreturned) (.inr hover')⟩
  · exact ⟨s₂, hs₁.trans hs₂, hcalm₂.todo,
      stuck_of hcalm₂.todo (.inr ⟨f, hcalm₂.server⟩) (.inl hcalm₂.quiet)⟩

/-- **A stopped sender does not end**, for any number of encoding threads and any client. -/
theorem stop_never_ends (crate : Crate Packet) (raptorq : RaptorQ) (flush : Bool)
    (client : ClientSocket) (hpos : 0 < n) (hn : n < 256) :
    ¬ StopEnds raptorq flush n (raptorq.encode crate) client := by
  intro hends
  obtain ⟨s, hreach, htodo, hstuck⟩ := exists_standstill raptorq flush (raptorq.encode crate)
    client hpos
  exact not_allReturned hpos hn hreach (hends s hreach htodo hstuck)

/-- A client of three bytes, with four encoding threads. -/
theorem stop_never_ends_four :
    ¬ StopEnds RaptorQ.single true 4 (RaptorQ.single.encode Crate.single) shortClient :=
  stop_never_ends Crate.single RaptorQ.single true shortClient (by decide) (by decide)

/-- One encoding thread: the udp worker has returned, and the encoding worker waits for a block. -/
theorem stop_hangs : ¬ StopEnds RaptorQ.single false 1 (RaptorQ.single.encode Crate.single)
    shortClient := by
  intro hends
  obtain ⟨s, hreach, htodo, hstuck⟩ := exists_standstill RaptorQ.single false
    (RaptorQ.single.encode Crate.single) shortClient (n := 1) (by decide)
  exact not_allReturned (by decide) (by decide) hreach (hends s hreach htodo hstuck)

end Standstill

end Lidi.Send
