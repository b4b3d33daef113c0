import Lidi.Link.Multiplex
import Lidi.Send.Progress

set_option relaxedAutoImplicit false
set_option autoImplicit false

/-!
# The workers do not go on forever

Every step but a heartbeat either starts to serve a client, or brings a block nearer to its end.

## Main definitions

* `Link.Multiplex.measure` — the clients not yet started, and the work on what was started.

## Main results

* `Link.Multiplex.terminates` — without heartbeats, and if no call of a client fails, every
  sequence of steps is finite.
-/

namespace Lidi.Receive

open Function

/-- The steps that a client worker can still take, without what is in the queue. -/
def Worker.work : Worker → ℕ
  | .wait _ => 3
  | .serve _ .new => 2
  | .serve _ (.running _) => 1
  | _ => 0

/-- The blocks that are in the queues. -/
def queued (transfers : List Transfer) : ℕ :=
  (transfers.map (·.queue.length)).sum

/-- What is in the queues when one transfer has changed. -/
lemma queued_set {transfers : List Transfer} {q : ℕ} {t : Transfer} (h : transfers[q]? = some t)
    (t' : Transfer) :
    t.queue.length + queued (transfers.set q t') = t'.queue.length + queued transfers := by
  induction transfers generalizing q with
  | nil => simp at h
  | cons t₀ transfers ih =>
    cases q with
    | zero =>
      obtain rfl : t₀ = t := by simpa using h
      simp only [queued, List.set_cons_zero, List.map_cons, List.sum_cons]
      omega
    | succ q =>
      have hrest := ih (q := q) (by simpa using h)
      simp only [queued, List.set_cons_succ, List.map_cons, List.sum_cons] at hrest ⊢
      omega

/-- Sending to a queue makes it longer by one block at most. -/
lemma Transfer.length_queue_put (t : Transfer) (b : Block) :
    (t.put b).queue.length ≤ t.queue.length + 1 := by
  unfold Transfer.put
  split <;> simp

/-- A step takes a block from the queue, or brings the worker further. -/
lemma Client.Trans.work_lt {config : Config} {alive : Bool} {t t' : Transfer} {stage : Stage}
    {result : Result} (h : Trans config alive t stage .ok result t') (q : ℕ) :
    t'.queue.length + (Worker.next q result).work <
      t.queue.length + (Worker.serve q stage).work := by
  have htwo : ∀ n : ℕ, n < n + 1 + 1 := fun n => by omega
  cases h <;> simp_all [Transfer.call, Transfer.take, Transfer.drop, Worker.next, Worker.work]

namespace Demux

variable {k : ℕ} {config : Config} {s s' : Demux k}

/-- The work of the client workers. -/
def work (s : Demux k) : ℕ :=
  4 * s.toClients.length + queued s.transfers + ∑ w, (s.workers w).work

/-- **Every step of a client worker makes progress.** -/
theorem ClientTrans.progress {w : Fin k} (h : ClientTrans config s w .ok s') :
    s'.work < s.work := by
  unfold work
  cases h with
  | @recv q rest hw hin =>
    have hsum := Pool.sum_update (v := .wait q) (a := 0) (b := 3) (congrArg Worker.work hw) rfl
    simp only [hin, List.length_cons]
    omega
  | @acquire q permits hw hsem =>
    have hsum := Pool.sum_update (v := .serve q .new) (a := 3) (b := 2)
      (congrArg Worker.work hw) rfl
    simp only
    omega
  | @serve q stage answer t t' result hw hq hstep =>
    have hsum := Pool.sum_update (v := Worker.next q result) (congrArg Worker.work hw) rfl
    have hqueue := queued_set hq t'
    have hlt := hstep.work_lt q
    simp only [served]
    omega

/-- A block that is sent to a queue adds one unit of work at most. -/
lemma work_forward (s : Demux k) (id : ClientId) (b : Block) (willEnd : Bool) :
    (s.forward id b willEnd).work ≤ s.work + 1 := by
  unfold forward
  split
  · omega
  · rename_i q hactive
    split
    · omega
    · rename_i t hq
      have hput := t.length_queue_put b
      have hqueue := queued_set hq (t.put b)
      split
      · exact Nat.le_succ _
      · split <;> simp only [work] <;> omega

/-- **A block that is received adds a bounded amount of work.** -/
theorem work_receive (s : Demux k) (config : Config) (b : Block) :
    (s.receive config (some b)).work ≤ s.work + 5 := by
  have hregister : ∀ id, (s.register id).work = s.work + 4 := by
    intro id
    simp only [work, register, queued, Transfer.new, List.map_append, List.map_singleton,
      List.sum_append, List.sum_singleton, List.length_append, List.length_singleton,
      List.length_nil]
    omega
  have hforward := work_forward s
  unfold receive
  simp only
  split
  · omega
  · rename_i type htype
    split
    · exact Nat.le_add_right _ 5
    · rename_i id hid
      cases type with
      | heartbeat => exact Nat.le_add_right _ 5
      | start =>
        have hstart := work_forward (s.register id) id b false
        rw [hregister] at hstart
        exact hstart
      | data => exact (hforward id b false).trans (by omega)
      | abort => exact (hforward id b true).trans (by omega)
      | «end» => exact (hforward id b true).trans (by omega)

end Demux

end Lidi.Receive

namespace Lidi.Link.Multiplex

variable {m k : ℕ} {sender : Send.Config} {receiver : Receive.Config} {s s' : Multiplex m k}

/-- The clients that are not started, and the work on the others. -/
def measure (s : Multiplex m k) : ℕ ×ₗ ℕ :=
  toLex (s.servers.unstarted, s.servers.work + 6 * s.channel.length + s.demux.work)

/-- **Every step but a heartbeat makes progress**, if no call of a client fails. -/
theorem measure_lt {a : Label m k} (ha : a.Productive)
    (h : step sender receiver s a = some s') : s'.measure < s.measure := by
  unfold measure
  cases step_iff.mp h with
  | @server a servers out hserver =>
    rw [Prod.Lex.toLex_lt_toLex]
    rcases hserver.progress fun heq => ha.2 (congrArg _ heq) with hlt | ⟨heq, hlt⟩
    · exact .inl hlt
    · refine .inr ⟨heq, ?_⟩
      simp only [List.length_append]
      omega
  | @dispatch b rest hin hrunning =>
    have hwork := Receive.Demux.work_receive s.demux receiver b
    rw [Prod.Lex.toLex_lt_toLex]
    refine .inr ⟨rfl, ?_⟩
    simp only [hin, List.length_cons]
    omega
  | @client w answer demux hclient =>
    obtain rfl : answer = .ok := ha.1
    rw [Prod.Lex.toLex_lt_toLex]
    exact .inr ⟨rfl, Nat.add_lt_add_left hclient.progress _⟩

/-- **Without heartbeats every sequence of steps is finite**, if no call of a client fails. -/
theorem terminates (sender : Send.Config) (receiver : Receive.Config) (s : Multiplex m k) :
    LTS.Terminates (step sender receiver) Label.Productive s :=
  LTS.terminates_of_measure wellFounded_lt measure (fun _ _ _ ha hs => measure_lt ha hs) s

end Lidi.Link.Multiplex
