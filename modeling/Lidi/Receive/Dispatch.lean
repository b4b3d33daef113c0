import Lidi.Core.Pool
import Lidi.Receive.Serving

set_option relaxedAutoImplicit false
set_option autoImplicit false

/-!
# The dispatch worker and the client workers

The dispatch worker takes the decoded blocks and loss markers from `to_dispatch`. A `Start` opens
a queue, which goes to a client worker; the other blocks go to the queue of their client, until the
transfer ends or synchronization is lost. All these channels are unbounded, so that the dispatch
worker never waits for a client worker.

## Main definitions

* `Receive.Demux` — the dispatch worker, the client workers and the transfers.
* `Receive.Demux.receive` — what the dispatch worker does with one message.
* `Receive.Demux.clientStep` — the next step of a client worker.
* `Receive.Demux.Inv` — the invariant of the client workers.

## Main results

* `Receive.Demux.Inv.receive`, `Receive.Demux.Inv.clientStep` — both keep the invariant.
* `Receive.Demux.Inv.ended` — a transfer for which `client_end` was called has ended.
-/

namespace Lidi.Receive

open Function

/-- What a client worker is doing: waiting for a transfer, waiting for the semaphore, or serving a
transfer; or it has panicked. Transfers are numbered in the order of their queues. -/
inductive Worker
  | recv
  | wait (q : ℕ)
  | serve (q : ℕ) (stage : Client.Stage)
  | panicked
  deriving DecidableEq, Repr

/-- The transfer that a worker has in hand, with its stage. -/
def Worker.transfer : Worker → Option (ℕ × Client.Stage)
  | .wait q => some (q, .new)
  | .serve q stage => some (q, stage)
  | _ => none

/-- What a worker does after a step on a transfer. -/
def Worker.next (q : ℕ) : Client.Result → Worker
  | .go stage => .serve q stage
  | .returned => .recv
  | .panicked => .panicked

/-- The permit that a worker gives back after a step on a transfer. -/
def Worker.signals : Client.Result → ℕ
  | .returned => 1
  | _ => 0

/-- Sending to the queue of a transfer. It fails if the receiving end has been dropped. -/
def Transfer.put (t : Transfer) (b : Block) : Transfer :=
  if t.dropped then t else { t with queue := t.queue ++ [b] }

/-- The dispatch worker and the `k` client workers. `dispatch` says why the dispatch worker has
stopped, if it has; `toClients` is the channel `to_clients`. -/
structure Demux (k : ℕ) where
  transfers : List Transfer
  active : ClientId → Option ℕ
  ended : ClientId → Option ℕ
  dispatch : Option (Fault Error)
  toClients : List ℕ
  workers : Fin k → Worker
  multiplexControl : ℕ

namespace Demux

variable {k : ℕ}

/-- The initial state. -/
def init (k : ℕ) : Demux k where
  transfers := []
  active := fun _ => none
  ended := fun _ => none
  dispatch := none
  toClients := []
  workers := fun _ => .recv
  multiplexControl := k

/-- The dispatch worker still has the sending end of the queue of a transfer. -/
def alive (s : Demux k) (q : ℕ) (t : Transfer) : Bool :=
  s.dispatch.isNone && (s.active t.clientId = some q || s.ended t.clientId = some q)

/-- The loop over the active transfers when synchronization has been lost: an `Abort` for each. -/
def abortAll (raptorq : RaptorQ) (active : ClientId → Option ℕ) :
    ℕ → List Transfer → Outcome Error (List Transfer)
  | _, [] => .ok []
  | q, t :: transfers =>
    match abortAll raptorq active (q + 1) transfers with
    | .error f => .error f
    | .ok transfers =>
      if active t.clientId = some q then
        match (Block.new .abort raptorq t.clientId none).mapError .protocol with
        | .error f => .error f
        | .ok block => .ok (t.put block :: transfers)
      else .ok (t :: transfers)

/-- The branch for a loss marker. -/
def lose (config : Config) (s : Demux k) : Demux k :=
  match abortAll config.raptorq s.active 0 s.transfers with
  | .error f => { s with dispatch := some f }
  | .ok transfers => { s with transfers := transfers, active := fun _ => none }

/-- The branch for a `Start`: a new queue, which is sent to the client workers. -/
def register (s : Demux k) (id : ClientId) : Demux k :=
  { s with
    transfers := s.transfers ++ [Transfer.new id]
    active := update s.active id (some s.transfers.length)
    toClients := s.toClients ++ [s.transfers.length] }

/-- `retain` on the ended transfers: those whose queue is not empty. -/
def retain (transfers : List Transfer) (ended : ClientId → Option ℕ) (id : ClientId) : Option ℕ :=
  (ended id).filter fun q => (transfers[q]?).any fun t => !t.queue.isEmpty

/-- Sending a block to the queue of its client, if the transfer is active. -/
def forward (s : Demux k) (id : ClientId) (block : Block) (willEnd : Bool) : Demux k :=
  match s.active id with
  | none => s
  | some q =>
    match s.transfers[q]? with
    | none => s
    | some t =>
      if t.dropped then { s with active := update s.active id none }
      else
        let transfers := s.transfers.set q (t.put block)
        if willEnd then
          { s with
            transfers := transfers
            active := update s.active id none
            ended := update (retain transfers s.ended) id (some q) }
        else { s with transfers := transfers }

/-- What the dispatch worker does with one message. -/
def receive (config : Config) (s : Demux k) : Option Block → Demux k
  | none => s.lose config
  | some block =>
    match block.blockType with
    | .error _ => s
    | .ok type =>
      match block.clientId with
      | none => { s with dispatch := some .panic }
      | some id =>
        match type with
        | .heartbeat => s
        | .start => (s.register id).forward id block false
        | .data => s.forward id block false
        | .abort => s.forward id block true
        | .end => s.forward id block true

/-- A new queue gets the block that opened it. -/
lemma forward_register (s : Demux k) (id : ClientId) (b : Block) :
    (s.register id).forward id b false =
      { s.register id with transfers := s.transfers ++ [(Transfer.new id).put b] } := by
  have hget : (s.register id).transfers[s.transfers.length]? = some (Transfer.new id) :=
    List.getElem?_concat_length
  unfold Demux.forward
  simp only [Demux.register, update_self] at hget ⊢
  rw [hget]
  simp [Transfer.new]

/-- The state after a step of the worker `w` on the transfer `q`. -/
def served (s : Demux k) (w : Fin k) (q : ℕ) (result : Client.Result) (t : Transfer) : Demux k :=
  { s with
    transfers := s.transfers.set q t
    workers := update s.workers w (Worker.next q result)
    multiplexControl := s.multiplexControl + Worker.signals result }

/-- The next step of a client worker; `none` if it is blocked. -/
def clientStep (config : Config) (s : Demux k) (w : Fin k) (answer : Client.Answer) :
    Option (Demux k) :=
  match s.workers w, answer with
  | .recv, .ok =>
    match s.toClients with
    | [] => none
    | q :: rest => some { s with toClients := rest, workers := update s.workers w (.wait q) }
  | .wait q, .ok =>
    match s.multiplexControl with
    | 0 => none
    | permits + 1 => some { s with
        multiplexControl := permits
        workers := update s.workers w (.serve q .new) }
  | .serve q stage, answer =>
    match s.transfers[q]? with
    | none => none
    | some t =>
      (Client.step config (s.alive q t) t stage answer).map fun res => s.served w q res.1 res.2
  | _, _ => none

/-- The kinds of steps of a client worker. -/
inductive ClientTrans (config : Config) (s : Demux k) (w : Fin k) : Client.Answer → Demux k → Prop
  | recv {q : ℕ} {rest : List ℕ} (hw : s.workers w = .recv) (hin : s.toClients = q :: rest) :
      ClientTrans config s w .ok
        { s with toClients := rest, workers := update s.workers w (.wait q) }
  | acquire {q permits : ℕ} (hw : s.workers w = .wait q) (hsem : s.multiplexControl = permits + 1) :
      ClientTrans config s w .ok
        { s with multiplexControl := permits, workers := update s.workers w (.serve q .new) }
  | serve {q : ℕ} {stage : Client.Stage} {answer : Client.Answer} {t t' : Transfer}
      {result : Client.Result} (hw : s.workers w = .serve q stage)
      (hq : s.transfers[q]? = some t)
      (hstep : Client.Trans config (s.alive q t) t stage answer result t') :
      ClientTrans config s w answer (s.served w q result t')

/-- The step function does exactly the steps of the relation. -/
theorem clientStep_iff {config : Config} {s s' : Demux k} {w : Fin k} {answer : Client.Answer} :
    clientStep config s w answer = some s' ↔ ClientTrans config s w answer s' := by
  constructor
  · intro h
    cases hw : s.workers w with
    | recv =>
      cases answer with
      | ok =>
        cases hin : s.toClients with
        | nil => simp [clientStep, hw, hin] at h
        | cons q rest =>
          simp only [clientStep, hw, hin, Option.some.injEq] at h
          exact h ▸ .recv hw hin
      | _ => simp [clientStep, hw] at h
    | wait q =>
      cases answer with
      | ok =>
        cases hsem : s.multiplexControl with
        | zero => simp [clientStep, hw, hsem] at h
        | succ permits =>
          simp only [clientStep, hw, hsem, Option.some.injEq] at h
          exact h ▸ .acquire hw hsem
      | _ => simp [clientStep, hw] at h
    | serve q stage =>
      cases hq : s.transfers[q]? with
      | none => simp [clientStep, hw, hq] at h
      | some t =>
        simp only [clientStep, hw, hq, Option.map_eq_some_iff] at h
        obtain ⟨⟨result, t'⟩, hstep, rfl⟩ := h
        exact .serve hw hq (Client.step_iff.mp hstep)
    | panicked => simp [clientStep, hw] at h
  · intro h
    cases h with
    | recv hw hin => simp [clientStep, hw, hin]
    | acquire hw hsem => simp [clientStep, hw, hsem]
    | serve hw hq hstep => simp [clientStep, hw, hq, Client.step_iff.mpr hstep]

end Demux

/-- What the client workers know of a transfer: all but its queue. -/
def Transfer.progress (t : Transfer) : Transfer :=
  { t with queue := [] }

/-- A transfer whose worker is at the given stage, or, if none is given, one whose worker has
dropped the queue, with or without a call of `client_end`. -/
def Status (t : Transfer) : Option Client.Stage → Prop
  | some stage => t.dropped = false ∧ Serving t stage
  | none => t.dropped = true ∧ ((∃ ok, Ended t ok) ∨ ∀ ok, Call.clientEnd ok ∉ t.calls)

/-- What is in the queue does not matter. -/
lemma Status.congr {t t' : Transfer} {stage : Option Client.Stage} (h : Status t stage)
    (heq : t'.progress = t.progress) : Status t' stage := by
  obtain ⟨id, queue, dropped, taken, calls⟩ := t
  obtain ⟨id', queue', dropped', taken', calls'⟩ := t'
  simp only [Transfer.progress, Transfer.mk.injEq] at heq
  obtain ⟨rfl, -, rfl, rfl, rfl⟩ := heq
  cases stage with
  | some stage => cases stage <;> exact h
  | none => exact ⟨h.1, h.2.imp_left fun ⟨ok, hended⟩ =>
      ⟨ok, hended.calls_eq, hended.taken_eq, hended.written_eq⟩⟩

/-- The transfers that are in hand, with their stages, and those that are over. -/
structure Account (transfers : List Transfer) (held : List (ℕ × Client.Stage)) : Prop where
  nodup : (held.map Prod.fst).Nodup
  lt_length : ∀ q stage, (q, stage) ∈ held → q < transfers.length
  status : ∀ q stage t, (q, stage) ∈ held → transfers[q]? = some t → Status t (some stage)
  unheld : ∀ q t, transfers[q]? = some t → q ∉ held.map Prod.fst → Status t none

namespace Account

variable {transfers transfers' : List Transfer} {held held' : List (ℕ × Client.Stage)} {q : ℕ}
  {t t' : Transfer} {stage : Client.Stage}

/-- There are no transfers at the start. -/
lemma nil : Account [] [] := by
  constructor <;> simp

/-- It does not matter who holds which transfer. -/
lemma perm (h : Account transfers held) (hp : held.Perm held') : Account transfers held' where
  nodup := (hp.map Prod.fst).nodup_iff.mp h.nodup
  lt_length q stage hmem := h.lt_length q stage (hp.mem_iff.mpr hmem)
  status q stage t hmem := h.status q stage t (hp.mem_iff.mpr hmem)
  unheld q t ht hnot := h.unheld q t ht fun hmem => hnot ((hp.map Prod.fst).mem_iff.mp hmem)

/-- What is put in the queues does not matter. -/
lemma congr (h : Account transfers held)
    (heq : transfers'.map Transfer.progress = transfers.map Transfer.progress) :
    Account transfers' held := by
  have hlen : transfers'.length = transfers.length := by simpa using congrArg List.length heq
  have hget : ∀ (q : ℕ) (t' : Transfer), transfers'[q]? = some t' →
      ∃ t, transfers[q]? = some t ∧ t'.progress = t.progress := by
    intro q t' ht'
    have hmap := congrArg (·[q]?) heq
    simp only [List.getElem?_map, ht', Option.map_some] at hmap
    obtain ⟨t, ht, hprog⟩ := Option.map_eq_some_iff.mp hmap.symm
    exact ⟨t, ht, hprog.symm⟩
  refine ⟨h.nodup, fun q stage hmem => hlen ▸ h.lt_length q stage hmem, ?_, ?_⟩
  · intro q stage t' hmem ht'
    obtain ⟨t, ht, hprog⟩ := hget q t' ht'
    exact (h.status q stage t hmem ht).congr hprog
  · intro q t' ht' hnot
    obtain ⟨t, ht, hprog⟩ := hget q t' ht'
    exact (h.unheld q t ht hnot).congr hprog

/-- A new transfer. -/
lemma register (h : Account transfers held) (id : ClientId) :
    Account (transfers ++ [Transfer.new id]) ((transfers.length, .new) :: held) := by
  have hnot : transfers.length ∉ held.map Prod.fst := by
    intro hmem
    obtain ⟨⟨q, stage⟩, hmem, rfl⟩ := List.mem_map.mp hmem
    exact (h.lt_length _ _ hmem).false
  have hget : ∀ (q : ℕ) (t : Transfer), (transfers ++ [Transfer.new id])[q]? = some t →
      transfers[q]? = some t ∨ (q = transfers.length ∧ t = Transfer.new id) := by
    intro q t ht
    rcases lt_or_ge q transfers.length with hlt | hge
    · rw [List.getElem?_append_left hlt] at ht
      exact .inl ht
    · have hlt := (List.getElem?_eq_some_iff.mp ht).1
      rw [List.length_append, List.length_singleton] at hlt
      obtain rfl : q = transfers.length := by omega
      rw [List.getElem?_concat_length, Option.some.injEq] at ht
      exact .inr ⟨rfl, ht.symm⟩
  refine ⟨List.nodup_cons.mpr ⟨hnot, h.nodup⟩, ?_, ?_, ?_⟩
  · intro q stage hmem
    rw [List.length_append, List.length_singleton]
    rcases List.mem_cons.mp hmem with heq | hmem
    · cases heq
      omega
    · have hlt := h.lt_length q stage hmem
      omega
  · intro q stage t hmem ht
    rcases List.mem_cons.mp hmem with heq | hmem
    · cases heq
      rw [List.getElem?_concat_length, Option.some.injEq] at ht
      subst ht
      exact ⟨rfl, rfl, rfl⟩
    · rcases hget q t ht with ht | ⟨rfl, -⟩
      · exact h.status q stage t hmem ht
      · exact absurd (List.mem_map_of_mem hmem) hnot
  · intro q t ht hout
    rw [List.map_cons, List.mem_cons, not_or] at hout
    rcases hget q t ht with ht | ⟨hq, -⟩
    · exact h.unheld q t ht hout.2
    · exact absurd hq hout.1

/-- A transfer in hand comes to another stage, or is over. -/
lemma replace (h : Account transfers ((q, stage) :: held)) (next : Option Client.Stage)
    (hnext : Status t' next) :
    Account (transfers.set q t') ((next.map (q, ·)).toList ++ held) := by
  obtain ⟨hnot, hnodup⟩ := List.nodup_cons.mp h.nodup
  have hlt := h.lt_length q stage List.mem_cons_self
  have hself : (transfers.set q t')[q]? = some t' := List.getElem?_set_self hlt
  have hne : ∀ q', q' ≠ q → (transfers.set q t')[q']? = transfers[q']? :=
    fun q' hq' => List.getElem?_set_ne (Ne.symm hq')
  have hmem_iff : ∀ q' s', (q', s') ∈ (next.map (q, ·)).toList ++ held →
      (q' = q ∧ next = some s') ∨ (q' ≠ q ∧ (q', s') ∈ held) := by
    intro q' s' hmem
    rcases List.mem_append.mp hmem with hnew | hold
    · cases next <;> simp_all
    · refine .inr ⟨?_, hold⟩
      rintro rfl
      exact hnot (List.mem_map.mpr ⟨_, hold, rfl⟩)
  refine ⟨?_, ?_, ?_, ?_⟩
  · cases next with
    | none => exact hnodup
    | some s' => exact h.nodup
  · intro q' s' hmem
    rw [List.length_set]
    rcases hmem_iff q' s' hmem with ⟨rfl, -⟩ | ⟨-, hmem⟩
    · exact hlt
    · exact h.lt_length q' s' (List.mem_cons_of_mem _ hmem)
  · intro q' s' t₁ hmem ht₁
    rcases hmem_iff q' s' hmem with ⟨rfl, rfl⟩ | ⟨hq', hmem⟩
    · rw [hself, Option.some.injEq] at ht₁
      exact ht₁ ▸ hnext
    · rw [hne q' hq'] at ht₁
      exact h.status q' s' t₁ (List.mem_cons_of_mem _ hmem) ht₁
  · intro q' t₁ ht₁ hout
    rw [List.map_append, List.mem_append, not_or] at hout
    by_cases hq' : q' = q
    · subst hq'
      rw [hself, Option.some.injEq] at ht₁
      cases next with
      | none => exact ht₁ ▸ hnext
      | some s' => simp at hout
    · rw [hne q' hq'] at ht₁
      refine h.unheld q' t₁ ht₁ ?_
      rw [List.map_cons, List.mem_cons, not_or]
      exact ⟨hq', hout.2⟩

/-- A step of a client worker on the transfer it has in hand. -/
lemma serve {config : Config} {alive : Bool} {answer : Client.Answer} {result : Client.Result}
    (h : Account transfers ((q, stage) :: held)) (hq : transfers[q]? = some t)
    (hstep : Client.Trans config alive t stage answer result t') :
    Account (transfers.set q t') ((Worker.next q result).transfer.toList ++ held) := by
  obtain ⟨hopen, hserving⟩ := h.status q stage t List.mem_cons_self hq
  have hnext := hserving.step hstep
  have hdropped := hstep.dropped_eq
  cases result with
  | go stage' => exact h.replace (some stage') ⟨hdropped.trans hopen, hnext⟩
  | returned => exact h.replace none ⟨hdropped, hnext⟩
  | panicked => exact h.replace none ⟨hdropped, hnext⟩

end Account

namespace Demux

variable {k : ℕ} {config : Config} {s s' : Demux k}

/-- The transfers in hand, with their stages: those that wait for a worker, and those of the
workers. -/
def held (s : Demux k) : List (ℕ × Client.Stage) :=
  s.toClients.map (·, .new) ++ Pool.holding fun w => (s.workers w).transfer

/-- **The invariant of the client workers.** -/
def Inv (s : Demux k) : Prop :=
  Account s.transfers s.held

/-- The invariant holds at the start. -/
lemma Inv.init : Inv (init k) := by
  have hnone : Pool.holding (fun _ : Fin k => Worker.recv.transfer) = [] :=
    Pool.holding_eq_nil.mpr fun _ => rfl
  simp only [Inv, held, Demux.init, hnone]
  exact .nil

/-- The transfers that are in hand when a worker comes to another phase. -/
lemma held_update (s : Demux k) (w : Fin k) (v : Worker) :
    (Pool.holding fun w' => (update s.workers w v w').transfer).Perm
      (v.transfer.toList ++ Pool.holding (update (fun w' => (s.workers w').transfer) w none)) := by
  rw [Pool.phases_update Worker.transfer]
  exact Pool.holding_update_perm ..

/-- The transfers that are in hand besides the one of a worker. -/
lemma held_cons {w : Fin k} {p : ℕ × Client.Stage} (hw : (s.workers w).transfer = some p) :
    (Pool.holding fun w' => (s.workers w').transfer).Perm
      (p :: Pool.holding (update (fun w' => (s.workers w').transfer) w none)) :=
  Pool.holding_perm_cons hw

/-- **A step of a client worker keeps the invariant.** -/
theorem Inv.clientStep (h : s.Inv) {w : Fin k} {answer : Client.Answer}
    (ht : ClientTrans config s w answer s') : s'.Inv := by
  cases ht with
  | @recv q rest hw hin =>
    refine Account.perm h ?_
    have hnone : update (fun w' => (s.workers w').transfer) w none =
        fun w' => (s.workers w').transfer := by
      rw [update_eq_self_iff, hw]
      rfl
    have hheld := held_update s w (.wait q)
    rw [hnone] at hheld
    simp only [held, hin, List.map_cons, List.cons_append]
    exact List.perm_middle.symm.trans (hheld.symm.append_left _)
  | @acquire q permits hw hsem =>
    refine Account.perm h (List.Perm.append_left _ ?_)
    have hold := held_cons (s := s) (w := w) (p := (q, .new)) (by rw [hw]; rfl)
    exact hold.trans (held_update s w (.serve q .new)).symm
  | @serve q stage answer t t' result hw hq hstep =>
    have hold := (held_cons (s := s) (w := w) (p := (q, stage)) (by rw [hw]; rfl)).append_left
      (s.toClients.map (·, .new))
    have hnew := (held_update s w (Worker.next q result)).append_left
      (s.toClients.map (·, .new))
    have hserve := (Account.perm h (hold.trans List.perm_middle)).serve hq hstep
    exact hserve.perm (List.perm_append_comm_assoc .. |>.trans hnew.symm)

/-- A block in the queue is not yet progress. -/
lemma progress_put (t : Transfer) (b : Block) : (t.put b).progress = t.progress := by
  unfold Transfer.put
  split <;> rfl

/-- Changing one entry of a list without changing its image. -/
lemma map_set_of_eq {α β : Type*} {f : α → β} {l : List α} {i : ℕ} {a a' : α} (ha : l[i]? = some a)
    (hf : f a' = f a) : (l.set i a').map f = l.map f := by
  obtain ⟨hi, rfl⟩ := List.getElem?_eq_some_iff.mp ha
  rw [List.map_set, hf, ← List.getElem_map f (h := by simpa using hi), List.set_getElem_self]

/-- The entries of a list after one of them has been changed. -/
lemma getElem?_set_cases {α : Type*} {l : List α} {i j : ℕ} {a x : α}
    (h : (l.set i a)[j]? = some x) : (j = i ∧ x = a) ∨ (j ≠ i ∧ l[j]? = some x) := by
  by_cases hne : j = i
  · subst hne
    have hlt := (List.getElem?_eq_some_iff.mp h).1
    rw [List.length_set] at hlt
    rw [List.getElem?_set_self hlt, Option.some.injEq] at h
    exact .inl ⟨rfl, h.symm⟩
  · rw [List.getElem?_set_ne (Ne.symm hne)] at h
    exact .inr ⟨hne, h⟩

/-- Nor are the `Abort` blocks. -/
lemma abortAll_progress {raptorq : RaptorQ} {active : ClientId → Option ℕ} {q : ℕ}
    {transfers transfers' : List Transfer}
    (h : abortAll raptorq active q transfers = .ok transfers') :
    transfers'.map Transfer.progress = transfers.map Transfer.progress := by
  induction transfers generalizing q transfers' with
  | nil =>
    cases h
    rfl
  | cons t transfers ih =>
    simp only [abortAll] at h
    split at h
    · cases h
    · rename_i rest hrest
      split at h
      · split at h
        · cases h
        · cases h
          rw [List.map_cons, List.map_cons, progress_put, ih hrest]
      · cases h
        rw [List.map_cons, List.map_cons, ih hrest]

/-- Putting a block in a queue keeps the invariant. -/
lemma Inv.forward (h : s.Inv) (id : ClientId) (block : Block) (willEnd : Bool) :
    (s.forward id block willEnd).Inv := by
  unfold Demux.forward
  split
  · exact h
  · rename_i q hactive
    split
    · exact h
    · rename_i t ht
      have hput : Account (s.transfers.set q (t.put block)) s.held :=
        Account.congr h (map_set_of_eq ht (progress_put t block))
      split
      · exact h
      · split
        · exact hput
        · exact hput

/-- So does a new transfer. -/
lemma Inv.register (h : s.Inv) (id : ClientId) : (s.register id).Inv := by
  refine (Account.register h id).perm ?_
  simp only [held, Demux.register, List.map_append, List.map_singleton]
  rw [List.append_assoc]
  exact List.perm_middle.symm

/-- **A step of the dispatch worker keeps the invariant.** -/
theorem Inv.receive (h : s.Inv) (config : Config) (m : Option Block) :
    (s.receive config m).Inv := by
  unfold Demux.receive
  split
  · unfold lose
    split
    · exact h
    · rename_i transfers' hall
      exact Account.congr h (abortAll_progress hall)
  · split
    · exact h
    · split
      · exact h
      · split
        · exact h
        · exact (h.register _).forward _ _ _
        · exact h.forward _ _ _
        · exact h.forward _ _ _
        · exact h.forward _ _ _

/-- **A transfer for which `client_end` was called has ended.** -/
theorem Inv.ended (h : s.Inv) {t : Transfer} (ht : t ∈ s.transfers) {ok : Bool}
    (hcall : .clientEnd ok ∈ t.calls) : Ended t ok := by
  obtain ⟨q, hq⟩ := List.getElem?_of_mem ht
  by_cases hheld : q ∈ s.held.map Prod.fst
  · obtain ⟨⟨q, stage⟩, hmem, rfl⟩ := List.mem_map.mp hheld
    obtain ⟨-, hserving⟩ := Account.status h q stage t hmem hq
    cases stage with
    | new => simp [hserving.2] at hcall
    | running buffer =>
      obtain ⟨⟨io, hcalls, hio⟩, -⟩ := hserving
      rw [hcalls, List.mem_cons] at hcall
      rcases hcall with hcall | hcall
      · cases hcall
      · exact absurd hcall (not_mem_of_isIo hio ok)
  · obtain ⟨-, ⟨ok', hended⟩ | hnone⟩ := Account.unheld h q t hq hheld
    · obtain ⟨io, hcalls, hio⟩ := hended.calls_eq
      rw [hcalls, List.mem_cons, List.mem_append, List.mem_singleton] at hcall
      rcases hcall with hcall | hcall | hcall
      · cases hcall
      · exact absurd hcall (not_mem_of_isIo hio ok)
      · cases hcall
        exact hended
    · exact absurd hcall (hnone ok)

end Demux

end Lidi.Receive
