import Lidi.Core.LTS
import Lidi.Receive.Dispatch

set_option relaxedAutoImplicit false
set_option autoImplicit false

/-!
# The end callback

A client worker serves one transfer after the other. What it finds in a queue, when the queue is
disconnected, whether it waits too long and which writes fail is not up to it. A transfer for which
`client_new` has succeeded should end with a call of `client_end`. It does if the worker reaches a
block that ends it; but if anything fails on the way, the worker returns without that call.

## Main definitions

* `Receive.Clients` — a client worker, with the transfers it has served.
* `Receive.Transfer.Reported` — the transfer has ended with the right call of `client_end`.
* `Receive.Client.Regular` — the steps in which nothing fails.

## Main results

* `Receive.Client.Trans.reported_iff` — a step that ends a transfer reports it if and only if
  nothing fails in it.
* `Receive.Clients.all_reported` — so all transfers are reported if and only if nothing fails.
* `Receive.Clients.timeout_not_reported` — a timeout.
-/

namespace Lidi.Receive

/-- **The transfer has been reported.** After `client_new` there are writes and flushes and a single
call of `client_end`, which says that all is well exactly if an `End` has been processed and all
the data have been written and then flushed. -/
def Transfer.Reported (t : Transfer) : Prop :=
  ∃ io ok, t.calls = .clientNew true :: (io ++ [.clientEnd ok]) ∧ (∀ c ∈ io, c.isIo = true) ∧
    (ok = true ↔ (∃ b ∈ t.taken, b.outcome = some true) ∧ written t.calls = payloads t.taken ∧
      ∃ io', io = io' ++ [.flush])

namespace Client

variable {config : Config} {alive : Bool} {t t' : Transfer} {stage : Stage} {answer : Answer}
  {result : Result}

/-- The type of a block is known, and its data lie within the block. -/
def readable (b : Block) : Bool :=
  b.blockType.isOk && b.payload.isSome

/-- A block with a type and data can be read. -/
lemma readable_of {b : Block} {type : BlockType} {payload : List UInt8}
    (htype : b.blockType = .ok type) (hpayload : b.payload = some payload) : readable b = true := by
  simp [readable, htype, hpayload, Except.isOk, Except.toBool]

/-- Nothing fails in the step: once `client_new` has succeeded, there is room for the buffer, the
next block arrives in time and can be read, and its data are written. -/
def Regular (config : Config) (t : Transfer) : Stage → Answer → Prop
  | .new, answer => answer = .ok → Block.maxDataLen config.raptorq ≠ none
  | .running _, answer => answer = .ok ∧ t.queue.head?.any readable = true

/-- Whether nothing fails in a step of a client can be decided. -/
instance (config : Config) (t : Transfer) (stage : Stage) (answer : Answer) :
    Decidable (Regular config t stage answer) := by
  unfold Regular
  split <;> infer_instance

/-- Nothing fails in a step after which the worker goes on. -/
lemma Trans.regular_of_go {stage' : Stage}
    (h : Trans config alive t stage answer (.go stage') t') : Regular config t stage answer := by
  cases h with
  | new hmax => simp [Regular, hmax]
  | data hq htype hpayload hout => simp [Regular, hq, readable_of htype hpayload]

/-- Where only writes and flushes follow, the transfer is not reported. -/
lemma not_reported {buffer : List UInt8} {calls : List Call} (h : Serving t (.running buffer))
    (hcalls : t'.calls = t.calls ++ calls) (hio : ∀ c ∈ calls, c.isIo = true) :
    ¬ (.clientNew true ∈ t'.calls → t'.Reported) := by
  obtain ⟨⟨io, heq, hio₀⟩, -⟩ := h
  rw [heq, List.cons_append] at hcalls
  intro hreported
  obtain ⟨io', ok, hcalls', -⟩ := hreported (by simp [hcalls])
  rw [hcalls, List.cons.injEq] at hcalls'
  have hmem : .clientEnd ok ∈ io ++ calls := by simp [hcalls'.2]
  rcases List.mem_append.mp hmem with hmem | hmem
  · exact not_mem_of_isIo hio₀ ok hmem
  · exact not_mem_of_isIo hio ok hmem

/-- A call of `client_end` comes when all the data have been written. -/
lemma Trans.written_of_clientEnd (ht : Trans config alive t stage answer .returned t')
    (h : Serving t stage) (ok : Bool)
    (hcall : .clientEnd ok ∈ t'.calls) : written t'.calls = payloads t'.taken := by
  rcases h.step ht with ⟨ok', hended⟩ | hnone
  · exact hended.written_eq
  · exact absurd hcall (hnone ok)

/-- **A step that ends a transfer reports it if and only if nothing fails in it.** -/
theorem Trans.reported_iff (h : Serving t stage) (ht : Trans config alive t stage answer result t')
    (hresult : ∀ stage', result ≠ .go stage') :
    (.clientNew true ∈ t'.calls → t'.Reported) ↔ Regular config t stage answer := by
  cases ht with
  | new hmax => exact absurd rfl (hresult _)
  | data hq htype hpayload hout => exact absurd rfl (hresult _)
  | newPanic hmax =>
    have hnot : ¬ Regular config t .new .ok := by simp [Regular, hmax]
    refine iff_of_false (fun hreported => ?_) hnot
    obtain ⟨io, ok, hcalls, -⟩ := hreported (by simp [Transfer.call, Transfer.drop])
    simp [Transfer.call, Transfer.drop, h.2] at hcalls
  | newFails =>
    refine iff_of_true (fun hmem => ?_) (by simp [Regular])
    simp [Transfer.call, Transfer.drop, h.2] at hmem
  | gone hq halive =>
    exact iff_of_false (not_reported h rfl fun c hc => BufWriter.isIo_flushBuf hc)
      (by simp [Regular, hq])
  | timeout hq hcfg =>
    exact iff_of_false (not_reported h rfl fun c hc => BufWriter.isIo_flushBuf hc)
      (by simp [Regular])
  | unknown hq htype =>
    exact iff_of_false (not_reported h rfl fun c hc => BufWriter.isIo_flushBuf hc)
      (by simp [Regular, readable, hq, htype, Except.isOk, Except.toBool])
  | payloadPanic hq htype hpayload =>
    exact iff_of_false (not_reported h rfl fun c hc => BufWriter.isIo_flushBuf hc)
      (by simp [Regular, readable, hq, hpayload])
  | fault hq htype hpayload hio =>
    exact iff_of_false (not_reported h rfl (by simp [Call.isIo])) (by simp [Regular])
  | @finish buffer payload b rest type ok hq htype hpayload hout =>
    refine iff_of_true (fun _ => ?_) ⟨rfl, by simp [hq, readable_of htype hpayload]⟩
    have hstep : Trans config alive t (.running buffer) .ok .returned _ :=
      .finish hq htype hpayload hout
    have hwritten := hstep.written_of_clientEnd h ok (by simp [Transfer.call, Transfer.drop])
    obtain ⟨⟨io, hcalls, hio⟩, -, hbody⟩ := h
    refine ⟨io ++ (transmit config ((Block.maxDataLen config.raptorq).getD 0) buffer type
      payload).1, ok, by simp [Transfer.call, Transfer.take, Transfer.drop, hcalls], ?_, ?_, ?_⟩
    · intro c hc
      rcases List.mem_append.mp hc with hc | hc
      · exact hio c hc
      · exact isIo_transmit hc
    · rintro rfl
      have hend : type = .end := by cases type <;> simp_all [outcome]
      subst hend
      refine ⟨⟨b, by simp [Transfer.call, Transfer.take, Transfer.drop],
        Block.outcome_eq htype⟩, hwritten, ?_⟩
      exact ⟨_, by rw [transmit, ← List.append_assoc]⟩
    · rintro ⟨⟨b', hmem, htrue⟩, -, -⟩
      rcases List.mem_append.mp hmem with hmem | hmem
      · simp [hbody b' hmem] at htrue
      · rw [List.mem_singleton.mp hmem, Block.outcome_eq htype, hout] at htrue
        simpa using htrue

end Client

/-- A client worker: the transfers it has served, the one it is serving, whether the sending end of
its queue is still there, and whether the worker has panicked. -/
structure Clients where
  served : List Transfer
  current : Option (Transfer × Client.Stage)
  connected : Bool
  panicked : Bool

namespace Clients

variable {config : Config} {s s' : Clients}

/-- The worker takes the next transfer, of the given client; a block is put in its queue; the
sending end of the queue is dropped; or the worker takes a step on the transfer. -/
inductive Label
  | take (id : ClientId)
  | put (b : Block)
  | disconnect
  | work (answer : Client.Answer)
  deriving DecidableEq

/-- The initial state. -/
def init : Clients :=
  ⟨[], none, false, false⟩

/-- The state after a step on the transfer. -/
def after (s : Clients) : Client.Result × Transfer → Clients
  | (.go stage, t) => { s with current := some (t, stage) }
  | (.returned, t) => { s with served := s.served ++ [t], current := none }
  | (.panicked, t) => { s with served := s.served ++ [t], current := none, panicked := true }

/-- The loop of `clients::start` with `client::start`; `none` if the step is not possible. -/
def step (config : Config) (s : Clients) : Label → Option Clients
  | .take id =>
    if s.current.isNone && !s.panicked then
      some { s with current := some (Transfer.new id, .new), connected := true }
    else none
  | .put b =>
    if s.connected then
      s.current.map fun c => { s with current := some (c.1.put b, c.2) }
    else none
  | .disconnect => some { s with connected := false }
  | .work answer =>
    s.current.bind fun c => (Client.step config s.connected c.1 c.2 answer).map s.after

/-- All the transfers that the worker has served have been reported. -/
def AllReported (s : Clients) : Prop :=
  ∀ t ∈ s.served, .clientNew true ∈ t.calls → t.Reported

/-- The condition on the steps: nothing fails in them. -/
def Regular (config : Config) (s : Clients) : Label → Prop
  | .work answer => ∀ c ∈ s.current, Client.Regular config c.1 c.2 answer
  | _ => True

/-- Whether nothing fails in a step of a worker can be decided. -/
instance (config : Config) (s : Clients) (a : Label) : Decidable (Regular config s a) := by
  unfold Regular
  split <;> infer_instance

/-- The transfer that the worker is serving is as it should be. -/
def Inv (s : Clients) : Prop :=
  ∀ c ∈ s.current, Serving c.1 c.2

/-- What is put in the queue does not matter to the worker. -/
lemma serving_put {t : Transfer} {stage : Client.Stage} (h : Serving t stage) (b : Block) :
    Serving (t.put b) stage := by
  unfold Transfer.put
  split
  · exact h
  · cases stage <;> exact h

/-- **A step of the worker keeps the invariant, and keeps all transfers reported if and only if
nothing fails in it.** -/
theorem work (h : s.Inv) (hall : s.AllReported) {answer : Client.Answer}
    (ht : step config s (.work answer) = some s') :
    s'.Inv ∧ (s'.AllReported ↔ Regular config s (.work answer)) := by
  simp only [step, Option.bind_eq_some_iff, Option.map_eq_some_iff] at ht
  obtain ⟨⟨t, stage⟩, hcurrent, ⟨result, t'⟩, hstep, rfl⟩ := ht
  have htrans := Client.step_iff.mp hstep
  have hserving := h _ hcurrent
  have hregular : Regular config s (.work answer) ↔ Client.Regular config t stage answer := by
    simp [Regular, hcurrent]
  have hmore : (∀ stage', result ≠ .go stage') → ((∀ t₁ ∈ s.served ++ [t'],
      .clientNew true ∈ t₁.calls → t₁.Reported) ↔ Client.Regular config t stage answer) := by
    intro hresult
    rw [← htrans.reported_iff hserving hresult]
    refine ⟨fun hserved => hserved t' (by simp), fun hlast t₁ hmem => ?_⟩
    rcases List.mem_append.mp hmem with hmem | hmem
    · exact hall t₁ hmem
    · rw [List.mem_singleton.mp hmem]
      exact hlast
  rw [hregular]
  cases result with
  | go stage' =>
    have hnext := hserving.step htrans
    exact ⟨by simpa [Inv, after] using hnext, iff_of_true hall htrans.regular_of_go⟩
  | returned => exact ⟨by simp [Inv, after], hmore nofun⟩
  | panicked => exact ⟨by simp [Inv, after], hmore nofun⟩

/-- **Any step keeps the invariant, and keeps all transfers reported if and only if nothing fails
in it.** -/
theorem step_iff (h : s.Inv) (hall : s.AllReported) {a : Label}
    (ht : step config s a = some s') : s'.Inv ∧ (s'.AllReported ↔ Regular config s a) := by
  cases a with
  | work answer => exact work h hall ht
  | take id =>
    simp only [step, Option.ite_none_right_eq_some, Option.some.injEq] at ht
    obtain ⟨-, rfl⟩ := ht
    exact ⟨by simp [Inv, Serving, Transfer.new], iff_of_true hall trivial⟩
  | put b =>
    simp only [step, Option.ite_none_right_eq_some, Option.map_eq_some_iff] at ht
    obtain ⟨-, c, hcurrent, rfl⟩ := ht
    exact ⟨by simpa [Inv] using serving_put (h c hcurrent) b, iff_of_true hall trivial⟩
  | disconnect =>
    simp only [step, Option.some.injEq] at ht
    subst ht
    exact ⟨h, iff_of_true hall trivial⟩

/-- **The end callback.** Whatever the blocks, the disconnections, the timeouts and the errors that
a client worker meets: in a run in which nothing fails, every transfer that it has served has been
reported, and a step in which something fails leaves a transfer that is not. -/
theorem all_reported (h : LTS.ReachVia (step config) (Regular config) init s) :
    s.AllReported ∧ ∀ a s', step config s a = some s' → (s'.AllReported ↔ Regular config s a) := by
  have hinv : s.Inv ∧ s.AllReported := by
    have hinit : init.Inv ∧ init.AllReported := ⟨by simp [Inv, init], by simp [AllReported, init]⟩
    refine h.invariant (P := fun s => s.Inv ∧ s.AllReported) hinit ?_
    intro s a s' _ hinv hok hstep
    obtain ⟨hnext, hiff⟩ := step_iff hinv.1 hinv.2 hstep
    exact ⟨hnext, hiff.mpr hok⟩
  exact ⟨hinv.2, fun a s' hstep => (step_iff hinv.1 hinv.2 hstep).2⟩

/-- A transfer that ends with an `End`, and one that is aborted. -/
def regularRun : List Label :=
  [.take 0, .work .ok, .put (.single .start 0), .put (.single .end 0), .work .ok, .work .ok,
    .take 1, .put (.single .start 1), .put (.single .abort 1), .disconnect, .work .ok, .work .ok,
    .work .ok]

/-- Two clients of one worker, both of which are reported. -/
theorem all_reported_regular : ∃ s : Clients, s.served.map Transfer.calls =
    [[.clientNew true, .flush, .clientEnd true], [.clientNew true, .clientEnd false]] ∧
    s.AllReported := by
  have hrun : (LTS.runVia (step ⟨RaptorQ.single, false, true⟩)
      (Regular ⟨RaptorQ.single, false, true⟩) init regularRun).map
      (fun s => s.served.map Transfer.calls) =
      some [[.clientNew true, .flush, .clientEnd true], [.clientNew true, .clientEnd false]] := by
    decide +kernel
  obtain ⟨s, hs, hcalls⟩ := Option.map_eq_some_iff.mp hrun
  exact ⟨s, hcalls, (all_reported (LTS.reachVia_of_runVia hs)).1⟩

/-- **A transfer that times out is not reported.** The worker has taken its `Start` when it has
waited too long for the next block. -/
theorem timeout_not_reported : ∃ s : Clients,
    LTS.Reach (step ⟨RaptorQ.single, false, true⟩) init s ∧ ¬ s.AllReported := by
  have hrun : (LTS.run (step ⟨RaptorQ.single, false, true⟩) init
      [.take 0, .put (.single .start 0), .work .ok, .work .ok, .work .timeout]).map served =
      some [⟨0, [], true, [.single .start 0], [.clientNew true]⟩] := by
    decide +kernel
  obtain ⟨s, hs, hserved⟩ := Option.map_eq_some_iff.mp hrun
  refine ⟨s, LTS.reach_of_run hs, fun hall => ?_⟩
  obtain ⟨io, ok, hcalls, -⟩ := hall _ (hserved ▸ List.mem_cons_self) (by simp)
  simp at hcalls

end Clients

end Lidi.Receive
