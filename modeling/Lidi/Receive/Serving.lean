import Lidi.Receive.Client

set_option relaxedAutoImplicit false
set_option autoImplicit false

/-!
# What a client worker has done for a transfer

While a worker serves a transfer, what it has written together with what its buffer holds is the
data of the blocks it has taken. It calls `client_end` at most once, as its last call, after an
`End` or an `Abort`.

## Main definitions

* `Receive.payloads` — the data of a list of blocks.
* `Receive.Serving`, `Receive.Ended` — a transfer that is being served, and one that has ended
  with a call of `client_end`.

## Main results

* `Receive.Serving.step` — what one step of the worker does to a transfer that is being served.
-/

namespace Lidi

/-- The argument of `client_end` for a block that ends the transfer. -/
def Block.outcome (b : Block) : Option Bool :=
  match b.blockType with
  | .ok type => Receive.Client.outcome type
  | .error _ => none

/-- The type of a block decides whether it ends its transfer. -/
lemma Block.outcome_eq {b : Block} {type : BlockType} (h : b.blockType = .ok type) :
    b.outcome = Receive.Client.outcome type := by
  simp [Block.outcome, h]

namespace Receive

/-- The data of a list of blocks. -/
def payloads (blocks : List Block) : List UInt8 :=
  blocks.flatMap (·.payload.getD [])

/-- No blocks have no data. -/
@[simp]
lemma payloads_nil : payloads [] = [] := rfl

/-- The data of two lists of blocks. -/
@[simp]
lemma payloads_append (blocks blocks' : List Block) :
    payloads (blocks ++ blocks') = payloads blocks ++ payloads blocks' :=
  List.flatMap_append ..

/-- The data of a first block, and of the others. -/
@[simp]
lemma payloads_cons (b : Block) (blocks : List Block) :
    payloads (b :: blocks) = b.payload.getD [] ++ payloads blocks :=
  List.flatMap_cons ..

/-- The data of a beginning are a beginning of the data. -/
lemma payloads_isPrefix {blocks blocks' : List Block} (h : blocks <+: blocks') :
    payloads blocks <+: payloads blocks' := by
  obtain ⟨rest, rfl⟩ := h
  rw [payloads_append]
  exact List.prefix_append _ _

/-- A transfer whose worker is at the given stage: `client_new` has succeeded, nothing but writes
and flushes has followed, and what was written and what the buffer holds are the data of the
blocks taken, none of which ends the transfer. -/
def Serving (t : Transfer) : Client.Stage → Prop
  | .new => t.taken = [] ∧ t.calls = []
  | .running buffer =>
    (∃ io, t.calls = .clientNew true :: io ∧ ∀ c ∈ io, c.isIo = true) ∧
      written t.calls ++ buffer = payloads t.taken ∧ ∀ b ∈ t.taken, b.outcome = none

/-- A transfer that has ended with a call of `client_end`: the last block taken ends it, and the
data of all the blocks taken have been written. -/
structure Ended (t : Transfer) (ok : Bool) : Prop where
  calls_eq : ∃ io, t.calls = .clientNew true :: (io ++ [.clientEnd ok]) ∧ ∀ c ∈ io, c.isIo = true
  taken_eq : ∃ body last, t.taken = body ++ [last] ∧ (∀ b ∈ body, b.outcome = none) ∧
    last.outcome = some ok
  written_eq : written t.calls = payloads t.taken

/-- What has been written are data of the blocks taken. -/
lemma Serving.written_isPrefix {t : Transfer} {stage : Client.Stage} (h : Serving t stage) :
    written t.calls <+: payloads t.taken := by
  cases stage with
  | new => simp [h.2]
  | running buffer => exact ⟨buffer, h.2.1⟩

section Step

variable {config : Config} {alive : Bool} {t t' : Transfer} {stage : Client.Stage}
  {answer : Client.Answer} {result : Client.Result}

/-- A step changes neither the client number nor what has been put in the queue. -/
lemma Client.Trans.sent_eq (h : Client.Trans config alive t stage answer result t') :
    t'.sent = t.sent ∧ t'.clientId = t.clientId := by
  cases h <;> simp_all [Transfer.sent, Transfer.call, Transfer.drop, Transfer.take]

/-- A step drops the queue exactly if the worker does not go on. -/
lemma Client.Trans.dropped_eq (h : Client.Trans config alive t stage answer result t') :
    match result with
    | .go _ => t'.dropped = t.dropped
    | _ => t'.dropped = true := by
  cases h <;> rfl

/-- Nothing but `client_end` ends a transfer. -/
lemma not_mem_of_isIo {calls : List Call} (h : ∀ c ∈ calls, c.isIo = true) (ok : Bool) :
    Call.clientEnd ok ∉ calls := by
  intro hmem
  have hio := h _ hmem
  simp [Call.isIo] at hio

/-- **One step of a worker on a transfer that it serves.** If it goes on, it still serves it. If
not, the transfer has ended with a call of `client_end`, or without one. -/
theorem Serving.step (h : Serving t stage)
    (ht : Client.Trans config alive t stage answer result t') :
    match result with
    | .go stage' => Serving t' stage'
    | _ => (∃ ok, Ended t' ok) ∨ ∀ ok, Call.clientEnd ok ∉ t'.calls := by
  -- the calls of a worker that fails are those made before, and writes and flushes
  have hfail : ∀ buffer calls, Serving t (.running buffer) → (∀ c ∈ calls, c.isIo = true) →
      ∀ ok, Call.clientEnd ok ∉ t.calls ++ calls := by
    rintro buffer calls ⟨⟨io, hcalls, hio⟩, -⟩ hio' ok hmem
    rw [hcalls, List.cons_append, List.mem_cons, List.mem_append] at hmem
    rcases hmem with hmem | hmem | hmem
    · cases hmem
    · exact not_mem_of_isIo hio ok hmem
    · exact not_mem_of_isIo hio' ok hmem
  cases ht with
  | new hmax =>
    obtain ⟨htaken, hcalls⟩ := h
    simp [Serving, Transfer.call, htaken, hcalls, Call.bytes]
  | newPanic hmax =>
    right
    simp [Transfer.call, Transfer.drop, h.2]
  | newFails =>
    right
    simp [Transfer.call, Transfer.drop, h.2]
  | gone hq halive => exact .inr (hfail _ _ h fun c hc => BufWriter.isIo_flushBuf hc)
  | timeout hq hcfg => exact .inr (hfail _ _ h fun c hc => BufWriter.isIo_flushBuf hc)
  | unknown hq htype => exact .inr (hfail _ _ h fun c hc => BufWriter.isIo_flushBuf hc)
  | payloadPanic hq htype hpayload =>
    exact .inr (hfail _ _ h fun c hc => BufWriter.isIo_flushBuf hc)
  | fault hq htype hpayload hio => exact .inr (hfail _ _ h (by simp [Call.isIo]))
  | @data buffer payload b rest type hq htype hpayload hout =>
    obtain ⟨⟨io, hcalls, hio⟩, hwritten, hbody⟩ := h
    have htransmit := Client.written_transmit config ((Block.maxDataLen config.raptorq).getD 0)
      buffer type payload
    refine ⟨⟨io ++ (Client.transmit config ((Block.maxDataLen config.raptorq).getD 0) buffer type
      payload).1, by simp [Transfer.call, Transfer.take, hcalls], ?_⟩, ?_, ?_⟩
    · intro c hc
      rcases List.mem_append.mp hc with hc | hc
      · exact hio c hc
      · exact Client.isIo_transmit hc
    · simp only [Transfer.call, Transfer.take, written_append, payloads_append, payloads_cons,
        payloads_nil, hpayload, Option.getD_some, List.append_nil, List.append_assoc, htransmit]
      rw [← List.append_assoc, hwritten]
    · intro b' hb'
      rcases List.mem_append.mp hb' with hb' | hb'
      · exact hbody b' hb'
      · rw [List.mem_singleton.mp hb', Block.outcome_eq htype, hout]
  | @finish buffer payload b rest type ok hq htype hpayload hout =>
    obtain ⟨⟨io, hcalls, hio⟩, hwritten, hbody⟩ := h
    have htransmit := Client.written_transmit config ((Block.maxDataLen config.raptorq).getD 0)
      buffer type payload
    rw [Client.transmit_ends hout, List.append_nil] at htransmit
    refine .inl ⟨ok, ⟨io ++ (Client.transmit config ((Block.maxDataLen config.raptorq).getD 0)
      buffer type payload).1, ?_, fun c hc => ?_⟩, ⟨t.taken, b, rfl, hbody, ?_⟩, ?_⟩
    · simp [Transfer.call, Transfer.take, Transfer.drop, hcalls]
    · rcases List.mem_append.mp hc with hc | hc
      · exact hio c hc
      · exact Client.isIo_transmit hc
    · rw [Block.outcome_eq htype, hout]
    · simp only [Transfer.call, Transfer.take, Transfer.drop, written_append, written_cons,
        written_nil, payloads_append, payloads_cons, payloads_nil, hpayload, Option.getD_some,
        List.append_nil, htransmit, Call.bytes]
      rw [← List.append_assoc, hwritten]

end Step

end Receive

end Lidi
