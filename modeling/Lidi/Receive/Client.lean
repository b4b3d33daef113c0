import Lidi.Protocol.Block

set_option relaxedAutoImplicit false
set_option autoImplicit false

/-!
# The client worker of the receiver

The worker of one transfer takes the blocks of its queue one by one and writes their data to the
client through a `BufWriter`. An `End` or an `Abort` ends the transfer with a call of `client_end`.

## Main definitions

* `Receive.Call` — the calls made of the client of a transfer.
* `Receive.BufWriter.writeAll`, `Receive.BufWriter.flushBuf` — the buffered writer.
* `Receive.Client.transmit` — the writes and flushes for one block.

## Main results

* `Receive.Client.written_transmit` — the data of a block are written in order.
-/

namespace Lidi.Receive

/-- `receive::Error`. -/
inductive Error
  | io (e : IoError)
  | sendPackets
  | sendBlockPackets
  | sendBlock
  | sendClients
  | receive
  | receiveTimeout
  | protocol (e : Protocol.Error)
  | other (message : String)
  deriving DecidableEq, Repr

/-- The part of `receive::Config` that the dispatch worker and the client workers use, and the
geometry. -/
structure Config where
  raptorq : RaptorQ
  flush : Bool
  abortTimeout : Bool

/-- The calls made of the client of a transfer: `client_new`, with its success; a write of some
bytes; a flush; and `client_end` with its second argument. -/
inductive Call
  | clientNew (ok : Bool)
  | write (bytes : List UInt8)
  | flush
  | clientEnd (ok : Bool)
  deriving DecidableEq, Repr

/-- The bytes of a write. -/
def Call.bytes : Call → List UInt8
  | .write bytes => bytes
  | _ => []

/-- The call passes data on or flushes. -/
def Call.isIo : Call → Bool
  | .write _ => true
  | .flush => true
  | _ => false

/-- The bytes written to the client. -/
def written (calls : List Call) : List UInt8 :=
  calls.flatMap Call.bytes

/-- No calls write nothing. -/
@[simp]
lemma written_nil : written [] = [] := rfl

/-- What two runs of calls write. -/
@[simp]
lemma written_append (calls calls' : List Call) :
    written (calls ++ calls') = written calls ++ written calls' :=
  List.flatMap_append ..

/-- What a first call writes, and the others. -/
@[simp]
lemma written_cons (call : Call) (calls : List Call) :
    written (call :: calls) = call.bytes ++ written calls :=
  List.flatMap_cons ..

namespace BufWriter

/-- `BufWriter::flush_buf`: writes what the buffer holds, if anything. -/
def flushBuf (buffer : List UInt8) : List Call :=
  if buffer = [] then [] else [.write buffer]

/-- `BufWriter::write_all`, with the calls it makes and the buffer after it. The buffer is written
first if the data do not fit in, and data that would fill a whole buffer are written directly. -/
def writeAll (capacity : ℕ) (buffer data : List UInt8) : List Call × List UInt8 :=
  if data.length < capacity - buffer.length then ([], buffer ++ data)
  else
    let calls := if capacity - buffer.length < data.length then flushBuf buffer else []
    let buffer := if capacity - buffer.length < data.length then [] else buffer
    if capacity ≤ data.length then (calls ++ [.write data], buffer)
    else (calls, buffer ++ data)

/-- A flush writes the buffer. -/
@[simp]
lemma written_flushBuf (buffer : List UInt8) : written (flushBuf buffer) = buffer := by
  unfold flushBuf
  split <;> simp_all [Call.bytes]

/-- A flush only writes. -/
lemma isIo_flushBuf {buffer : List UInt8} {call : Call} (h : call ∈ flushBuf buffer) :
    call.isIo = true := by
  unfold flushBuf at h
  split at h
  · simp at h
  · rw [List.mem_singleton.mp h]
    rfl

/-- **The buffered writer keeps the data in order.** -/
lemma written_writeAll (capacity : ℕ) (buffer data : List UInt8) :
    written (writeAll capacity buffer data).1 ++ (writeAll capacity buffer data).2 =
      buffer ++ data := by
  unfold writeAll
  split
  · simp
  · rename_i hfull
    by_cases hspare : capacity - buffer.length < data.length
    · simp only [if_pos hspare]
      split <;> simp [Call.bytes]
    · simp only [if_neg hspare]
      split
      · -- the data fill exactly what is spare, and this is the whole buffer
        rcases Nat.eq_zero_or_pos buffer.length with hempty | hpos
        · simp [List.length_eq_zero_iff.mp hempty, Call.bytes]
        · have hdata : data = [] := List.length_eq_zero_iff.mp (by omega)
          simp [hdata, Call.bytes]
      · simp

/-- So does `write_all`. -/
lemma isIo_writeAll {capacity : ℕ} {buffer data : List UInt8} {call : Call}
    (h : call ∈ (writeAll capacity buffer data).1) : call.isIo = true := by
  unfold writeAll at h
  split at h
  · simp at h
  · have hcalls : ∀ c ∈ (if capacity - buffer.length < data.length then flushBuf buffer else []),
        c.isIo = true := by
      intro c hc
      split at hc
      · exact isIo_flushBuf hc
      · simp at hc
    simp only at h
    generalize (if capacity - buffer.length < data.length then flushBuf buffer else []) = calls
      at h hcalls
    split at h
    · rcases List.mem_append.mp h with h | h
      · exact hcalls call h
      · rw [List.mem_singleton.mp h]
        rfl
    · exact hcalls call h

end BufWriter

namespace Client

/-- The calls that write the data of a block and flush them if the configuration asks for it, and
the buffer after them. -/
def writePayload (config : Config) (capacity : ℕ) (buffer payload : List UInt8) :
    List Call × List UInt8 :=
  if payload = [] then ([], buffer)
  else
    let res := BufWriter.writeAll capacity buffer payload
    if config.flush then (res.1 ++ BufWriter.flushBuf res.2 ++ [.flush], []) else res

/-- The calls that write and flush for a block, and the buffer after them. At an `Abort` the
buffer is written by `BufWriter::into_inner`, at an `End` by the flush before it. -/
def transmit (config : Config) (capacity : ℕ) (buffer : List UInt8) (type : BlockType)
    (payload : List UInt8) : List Call × List UInt8 :=
  let res := writePayload config capacity buffer payload
  match type with
  | .abort => (res.1 ++ BufWriter.flushBuf res.2, [])
  | .end => (res.1 ++ BufWriter.flushBuf res.2 ++ [.flush], [])
  | _ => res

/-- The argument of `client_end` for a block that ends the transfer. -/
def outcome : BlockType → Option Bool
  | .abort => some false
  | .end => some true
  | _ => none

/-- What a client worker is doing with a transfer: it is about to call `client_new`, or has a
client with a buffer. -/
inductive Stage
  | new
  | running (buffer : List UInt8)
  deriving DecidableEq, Repr

/-- How the calls of a step turn out: they succeed, or one of them fails after `n` bytes; or the
wait for a block times out. -/
inductive Answer
  | ok
  | fault (n : ℕ)
  | timeout
  deriving DecidableEq, Repr

/-- How a step ends: the worker goes on, or returns, or panics. -/
inductive Result
  | go (stage : Stage)
  | returned
  | panicked
  deriving DecidableEq, Repr

end Client

/-- A transfer at the receiver: the queue from the dispatch worker to the client worker, whether
its receiving end has been dropped, and as histories the blocks taken from the queue and the calls
made of the client. -/
structure Transfer where
  clientId : ClientId
  queue : List Block
  dropped : Bool
  taken : List Block
  calls : List Call
  deriving DecidableEq, Repr

namespace Transfer

/-- A transfer whose queue has just been created. -/
def new (clientId : ClientId) : Transfer :=
  ⟨clientId, [], false, [], []⟩

/-- All that has been put in the queue. -/
def sent (t : Transfer) : List Block :=
  t.taken ++ t.queue

/-- The transfer after some calls. -/
def call (t : Transfer) (calls : List Call) : Transfer :=
  { t with calls := t.calls ++ calls }

/-- The transfer after its worker has dropped the queue. -/
def drop (t : Transfer) : Transfer :=
  { t with dropped := true }

/-- The transfer after the first block has been taken from the queue. -/
def take (t : Transfer) (b : Block) (rest : List Block) : Transfer :=
  { t with queue := rest, taken := t.taken ++ [b] }

end Transfer

namespace Client

/-- One step of `client::start` on a transfer; `none` if it is blocked. `alive` says whether the
dispatch worker still has the sending end of the queue. When the worker returns an error, the
buffered writer is dropped, which writes what it holds. -/
def step (config : Config) (alive : Bool) (t : Transfer) :
    Stage → Answer → Option (Result × Transfer)
  | .new, .ok =>
    match Block.maxDataLen config.raptorq with
    | none => some (.panicked, (t.call [.clientNew true]).drop)
    | some _ => some (.go (.running []), t.call [.clientNew true])
  | .new, .fault _ => some (.returned, (t.call [.clientNew false]).drop)
  | .new, .timeout => none
  | .running buffer, answer =>
    match t.queue, answer with
    | [], .ok => if alive then none else some (.returned, (t.call (BufWriter.flushBuf buffer)).drop)
    | [], .timeout =>
      if config.abortTimeout then some (.returned, (t.call (BufWriter.flushBuf buffer)).drop)
      else none
    | [], .fault _ => none
    | b :: rest, answer =>
      let t := t.take b rest
      match b.blockType, b.payload, answer with
      | .error _, _, .ok => some (.returned, (t.call (BufWriter.flushBuf buffer)).drop)
      | .ok _, none, .ok => some (.panicked, (t.call (BufWriter.flushBuf buffer)).drop)
      | .ok type, some payload, .ok =>
        let capacity := (Block.maxDataLen config.raptorq).getD 0
        let res := transmit config capacity buffer type payload
        match outcome type with
        | none => some (.go (.running res.2), t.call res.1)
        | some ok => some (.returned, (t.call (res.1 ++ [.clientEnd ok])).drop)
      | .ok type, some payload, .fault n =>
        let capacity := (Block.maxDataLen config.raptorq).getD 0
        if (transmit config capacity buffer type payload).1 = [] then none
        else some (.returned, (t.call [.write ((buffer ++ payload).take n)]).drop)
      | _, _, _ => none

variable {config : Config} {capacity : ℕ} {buffer payload : List UInt8} {type : BlockType}
  {call : Call}

/-- What is written and what stays in the buffer are the buffer and the data. -/
lemma written_writePayload (config : Config) (capacity : ℕ) (buffer payload : List UInt8) :
    written (writePayload config capacity buffer payload).1 ++
      (writePayload config capacity buffer payload).2 = buffer ++ payload := by
  have hwrite := BufWriter.written_writeAll capacity buffer payload
  unfold writePayload
  split
  · rename_i hempty
    simp [hempty]
  · split
    · simpa [Call.bytes] using hwrite
    · exact hwrite

/-- The calls for the data of a block only write and flush. -/
lemma isIo_writePayload (h : call ∈ (writePayload config capacity buffer payload).1) :
    call.isIo = true := by
  unfold writePayload at h
  split at h
  · simp at h
  · split at h
    · simp only [List.mem_append, List.mem_singleton] at h
      rcases h with (h | h) | rfl
      · exact BufWriter.isIo_writeAll h
      · exact BufWriter.isIo_flushBuf h
      · rfl
    · exact BufWriter.isIo_writeAll h

/-- **The calls for one block write its data after those in the buffer.** -/
theorem written_transmit (config : Config) (capacity : ℕ) (buffer : List UInt8)
    (type : BlockType) (payload : List UInt8) :
    written (transmit config capacity buffer type payload).1 ++
      (transmit config capacity buffer type payload).2 = buffer ++ payload := by
  have hwrite := written_writePayload config capacity buffer payload
  cases type <;> simpa [transmit, Call.bytes] using hwrite

/-- At the end of a transfer nothing is left in the buffer. -/
lemma transmit_ends {ok : Bool} (h : outcome type = some ok) :
    (transmit config capacity buffer type payload).2 = [] := by
  cases type <;> simp_all [outcome, transmit]

/-- So do the calls for a block. -/
lemma isIo_transmit (h : call ∈ (transmit config capacity buffer type payload).1) :
    call.isIo = true := by
  have hwrite : ∀ c ∈ (writePayload config capacity buffer payload).1, c.isIo = true :=
    fun c hc => isIo_writePayload hc
  cases type with
  | abort =>
    simp only [transmit, List.mem_append] at h
    rcases h with h | h
    · exact hwrite call h
    · exact BufWriter.isIo_flushBuf h
  | «end» =>
    simp only [transmit, List.mem_append, List.mem_singleton] at h
    rcases h with (h | h) | rfl
    · exact hwrite call h
    · exact BufWriter.isIo_flushBuf h
    · rfl
  | _ => exact hwrite call h

section Step

variable {alive : Bool} {t t' : Transfer} {stage : Stage} {answer : Answer} {result : Result}

/-- The kinds of steps. -/
inductive Trans (config : Config) (alive : Bool) (t : Transfer) :
    Stage → Answer → Result → Transfer → Prop
  | new {len : ℕ} (hmax : Block.maxDataLen config.raptorq = some len) :
      Trans config alive t .new .ok (.go (.running [])) (t.call [.clientNew true])
  | newPanic (hmax : Block.maxDataLen config.raptorq = none) :
      Trans config alive t .new .ok .panicked (t.call [.clientNew true]).drop
  | newFails {n : ℕ} :
      Trans config alive t .new (.fault n) .returned (t.call [.clientNew false]).drop
  | gone {buffer : List UInt8} (hq : t.queue = []) (halive : alive = false) :
      Trans config alive t (.running buffer) .ok .returned (t.call (BufWriter.flushBuf buffer)).drop
  | timeout {buffer : List UInt8} (hq : t.queue = []) (hcfg : config.abortTimeout = true) :
      Trans config alive t (.running buffer) .timeout .returned
        (t.call (BufWriter.flushBuf buffer)).drop
  | unknown {buffer : List UInt8} {b : Block} {rest : List Block} {e : Protocol.Error}
      (hq : t.queue = b :: rest) (htype : b.blockType = .error e) :
      Trans config alive t (.running buffer) .ok .returned
        ((t.take b rest).call (BufWriter.flushBuf buffer)).drop
  | payloadPanic {buffer : List UInt8} {b : Block} {rest : List Block} {type : BlockType}
      (hq : t.queue = b :: rest) (htype : b.blockType = .ok type) (hpayload : b.payload = none) :
      Trans config alive t (.running buffer) .ok .panicked
        ((t.take b rest).call (BufWriter.flushBuf buffer)).drop
  | data {buffer payload : List UInt8} {b : Block} {rest : List Block} {type : BlockType}
      (hq : t.queue = b :: rest) (htype : b.blockType = .ok type)
      (hpayload : b.payload = some payload) (hout : outcome type = none) :
      Trans config alive t (.running buffer) .ok
        (.go (.running (transmit config ((Block.maxDataLen config.raptorq).getD 0) buffer type
          payload).2))
        ((t.take b rest).call (transmit config ((Block.maxDataLen config.raptorq).getD 0) buffer
          type payload).1)
  | finish {buffer payload : List UInt8} {b : Block} {rest : List Block} {type : BlockType}
      {ok : Bool} (hq : t.queue = b :: rest) (htype : b.blockType = .ok type)
      (hpayload : b.payload = some payload) (hout : outcome type = some ok) :
      Trans config alive t (.running buffer) .ok .returned
        ((t.take b rest).call ((transmit config ((Block.maxDataLen config.raptorq).getD 0) buffer
          type payload).1 ++ [.clientEnd ok])).drop
  | fault {buffer payload : List UInt8} {b : Block} {rest : List Block} {type : BlockType} {n : ℕ}
      (hq : t.queue = b :: rest) (htype : b.blockType = .ok type)
      (hpayload : b.payload = some payload)
      (hio : (transmit config ((Block.maxDataLen config.raptorq).getD 0) buffer type
        payload).1 ≠ []) :
      Trans config alive t (.running buffer) (.fault n) .returned
        ((t.take b rest).call [.write ((buffer ++ payload).take n)]).drop

/-- The step function does exactly the steps of the relation. -/
theorem step_iff :
    step config alive t stage answer = some (result, t') ↔
      Trans config alive t stage answer result t' := by
  constructor
  · intro h
    cases stage with
    | new =>
      cases answer with
      | ok =>
        cases hmax : Block.maxDataLen config.raptorq with
        | none =>
          simp only [step, hmax, Option.some.injEq, Prod.mk.injEq] at h
          obtain ⟨rfl, rfl⟩ := h
          exact .newPanic hmax
        | some len =>
          simp only [step, hmax, Option.some.injEq, Prod.mk.injEq] at h
          obtain ⟨rfl, rfl⟩ := h
          exact .new hmax
      | fault n =>
        simp only [step, Option.some.injEq, Prod.mk.injEq] at h
        obtain ⟨rfl, rfl⟩ := h
        exact .newFails
      | timeout => simp [step] at h
    | running buffer =>
      cases hq : t.queue with
      | nil =>
        cases answer with
        | ok =>
          cases halive : alive with
          | true => simp [step, hq, halive] at h
          | false =>
            simp only [step, hq, halive, Bool.false_eq_true, if_false, Option.some.injEq,
              Prod.mk.injEq] at h
            obtain ⟨rfl, rfl⟩ := h
            exact .gone hq rfl
        | fault n => simp [step, hq] at h
        | timeout =>
          by_cases hcfg : config.abortTimeout = true
          · simp only [step, hq, hcfg, if_true, Option.some.injEq, Prod.mk.injEq] at h
            obtain ⟨rfl, rfl⟩ := h
            exact .timeout hq hcfg
          · simp [step, hq, hcfg] at h
      | cons b rest =>
        cases htype : b.blockType with
        | error e =>
          cases answer with
          | ok =>
            simp only [step, hq, htype, Option.some.injEq, Prod.mk.injEq] at h
            obtain ⟨rfl, rfl⟩ := h
            exact .unknown hq htype
          | fault n => simp [step, hq, htype] at h
          | timeout => simp [step, hq, htype] at h
        | ok type =>
          cases hpayload : b.payload with
          | none =>
            cases answer with
            | ok =>
              simp only [step, hq, htype, hpayload, Option.some.injEq, Prod.mk.injEq] at h
              obtain ⟨rfl, rfl⟩ := h
              exact .payloadPanic hq htype hpayload
            | fault n => simp [step, hq, htype, hpayload] at h
            | timeout => simp [step, hq, htype, hpayload] at h
          | some payload =>
            cases answer with
            | ok =>
              cases hout : outcome type with
              | none =>
                simp only [step, hq, htype, hpayload, hout, Option.some.injEq, Prod.mk.injEq] at h
                obtain ⟨rfl, rfl⟩ := h
                exact .data hq htype hpayload hout
              | some ok =>
                simp only [step, hq, htype, hpayload, hout, Option.some.injEq, Prod.mk.injEq] at h
                obtain ⟨rfl, rfl⟩ := h
                exact .finish hq htype hpayload hout
            | fault n =>
              simp only [step, hq, htype, hpayload] at h
              split at h
              · simp at h
              · rename_i hio
                simp only [Option.some.injEq, Prod.mk.injEq] at h
                obtain ⟨rfl, rfl⟩ := h
                exact .fault hq htype hpayload hio
            | timeout => simp [step, hq, htype, hpayload] at h
  · intro h
    cases h with
    | new hmax => simp [step, hmax]
    | newPanic hmax => simp [step, hmax]
    | newFails => simp [step]
    | gone hq halive => simp [step, hq, halive]
    | timeout hq hcfg => simp [step, hq, hcfg]
    | unknown hq htype => simp [step, hq, htype]
    | payloadPanic hq htype hpayload => simp [step, hq, htype, hpayload]
    | data hq htype hpayload hout => simp [step, hq, htype, hpayload, hout]
    | finish hq htype hpayload hout => simp [step, hq, htype, hpayload, hout]
    | fault hq htype hpayload hio => simp [step, hq, htype, hpayload, hio]

end Step

end Client

end Lidi.Receive
