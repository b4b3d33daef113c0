import Lidi.Core.Reader
import Lidi.Protocol.Transfer

set_option relaxedAutoImplicit false
set_option autoImplicit false

/-!
# The client worker of the sender

The worker reads the stream of one client and cuts it into blocks: a `Start`, `Data` blocks, and
an `End` that carries what is left in the buffer at the end of the stream. If the worker fails,
the server worker that runs it adds an `Abort`.

## Main definitions

* `Send.Client.start` — the blocks the worker puts on `to_ordering`, and how it ends.
* `Send.transfer` — the blocks put there for one client, with the `Abort`.

## Main results

* `Send.transfer_eq` — the blocks of a client carry its stream, or a prefix of it if a read fails.
-/

namespace Lidi.Send

/-- `send::Error`. -/
inductive Error
  | io (e : IoError)
  | sendBlock
  | sendUdp
  | receive
  | protocol (e : Protocol.Error)
  | diode (message : String)
  | other (message : String)
  deriving DecidableEq, Repr

variable {raptorq : RaptorQ} {flush : Bool} {id : ClientId} {len : ℕ}

namespace Client

/-- The loop of `client::start`. `len` is the length of the buffer and `buffer` the part of it
below the cursor. The result lists the blocks put on `to_ordering` and how the loop ends. -/
def loop (raptorq : RaptorQ) (flush : Bool) (clientId : ClientId) (len : ℕ) (buffer : List UInt8)
    (client : Reader UInt8 IoError) : List Block × Outcome Error Unit :=
  match _hread : client.read (len - buffer.length) with
  | .error e => ([], .error (.error (.io e)))
  | .ok (read, client') =>
    if _hwait : 0 < read.length ∧ ¬ (flush ∨ len ≤ (buffer ++ read).length) then
      loop raptorq flush clientId len (buffer ++ read) client'
    else
      let blockType := if read.length = 0 then BlockType.end else BlockType.data
      match (Block.new blockType raptorq clientId (some (buffer ++ read))).mapError .protocol with
      | .error f => ([], .error f)
      | .ok block =>
        if _hend : read.length = 0 then ([block], .ok ())
        else
          let rest := loop raptorq flush clientId len [] client'
          (block :: rest.1, rest.2)
termination_by client.bytes.length
decreasing_by
  all_goals
    have hbytes := congrArg List.length (Reader.bytes_of_read _hread).1
    rw [List.length_append] at hbytes
    omega

/-- `client::start`. -/
def start (raptorq : RaptorQ) (flush : Bool) (clientId : ClientId)
    (client : Reader UInt8 IoError) : List Block × Outcome Error Unit :=
  match (Block.new .start raptorq clientId none).mapError .protocol with
  | .error f => ([], .error f)
  | .ok block =>
    match Block.maxDataLen raptorq with
    | none => ([block], .error .panic)
    | some len =>
      let rest := loop raptorq flush clientId len [] client
      (block :: rest.1, rest.2)

end Client

/-- What a server worker adds when the client worker has returned `res`: an `Abort` after an
error. -/
def abortBlocks (raptorq : RaptorQ) (clientId : ClientId) (res : Outcome Error Unit) :
    List Block :=
  match res with
  | .error (.error _) => (Block.new .abort raptorq clientId none).toOption.toList
  | _ => []

/-- The blocks that a server worker puts on `to_ordering` for one client: those of the client
worker and, if that returns an error, an `Abort`. -/
def transfer (raptorq : RaptorQ) (flush : Bool) (clientId : ClientId)
    (client : Reader UInt8 IoError) : List Block :=
  let run := Client.start raptorq flush clientId client
  run.1 ++ abortBlocks raptorq clientId run.2

/-- A new block on the data that fit in it. -/
lemma newBlock_eq (hmax : Block.maxDataLen raptorq = some len) (id : ClientId)
    (type : BlockType) (data : Option (List UInt8)) (hdata : ∀ d ∈ data, d.length ≤ len) :
    ∃ b, (Block.new type raptorq id data).mapError Error.protocol = .ok b ∧
      Block.new type raptorq id data = .ok b ∧ b.Carries raptorq type id (data.getD []) := by
  obtain ⟨b, hb, hc⟩ := Block.new_carries hmax type id data hdata
  exact ⟨b, by rw [hb]; rfl, hb, hc⟩

/-- A `Data` block as the loop makes it: its payload is not empty and fits in the buffer, and
without `flush` it fills it. -/
structure Client.IsChunk (raptorq : RaptorQ) (flush : Bool) (id : ClientId) (len : ℕ) (b : Block)
    (payload : List UInt8) : Prop where
  carries : b.Carries raptorq .data id payload
  ne_nil : payload ≠ []
  length_le : payload.length ≤ len
  full : flush = false → payload.length = len

/-- **The loop of the client worker.** It turns the buffer and the rest of the stream into `Data`
blocks and an `End`, or into `Data` blocks if a read fails.

**Proof sketch.** Induction along the loop. The buffer never overflows, since a read returns at
most what is free in it. It is never full when a read starts, so a read of nothing is the end. -/
lemma Client.loop_chunks (hmax : Block.maxDataLen raptorq = some len) (hpos : 0 < len)
    (flush : Bool) (id : ClientId) (buffer : List UInt8) (hbuf : buffer.length < len)
    (client : Reader UInt8 IoError) :
    ∃ body payloads, List.Forall₂ (IsChunk raptorq flush id len) body payloads ∧
      match client.failure with
      | none => ∃ last rest, Client.loop raptorq flush id len buffer client =
          (body ++ [last], .ok ()) ∧ last.Carries raptorq .end id rest ∧ rest.length < len ∧
          buffer ++ client.bytes = payloads.flatten ++ rest
      | some e => Client.loop raptorq flush id len buffer client =
          (body, .error (.error (.io e))) ∧ payloads.flatten <+: buffer ++ client.bytes := by
  fun_induction Client.loop raptorq flush id len buffer client with
  | case1 buffer client e hread =>
    obtain ⟨hb, hf⟩ := Reader.failure_of_read_error hread
    rw [hf]
    exact ⟨[], [], .nil, rfl, List.nil_prefix⟩
  | case2 buffer client read client' hread hwait ih =>
    obtain ⟨hb, -, hf⟩ := Reader.bytes_of_read hread
    have hshort : (buffer ++ read).length < len := by
      have := hwait.2
      simp only [not_or, not_le] at this
      exact this.2
    have ih' := ih hshort
    rw [hf] at ih'
    rw [hb, ← List.append_assoc]
    exact ih'
  | case3 buffer client read client' hread hwait blockType f hnew =>
    obtain ⟨-, hlen, -⟩ := Reader.bytes_of_read hread
    obtain ⟨b, hb, -⟩ := newBlock_eq hmax id blockType (some (buffer ++ read)) (by
      simp only [Option.mem_some_iff, forall_eq', List.length_append]
      omega)
    rw [hb] at hnew
    cases hnew
  | case4 buffer client read client' hread hwait blockType block hnew hend =>
    obtain rfl : read = [] := List.length_eq_zero_iff.mp hend
    obtain ⟨hb, hf⟩ := Reader.eof_of_read_nil (by omega) hread
    obtain ⟨b, hb', -, hc⟩ := newBlock_eq hmax id blockType (some (buffer ++ [])) (by
      simp only [Option.mem_some_iff, forall_eq', List.append_nil]
      omega)
    rw [hb'] at hnew
    cases hnew
    rw [hf]
    have htype : blockType = .end := rfl
    rw [htype] at hc
    exact ⟨[], [], .nil, block, buffer, rfl, by simpa using hc, hbuf, by simp [hb]⟩
  | case5 buffer client read client' hread hwait blockType block hnew hend rest ih =>
    obtain ⟨hb, hlen, hf⟩ := Reader.bytes_of_read hread
    have hfits : (buffer ++ read).length ≤ len := by
      rw [List.length_append]
      omega
    obtain ⟨b, hb', -, hc⟩ := newBlock_eq hmax id blockType (some (buffer ++ read)) (by
      simpa only [Option.mem_some_iff, forall_eq'] using hfits)
    rw [hb'] at hnew
    cases hnew
    have hdata : IsChunk raptorq flush id len block (buffer ++ read) := by
      have htype : blockType = .data := if_neg hend
      rw [htype, Option.getD_some] at hc
      refine ⟨hc, ?_, hfits, ?_⟩
      · intro hnil
        exact hend (List.length_eq_zero_iff.mpr (List.append_eq_nil_iff.mp hnil).2)
      · intro hflush
        -- The loop goes on to the block, so the buffer is full.
        have hfull : len ≤ (buffer ++ read).length := by
          by_contra hlt
          exact hwait ⟨by omega, not_or.mpr ⟨by simp [hflush], hlt⟩⟩
        omega
    obtain ⟨body, payloads, hbody, hend'⟩ := ih (by simpa using hpos)
    rw [hf] at hend'
    refine ⟨block :: body, (buffer ++ read) :: payloads, .cons hdata hbody, ?_⟩
    cases hfail : client.failure with
    | none =>
      rw [hfail] at hend'
      obtain ⟨last, more, heq, hlast, hmore, hbytes⟩ := hend'
      refine ⟨last, more, ?_, hlast, hmore, ?_⟩
      · simp [rest, heq]
      · rw [List.nil_append] at hbytes
        rw [hb, hbytes]
        simp
    | some e =>
      rw [hfail] at hend'
      obtain ⟨heq, hpre⟩ := hend'
      refine ⟨?_, ?_⟩
      · simp [rest, heq]
      · rw [List.nil_append] at hpre
        rw [hb, ← List.append_assoc, List.flatten_cons]
        exact (List.prefix_append_right_inj _).mpr hpre

/-- Blocks with these chunks carry all their bytes. -/
lemma Client.dataBlocks_of_chunks {body : List Block} {payloads : List (List UInt8)}
    (h : List.Forall₂ (IsChunk raptorq flush id len) body payloads) :
    DataBlocks raptorq id body payloads.flatten := by
  induction h with
  | nil => rfl
  | cons hb _ ih => exact ⟨_, _, hb.carries, ih, rfl⟩

/-- The blocks of the loop and what they carry. -/
lemma Client.loop_eq (hmax : Block.maxDataLen raptorq = some len) (hpos : 0 < len)
    (flush : Bool) (id : ClientId) (buffer : List UInt8) (hbuf : buffer.length < len)
    (client : Reader UInt8 IoError) :
    match client.failure with
    | none => ∃ body last data rest, Client.loop raptorq flush id len buffer client =
        (body ++ [last], .ok ()) ∧ DataBlocks raptorq id body data ∧
        last.Carries raptorq .end id rest ∧ buffer ++ client.bytes = data ++ rest
    | some e => ∃ body data, Client.loop raptorq flush id len buffer client =
        (body, .error (.error (.io e))) ∧ DataBlocks raptorq id body data ∧
        data <+: buffer ++ client.bytes := by
  obtain ⟨body, payloads, hbody, h⟩ := loop_chunks hmax hpos flush id buffer hbuf client
  have hdata := dataBlocks_of_chunks hbody
  cases hf : client.failure with
  | none =>
    rw [hf] at h
    obtain ⟨last, rest, heq, hlast, -, hbytes⟩ := h
    exact ⟨body, last, payloads.flatten, rest, heq, hdata, hlast, hbytes⟩
  | some e =>
    rw [hf] at h
    obtain ⟨heq, hpre⟩ := h
    exact ⟨body, payloads.flatten, heq, hdata, hpre⟩

/-- The blocks of a client: a `Start`, those of the loop, and an `Abort` if the loop fails. -/
lemma transfer_eq_append (hmax : Block.maxDataLen raptorq = some len) (flush : Bool)
    (id : ClientId) (client : Reader UInt8 IoError) :
    ∃ start : Block, start.Carries raptorq .start id [] ∧
      transfer raptorq flush id client =
        start :: (Client.loop raptorq flush id len [] client).1 ++
          abortBlocks raptorq id (Client.loop raptorq flush id len [] client).2 := by
  obtain ⟨start, hstart, -, hsc⟩ := newBlock_eq hmax id .start none (by simp)
  refine ⟨start, hsc, ?_⟩
  simp only [transfer, Client.start, hstart, hmax]

/-- **The blocks of one client.** If its stream ends, they carry it to an `End`; if a read fails,
they carry a prefix of it to an `Abort`. -/
theorem transfer_eq (hmax : Block.maxDataLen raptorq = some len) (hpos : 0 < len)
    (flush : Bool) (id : ClientId) (client : Reader UInt8 IoError) :
    match client.failure with
    | none => Conveys raptorq id .end (transfer raptorq flush id client) client.bytes
    | some _ => ∃ data, Conveys raptorq id .abort (transfer raptorq flush id client) data ∧
        data <+: client.bytes := by
  obtain ⟨start, hsc, htransfer⟩ := transfer_eq_append hmax flush id client
  have hloop := Client.loop_eq hmax hpos flush id [] (by simpa using hpos) client
  cases hf : client.failure with
  | none =>
    rw [hf] at hloop
    obtain ⟨body, last, data, rest, heq, hbody, hlast, hbytes⟩ := hloop
    rw [htransfer, heq]
    refine ⟨start, body, last, data, rest, ?_, hsc, hbody, hlast, by simpa using hbytes⟩
    simp [abortBlocks]
  | some e =>
    rw [hf] at hloop
    obtain ⟨body, data, heq, hbody, hpre⟩ := hloop
    obtain ⟨abort, -, habort, hac⟩ := newBlock_eq hmax id .abort none (by simp)
    rw [htransfer, heq]
    refine ⟨data, ⟨start, body, abort, data, [], ?_, hsc, hbody, hac, by simp⟩,
      by simpa using hpre⟩
    simp [abortBlocks, habort, Except.toOption]

/-- The same for both ends of a stream: the last block is an `End` exactly if the stream ends, and
an `Abort` otherwise. -/
lemma transfer_conveys (hmax : Block.maxDataLen raptorq = some len) (hpos : 0 < len)
    (flush : Bool) (id : ClientId) (client : Reader UInt8 IoError) :
    ∃ type bytes, Conveys raptorq id type (transfer raptorq flush id client) bytes ∧
      (client.failure = none ∧ type = .end ∧ bytes = client.bytes ∨
        client.failure ≠ none ∧ type = .abort ∧ bytes <+: client.bytes) := by
  have h := transfer_eq hmax hpos flush id client
  cases hf : client.failure with
  | none =>
    rw [hf] at h
    exact ⟨.end, client.bytes, h, .inl ⟨rfl, rfl, rfl⟩⟩
  | some e =>
    rw [hf] at h
    obtain ⟨data, hdata, hpre⟩ := h
    exact ⟨.abort, data, hdata, .inr ⟨nofun, rfl, hpre⟩⟩

/-- The client worker does not panic. -/
lemma Client.start_ne_panic (hmax : Block.maxDataLen raptorq = some len) (hpos : 0 < len)
    (flush : Bool) (id : ClientId) (client : Reader UInt8 IoError) :
    (Client.start raptorq flush id client).2 ≠ .error .panic := by
  obtain ⟨start, hstart, -, -⟩ := newBlock_eq hmax id .start none (by simp)
  have hloop := Client.loop_eq hmax hpos flush id [] (by simpa using hpos) client
  unfold Client.start
  rw [hstart]
  simp only [hmax]
  cases hf : client.failure with
  | none =>
    rw [hf] at hloop
    obtain ⟨body, last, data, rest, heq, -⟩ := hloop
    simp [heq]
  | some e =>
    rw [hf] at hloop
    obtain ⟨body, data, heq, -⟩ := hloop
    simp [heq]

end Lidi.Send
