import Lidi.Send.Client

set_option relaxedAutoImplicit false
set_option autoImplicit false

/-!
# How a client stream is cut into blocks

## Main definitions

* `Send.Client.loopTrace` — the loop of the client worker with a record of its reads.

## Main results

* `Send.transfer_chunks` — the sizes of the payloads, what they make together, and that every read
  has room in the buffer.
-/

namespace Lidi.Send

variable {raptorq : RaptorQ} {flush : Bool} {id : ClientId} {len : ℕ}

namespace Client

/-- `loop` with a record of its calls of `read`: the room in the buffer and the state of the
client. -/
def loopTrace (raptorq : RaptorQ) (flush : Bool) (clientId : ClientId) (len : ℕ)
    (buffer : List UInt8) (client : Reader UInt8 IoError) :
    List (ℕ × Reader UInt8 IoError) × List Block × Outcome Error Unit :=
  let call := (len - buffer.length, client)
  match _hread : client.read (len - buffer.length) with
  | .error e => ([call], [], .error (.error (.io e)))
  | .ok (read, client') =>
    if _hwait : 0 < read.length ∧ ¬ (flush ∨ len ≤ (buffer ++ read).length) then
      let rest := loopTrace raptorq flush clientId len (buffer ++ read) client'
      (call :: rest.1, rest.2)
    else
      let blockType := if read.length = 0 then BlockType.end else BlockType.data
      match (Block.new blockType raptorq clientId (some (buffer ++ read))).mapError .protocol with
      | .error f => ([call], [], .error f)
      | .ok block =>
        if _hend : read.length = 0 then ([call], [block], .ok ())
        else
          let rest := loopTrace raptorq flush clientId len [] client'
          (call :: rest.1, block :: rest.2.1, rest.2.2)
termination_by client.bytes.length
decreasing_by
  all_goals
    have hbytes := congrArg List.length (Reader.bytes_of_read _hread).1
    rw [List.length_append] at hbytes
    omega

/-- The record changes nothing. -/
lemma loopTrace_snd (flush : Bool) (id : ClientId) (buffer : List UInt8)
    (client : Reader UInt8 IoError) :
    (loopTrace raptorq flush id len buffer client).2 =
      loop raptorq flush id len buffer client := by
  fun_induction loop raptorq flush id len buffer client with
  | case1 buffer client e hread =>
    unfold loopTrace
    split <;> rename_i heq <;> rw [hread] at heq <;> cases heq
    rfl
  | case2 buffer client read client' hread hwait ih =>
    unfold loopTrace
    split <;> rename_i heq <;> rw [hread] at heq <;> cases heq
    rw [dif_pos hwait]
    exact ih
  | case3 buffer client read client' hread hwait blockType f hnew =>
    have hfail : (Block.new (if read.length = 0 then .end else .data) raptorq id
        (some (buffer ++ read))).mapError Error.protocol = .error f := hnew
    unfold loopTrace
    split <;> rename_i heq <;> rw [hread] at heq <;> cases heq
    simp only [dif_neg hwait, hfail]
  | case4 buffer client read client' hread hwait blockType block hnew hend =>
    have hblock : (Block.new (if read.length = 0 then .end else .data) raptorq id
        (some (buffer ++ read))).mapError Error.protocol = .ok block := by
      simpa only [if_pos hend, blockType, dif_pos hend] using hnew
    unfold loopTrace
    split <;> rename_i heq <;> rw [hread] at heq <;> cases heq
    simp only [dif_neg hwait, hblock, dif_pos hend]
  | case5 buffer client read client' hread hwait blockType block hnew hend rest ih =>
    have hblock : (Block.new (if read.length = 0 then .end else .data) raptorq id
        (some (buffer ++ read))).mapError Error.protocol = .ok block := by
      simpa only [if_neg hend, blockType, dif_neg hend] using hnew
    unfold loopTrace
    split <;> rename_i heq <;> rw [hread] at heq <;> cases heq
    simp only [dif_neg hwait, hblock, dif_neg hend, ih, rest]

/-- **There is room in the buffer for every read.** The buffer is emptied when it is full. -/
lemma room_of_mem_loopTrace (hpos : 0 < len) (flush : Bool) (id : ClientId)
    (buffer : List UInt8) (hbuf : buffer.length < len) (client : Reader UInt8 IoError) :
    ∀ call ∈ (loopTrace raptorq flush id len buffer client).1, 0 < call.1 := by
  have hroom : 0 < len - buffer.length := by omega
  fun_induction loopTrace raptorq flush id len buffer client with
  | case1 buffer client call e hread =>
    simpa only [List.mem_singleton, forall_eq] using hroom
  | case2 buffer client call read client' hread hwait rest ih =>
    have hshort : (buffer ++ read).length < len := by
      have := hwait.2
      simp only [not_or, not_le] at this
      exact this.2
    intro call' hmem
    rcases List.mem_cons.mp hmem with rfl | hmem
    · exact hroom
    · exact ih hshort (by omega) call' hmem
  | case3 buffer client call read client' hread hwait blockType f hnew =>
    simpa only [List.mem_singleton, forall_eq] using hroom
  | case4 buffer client call read client' hread hwait blockType block hnew hend =>
    simpa only [List.mem_singleton, forall_eq] using hroom
  | case5 buffer client call read client' hread hwait blockType block hnew hend rest ih =>
    intro call' hmem
    rcases List.mem_cons.mp hmem with rfl | hmem
    · exact hroom
    · exact ih (by simpa using hpos) (by simpa using hpos) call' hmem

/-- The loop starts with a read. -/
lemma mem_loopTrace (flush : Bool) (id : ClientId) (buffer : List UInt8)
    (client : Reader UInt8 IoError) :
    (len - buffer.length, client) ∈ (loopTrace raptorq flush id len buffer client).1 := by
  fun_cases loopTrace raptorq flush id len buffer client <;> exact List.mem_cons_self

/-- The reads of the worker: those of the loop, whose buffer has the longest length of data. -/
def reads (raptorq : RaptorQ) (flush : Bool) (clientId : ClientId) (client : Reader UInt8 IoError) :
    List (ℕ × Reader UInt8 IoError) :=
  match Block.maxDataLen raptorq with
  | none => []
  | some len => (loopTrace raptorq flush clientId len [] client).1

end Client

/-- **The chunks of a client stream.** The blocks of a client are a `Start` without data, full
`Data` blocks (or, with `flush`, non-empty ones) and an `End` with the rest of the stream or an
`Abort` without data. The room in the buffer is never zero when the worker reads, so that a read
of nothing is the end of the stream. -/
theorem transfer_chunks (hmax : Block.maxDataLen raptorq = some len) (hpos : 0 < len)
    (flush : Bool) (id : ClientId) (client : Reader UInt8 IoError) :
    (∃ start body last payloads rest,
      transfer raptorq flush id client = start :: (body ++ [last]) ∧
      start.Carries raptorq .start id [] ∧
      List.Forall₂ (Client.IsChunk raptorq flush id len) body payloads ∧
      (client.failure = none ∧ last.Carries raptorq .end id rest ∧ rest.length ≤ len ∧
          payloads.flatten ++ rest = client.bytes ∨
        client.failure ≠ none ∧ last.Carries raptorq .abort id rest ∧ rest = [] ∧
          payloads.flatten ++ rest <+: client.bytes)) ∧
    ∀ room r, (room, r) ∈ Client.reads raptorq flush id client →
      0 < room ∧ ∀ r', r.read room = .ok ([], r') → r.bytes = [] ∧ r.failure = none := by
  have hempty : ([] : List UInt8).length < len := by simpa using hpos
  constructor
  · obtain ⟨start, hsc, htransfer⟩ := transfer_eq_append hmax flush id client
    obtain ⟨body, payloads, hbody, hend⟩ := Client.loop_chunks hmax hpos flush id [] hempty client
    cases hf : client.failure with
    | none =>
      rw [hf] at hend
      obtain ⟨last, rest, heq, hlast, hrest, hbytes⟩ := hend
      refine ⟨start, body, last, payloads, rest, ?_, hsc, hbody,
        .inl ⟨rfl, hlast, hrest.le, hbytes.symm⟩⟩
      rw [htransfer, heq]
      simp [abortBlocks]
    | some e =>
      rw [hf] at hend
      obtain ⟨heq, hpre⟩ := hend
      obtain ⟨abort, -, habort, hac⟩ := newBlock_eq hmax id .abort none (by simp)
      refine ⟨start, body, abort, payloads, [], ?_, hsc, hbody,
        .inr ⟨by simp, hac, rfl, by simpa using hpre⟩⟩
      rw [htransfer, heq]
      simp [abortBlocks, habort, Except.toOption]
  · intro room r hmem
    simp only [Client.reads, hmax] at hmem
    have hroom := Client.room_of_mem_loopTrace hpos flush id [] hempty client _ hmem
    exact ⟨hroom, fun r' hread => Reader.eof_of_read_nil hroom hread⟩

/-- Nine bytes in the smallest geometry: the first block is full. -/
theorem transfer_chunks_single :
    (∃ start body last payloads rest,
      transfer .single false 0 (.whole [1, 2, 3, 4, 5, 6, 7, 8, 9]) = start :: (body ++ [last]) ∧
      List.Forall₂ (Client.IsChunk .single false 0 7) body payloads ∧
      payloads.flatten ++ rest = [1, 2, 3, 4, 5, 6, 7, 8, 9]) ∧
    ∀ r', (Reader.whole [1] : Reader UInt8 IoError).read 7 ≠ .ok ([], r') := by
  have hmax : Block.maxDataLen .single = some 7 := by decide
  constructor
  · obtain ⟨⟨start, body, last, payloads, rest, heq, -, hbody, hend⟩, -⟩ :=
      transfer_chunks hmax (by decide) false 0
        (.whole [1, 2, 3, 4, 5, 6, 7, 8, 9])
    refine ⟨start, body, last, payloads, rest, heq, hbody, ?_⟩
    rcases hend with ⟨-, -, -, hbytes⟩ | ⟨hf, -⟩
    · exact hbytes
    · exact absurd rfl hf
  · obtain ⟨-, hreads⟩ :=
      transfer_chunks hmax (by decide) false 0 (.whole [1])
    intro r' hread
    have hmem : (7, .whole [1]) ∈ Client.reads .single false 0 (.whole [1]) :=
      Client.mem_loopTrace false 0 [] (.whole [1])
    have heof := ((hreads 7 _ hmem).2 r' hread).1
    rw [Reader.bytes_whole] at heof
    cases heof

end Lidi.Send
