import Lidi.Link.Integrity
import Lidi.Receive.Partial

set_option relaxedAutoImplicit false
set_option autoImplicit false

/-!
# Nothing but a beginning of a stream

Over a network that loses, duplicates and reorders datagrams a transfer may fail at any point. What
has been written of it by then is a beginning of the stream of its client: the receiver never writes
bytes that were not sent, in another order, or with some of them left out.

## Main definitions

* `Link.Lossy.Truthful` — what has been written is a beginning of what was sent.

## Main results

* `Link.Lossy.Inv.partial_step` — every step of the link keeps the invariant of the transfers.
* `Link.truthful` — what has been written, at any moment of a sound run.
-/

namespace Lidi

open Receive

section Transfer

variable {raptorq : RaptorQ} {len : ℕ} {b : Block}

/-- A block that does not end a client as failed is harmless. -/
lemma Block.harmless_of_outcome {type : BlockType} (h : b.blockType = .ok type)
    (htype : Client.outcome type ≠ some false) : b.Harmless := by
  intro hout
  rw [Block.outcome_eq h] at hout
  exact absurd hout htype

/-- The `Abort` of a client has no data. -/
lemma Send.harmless_of_mem_transfer (hmax : Block.maxDataLen raptorq = some len) (hpos : 0 < len)
    {flush : Bool} {id : ClientId} {client : ClientSocket}
    (hb : b ∈ transfer raptorq flush id client) : b.Harmless := by
  obtain ⟨start, hstart, htransfer⟩ := transfer_eq_append hmax flush id client
  have hloop := Client.loop_eq hmax hpos flush id [] (by simpa using hpos) client
  have hdata : ∀ {body : List Block} {data : List UInt8}, DataBlocks raptorq id body data →
      b ∈ body → b.Harmless := by
    intro body data hbody hmem
    obtain ⟨d, hcarries⟩ := hbody.carries b hmem
    exact Block.harmless_of_outcome hcarries.blockType_eq nofun
  rw [htransfer, List.cons_append, List.mem_cons, List.mem_append] at hb
  rcases hb with rfl | hb | hb
  · exact Block.harmless_of_outcome hstart.blockType_eq nofun
  · cases hf : client.failure with
    | none =>
      rw [hf] at hloop
      obtain ⟨body, last, data, rest, heq, hbody, hlast, -⟩ := hloop
      rw [heq, List.mem_append, List.mem_singleton] at hb
      rcases hb with hb | rfl
      · exact hdata hbody hb
      · exact Block.harmless_of_outcome hlast.blockType_eq nofun
    | some e =>
      rw [hf] at hloop
      obtain ⟨body, data, heq, hbody, -⟩ := hloop
      rw [heq] at hb
      exact hdata hbody hb
  · unfold abortBlocks at hb
    split at hb
    · cases hnew : Block.new .abort raptorq id none with
      | error f => simp [hnew, Except.toOption] at hb
      | ok abort =>
        obtain rfl : b = abort := by simpa [hnew, Except.toOption] using hb
        exact Block.harmless_of_new hnew
    · simp at hb

/-- The blocks on the channel are those of the clients and heartbeats. -/
lemma Send.Servers.Inv.harmless {m : ℕ} {cfg : Send.Config} {todo : List (Option ClientSocket)}
    {s : Servers m} {sent : List Block} (h : Servers.Inv cfg todo s sent)
    (hmax : Block.maxDataLen cfg.raptorq = some len) (hpos : 0 < len) (hb : b ∈ sent) :
    b.Harmless := by
  intro hout
  obtain ⟨type, id, data, hcarries⟩ := h.carries b hb
  have htype : type ≠ .heartbeat := by
    rintro rfl
    rw [Block.outcome_eq hcarries.blockType_eq] at hout
    cases hout
  have hmem : b ∈ blocksOf id sent :=
    List.mem_filter.mpr ⟨hb, decide_eq_true (isOf_of_carries hcarries htype)⟩
  by_cases hlt : id.toNat < s.started.length
  · have hpre := h.shares.isPrefix (List.getElem?_eq_getElem hlt)
    exact harmless_of_mem_transfer hmax hpos (hpre.subset hmem) hout
  · rw [h.shares.fresh id (not_lt.mp hlt)] at hmem
    cases hmem

/-- The data on the channel are a beginning of what the clients send. -/
lemma Send.Servers.Inv.payloads_isPrefix {m : ℕ} {cfg : Send.Config}
    {todo : List (Option ClientSocket)} {s : Servers m} {sent : List Block}
    (h : Servers.Inv cfg todo s sent) (hmax : Block.maxDataLen cfg.raptorq = some len)
    (hpos : 0 < len) {id : ClientId} {c : ClientSocket} (hc : s.started[id.toNat]? = some c) :
    payloads (blocksOf id sent) <+: c.bytes := by
  refine (Receive.payloads_isPrefix (h.shares.isPrefix hc)).trans ?_
  obtain ⟨type, bytes, hconveys, hcases⟩ := transfer_conveys hmax hpos cfg.flush id c
  rw [hconveys.script.1]
  rcases hcases with ⟨-, -, rfl⟩ | ⟨-, -, hpre⟩
  · exact List.prefix_rfl
  · exact hpre

end Transfer

namespace Link

open Send

variable {m n d k : ℕ} {Packet : Type*} {crate : Crate Packet} {ends : Ends}
  {s s' : Lossy m n d k Packet} {todo : List (Option ClientSocket)} {len : ℕ}

namespace Lossy

/-- The active transfers are transfers of their clients. -/
lemma Inv.valid (h : Inv crate ends todo s) : s.demux.Valid := by
  obtain ⟨pending, -, pos, hdelivered, -⟩ := h.informed
  exact hdelivered.valid

/-- **The next message** is a marker, or the block after those that the queues have got what they
should of. -/
lemma Inv.exists_pos (h : Inv crate ends todo s) (hrunning : s.demux.dispatch = none)
    {message : Option Block} {rest : List (Option Block)}
    (hout : s.core.decoding.gate.output = message :: rest) :
    ∃ i, Delivered (s.stream.take i) s.demux ∧ ∀ b ∈ message, s.stream[i]? = some b := by
  obtain ⟨pending, hpending, hinformed⟩ := h.informed
  have hreceived := h.core.received_isPrefix
  change _ <+: s.messages crate ends at hreceived
  rw [hpending, List.prefix_append_right_inj, hout] at hreceived
  obtain ⟨more, rfl⟩ := hreceived
  exact hinformed.exists_pos hrunning

/-- The block that the dispatch worker receives next is of the stream. -/
lemma Inv.mem_stream (h : Inv crate ends todo s) {message : Option Block}
    {rest : List (Option Block)} (hrunning : s.demux.dispatch = none)
    (hout : s.core.decoding.gate.output = message :: rest) : ∀ b ∈ message, b ∈ s.stream := by
  obtain ⟨i, -, hitem⟩ := h.exists_pos hrunning hout
  exact fun b hb => List.mem_of_getElem? (hitem b hb)

/-- **Every step of the link keeps the invariant of the transfers.** -/
theorem Inv.partial_step (h : Inv crate ends todo s)
    (hmax : Block.maxDataLen ends.sender.raptorq = some len) (hpos : 0 < len)
    (hbegun : s.demux.Partial) {a : Label m n d k} (ht : Trans crate ends s a s') :
    s'.demux.Partial := by
  cases ht with
  | sender | arrive | timeout | reblock | decode => exact hbegun
  | @dispatch message rest core hrunning hout hcore =>
    refine hbegun.receive (fun b hb => ?_) (Demux.received_of_receive h.valid ends.receiver message)
    exact h.servers.harmless hmax hpos (h.mem_stream hrunning hout b hb)
  | client hclient => exact hbegun.clientStep h.demux hclient

/-- **What has been written of a transfer is a beginning of what was sent**, and no client is
received twice. -/
structure Truthful (s : Lossy m n d k Packet) : Prop where
  written : ∀ t ∈ s.demux.transfers, ∃ c,
    s.sender.servers.started[t.clientId.toNat]? = some c ∧ written t.calls <+: c.bytes
  unique : (s.demux.transfers.map Transfer.clientId).Nodup

/-- If every transfer has written a part of its blocks, what is written is the front of what was
sent. -/
lemma Inv.truthful_of_partial (h : Inv crate ends todo s)
    (hmax : Block.maxDataLen ends.sender.raptorq = some len) (hpos : 0 < len)
    (hbegun : s.demux.Partial) : s.Truthful := by
  obtain ⟨pending, -, pos, hdelivered, -⟩ := h.informed
  refine ⟨fun t ht => ?_, hdelivered.unique⟩
  obtain ⟨c, hc⟩ := h.exists_started ht
  refine ⟨c, hc, (hdelivered.written_isPrefix hbegun ht).trans ?_⟩
  refine List.IsPrefix.trans (Receive.payloads_isPrefix ?_)
    (h.servers.payloads_isPrefix hmax hpos hc)
  conv_rhs => rw [← List.take_append_drop pos s.stream, blocksOf_append]
  exact List.prefix_append _ _

end Lossy

section Results

/-- Both invariants hold at any moment of a sound run. -/
lemma Lossy.inv_and_partial (hlaw : crate.Lawful ends.sender.raptorq)
    (hmax : Block.maxDataLen ends.sender.raptorq = some len) (hpos : 0 < len) (hn : n < 256)
    (hfew : todo.reduceOption.length < 2 ^ 32)
    (h : LTS.ReachVia (Lossy.step crate ends) (Lossy.Sound crate ends)
      (Lossy.init m n d k Packet todo) s) : Inv crate ends todo s ∧ s.demux.Partial := by
  refine h.invariant (P := fun s => Inv crate ends todo s ∧ s.demux.Partial)
    ⟨.init crate ends todo, .init⟩ ?_
  rintro t a t' - ⟨ht, hbegun⟩ hok hs
  have htrans := step_iff.mp hs
  exact ⟨ht.step hlaw hmax hpos hn hfew hok htrans, ht.partial_step hmax hpos hbegun htrans⟩

/-- **The link never writes anything but a beginning of a stream.** For any number of clients and
of threads, every order of their steps, every loss, duplication and reordering of datagrams, all
reset timeouts, and all faults of the clients: if every step is sound, then at any moment what has
been written of a transfer, whether it has failed or not, is a beginning of the stream of its
client. -/
theorem truthful (hlaw : crate.Lawful ends.sender.raptorq)
    (hmax : Block.maxDataLen ends.sender.raptorq = some len) (hpos : 0 < len) (hn : n < 256)
    (hfew : todo.reduceOption.length < 2 ^ 32)
    (h : LTS.ReachVia (Lossy.step crate ends) (Lossy.Sound crate ends)
      (Lossy.init m n d k Packet todo) s) : s.Truthful := by
  obtain ⟨hinv, hbegun⟩ := Lossy.inv_and_partial hlaw hmax hpos hn hfew h
  exact hinv.truthful_of_partial hmax hpos hbegun

/-- The first two blocks of the transfer arrive, and the write of its data fails after three
bytes. -/
def failedWrite : List (Lossy.Label 1 1 1 1) :=
  sendTransfer ++ [.arrive (0, 0) none, .reblock, .reblock, .reblock, .reblock] ++ passBlock ++
    [.arrive (1, 0) none, .reblock, .reblock] ++ passBlock ++
    [.client 0 .ok, .client 0 .ok, .client 0 .ok, .client 0 .ok, .client 0 (.fault 3)]

/-- A client whose second write fails. -/
theorem truthful_failedWrite : ∃ s : Lossy 1 1 1 1 (UInt8 × List UInt8),
    s.demux.transfers.map (fun t => (t.clientId, written t.calls)) = [(0, [1, 2, 3])] ∧
    s.Truthful := by
  have hrun : (LTS.runVia (Lossy.step Crate.single smallest) (Lossy.Sound Crate.single smallest)
      (Lossy.init 1 1 1 1 _ [some eightBytes]) failedWrite).map (fun s => s.demux.transfers.map
        fun t => (t.clientId, written t.calls)) = some [(0, [1, 2, 3])] := by
    decide +kernel
  obtain ⟨s, hs, htransfers⟩ := Option.map_eq_some_iff.mp hrun
  have hmax : Block.maxDataLen RaptorQ.single = some 7 := by decide
  exact ⟨s, htransfers, truthful Crate.single_lawful hmax (by decide) (by decide) (by decide)
    (LTS.reachVia_of_runVia hs)⟩

end Results

end Link

end Lidi
