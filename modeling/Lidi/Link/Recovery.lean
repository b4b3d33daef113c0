import Lidi.Link.Tolerance

set_option relaxedAutoImplicit false
set_option autoImplicit false

/-!
# Losses disturb only the transfers that they hit

The network may lose any blocks, as long as the receiver notices the losses that matter. The
transfers that are active then are aborted, and the others are complete in the end. When the reset
timeout has fired and the decoding threads have nothing left to do, the receiver may begin anew at a
later block. From there on it loses nothing if the network is gentle: the transfers that are active
at this point and those that begin after it are complete in the end, whatever was lost before.

## Main definitions

* `Link.Lossy.Noticed` — the condition on the steps.
* `Link.Lossy.Guarded` — the invariant.
* `Link.Lossy.Quiet`, `Link.Lossy.Resumes` — the receiver may begin anew, and does.
* `Link.Tolerant.resume` — the link after that.

## Main results

* `Link.Lossy.Guarded.step` — every such step keeps the invariant.
* `Link.losses_isolated` — a transfer of which the last block is received while it is active gets
  all its blocks.
* `Link.Tolerant.Inv.resume` — the invariant of a gentle network holds anew.
* `Link.recovers` — what is delivered after losses.
-/

namespace Lidi.Link

open Send Receive Turnstile

variable {m n d k : ℕ} {Packet : Type*} {crate : Crate Packet} {ends : Ends} {len : ℕ}
  {spared : ClientId → Prop}

namespace Lossy

variable {s s' : Lossy m n d k Packet} {todo : List (Option ClientSocket)}

/-- The condition on the steps: losses that matter are noticed, and no call of these clients
fails. -/
def Noticed (crate : Crate Packet) (ends : Ends) (spared : ClientId → Prop)
    (s : Lossy m n d k Packet) (a : Label m n d k) : Prop :=
  s.Sound crate ends a ∧ s.Spares spared a

/-- Whether a step is noticed and spares these clients can be decided. -/
instance [DecidablePred spared] (s : Lossy m n d k Packet) (a : Label m n d k) :
    Decidable (s.Noticed crate ends spared a) :=
  inferInstanceAs (Decidable (_ ∧ _))

/-- **The invariant.** -/
structure Guarded (crate : Crate Packet) (ends : Ends) (todo : List (Option ClientSocket))
    (spared : ClientId → Prop) (s : Lossy m n d k Packet) : Prop where
  base : s.Inv crate ends todo
  demux : Receive.Isolated spared s.stream s.core.decoding.received s.demux

/-- The invariant holds at the start. -/
lemma Guarded.init (crate : Crate Packet) (ends : Ends) (todo : List (Option ClientSocket))
    (spared : ClientId → Prop) : Guarded crate ends todo spared (init m n d k Packet todo) :=
  ⟨.init crate ends todo, .init spared _ k⟩

/-- A step that spares these clients keeps what is known of the transfers at the receiver. -/
lemma Inv.isolated_step (h : s.Inv crate ends todo) (h' : s'.Inv crate ends todo)
    (hdemux : Receive.Isolated spared s.stream s.core.decoding.received s.demux)
    (hmax : Block.maxDataLen ends.sender.raptorq = some len) (hpos : 0 < len)
    {a : Label m n d k} (hspares : s.Spares spared a) (ht : Trans crate ends s a s') :
    Receive.Isolated spared s'.stream s'.core.decoding.received s'.demux := by
  have hmax' : Block.maxDataLen ends.receiver.raptorq = some len := by rwa [ends.raptorq_eq]
  cases ht with
  | @sender a sender hsender =>
    obtain ⟨more, hmore⟩ := stream_isPrefix hsender
    have hsource := h'.servers.source hmax hpos
    rw [← hmore] at hsource ⊢
    exact hdemux.mono hsource
  | arrive ha hbatch hp => exact hdemux
  | @timeout core hcore | @reblock core hcore | @decode _ core hcore =>
    rw [show (s.moved core).core.decoding.received = _ from hcore.received_eq (by simp)]
    exact hdemux
  | @dispatch message rest core hrunning hout hcore =>
    obtain ⟨i, hdel, hmessage⟩ := h.exists_pos hrunning hout
    show Receive.Isolated spared s.stream core.decoding.received _
    rw [hcore.received_dispatch hout]
    exact hdemux.receive hmax' (h.servers.source hmax hpos) hdel hmessage
  | client hclient => exact hdemux.clientStep hmax' hspares hclient

/-- **Every such step keeps the invariant.** -/
theorem Guarded.step (h : s.Guarded crate ends todo spared)
    (hlaw : crate.Lawful ends.sender.raptorq)
    (hmax : Block.maxDataLen ends.sender.raptorq = some len) (hpos : 0 < len) (hn : n < 256)
    (hfew : todo.reduceOption.length < 2 ^ 32) {a : Label m n d k}
    (hok : s.Noticed crate ends spared a) (ht : Trans crate ends s a s') :
    s'.Guarded crate ends todo spared := by
  have hbase := h.base.step hlaw hmax hpos hn hfew hok.1 ht
  exact ⟨hbase, h.base.isolated_step hbase h.demux hmax hpos hok.2 ht⟩

/-- The invariant of a reachable state. -/
theorem Guarded.of_reach (hlaw : crate.Lawful ends.sender.raptorq)
    (hmax : Block.maxDataLen ends.sender.raptorq = some len) (hpos : 0 < len) (hn : n < 256)
    (hfew : todo.reduceOption.length < 2 ^ 32)
    (h : LTS.ReachVia (Lossy.step crate ends) (Noticed crate ends spared)
      (Lossy.init m n d k Packet todo) s) :
    s.Guarded crate ends todo spared :=
  h.invariant (P := Guarded crate ends todo spared) (.init crate ends todo spared)
    fun _ _ _ _ hinv hok hs => hinv.step hlaw hmax hpos hn hfew hok (step_iff.mp hs)

/-- **A transfer that has finished** has got all the blocks of its client. -/
lemma Guarded.sent_eq (h : s.Guarded crate ends todo spared)
    (hmax : Block.maxDataLen ends.sender.raptorq = some len) (hpos : 0 < len) {id : ClientId}
    {c : ClientSocket} (hc : s.sender.servers.started[id.toNat]? = some c) (hspared : spared id)
    (hfin : Finished s.core.decoding.received id) :
    ∃ t ∈ s.demux.transfers, t.clientId = id ∧
      t.sent = transfer ends.sender.raptorq ends.sender.flush id c := by
  obtain ⟨t, ht, hid, hsent, b, hb, hends⟩ := h.demux.whole id hspared hfin
  obtain ⟨type, bytes, hconveys, -⟩ := transfer_conveys hmax hpos ends.sender.flush id c
  have hpre := h.base.servers.shares.isPrefix hc
  exact ⟨t, ht, hid, hsent.trans (hconveys.eq_of_isPrefix hpre (hsent ▸ hb) hends)⟩

/-! ## The receiver begins anew -/

/-- The receiver waits for the first datagrams after a reset, and the decoding threads have nothing
left to do. -/
def Quiet (crate : Crate Packet) (ends : Ends) (s : Lossy m n d k Packet) : Prop :=
  s.core.reblock.phase = .recv ∧ s.core.reblock.reset = true ∧
    s.core.pending crate ends.receiver.raptorq = []

/-- Whether the receiver waits to begin anew can be decided. -/
instance (s : Lossy m n d k Packet) : Decidable (s.Quiet crate ends) :=
  inferInstanceAs (Decidable (_ ∧ _ ∧ _))

/-- **The receiver begins anew** when these packets arrive. The blocks before the first one that it
has not got are of no active transfer; the other packets are not beyond the window, and not taken
for packets of other blocks. -/
def Resumes (crate : Crate Packet) (ends : Ends) (s : Lossy m n d k Packet) (first : ℕ × ℕ)
    (rest : Option (List (ℕ × ℕ))) : Prop :=
  s.Quiet crate ends ∧ s.LeavesOut crate ends first.1 ∧
    ∀ a ∈ first :: rest.getD [], Unmistaken first.1 a.1 ∧ a.1 < first.1 + windowWidth.toNat

/-- Whether the receiver begins anew can be decided. -/
instance (s : Lossy m n d k Packet) (first : ℕ × ℕ) (rest : Option (List (ℕ × ℕ))) :
    Decidable (s.Resumes crate ends first rest) :=
  inferInstanceAs (Decidable (_ ∧ _ ∧ _))

/-- The invariant of the sender holds in every reachable state. -/
lemma senderInv_of_reach {clients : List ClientSocket} {ok : Lossy m n d k Packet → _ → Prop}
    (hmax : Block.maxDataLen ends.sender.raptorq = some len) (hpos : 0 < len) (hn : n < 256)
    (hfew : clients.length < 2 ^ 32)
    (h : LTS.ReachVia (step crate ends) ok (init m n d k Packet (clients.map some)) s) :
    s.sender.Inv ends.sender (ends.sender.raptorq.encode crate) clients := by
  refine h.invariant (P := fun s : Lossy m n d k Packet =>
    s.sender.Inv ends.sender (ends.sender.raptorq.encode crate) clients) (.init _ _ clients) ?_
  intro t a t' _ hinv _ hs
  cases step_iff.mp hs with
  | sender hsender => exact hinv.step hmax hpos hn hfew hsender
  | _ => exact hinv

end Lossy

namespace Tolerant

variable {s₀ link : Lossy m n d k Packet} {s : Tolerant m n d k Packet} {first : ℕ × ℕ}
  {rest : Option (List (ℕ × ℕ))} {clients : List ClientSocket}

/-- The link after the receiver has begun anew: these packets are all that has arrived since. -/
def resume (s₀ : Lossy m n d k Packet) (first : ℕ × ℕ) (rest : Option (List (ℕ × ℕ)))
    (link : Lossy m n d k Packet) : Tolerant m n d k Packet where
  link := link
  arrived := (first :: rest.getD []).filterMap s₀.packet

/-- **The invariant holds anew.** What was emitted before does not matter any more. -/
theorem Inv.resume (hbase : s₀.Inv crate ends (clients.map some))
    (hsender : s₀.sender.Inv ends.sender (ends.sender.raptorq.encode crate) clients)
    (hlaw : crate.Lawful ends.sender.raptorq)
    (hmin : 0 < ends.receiver.raptorq.minNbPackets.toNat) (hd : d < 256)
    (hresumes : s₀.Resumes crate ends first rest)
    (ht : Lossy.Trans crate ends s₀ (.arrive first rest) link) :
    Inv crate ends clients (s₀.messages crate ends) first.1 (resume s₀ first rest link) := by
  obtain ⟨⟨hp, hr, hnil⟩, hleaves, hnear⟩ := hresumes
  have hcurrent : s₀.current first.1 = first.1 := if_pos hr
  cases ht with
  | @arrive _ _ a batch ha hbatch hp =>
    have hunmistaken : ∀ b ∈ first :: rest.getD [],
        Lossy.Unmistaken (s₀.current first.1) b.1 := fun b hb => hcurrent.symm ▸ (hnear b hb).1
    have hlink := hbase.arrive hlaw ⟨fun _ => hleaves, hunmistaken⟩ ha hbatch hp
    obtain ⟨hnumber, hall, hreach⟩ := inReach hbase ha hbatch hnear
    have hadvances := (Advances.restart hbase.core hmin hp hr hnil first.1).arrive hd hp
      (hbase.carries hlaw hall) hreach fun _ => hnumber
    simp only [hr, if_true, List.nil_append] at hadvances
    rw [← filterMap_packet ha hbatch] at hadvances
    rw [hcurrent] at hlink ⊢
    refine ⟨hlink, hsender, hadvances, ?_, le_rfl, ?_⟩
    · show s₀.messages crate ends = _ ++ ((s₀.stream.take first.1).drop first.1).map some
      rw [List.drop_eq_nil_of_le (List.length_take_le _ _), List.map_nil, List.append_nil]
    · obtain ⟨b, hb, -⟩ := hall a List.mem_cons_self
      rw [hnumber] at hb
      exact (List.getElem?_eq_some_iff.mp hb).1.le

/-- **The invariant after that.** The stream has grown since, and the clients that are spared are
not disturbed. -/
structure Recovering (crate : Crate Packet) (ends : Ends) (clients : List ClientSocket)
    (spared : ClientId → Prop) (s₀ : Lossy m n d k Packet) (i : ℕ)
    (s : Tolerant m n d k Packet) : Prop where
  base : Inv crate ends clients (s₀.messages crate ends) i s
  demux : Receive.Isolated spared s.link.stream s.link.core.decoding.received s.link.demux
  grown : s₀.stream <+: s.link.stream
  le_length : i ≤ s₀.stream.length

/-- **Every gentle step that spares these clients keeps the invariant.** -/
theorem Recovering.step {i : ℕ} (h : Recovering crate ends clients spared s₀ i s)
    (hlaw : crate.Lawful ends.sender.raptorq)
    (hmax : Block.maxDataLen ends.sender.raptorq = some len) (hpos : 0 < len) (hn : n < 256)
    (hd : d < 256) (hfew : clients.length < 2 ^ 32) {a : Lossy.Label m n d k}
    (hok : s.Benign crate ends spared a) (ht : Lossy.Trans crate ends s.link a link) :
    Recovering crate ends clients spared s₀ i ⟨link, s.arrivedAfter a⟩ := by
  have hbase := h.base.step hlaw hmax hpos hn hd hfew hok.1 ht
  refine ⟨hbase, h.base.base.isolated_step hbase.base h.demux hmax hpos hok.2 ht, ?_, h.le_length⟩
  cases ht with
  | sender hsender => exact h.grown.trans (Lossy.stream_isPrefix hsender)
  | _ => exact h.grown

/-- **When no worker can move**, and enough packets have arrived, the transfers that were active or
had not begun are complete. -/
theorem Recovering.idle {i : ℕ} (h : Recovering crate ends clients spared s₀ i s)
    (hmax : Block.maxDataLen ends.sender.raptorq = some len) (hpos : 0 < len) (hm : 0 < m)
    (hn : 0 < n) (hd : 0 < d) (hk : 0 < k)
    (hstuck : LTS.Stuck (Lossy.step crate ends) Lossy.Label.Productive s.link)
    (hsupplied : s.Supplied ends) :
    s.link.sender.servers.started.Perm clients ∧
    ∀ (id : ClientId) c, s.link.sender.servers.started[id.toNat]? = some c → spared id →
      (viewOf (s₀.messages crate ends) id = true ∨ blocksOf id (s₀.stream.take i) = []) →
      ∃ t ∈ s.link.demux.transfers, t.clientId = id ∧ Complete c t := by
  have hmax' : Block.maxDataLen ends.receiver.raptorq = some len := by rwa [ends.raptorq_eq]
  obtain ⟨hexpected, hreceived⟩ := h.base.received_all hd h.demux.running hstuck hsupplied
  obtain ⟨hperm, hdone, -⟩ := h.base.sender.idle hm hn fun a ha => by
    simpa only [Lossy.step, Lossy.stepWith, Option.map_eq_none_iff] using hstuck (.sender a) ha
  -- all messages have been received, so no transfer is active any more
  have hdel : Delivered s.link.stream s.link.demux := by
    obtain ⟨pending, hpending, hinformed⟩ := h.base.base.informed
    have hmessages := h.base.messages_eq
    rw [hexpected, List.take_length, ← hreceived, hpending, List.append_right_eq_self] at hmessages
    subst hmessages
    simpa [hexpected] using hinformed.delivered h.demux.running
  have hnone := h.demux.none_active hdel (whole_of_done h.base.base.servers hmax hpos hdone)
  refine ⟨hperm, fun id c hc hspared hbegun => ?_⟩
  have hfin : Finished s.link.core.decoding.received id := by
    refine h.demux.finished hnone hspared hreceived (hbegun.imp_right fun hnil => ?_)
    obtain ⟨b, hb, hstart⟩ := exists_start hmax hpos (hdone id c hc)
    change b ∈ s.link.stream at hb
    refine ⟨b, ?_, hstart⟩
    rw [← List.take_append_drop i s.link.stream, take_eq_of_isPrefix h.grown h.le_length] at hb
    refine (List.mem_append.mp hb).resolve_left fun hearly => ?_
    have hof : b ∈ blocksOf id (s₀.stream.take i) :=
      List.mem_filter.mpr ⟨hearly, decide_eq_true (Block.isOf_of_addressee hstart)⟩
    rw [hnil] at hof
    exact List.not_mem_nil hof
  refine complete_of_finished hmax hpos h.demux hmax' hk hnone (fun w => ?_) hspared hfin
    (h.base.base.servers.shares.isPrefix hc)
  have hblocked := hstuck (.client w .ok) rfl
  simpa only [Lossy.step, Lossy.stepWith, Option.map_eq_none_iff] using hblocked

end Tolerant

section Results

variable {s₀ link s : Lossy m n d k Packet} {t : Tolerant m n d k Packet} {first : ℕ × ℕ}
  {rest : Option (List (ℕ × ℕ))} {todo : List (Option ClientSocket)} {clients : List ClientSocket}

/-- **Losses disturb only the transfers that they hit.** For any number of clients and threads and
every order of their steps, whatever blocks are lost: if the losses that matter are noticed, every
client of which the last block is received while its transfer is active gets all its blocks in its
queue. When no transfer is active and the client workers can do nothing more, the transfer is
complete.

**Proof sketch.** A loss marker ends the active transfers with an `Abort` and leaves the queues of
the others alone. So a transfer that is still active when its last block comes has lost no block: it
was active when each of its blocks came, and a block that is lost unnoticed is of no active
transfer. -/
theorem losses_isolated (hlaw : crate.Lawful ends.sender.raptorq)
    (hmax : Block.maxDataLen ends.sender.raptorq = some len) (hpos : 0 < len) (hn : n < 256)
    (hk : 0 < k) (hfew : todo.reduceOption.length < 2 ^ 32)
    (h : LTS.ReachVia (Lossy.step crate ends) (Lossy.Noticed crate ends spared)
      (Lossy.init m n d k Packet todo) s)
    {id : ClientId} {c : ClientSocket} (hc : s.sender.servers.started[id.toNat]? = some c)
    (hspared : spared id) (hfin : Finished s.core.decoding.received id) :
    (∃ t ∈ s.demux.transfers, t.clientId = id ∧
      t.sent = transfer ends.sender.raptorq ends.sender.flush id c) ∧
    ((∀ id, s.demux.active id = none) →
      (∀ w, s.demux.clientStep ends.receiver w .ok = none) →
      ∃ t ∈ s.demux.transfers, t.clientId = id ∧ Complete c t) := by
  have hinv := Lossy.Guarded.of_reach hlaw hmax hpos hn hfew h
  have hmax' : Block.maxDataLen ends.receiver.raptorq = some len := by rwa [ends.raptorq_eq]
  refine ⟨hinv.sent_eq hmax hpos hc hspared hfin, fun hnone hstuck => ?_⟩
  exact complete_of_finished hmax hpos hinv.demux hmax' hk hnone hstuck hspared hfin
    (hinv.base.servers.shares.isPrefix hc)

/-- Three clients connect. The blocks of the first one are received, those of the second one are
lost; then the reset timeout fires. -/
def beforeGap : List (Lossy.Label 1 1 1 1) :=
  sendTransfer ++ [.sender (.server (.server 0)), .arrive (0, 0) (some [(1, 0), (2, 0)])] ++
    List.replicate 6 .reblock ++ passBlock ++ passBlock ++ passBlock ++
    List.replicate 6 (.client 0 .ok) ++ sendTransfer ++ [.sender (.server (.server 0))] ++
    sendTransfer ++ [.sender (.server (.server 0)), .timeout]

/-- The rest of the run, after the first packet of the third client has arrived. -/
def afterGap : List (Lossy.Label 1 1 1 1) :=
  List.replicate 4 .reblock ++ passBlock ++ [.arrive (7, 0) (some [(8, 0)])] ++
    List.replicate 3 .reblock ++ passBlock ++ passBlock ++ List.replicate 6 (.client 0 .ok)

/-- The third client gets all its blocks. -/
theorem losses_isolated_gap : ∃ s : Lossy 1 1 1 1 (UInt8 × List UInt8),
    s.demux.transfers.map Transfer.clientId = [0, 2] ∧
    ∃ c, s.sender.servers.started[2]? = some c ∧ ∃ t ∈ s.demux.transfers, t.clientId = 2 ∧
      t.sent = transfer smallest.sender.raptorq smallest.sender.flush 2 c := by
  have hrun : (LTS.runVia (Lossy.step Crate.single smallest)
      (Lossy.Noticed Crate.single smallest fun _ => True)
      (Lossy.init 1 1 1 1 _ (List.replicate 3 (some eightBytes)))
      (beforeGap ++ .arrive (6, 0) none :: afterGap)).map (fun s =>
        (s.demux.transfers.map Transfer.clientId, s.sender.servers.started.length,
          viewOf (s.core.decoding.received.take 5) 2,
          (s.core.decoding.received[5]?.getD none).bind Block.addressee)) =
      some ([0, 2], 3, true, some (2, .end)) := by
    decide +kernel
  obtain ⟨s, hs, heq⟩ := Option.map_eq_some_iff.mp hrun
  simp only [Prod.mk.injEq] at heq
  obtain ⟨hids, hlength, hview, hlast⟩ := heq
  have hthird : s.sender.servers.started[(2 : ClientId).toNat]? =
      some s.sender.servers.started[2] :=
    List.getElem?_eq_getElem (show 2 < _ by omega)
  have hfin : Finished s.core.decoding.received 2 := by
    obtain ⟨b, hb, haddr⟩ := Option.bind_eq_some_iff.mp hlast
    have hget : s.core.decoding.received[5]? = some (some b) := by
      cases hmessage : s.core.decoding.received[5]? with
      | none => simp [hmessage] at hb
      | some message => simpa [hmessage] using hb
    refine ⟨_, b, .end, s.core.decoding.received.drop 6, ?_, haddr, .inr rfl, hview⟩
    obtain ⟨hlt, hitem⟩ := List.getElem?_eq_some_iff.mp hget
    rw [← hitem, ← List.drop_eq_getElem_cons hlt, List.take_append_drop]
  have hmax : Block.maxDataLen RaptorQ.single = some 7 := by decide
  obtain ⟨hsent, -⟩ := losses_isolated Crate.single_lawful hmax (by decide) (by decide)
    (by decide) (by decide) (LTS.reachVia_of_runVia hs) hthird trivial hfin
  exact ⟨s, hids, _, hthird, hsent⟩

/-- **Recovery.** For any number of clients and threads and every order of their steps. Whatever
blocks were lost before, with the losses that matter noticed: if the receiver begins anew at some
block, and from there on the network is gentle, no client is received twice, and the workers come to
rest between arrivals, but for heartbeats. When they have, and enough packets have arrived, all
clients were started, and of those that were spared each has a transfer that is complete, if a
transfer of it was active when the receiver began anew, or its first block is one of those from
there on.

**Proof sketch.** Nothing is in flight at the decoding threads, so they can go on at any block. From
there on each block of the stream is emitted, decoded and received. Hence the dispatch worker gets
the last blocks of all transfers that are active then or begin later, and the transfers that were
aborted or lost before do not disturb these. -/
theorem recovers (hlaw : crate.Lawful ends.sender.raptorq)
    (hmax : Block.maxDataLen ends.sender.raptorq = some len) (hpos : 0 < len)
    (hmin : 0 < ends.receiver.raptorq.minNbPackets.toNat) (hfew : clients.length < 2 ^ 32)
    (hm : 0 < m) (hn : 0 < n ∧ n < 256) (hd : 0 < d ∧ d < 256) (hk : 0 < k)
    (hbefore : LTS.ReachVia (Lossy.step crate ends) (Lossy.Noticed crate ends spared)
      (Lossy.init m n d k Packet (clients.map some)) s₀)
    (hresumes : s₀.Resumes crate ends first rest)
    (hlink : s₀.step crate ends (.arrive first rest) = some link)
    (hafter : LTS.ReachVia (Tolerant.step crate ends) (Tolerant.Benign crate ends spared)
      (Tolerant.resume s₀ first rest link) t) :
    (t.link.demux.transfers.map Transfer.clientId).Nodup ∧
    LTS.Terminates (Lossy.step crate ends) Lossy.Label.Productive t.link ∧
    (LTS.Stuck (Lossy.step crate ends) Lossy.Label.Productive t.link → t.Supplied ends →
      t.link.sender.servers.started.Perm clients ∧
      ∀ (id : ClientId) c, t.link.sender.servers.started[id.toNat]? = some c → spared id →
        (viewOf (s₀.messages crate ends) id = true ∨
          blocksOf id (s₀.stream.take first.1) = []) →
        ∃ r ∈ t.link.demux.transfers, r.clientId = id ∧ Complete c r) := by
  have hguarded := Lossy.Guarded.of_reach hlaw hmax hpos hn.2
    (by rwa [Pool.reduceOption_map_some]) hbefore
  have hsender := Lossy.senderInv_of_reach hmax hpos hn.2 hfew hbefore
  have hfirst : Tolerant.Recovering crate ends clients spared s₀ first.1
      (Tolerant.resume s₀ first rest link) := by
    have ht := Lossy.step_iff.mp hlink
    have hinv := Tolerant.Inv.resume hguarded.base hsender hlaw hmin hd.2 hresumes ht
    have hdemux := hguarded.base.isolated_step hinv.base hguarded.demux hmax hpos
      (a := .arrive first rest) trivial ht
    refine ⟨hinv, hdemux, ?_, ?_⟩
    · cases ht with
      | arrive => exact List.prefix_rfl
    · cases ht with
      | arrive => exact hinv.le_expected.trans hinv.le_length
  have hinv : Tolerant.Recovering crate ends clients spared s₀ first.1 t := by
    refine hafter.invariant (P := Tolerant.Recovering crate ends clients spared s₀ first.1)
      hfirst ?_
    intro s a s' _ hinv hok hs
    simp only [Tolerant.step, Option.map_eq_some_iff] at hs
    obtain ⟨link, hlink, rfl⟩ := hs
    exact hinv.step hlaw hmax hpos hn.2 hd.2 hfew hok (Lossy.step_iff.mp hlink)
  obtain ⟨pending, -, pos, hdel, -⟩ := hinv.base.base.informed
  exact ⟨hdel.unique, Lossy.terminates crate hmin t.link,
    hinv.idle hmax hpos hm hn.1 hd.1 hk⟩

/-- The receiver begins anew with the third client, whose transfer is complete in the end. -/
theorem recovers_gap : ∃ t : Tolerant 1 1 1 1 (UInt8 × List UInt8),
    t.link.demux.transfers.map Transfer.clientId = [0, 2] ∧
    ∃ r ∈ t.link.demux.transfers, r.clientId = 2 ∧ Complete eightBytes r := by
  have hrun : ((LTS.runVia (Lossy.step Crate.single smallest)
      (Lossy.Noticed Crate.single smallest fun _ => True)
      (Lossy.init 1 1 1 1 _ ((List.replicate 3 eightBytes).map some)) beforeGap).bind fun s₀ =>
      (s₀.step Crate.single smallest (.arrive (6, 0) none)).bind fun link =>
      (LTS.runVia (Tolerant.step Crate.single smallest)
        (Tolerant.Benign Crate.single smallest fun _ => True)
        (Tolerant.resume s₀ (6, 0) none link) afterGap).map fun t =>
      (decide (s₀.Resumes Crate.single smallest (6, 0) none),
        (blocksOf 2 (s₀.stream.take 6)).length, t.link.demux.transfers.map Transfer.clientId,
        t.link.expected, t.link.stream.length,
        oneOfEach.all fun a => (Lossy.step Crate.single smallest t.link a).isNone)) =
      some (true, 0, [0, 2], 9, 9, true) := by
    decide +kernel
  obtain ⟨s₀, hbefore, hrest⟩ := Option.bind_eq_some_iff.mp hrun
  obtain ⟨link, hlink, hrest⟩ := Option.bind_eq_some_iff.mp hrest
  obtain ⟨t, hafter, heq⟩ := Option.map_eq_some_iff.mp hrest
  simp only [Prod.mk.injEq, decide_eq_true_eq, List.length_eq_zero_iff] at heq
  obtain ⟨hresumes, hnew, hids, hexpected, hlength, hall⟩ := heq
  have hmax : Block.maxDataLen RaptorQ.single = some 7 := by decide
  obtain ⟨-, -, hidle⟩ := recovers Crate.single_lawful hmax (by decide) (by decide) (by decide)
    (by decide) (by decide) (by decide) (by decide) (LTS.reachVia_of_runVia hbefore) hresumes hlink
    (LTS.reachVia_of_runVia hafter)
  obtain ⟨hperm, hcomplete⟩ := hidle (stuck_of_oneOfEach hall)
    (Tolerant.supplied_of_expected (hexpected.trans hlength.symm))
  have hthird : t.link.sender.servers.started[2]? = some eightBytes := by
    rw [List.perm_replicate.mp hperm]
    rfl
  exact ⟨t, hids, hcomplete 2 eightBytes hthird trivial (.inr hnew)⟩

end Results

end Lidi.Link
