import Lidi.Link.Delivery
import Lidi.Link.Partial
import Lidi.Receive.Isolation
import Lidi.Send.Finish

set_option relaxedAutoImplicit false
set_option autoImplicit false

/-!
# Clients that fail do not disturb the others

At the receiver a call of a client may fail at any time, or the wait for its blocks may time out.
The transfers of all the other clients are complete in the end, and what has been written of any
transfer is a beginning of the stream of its client.

## Main definitions

* `Link.Multiplex.Spares` — the condition on the steps: no call of some of the clients fails.
* `Link.Multiplex.Isolated` — the invariant.

## Main results

* `Link.Multiplex.Isolated.step` — every step that spares these clients keeps the invariant.
* `Link.faults_isolated` — the transfers of these clients are complete in the end.
-/

namespace Lidi.Link

open Send Receive

variable {m k : ℕ} {sender : Send.Config} {receiver : Receive.Config} {s s' : Multiplex m k}
  {spared : ClientId → Prop} {clients : List ClientSocket} {len len' : ℕ}

/-! ## Transfers that were sent to their ends -/

section Whole

variable {cfg : Send.Config} {stream : List Block} {id : ClientId} {c : ClientSocket}

/-- A transfer starts with its `Start` block. -/
lemma exists_start (hmax : Block.maxDataLen cfg.raptorq = some len) (hpos : 0 < len)
    (hblocks : blocksOf id stream = transfer cfg.raptorq cfg.flush id c) :
    ∃ b ∈ stream, b.addressee = some (id, .start) := by
  obtain ⟨type, bytes, ⟨start, body, last, data, rest, heq, hstart, -⟩, -⟩ :=
    transfer_conveys hmax hpos cfg.flush id c
  have hmem : start ∈ blocksOf id stream := by simp [hblocks, heq]
  exact ⟨start, List.mem_of_mem_filter hmem, hstart.addressee_eq⟩

/-- **A transfer that has finished is complete**, if the client workers can do nothing more and no
transfer is active. -/
lemma complete_of_finished {received : List (Option Block)} {demux : Demux k}
    (hmax : Block.maxDataLen cfg.raptorq = some len) (hpos : 0 < len)
    (h : Receive.Isolated spared stream received demux)
    (hmax' : Block.maxDataLen receiver.raptorq = some len') (hk : 0 < k)
    (hnone : ∀ id, demux.active id = none)
    (hstuck : ∀ w, Demux.clientStep receiver demux w .ok = none) (hspared : spared id)
    (hfin : Finished received id)
    (hblocks : blocksOf id stream <+: transfer cfg.raptorq cfg.flush id c) :
    ∃ t ∈ demux.transfers, t.clientId = id ∧ Complete c t := by
  obtain ⟨t, ht, hid, hsent, ok, hended⟩ :=
    h.received_whole hmax' hk hnone hstuck hspared hfin
  have htaken : t.taken <+: t.sent := List.prefix_append _ _
  rw [hsent] at htaken
  exact ⟨t, ht, hid, complete_of_ended hmax hpos hended (htaken.trans hblocks)⟩

end Whole

namespace Multiplex

/-- No call of these clients fails. -/
def Spares (spared : ClientId → Prop) (s : Multiplex m k) : Label m k → Prop
  | .client w answer => s.demux.Spares spared w answer
  | _ => True

/-- Whether a step spares these clients can be decided. -/
instance [DecidablePred spared] (s : Multiplex m k) (a : Label m k) :
    Decidable (s.Spares spared a) :=
  match a with
  | .client w answer => inferInstanceAs (Decidable (s.demux.Spares spared w answer))
  | .server _ | .dispatch => inferInstanceAs (Decidable True)

/-- **The invariant.** -/
structure Isolated (spared : ClientId → Prop) (sender : Send.Config) (clients : List ClientSocket)
    (s : Multiplex m k) : Prop where
  servers : Servers.Inv sender (clients.map some) s.servers (s.received ++ s.channel)
  healthy : s.servers.Healthy
  delivered : Delivered s.received s.demux
  demux : Receive.Isolated spared (s.received ++ s.channel) (s.received.map some) s.demux
  beginnings : s.demux.Partial

/-- The invariant holds at the start. -/
lemma Isolated.init (spared : ClientId → Prop) (sender : Send.Config)
    (clients : List ClientSocket) : Isolated spared sender clients (init m k clients) :=
  ⟨.init sender _, .init clients, .init k, .init spared _ k, .init⟩

/-- **Every step that spares these clients keeps the invariant.** -/
theorem Isolated.step (h : Isolated spared sender clients s)
    (hmax : Block.maxDataLen sender.raptorq = some len) (hpos : 0 < len)
    (hmax' : Block.maxDataLen receiver.raptorq = some len') (hfew : clients.length < 2 ^ 32)
    {a : Label m k} (hok : s.Spares spared a) (ht : Trans sender receiver s a s') :
    Isolated spared sender clients s' := by
  have hsource := h.servers.source hmax hpos
  cases ht with
  | @server a servers out hserver =>
    have hfew' : (clients.map some).reduceOption.length < 2 ^ 32 := by
      rwa [Pool.reduceOption_map_some]
    have hservers := h.servers.step hmax hpos hfew' hserver
    have hmore := h.demux.mono (hservers.source hmax hpos)
    rw [List.append_assoc] at hservers hmore
    exact ⟨hservers, h.healthy.step hmax hpos hserver, h.delivered, hmore, h.beginnings⟩
  | @dispatch b rest hin hrunning =>
    have hsent : s.received ++ s.channel = s.received ++ [b] ++ rest := by simp [hin]
    have hget : (s.received ++ s.channel)[s.received.length]? = some b := by simp [hin]
    obtain ⟨type, id, data, hb⟩ := hsource.carries b (by simp [hin])
    have hdel : Delivered ((s.received ++ s.channel).take s.received.length) s.demux := by
      rw [List.take_left']
      · exact h.delivered
      · rfl
    have hharmless : ∀ b' ∈ some b, b'.Harmless := by
      intro b' hb'
      obtain rfl := Option.some.inj hb'
      exact h.servers.harmless hmax hpos (by simp [hin])
    have hdemux := h.demux.receive (m := some b) hmax' hsource hdel fun b' hb' => by
      rw [← Option.some.inj hb', hget]
    have hfirst : type = .start → blocksOf id s.received = [] := by
      rintro rfl
      rw [hsent] at hsource
      exact (hsource.of_append.start_iff hb (by simp)).mp rfl
    rw [hsent] at hdemux
    refine ⟨hsent ▸ h.servers, h.healthy, h.delivered.receive receiver hb hfirst, ?_,
      h.beginnings.receive hharmless
        (Demux.received_of_receive h.delivered.valid receiver (some b))⟩
    simpa using hdemux
  | @client w answer demux hclient =>
    exact ⟨h.servers, h.healthy, h.delivered.clientStep hclient,
      h.demux.clientStep hmax' hok hclient, h.beginnings.clientStep h.demux.inv hclient⟩

/-- The invariant of a reachable state. -/
theorem Isolated.of_reach (hmax : Block.maxDataLen sender.raptorq = some len) (hpos : 0 < len)
    (hmax' : Block.maxDataLen receiver.raptorq = some len') (hfew : clients.length < 2 ^ 32)
    (h : LTS.ReachVia (Multiplex.step sender receiver) (Multiplex.Spares spared)
      (Multiplex.init m k clients) s) : Isolated spared sender clients s :=
  h.invariant (P := fun s => Isolated spared sender clients s) (.init spared sender clients)
    fun _ _ _ _ hinv hok hs => hinv.step hmax hpos hmax' hfew hok (step_iff.mp hs)

/-- A transfer is of a client that was started, and has been written a beginning of its stream. -/
lemma Isolated.written_isPrefix (h : Isolated spared sender clients s)
    (hmax : Block.maxDataLen sender.raptorq = some len) (hpos : 0 < len) {t : Transfer}
    (ht : t ∈ s.demux.transfers) :
    ∃ c, s.servers.started[t.clientId.toNat]? = some c ∧ written t.calls <+: c.bytes := by
  obtain ⟨part, hne, hpre, -⟩ := h.delivered.begun t ht
  have hsent : blocksOf t.clientId s.received <+:
      blocksOf t.clientId (s.received ++ s.channel) := by
    rw [blocksOf_append]
    exact List.prefix_append _ _
  have hlt : t.clientId.toNat < s.servers.started.length := by
    by_contra hle
    have hfresh := h.servers.shares.fresh t.clientId (not_lt.mp hle)
    exact hne (List.prefix_nil.mp (hfresh ▸ hpre.trans hsent))
  have hc := List.getElem?_eq_getElem hlt
  exact ⟨_, hc, ((h.delivered.written_isPrefix h.beginnings ht).trans
    (Receive.payloads_isPrefix hsent)).trans (h.servers.payloads_isPrefix hmax hpos hc)⟩

/-- **When no worker can take a step but the heartbeat**, all clients were started, and the
transfers of those that were spared are complete. -/
theorem Isolated.idle (h : Isolated spared sender clients s)
    (hmax : Block.maxDataLen sender.raptorq = some len) (hpos : 0 < len)
    (hmax' : Block.maxDataLen receiver.raptorq = some len') (hfew : clients.length < 2 ^ 32)
    (hm : 0 < m) (hk : 0 < k)
    (hstuck : LTS.Stuck (Multiplex.step sender receiver) Label.Productive s) :
    s.servers.started.Perm clients ∧
    ∀ i c, s.servers.started[i]? = some c → spared (UInt32.ofNat i) →
      ∃ t ∈ s.demux.transfers, t.clientId = UInt32.ofNat i ∧ Complete c t := by
  obtain ⟨hchannel, hperm, hdone, hclients⟩ :=
    served h.servers h.healthy h.demux.running hm hstuck
  have hservers := h.servers
  rw [hchannel, List.append_nil] at hservers
  have hnone := h.demux.none_active (by simpa [hchannel] using h.delivered)
    (by simpa [hchannel] using whole_of_done hservers hmax hpos hdone)
  refine ⟨hperm, fun i c hc hspared => ?_⟩
  have hid : (UInt32.ofNat i).toNat = i := by
    have hlt := (List.getElem?_eq_some_iff.mp hc).1
    rw [hperm.length_eq] at hlt
    rw [UInt32.toNat_ofNat']
    exact Nat.mod_eq_of_lt (hlt.trans hfew)
  have hblocks := hdone (UInt32.ofNat i) c (hid.symm ▸ hc)
  obtain ⟨b, hb, hstart⟩ := exists_start hmax hpos hblocks
  have hfin : Finished (s.received.map some) (UInt32.ofNat i) :=
    h.demux.finished hnone hspared (List.nil_append _).symm (.inr ⟨b, hb, hstart⟩)
  exact complete_of_finished hmax hpos h.demux hmax' hk hnone hclients hspared hfin
    (h.servers.shares.isPrefix (hid.symm ▸ hc))

end Multiplex

section Results

/-- **Clients that fail do not disturb the others.** For any number of clients and every order of
the steps, whatever the calls of the other clients do at the receiver: what has been written of any
transfer is a beginning of the stream of its client, and no client is received twice. Apart from
heartbeats the workers can only take finitely many steps, and when they can take no more, every
client was started, and for each client of which no call has failed there is a transfer, which is
complete.

**Proof sketch.** A worker that gives up a transfer drops its queue, and the dispatch worker throws
the later blocks of this transfer away. All other queues get all their blocks, and the permit of the
worker is free for the next transfer. -/
theorem faults_isolated (hmax : Block.maxDataLen sender.raptorq = some len) (hpos : 0 < len)
    (hmax' : Block.maxDataLen receiver.raptorq = some len') (hfew : clients.length < 2 ^ 32)
    (hm : 0 < m) (hk : 0 < k)
    (h : LTS.ReachVia (Multiplex.step sender receiver) (Multiplex.Spares spared)
      (Multiplex.init m k clients) s) :
    (∀ t ∈ s.demux.transfers, ∃ c, s.servers.started[t.clientId.toNat]? = some c ∧
      written t.calls <+: c.bytes) ∧
    (s.demux.transfers.map Transfer.clientId).Nodup ∧
    LTS.Terminates (Multiplex.step sender receiver) Multiplex.Label.Productive s ∧
    (LTS.Stuck (Multiplex.step sender receiver) Multiplex.Label.Productive s →
      s.servers.started.Perm clients ∧
      ∀ i c, s.servers.started[i]? = some c → spared (UInt32.ofNat i) →
        ∃ t ∈ s.demux.transfers, t.clientId = UInt32.ofNat i ∧ Complete c t) := by
  have hinv := Multiplex.Isolated.of_reach hmax hpos hmax' hfew h
  exact ⟨fun t ht => hinv.written_isPrefix hmax hpos ht, hinv.delivered.unique,
    Multiplex.terminates sender receiver s, hinv.idle hmax hpos hmax' hfew hm hk⟩

/-- The blocks of two clients, interleaved; `client_new` fails for the second one. -/
def secondFails : List (Multiplex.Label 2 2) :=
  [.server .main, .server (.server 0), .server .main, .server (.server 1), .server (.server 0),
    .server (.server 1), .server (.server 1), .server (.server 0), .dispatch, .dispatch,
    .server (.server 0), .server (.server 1), .server (.server 1), .client 1 .ok, .client 0 .ok,
    .client 0 .ok, .client 1 .ok, .client 1 (.fault 0), .dispatch, .dispatch, .server (.server 0),
    .client 0 .ok, .client 0 .ok, .client 0 .ok]

/-- The labels of the productive steps of a link with two workers of each kind. -/
def twoOfEach : List (Multiplex.Label 2 2) :=
  [.server .main, .server (.server 0), .server (.server 1), .dispatch, .client 0 .ok, .client 1 .ok]

/-- With two workers on each side it is enough to try the steps of these. -/
lemma stuck_of_twoOfEach {s : Multiplex 2 2}
    (h : twoOfEach.all (fun a => (Multiplex.step sender receiver s a).isNone) = true) :
    LTS.Stuck (Multiplex.step sender receiver) Multiplex.Label.Productive s := by
  have hnone : ∀ a ∈ twoOfEach, Multiplex.step sender receiver s a = none := by simpa using h
  rintro a ⟨hok, hne⟩
  have hfin : ∀ w : Fin 2, w = 0 ∨ w = 1 := by decide
  cases a with
  | server a =>
    cases a with
    | main => exact hnone _ (by simp [twoOfEach])
    | server w => rcases hfin w with rfl | rfl <;> exact hnone _ (by simp [twoOfEach])
    | heartbeat => exact absurd rfl hne
  | dispatch => exact hnone _ (by simp [twoOfEach])
  | client w answer =>
    obtain rfl : answer = .ok := hok
    rcases hfin w with rfl | rfl <;> exact hnone _ (by simp [twoOfEach])

/-- After that run the first client has been received to its end. -/
theorem faults_isolated_secondFails :
    ∃ s : Multiplex 2 2,
      s.demux.transfers.map (fun t => (t.clientId, written t.calls)) = [(1, []), (0, [1, 2, 3])] ∧
      ∃ c, s.servers.started[0]? = some c ∧
        ∃ t ∈ s.demux.transfers, t.clientId = 0 ∧ Complete c t := by
  have hrun : (LTS.runVia (Multiplex.step smallest.sender smallest.receiver)
      (Multiplex.Spares (· = 0)) (Multiplex.init 2 2 twoClients) secondFails).map (fun s =>
        (s.demux.transfers.map fun t => (t.clientId, written t.calls),
          s.servers.started.length,
          twoOfEach.all fun a =>
            (Multiplex.step smallest.sender smallest.receiver s a).isNone)) =
      some ([(1, []), (0, [1, 2, 3])], 2, true) := by
    decide +kernel
  obtain ⟨s, hs, heq⟩ := Option.map_eq_some_iff.mp hrun
  simp only [Prod.mk.injEq] at heq
  obtain ⟨hwritten, hlength, hall⟩ := heq
  have hlen : Block.maxDataLen RaptorQ.single = some 7 := by decide
  obtain ⟨-, -, -, hidle⟩ := faults_isolated hlen (by decide) hlen (by decide) (by decide)
    (by decide) (LTS.reachVia_of_runVia hs)
  have hfirst : s.servers.started[0]? = some s.servers.started[0] :=
    List.getElem?_eq_getElem (by omega)
  exact ⟨s, hwritten, _, hfirst, (hidle (stuck_of_twoOfEach hall)).2 0 _ hfirst rfl⟩

end Results

end Lidi.Link
