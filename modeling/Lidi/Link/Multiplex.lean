import Lidi.Core.LTS
import Lidi.Receive.Lossless
import Lidi.Send.Finish

set_option relaxedAutoImplicit false
set_option autoImplicit false

/-!
# Delivery over a faithful channel of blocks

The server workers of the sender put the blocks of their clients on a channel, interleaved with
each other and with heartbeats, and the dispatch worker of the receiver takes them from it. Every
block that is put is received, in the same order.

## Main definitions

* `Link.Multiplex` — the server workers, the channel, the dispatch worker and the client workers.
* `Link.Multiplex.Inv` — the invariant.

## Main results

* `Link.Multiplex.Inv.step` — every step keeps the invariant, if no call of a client fails.
* `Link.Multiplex.served`, `Link.Multiplex.Inv.idle` — what holds when no worker can take a step.
-/

namespace Lidi.Send.Servers

variable {m : ℕ} {cfg : Config} {todo : List (Option ClientSocket)} {s : Servers m}
  {sent : List Block} {len : ℕ}

/-- What the server workers put on the channel is a beginning of each transfer. -/
lemma Inv.source (h : Inv cfg todo s sent) (hmax : Block.maxDataLen cfg.raptorq = some len)
    (hpos : 0 < len) : Receive.Source cfg.raptorq sent where
  carries := h.carries
  conveys id hne := by
    have hlt : id.toNat < s.started.length := by
      by_contra hle
      exact hne (h.shares.fresh id (not_lt.mp hle))
    have hc := List.getElem?_eq_getElem hlt
    obtain ⟨type, bytes, hconveys, ⟨-, rfl, -⟩ | ⟨-, rfl, -⟩⟩ :=
      transfer_conveys hmax hpos cfg.flush id s.started[id.toNat]
    · exact ⟨_, _, _, by simp [Receive.Client.outcome], hconveys, h.shares.isPrefix hc⟩
    · exact ⟨_, _, _, by simp [Receive.Client.outcome], hconveys, h.shares.isPrefix hc⟩

end Lidi.Send.Servers

namespace Lidi.Link

open Send Receive

/-- All transfers on the stream are whole ones, if those of the clients that were started are. -/
lemma whole_of_done {m len : ℕ} {cfg : Send.Config} {todo : List (Option ClientSocket)}
    {servers : Servers m} {stream : List Block}
    (h : Servers.Inv cfg todo servers stream)
    (hmax : Block.maxDataLen cfg.raptorq = some len) (hpos : 0 < len)
    (hdone : ∀ (id : ClientId) c, servers.started[id.toNat]? = some c →
      blocksOf id stream = transfer cfg.raptorq cfg.flush id c) :
    ∀ id, blocksOf id stream ≠ [] → ∃ type bytes, Receive.Client.outcome type ≠ none ∧
      Conveys cfg.raptorq id type (blocksOf id stream) bytes := by
  intro id hne
  have hlt : id.toNat < servers.started.length := by
    by_contra hle
    exact hne (h.shares.fresh id (not_lt.mp hle))
  rw [hdone id _ (List.getElem?_eq_getElem hlt)]
  obtain ⟨type, bytes, hconveys, ⟨-, rfl, -⟩ | ⟨-, rfl, -⟩⟩ :=
    transfer_conveys hmax hpos cfg.flush id servers.started[id.toNat]
  · exact ⟨_, _, by simp [Receive.Client.outcome], hconveys⟩
  · exact ⟨_, _, by simp [Receive.Client.outcome], hconveys⟩

/-- The server workers, the channel from them to the dispatch worker, and the receiver after it.
`received` is a history of what the dispatch worker has received. -/
structure Multiplex (m k : ℕ) where
  servers : Servers m
  channel : List Block
  demux : Demux k
  received : List Block

namespace Multiplex

variable {m k : ℕ} {sender : Send.Config} {receiver : Receive.Config} {s s' : Multiplex m k}

/-- The initial state, with the clients that are going to connect. -/
def init (m k : ℕ) (clients : List ClientSocket) : Multiplex m k where
  servers := Servers.init m (clients.map some)
  channel := []
  demux := Demux.init k
  received := []

/-- A worker of the sender, the dispatch worker or a client worker moves. -/
inductive Label (m k : ℕ)
  | server (a : Servers.Label m)
  | dispatch
  | client (w : Fin k) (answer : Client.Answer)

/-- The next step; `none` if the worker is blocked. -/
def step (sender : Send.Config) (receiver : Receive.Config) (s : Multiplex m k) :
    Label m k → Option (Multiplex m k)
  | .server a =>
    (s.servers.step sender true a).map fun res =>
      { s with servers := res.1, channel := s.channel ++ res.2.reduceOption }
  | .dispatch =>
    match s.channel with
    | [] => none
    | b :: rest =>
      if s.demux.dispatch.isSome then none
      else
        some { s with
          channel := rest
          demux := s.demux.receive receiver (some (.deserialize b.serialized))
          received := s.received ++ [b] }
  | .client w answer => (s.demux.clientStep receiver w answer).map ({ s with demux := · })

/-- No call of a client fails, and no wait for a block times out. -/
def Label.Faultless : Label m k → Prop
  | .client _ answer => answer = .ok
  | _ => True

/-- The kinds of steps. -/
inductive Trans (sender : Send.Config) (receiver : Receive.Config) (s : Multiplex m k) :
    Label m k → Multiplex m k → Prop
  | server {a : Servers.Label m} {servers : Servers m} {out : List (Option Block)}
      (hserver : Servers.Trans sender true s.servers a servers out) :
      Trans sender receiver s (.server a)
        { s with servers := servers, channel := s.channel ++ out.reduceOption }
  | dispatch {b : Block} {rest : List Block} (hin : s.channel = b :: rest)
      (hrunning : s.demux.dispatch = none) :
      Trans sender receiver s .dispatch { s with
        channel := rest
        demux := s.demux.receive receiver (some b)
        received := s.received ++ [b] }
  | client {w : Fin k} {answer : Client.Answer} {demux : Demux k}
      (hclient : Demux.ClientTrans receiver s.demux w answer demux) :
      Trans sender receiver s (.client w answer) { s with demux := demux }

/-- The step function does exactly the steps of the relation. -/
theorem step_iff {a : Label m k} :
    step sender receiver s a = some s' ↔ Trans sender receiver s a s' := by
  constructor
  · intro h
    cases a with
    | server a =>
      simp only [step, Option.map_eq_some_iff] at h
      obtain ⟨⟨servers, out⟩, hserver, rfl⟩ := h
      exact .server (Servers.step_iff.mp hserver)
    | dispatch =>
      cases hin : s.channel with
      | nil => simp [step, hin] at h
      | cons b rest =>
        cases hrunning : s.demux.dispatch with
        | some f => simp [step, hin, hrunning] at h
        | none =>
          simp only [step, hin, hrunning, Option.isSome_none, Bool.false_eq_true, if_false,
            Option.some.injEq] at h
          exact h ▸ .dispatch hin hrunning
    | client w answer =>
      simp only [step, Option.map_eq_some_iff] at h
      obtain ⟨demux, hclient, rfl⟩ := h
      exact .client (Demux.clientStep_iff.mp hclient)
  · intro h
    cases h with
    | server hserver => simp [step, Servers.step_iff.mpr hserver]
    | dispatch hin hrunning => simp [step, hin, hrunning]
    | client hclient => simp [step, Demux.clientStep_iff.mpr hclient]

/-- **The invariant.** -/
structure Inv (sender : Send.Config) (clients : List ClientSocket) (s : Multiplex m k) : Prop where
  servers : Servers.Inv sender (clients.map some) s.servers (s.received ++ s.channel)
  healthy : s.servers.Healthy
  lossless : Lossless s.received s.demux

/-- The invariant holds at the start. -/
lemma Inv.init (sender : Send.Config) (clients : List ClientSocket) :
    Inv sender clients (init m k clients) :=
  ⟨Servers.Inv.init sender _, Servers.Healthy.init clients, Lossless.init k⟩

variable {len len' : ℕ} {clients : List ClientSocket}

/-- What has been received is a beginning of each transfer. -/
lemma Inv.source (h : Inv sender clients s) (hmax : Block.maxDataLen sender.raptorq = some len)
    (hpos : 0 < len) : Source sender.raptorq s.received :=
  (h.servers.source hmax hpos).of_append

/-- **Every step keeps the invariant.** -/
theorem Inv.step (hmax : Block.maxDataLen sender.raptorq = some len) (hpos : 0 < len)
    (hmax' : Block.maxDataLen receiver.raptorq = some len') (hfew : clients.length < 2 ^ 32)
    (h : Inv sender clients s) {a : Label m k} (hok : a.Faultless)
    (ht : Trans sender receiver s a s') : Inv sender clients s' := by
  have hfew' : (clients.map some).reduceOption.length < 2 ^ 32 := by
    rwa [Pool.reduceOption_map_some]
  cases ht with
  | @server a servers out hserver =>
    refine ⟨?_, h.healthy.step hmax hpos hserver, h.lossless⟩
    rw [← List.append_assoc]
    exact h.servers.step hmax hpos hfew' hserver
  | @dispatch b rest hin hrunning =>
    have hsent : s.received ++ s.channel = s.received ++ [b] ++ rest := by simp [hin]
    have hsource := h.servers.source hmax hpos
    rw [hsent] at hsource
    exact ⟨hsent ▸ h.servers, h.healthy, h.lossless.receive receiver hsource.of_append⟩
  | @client w answer demux hclient =>
    obtain rfl : answer = .ok := hok
    exact ⟨h.servers, h.healthy, h.lossless.clientStep (h.source hmax hpos) hmax' hclient⟩

/-- The invariant of a reachable state. -/
theorem Inv.of_reach (hmax : Block.maxDataLen sender.raptorq = some len) (hpos : 0 < len)
    (hmax' : Block.maxDataLen receiver.raptorq = some len') (hfew : clients.length < 2 ^ 32)
    (h : LTS.ReachVia (Multiplex.step sender receiver) (fun _ a => a.Faultless)
      (Multiplex.init m k clients) s) : Inv sender clients s :=
  h.invariant (P := fun s => Inv sender clients s) (Inv.init sender clients)
    fun _ _ _ _ hinv hok hs => hinv.step hmax hpos hmax' hfew hok (step_iff.mp hs)

/-- A transfer is of a client that was started, and has been written a beginning of its stream. -/
lemma Inv.written_isPrefix (h : Inv sender clients s)
    (hmax : Block.maxDataLen sender.raptorq = some len) (hpos : 0 < len) {t : Transfer}
    (ht : t ∈ s.demux.transfers) :
    ∃ c, s.servers.started[t.clientId.toNat]? = some c ∧ written t.calls <+: c.bytes := by
  have hlossless := h.lossless
  obtain ⟨part, hne, hpre, -⟩ := hlossless.delivered.begun t ht
  have hsent : blocksOf t.clientId s.received <+:
      blocksOf t.clientId (s.received ++ s.channel) := by
    rw [blocksOf_append]
    exact List.prefix_append _ _
  have hlt : t.clientId.toNat < s.servers.started.length := by
    by_contra hle
    have hfresh := h.servers.shares.fresh t.clientId (not_lt.mp hle)
    exact hne (List.prefix_nil.mp (hfresh ▸ hpre.trans hsent))
  have hc := List.getElem?_eq_getElem hlt
  refine ⟨_, hc, ?_⟩
  have hwritten : written t.calls <+: payloads t.taken := by
    obtain ⟨q, hq⟩ := List.getElem?_of_mem ht
    by_cases hheld : q ∈ s.demux.held.map Prod.fst
    · obtain ⟨⟨q, stage⟩, hmem, rfl⟩ := List.mem_map.mp hheld
      exact (hlossless.inv.status q stage t hmem hq).2.written_isPrefix
    · obtain ⟨ok, hended⟩ := hlossless.ended t ht (hlossless.inv.unheld q t hq hheld).1
      rw [hended.written_eq]
  have htaken : t.taken <+: transfer sender.raptorq sender.flush t.clientId
      s.servers.started[t.clientId.toNat] := by
    have hfull := hlossless.full t ht
    have htaken : t.taken <+: t.sent := List.prefix_append _ _
    rw [hfull] at htaken
    exact (htaken.trans hsent).trans (h.servers.shares.isPrefix hc)
  refine (hwritten.trans (payloads_isPrefix htaken)).trans ?_
  obtain ⟨type, bytes, hconveys, ⟨-, -, rfl⟩ | ⟨-, -, hbytes⟩⟩ := transfer_conveys hmax hpos
    sender.flush t.clientId s.servers.started[t.clientId.toNat]
  · rw [hconveys.script.1]
  · rw [hconveys.script.1]
    exact hbytes

/-- The labels of the steps that are not a heartbeat, without faults. -/
def Label.Productive (a : Label m k) : Prop :=
  a.Faultless ∧ a ≠ .server .heartbeat

/-- **When no worker can take a step but the heartbeat**, the channel is empty, all clients were
started, their transfers have been received to their ends, and the client workers are blocked. -/
lemma served (hservers : Servers.Inv sender (clients.map some) s.servers (s.received ++ s.channel))
    (hhealthy : s.servers.Healthy) (hrunning : s.demux.dispatch = none) (hm : 0 < m)
    (hstuck : LTS.Stuck (Multiplex.step sender receiver) Label.Productive s) :
    s.channel = [] ∧ s.servers.started.Perm clients ∧
    (∀ (id : ClientId) c, s.servers.started[id.toNat]? = some c →
      blocksOf id s.received = transfer sender.raptorq sender.flush id c) ∧
    ∀ w, Demux.clientStep receiver s.demux w .ok = none := by
  have hchannel : s.channel = [] := by
    have hs := hstuck .dispatch ⟨trivial, by simp⟩
    cases hin : s.channel with
    | nil => rfl
    | cons b rest => simp [Multiplex.step, hin, hrunning] at hs
  have hserver : ∀ a, a ≠ Servers.Label.heartbeat → s.servers.step sender true a = none := by
    intro a ha
    have hs := hstuck (.server a) ⟨trivial, fun heq => ha (Label.server.inj heq)⟩
    simpa only [Multiplex.step, Option.map_eq_none_iff] using hs
  obtain ⟨hrecv, htoServer, htodo⟩ := hhealthy.idle hm (hserver .main (by simp))
    fun w => hserver (.server w) (by simp)
  obtain ⟨hperm, hdone⟩ := hservers.served hrecv htoServer htodo
  rw [Pool.reduceOption_map_some] at hperm
  rw [hchannel, List.append_nil] at hdone
  refine ⟨hchannel, hperm, hdone, fun w => ?_⟩
  have hs := hstuck (.client w .ok) ⟨rfl, by simp⟩
  simpa only [Multiplex.step, Option.map_eq_none_iff] using hs

/-- Without failing calls, the client workers have then ended all transfers. -/
theorem Inv.idle (h : Inv sender clients s) (hmax : Block.maxDataLen sender.raptorq = some len)
    (hpos : 0 < len) (hmax' : Block.maxDataLen receiver.raptorq = some len') (hm : 0 < m)
    (hk : 0 < k) (hstuck : LTS.Stuck (Multiplex.step sender receiver) Label.Productive s) :
    s.servers.started.Perm clients ∧
    (∀ (id : ClientId) c, s.servers.started[id.toNat]? = some c →
      blocksOf id s.received = transfer sender.raptorq sender.flush id c) ∧
    ∀ t ∈ s.demux.transfers, ∃ ok, Ended t ok := by
  obtain ⟨hchannel, hperm, hdone, hclients⟩ :=
    served h.servers h.healthy h.lossless.running hm hstuck
  have hservers := h.servers
  rw [hchannel, List.append_nil] at hservers
  exact ⟨hperm, hdone, h.lossless.all_ended (h.source hmax hpos) hmax' hk
    (whole_of_done hservers hmax hpos hdone) hclients⟩

end Multiplex

end Lidi.Link
