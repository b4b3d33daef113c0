import Lidi.Link.Delivery
import Lidi.Link.Tolerant
import Lidi.Receive.Work

set_option relaxedAutoImplicit false
set_option autoImplicit false

/-!
# Delivery over an unreliable network

Over a network that loses, duplicates and reorders datagrams within what the receiver tolerates, the
link is a faithful channel of blocks; and if enough packets of every block arrive, every client of
which no call fails is received to its end.

## Main definitions

* `Link.Lossy.Label.Productive` — the steps of the workers, without heartbeats and faults.
* `Link.Tolerant.Benign` — the condition on the steps.
* `Link.Tolerant.Delivers` — what is delivered.

## Main results

* `Link.Lossy.terminates` — between arrivals the workers can take only finitely many steps.
* `Link.refines_channel` — the link refines a faithful channel of blocks.
* `Link.tolerates_loss` — every client of which no call fails is received once, with its own bytes.
-/

namespace Lidi.Link

open Send Receive Turnstile

variable {m n d k : ℕ} {Packet : Type*} {crate : Crate Packet} {ends : Ends}

/-! ## The workers come to rest -/

namespace Lossy

/-- The steps of the workers, without heartbeats, if no call of a client fails. -/
def Label.Productive : Label m n d k → Prop
  | .sender a => a ≠ .server .heartbeat
  | .client _ answer => answer = .ok
  | .reblock | .decode _ | .dispatch => True
  | .arrive _ _ | .timeout => False

/-- The work of the sender, of the reblock worker and the decoding threads, and of the client
workers. -/
def measure (s : Lossy m n d k Packet) : (ℕ ×ₗ ℕ) ×ₗ (ℕ ×ₗ ℕ) :=
  toLex (s.sender.measure, toLex (s.core.work, s.demux.work))

/-- **Every step of a worker but a heartbeat makes progress**, if a block needs at least one packet
and no call of a client fails. -/
theorem measure_lt (hmin : 0 < ends.receiver.raptorq.minNbPackets.toNat)
    {s s' : Lossy m n d k Packet} {a : Label m n d k} (ha : a.Productive)
    (h : step crate ends s a = some s') : s'.measure < s.measure := by
  have hcore : ∀ {a : Core.Label d} {core : Core d Packet} {demux : Demux k},
      (∀ datagrams, a ≠ .datagrams datagrams) → a ≠ .timeout →
      Core.Trans crate ends.receiver.raptorq s.core a core →
      ({ s.moved core with demux := demux } : Lossy m n d k Packet).measure < s.measure := by
    intro a core demux hinput htimeout ht
    have hlt := Core.work_lt hmin hinput htimeout (Core.step_iff.mpr ht)
    simp only [measure, Prod.Lex.toLex_lt_toLex]
    exact .inr ⟨rfl, .inl hlt⟩
  cases step_iff.mp h with
  | sender hsender =>
    simp only [measure, Prod.Lex.toLex_lt_toLex]
    exact .inl (Sender.measure_lt ha (Sender.step_iff.mpr hsender))
  | arrive | timeout => cases ha
  | reblock ht | decode ht | dispatch hrunning hout ht => exact hcore (by simp) (by simp) ht
  | @client w answer demux hclient =>
    obtain rfl : answer = .ok := ha
    simp only [measure, Prod.Lex.toLex_lt_toLex]
    exact .inr ⟨trivial, .inr ⟨trivial, hclient.progress⟩⟩

/-- **Between arrivals the workers come to rest**, in every state and whatever has arrived before,
if a block needs at least one packet and no call of a client fails. -/
theorem terminates (crate : Crate Packet) (hmin : 0 < ends.receiver.raptorq.minNbPackets.toNat)
    (s : Lossy m n d k Packet) : LTS.Terminates (step crate ends) Label.Productive s :=
  LTS.terminates_of_measure wellFounded_lt measure (fun _ _ _ ha hs => measure_lt hmin ha hs) s

end Lossy

namespace Tolerant

variable {s : Tolerant m n d k Packet} {clients : List ClientSocket} {len : ℕ}

/-- **Enough packets have arrived**, since the last reset, of every block that the reblock worker
has not emitted. -/
def Supplied (ends : Ends) (s : Tolerant m n d k Packet) : Prop :=
  ∀ i, s.link.expected ≤ i → i < s.link.stream.length →
    ends.receiver.raptorq.minNbPackets.toNat ≤ (packetsOf s.arrived i).length

/-- When the whole stream has arrived, the receiver is supplied. -/
lemma supplied_of_expected (h : s.link.expected = s.link.stream.length) : s.Supplied ends := by
  intro i hle hlt
  omega

/-- **When no worker can move**, and enough packets have arrived, all blocks of the stream have been
emitted, and the dispatch worker has received what became of them. -/
lemma Inv.received_all {before : List (Option Block)} {i : ℕ}
    (h : Inv crate ends clients before i s) (hd : 0 < d)
    (hrunning : s.link.demux.dispatch = none)
    (hstuck : LTS.Stuck (Lossy.step crate ends) Lossy.Label.Productive s.link)
    (hsupplied : s.Supplied ends) :
    s.link.expected = s.link.stream.length ∧
      s.link.core.decoding.received = before ++ (s.link.stream.drop i).map some := by
  have hreblock := hstuck .reblock trivial
  have hdecode := fun w => hstuck (.decode w) trivial
  simp only [Lossy.step, Lossy.stepWith, Option.map_eq_none_iff] at hreblock hdecode
  obtain ⟨hlacks, hlength⟩ := h.advances.idle hd hreblock hdecode
  have hexpected : s.link.expected = s.link.stream.length := by
    have hle := h.le_length
    by_contra hne
    have hmany := hsupplied s.link.expected le_rfl (by omega)
    omega
  have houtput : s.link.core.decoding.gate.output = [] := by
    cases hout : s.link.core.decoding.gate.output with
    | nil => rfl
    | cons message rest =>
      have hblocked := hstuck .dispatch trivial
      simp [Lossy.step, Lossy.stepWith, hrunning, hout, Core.step, Decoding.step] at hblocked
  have hreceived := h.base.core.received_isPrefix
  rw [houtput, List.append_nil] at hlength hreceived
  have hmessages := h.messages_eq
  rw [hexpected, List.take_length] at hmessages
  exact ⟨hexpected, (hreceived.eq_of_length (by rw [hlength, List.length_map])).trans hmessages⟩

end Tolerant

/-- The condition on the steps: the network is gentle, and no call of these clients fails. -/
def Tolerant.Benign (crate : Crate Packet) (ends : Ends) (spared : ClientId → Prop)
    (s : Tolerant m n d k Packet) (a : Lossy.Label m n d k) : Prop :=
  s.link.Gentle crate ends a ∧ s.link.Spares spared a

/-- Whether a step is benign can be decided. -/
instance {spared : ClientId → Prop} [DecidablePred spared] (s : Tolerant m n d k Packet)
    (a : Lossy.Label m n d k) : Decidable (s.Benign crate ends spared a) :=
  inferInstanceAs (Decidable (_ ∧ _))

/-- **Delivery.** Every transfer at the receiver is of a client that was started, and has been
written a beginning of its stream; no two transfers are of the same client. Between arrivals the
workers come to rest, but for heartbeats. When they have, and enough packets have arrived, all
clients were started, and for each of those that were spared there is a transfer, which is
complete. -/
structure Tolerant.Delivers (crate : Crate Packet) (ends : Ends) (spared : ClientId → Prop)
    (clients : List ClientSocket) (s : Tolerant m n d k Packet) : Prop where
  written : ∀ t ∈ s.link.demux.transfers, ∃ c,
    s.link.sender.servers.started[t.clientId.toNat]? = some c ∧ written t.calls <+: c.bytes
  unique : (s.link.demux.transfers.map Transfer.clientId).Nodup
  rests : LTS.Terminates (Lossy.step crate ends) Lossy.Label.Productive s.link
  complete : LTS.Stuck (Lossy.step crate ends) Lossy.Label.Productive s.link → s.Supplied ends →
    s.link.sender.servers.started.Perm clients ∧
    ∀ i c, s.link.sender.servers.started[i]? = some c → spared (UInt32.ofNat i) →
      ∃ t ∈ s.link.demux.transfers, t.clientId = UInt32.ofNat i ∧ Complete c t

section Results

variable {s : Tolerant m n d k Packet} {spared : ClientId → Prop} {clients : List ClientSocket}
  {len : ℕ}

/-- The invariant of a reachable state. -/
lemma Tolerant.Inv.of_benign (hlaw : crate.Lawful ends.sender.raptorq)
    (hmax : Block.maxDataLen ends.sender.raptorq = some len) (hpos : 0 < len)
    (hmin : 0 < ends.receiver.raptorq.minNbPackets.toNat) (hn : n < 256) (hd : d < 256)
    (hfew : clients.length < 2 ^ 32)
    (h : LTS.ReachVia (Tolerant.step crate ends) (Tolerant.Benign crate ends spared)
      (Tolerant.init m n d k Packet clients) s) : Tolerant.Inv crate ends clients [] 0 s :=
  .of_reach hlaw hmax hpos hmin hn hd hfew (h.mono fun _ _ hok => hok.1)

/-- **Over a tolerable network the link is a faithful channel of blocks.** For any number of clients
and threads and every order of their steps, whatever the calls of the clients do: if the network is
gentle, the link has made steps of a channel that hands every block over once and in order, and in
which the calls of the same clients succeed. -/
theorem refines_channel (hlaw : crate.Lawful ends.sender.raptorq)
    (hmax : Block.maxDataLen ends.sender.raptorq = some len) (hpos : 0 < len)
    (hmin : 0 < ends.receiver.raptorq.minNbPackets.toNat) (hn : n < 256) (hd : d < 256)
    (hfew : clients.length < 2 ^ 32)
    (h : LTS.ReachVia (Tolerant.step crate ends) (Tolerant.Benign crate ends spared)
      (Tolerant.init m n d k Packet clients) s) :
    LTS.ReachVia (Multiplex.step ends.sender ends.receiver) (Multiplex.Spares spared)
      (Multiplex.init m k clients) s.link.toMultiplex := by
  refine h.simulate (fun s => s.link.toMultiplex) fun t a t' hreach hok hs => ?_
  have hinv := Tolerant.Inv.of_benign hlaw hmax hpos hmin hn hd hfew hreach
  exact hinv.refines_step hok.2 hs

/-- The run of `Lossy` that reorders and duplicates packets and has a reset timeout is gentle. -/
theorem refines_channel_reordered : ∃ s : Tolerant 1 1 1 1 (UInt8 × List UInt8),
    s.link.toMultiplex.channel = [] ∧
    LTS.ReachVia (Multiplex.step smallest.sender smallest.receiver)
      (Multiplex.Spares fun _ => True) (Multiplex.init 1 1 [eightBytes]) s.link.toMultiplex := by
  have hrun : (LTS.runVia (Tolerant.step Crate.single smallest)
      (Tolerant.Benign Crate.single smallest fun _ => True)
      (Tolerant.init 1 1 1 1 _ [eightBytes]) reordered).map (·.link.toMultiplex.channel) =
      some [] := by
    decide +kernel
  obtain ⟨s, hs, hchannel⟩ := Option.map_eq_some_iff.mp hrun
  have hmax : Block.maxDataLen RaptorQ.single = some 7 := by decide
  exact ⟨s, hchannel, refines_channel Crate.single_lawful hmax (by decide) (by decide) (by decide)
    (by decide) (by decide) (LTS.reachVia_of_runVia hs)⟩

/-- The channel that the link refines keeps its invariant. -/
lemma Tolerant.channel_inv (hlaw : crate.Lawful ends.sender.raptorq)
    (hmax : Block.maxDataLen ends.sender.raptorq = some len) (hpos : 0 < len)
    (hmin : 0 < ends.receiver.raptorq.minNbPackets.toNat) (hn : n < 256) (hd : d < 256)
    (hfew : clients.length < 2 ^ 32)
    (h : LTS.ReachVia (Tolerant.step crate ends) (Tolerant.Benign crate ends spared)
      (Tolerant.init m n d k Packet clients) s) :
    Multiplex.Isolated spared ends.sender clients s.link.toMultiplex := by
  have hmax' : Block.maxDataLen ends.receiver.raptorq = some len := by rwa [ends.raptorq_eq]
  refine Multiplex.Isolated.of_reach hmax hpos hmax' hfew
    (h.simulate (fun s => s.link.toMultiplex) fun t a t' hreach hok hs => ?_)
  exact (Tolerant.Inv.of_benign hlaw hmax hpos hmin hn hd hfew hreach).refines_step hok.2 hs

/-- **What is delivered**, by the two invariants. -/
lemma Tolerant.Inv.delivers (hinv : Tolerant.Inv crate ends clients [] 0 s)
    (hchannel : Multiplex.Isolated spared ends.sender clients s.link.toMultiplex)
    (hmax : Block.maxDataLen ends.sender.raptorq = some len) (hpos : 0 < len)
    (hmin : 0 < ends.receiver.raptorq.minNbPackets.toNat) (hfew : clients.length < 2 ^ 32)
    (hm : 0 < m) (hn : 0 < n) (hd : 0 < d) (hk : 0 < k) :
    s.Delivers crate ends spared clients := by
  have hmax' : Block.maxDataLen ends.receiver.raptorq = some len := by rwa [ends.raptorq_eq]
  refine ⟨fun t ht => hchannel.written_isPrefix hmax hpos ht, hchannel.delivered.unique,
    Lossy.terminates crate hmin s.link, fun hstuck hsupplied => ?_⟩
  have hsender : LTS.Stuck (Sender.step ends.sender (ends.sender.raptorq.encode crate))
      (fun a => a ≠ .server .heartbeat) s.link.sender := by
    intro a ha
    have hblocked := hstuck (.sender a) ha
    simpa only [Lossy.step, Lossy.stepWith, Option.map_eq_none_iff] using hblocked
  obtain ⟨-, hreceived⟩ := hinv.received_all hd hchannel.demux.running hstuck hsupplied
  obtain ⟨-, hservers⟩ := hinv.sender.blocked hn hsender
  refine hchannel.idle hmax hpos hmax' hfew hm hk fun a ha => ?_
  cases a with
  | server a =>
    simp only [Multiplex.step, Option.map_eq_none_iff]
    exact hservers a fun heq => ha.2 (congrArg _ heq)
  | dispatch =>
    have hempty : s.link.toMultiplex.channel = [] := by
      simp [Lossy.toMultiplex, hreceived]
    simp [Multiplex.step, hempty]
  | client w answer =>
    have hblocked := hstuck (.client w answer) ha.1
    simp only [Lossy.step, Lossy.stepWith, Option.map_eq_none_iff] at hblocked
    simp only [Multiplex.step, Option.map_eq_none_iff]
    exact hblocked

/-- **Delivery over an unreliable network.** For any number of clients and threads, every order of
their steps, all losses, duplications and reorderings of datagrams and reset timeouts that the
receiver tolerates, and whatever the calls of some of the clients do.

**Proof sketch.** The link refines a faithful channel of blocks. When nothing moves any more, all
blocks have been sent, the reblock worker has emitted each block of which enough packets have
arrived, the decoding threads have passed them all on, and the channel is empty. There the clients
that fail do not disturb the others. -/
theorem tolerates_loss (hlaw : crate.Lawful ends.sender.raptorq)
    (hmax : Block.maxDataLen ends.sender.raptorq = some len) (hpos : 0 < len)
    (hmin : 0 < ends.receiver.raptorq.minNbPackets.toNat) (hfew : clients.length < 2 ^ 32)
    (hm : 0 < m) (hn : 0 < n ∧ n < 256) (hd : 0 < d ∧ d < 256) (hk : 0 < k)
    (h : LTS.ReachVia (Tolerant.step crate ends) (Tolerant.Benign crate ends spared)
      (Tolerant.init m n d k Packet clients) s) : s.Delivers crate ends spared clients := by
  have hinv := Tolerant.Inv.of_benign hlaw hmax hpos hmin hn.2 hd.2 hfew h
  have hchannel := Tolerant.channel_inv hlaw hmax hpos hmin hn.2 hd.2 hfew h
  exact hinv.delivers hchannel hmax hpos hmin hfew hm hn.1 hd.1 hk

/-- The labels of the productive steps of a link with one worker of each kind. -/
def oneOfEach : List (Lossy.Label 1 1 1 1) :=
  [.sender (.server .main), .sender (.server (.server 0)), .sender (.pipeline .ordering),
    .sender (.pipeline (.encoding 0)), .sender (.pipeline .udp), .reblock, .decode 0, .dispatch,
    .client 0 .ok]

/-- With one worker of each kind there are few labels to look at. -/
lemma stuck_of_oneOfEach {s : Lossy 1 1 1 1 Packet}
    (h : oneOfEach.all (fun a => (Lossy.step crate ends s a).isNone) = true) :
    LTS.Stuck (Lossy.step crate ends) Lossy.Label.Productive s := by
  have hnone : ∀ a ∈ oneOfEach, Lossy.step crate ends s a = none := by simpa using h
  intro a ha
  have hfin : ∀ w : Fin 1, w = 0 := fun w => Subsingleton.elim w 0
  match a, ha with
  | .sender (.server .main), _ => exact hnone _ (by simp [oneOfEach])
  | .sender (.server (.server w)), _ => exact hnone _ (by simp [oneOfEach, hfin w])
  | .sender (.server .heartbeat), ha => exact absurd rfl ha
  | .sender (.pipeline (.put message)), _ =>
    simp [Lossy.step, Lossy.stepWith, Sender.step, Pipeline.Label.isWorker]
  | .sender (.pipeline .ordering), _ => exact hnone _ (by simp [oneOfEach])
  | .sender (.pipeline (.encoding w)), _ => exact hnone _ (by simp [oneOfEach, hfin w])
  | .sender (.pipeline .udp), _ => exact hnone _ (by simp [oneOfEach])
  | .reblock, _ => exact hnone _ (by simp [oneOfEach])
  | .decode w, _ => exact hnone _ (by simp [oneOfEach, hfin w])
  | .dispatch, _ => exact hnone _ (by simp [oneOfEach])
  | .client w .ok, _ => exact hnone _ (by simp [oneOfEach, hfin w])

/-- After that run the workers are at rest, and all blocks have been emitted. -/
theorem tolerates_loss_reordered : ∃ s : Tolerant 1 1 1 1 (UInt8 × List UInt8),
    s.Delivers Crate.single smallest (fun _ => True) [eightBytes] ∧
    ∃ t ∈ s.link.demux.transfers, t.clientId = 0 ∧ Complete eightBytes t := by
  have hrun : (LTS.runVia (Tolerant.step Crate.single smallest)
      (Tolerant.Benign Crate.single smallest fun _ => True)
      (Tolerant.init 1 1 1 1 _ [eightBytes])
      (reordered ++ [.sender (.server (.server 0))])).map (fun s =>
        (s.link.expected, s.link.stream.length,
          oneOfEach.all fun a => (Lossy.step Crate.single smallest s.link a).isNone)) =
      some (3, 3, true) := by
    decide +kernel
  obtain ⟨s, hs, heq⟩ := Option.map_eq_some_iff.mp hrun
  obtain ⟨hexpected, hlength, hall⟩ :
      s.link.expected = 3 ∧ s.link.stream.length = 3 ∧
      oneOfEach.all (fun a => (Lossy.step Crate.single smallest s.link a).isNone) = true := by
    simpa only [Prod.mk.injEq] using heq
  have hmax : Block.maxDataLen RaptorQ.single = some 7 := by decide
  have hdelivers := tolerates_loss Crate.single_lawful hmax (by decide) (by decide) (by decide)
    (by decide) (by decide) (by decide) (by decide) (LTS.reachVia_of_runVia hs)
  obtain ⟨hperm, hcomplete⟩ := hdelivers.complete (stuck_of_oneOfEach hall)
    (Tolerant.supplied_of_expected (hexpected.trans hlength.symm))
  have hfirst : s.link.sender.servers.started[0]? = some eightBytes := by
    rw [List.perm_singleton.mp hperm]
    rfl
  exact ⟨s, hdelivers, hcomplete 0 eightBytes hfirst trivial⟩

end Results

end Lidi.Link
