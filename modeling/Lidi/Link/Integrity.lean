import Lidi.Link.Lossy
import Lidi.Link.Multiplex

set_option relaxedAutoImplicit false
set_option autoImplicit false

/-!
# Integrity over an unreliable network

A transfer that ends with success at the receiver has been written the whole stream of its client,
if no step of the receiver lets a loss that matters go unnoticed. The code lets it happen in four
ways: after a reset timeout the blocks that are left out are not reported; packets are sorted by
the last 8 bits of the number of their block; `block_to_dispatch` is overwritten while blocks are in
flight; and the `None` of a failed block does not wait for its turn.

## Main definitions

* `Link.Lossy.PacketOf` — a packet is one of those of a block of the stream.
* `Link.Lossy.Inv` — the invariant of the whole link.

## Main results

* `Link.Lossy.Inv.step` — every sound step keeps the invariant.
* `Link.integrity` — what has been written for a transfer that ended with success.
* `Link.integrity_violated` — a run in which a lost block goes unnoticed.
-/

namespace Lidi.Link

open Send Receive

namespace Lossy

variable {m n d k : ℕ} {Packet : Type*} {crate : Crate Packet} {ends : Ends}
  {s s' : Lossy m n d k Packet} {todo : List (Option ClientSocket)} {len : ℕ}
  {stream : List Block}

/-- The packet is one of those of the block with this number in the stream. -/
def PacketOf (crate : Crate Packet) (ends : Ends) (stream : List Block) (i : ℕ) (p : Packet) :
    Prop :=
  ∃ b, stream[i]? = some b ∧
    p ∈ ends.sender.raptorq.encode crate (UInt8.ofNat i) b.serialized

/-- **The invariant of the whole link.** -/
structure Inv (crate : Crate Packet) (ends : Ends) (todo : List (Option ClientSocket))
    (s : Lossy m n d k Packet) : Prop where
  servers : Servers.Inv ends.sender todo s.sender.servers s.stream
  pipeline : s.sender.pipeline.Inv (ends.sender.raptorq.encode crate)
  core : InSequence crate ends.receiver.raptorq (PacketOf crate ends s.stream) s.expected s.core
  demux : s.demux.Inv
  informed : ∃ pending, s.messages crate ends = s.core.decoding.received ++ pending ∧
    Informed s.stream s.core.decoding.received pending s.expected s.demux

/-- The invariant holds at the start. -/
lemma Inv.init (crate : Crate Packet) (ends : Ends) (todo : List (Option ClientSocket)) :
    Inv crate ends todo (init m n d k Packet todo) where
  servers := .init ends.sender todo
  pipeline := .init _
  core := .init crate _ _ 0
  demux := .init
  informed := ⟨[], rfl, .init _⟩

/-! ## Packets and blocks -/

/-- The packets of a block stay its packets when the stream grows. -/
lemma PacketOf.append {i : ℕ} {p : Packet} (h : PacketOf crate ends stream i p)
    (more : List Block) : PacketOf crate ends (stream ++ more) i p := by
  obtain ⟨b, hb, hp⟩ := h
  exact ⟨b, Marked.getElem?_of_isPrefix (List.prefix_append _ _) hb, hp⟩

/-- What may arrive are packets of blocks of the stream. -/
lemma Inv.packetOf (h : Inv crate ends todo s) {place : ℕ × ℕ} {a : ℕ × Packet}
    (ha : s.packet place = some a) : a.1 = place.1 ∧ PacketOf crate ends s.stream a.1 a.2 := by
  simp only [packet, Option.map_eq_some_iff, Option.bind_eq_some_iff] at ha
  obtain ⟨p, ⟨packets, hpackets, hp⟩, rfl⟩ := ha
  refine ⟨rfl, ?_⟩
  have hsent : s.sender.pipeline.sent <+: encodeAll (ends.sender.raptorq.encode crate)
      s.sender.pipeline.ordered := (List.prefix_append _ _).trans h.pipeline.sentPrefix
  have hencoded := Marked.getElem?_of_isPrefix hsent hpackets
  simp only [encodeAll, List.getElem?_mapIdx, Option.map_eq_some_iff] at hencoded
  obtain ⟨b, hb, rfl⟩ := hencoded
  exact ⟨b, Marked.getElem?_of_isPrefix h.pipeline.orderedPrefix hb, List.mem_of_getElem? hp⟩

/-- So are those of the rest of a batch. -/
lemma Inv.packetOf_rest (h : Inv crate ends todo s) {rest : Option (List (ℕ × ℕ))}
    {batch : Option (List (ℕ × Packet))} (hbatch : s.packets rest = some batch) :
    (batch.getD []).map Prod.fst = (rest.getD []).map Prod.fst ∧
      ∀ a ∈ batch.getD [], PacketOf crate ends s.stream a.1 a.2 := by
  cases rest with
  | none =>
    obtain rfl : batch = none := by simpa [packets] using hbatch.symm
    simp
  | some places =>
    simp only [packets, Option.map_eq_some_iff] at hbatch
    obtain ⟨as, has, rfl⟩ := hbatch
    simp only [Option.getD_some]
    induction places generalizing as with
    | nil =>
      obtain rfl : as = [] := by simpa using has.symm
      simp
    | cons place places ih =>
      simp only [List.mapM_cons, bind, pure, Option.bind_eq_some_iff, Option.some.injEq] at has
      obtain ⟨a, ha, as, has, rfl⟩ := has
      obtain ⟨hnumber, hpacket⟩ := h.packetOf ha
      obtain ⟨hnumbers, hpackets⟩ := ih as has
      refine ⟨by simp [hnumber, hnumbers], fun b hb => ?_⟩
      rcases List.mem_cons.mp hb with rfl | hb
      · exact hpacket
      · exact hpackets b hb

/-- The block of a packet has the length of the geometry. -/
lemma Inv.length_eq (h : Inv crate ends todo s) {i : ℕ} {b : Block} (hb : s.stream[i]? = some b) :
    b.serialized.length = ends.sender.raptorq.transferLength.toNat := by
  obtain ⟨type, id, data, hcarries⟩ := h.servers.carries b (List.mem_of_getElem? hb)
  exact hcarries.length_eq

/-- The datagrams carry their packets. -/
lemma Inv.carries (h : Inv crate ends todo s) (hlaw : crate.Lawful ends.sender.raptorq)
    {a : ℕ × Packet} {batch : Option (List (ℕ × Packet))}
    (hall : ∀ a' ∈ a :: batch.getD [], PacketOf crate ends s.stream a'.1 a'.2) :
    Carries crate (datagrams crate a batch) (a :: batch.getD []) where
  packets := by
    have hmap : ∀ as : List (ℕ × Packet),
        (as.map fun a => crate.serialize a.2).mapM crate.deserialize = some (as.map Prod.snd) := by
      intro as
      induction as with
      | nil => rfl
      | cons a as ih => simp [hlaw.deserialize_serialize, ih]
    cases batch with
    | none => exact hmap [a]
    | some rest => exact hmap (a :: rest)
  numbers a' ha' := by
    obtain ⟨b, hb, hp⟩ := hall a' ha'
    exact hlaw.sourceBlockNumber_encode _ _ (h.length_eq hb) _ hp

/-- Nothing is decoded from no packets: the packets of every block would decode to it. -/
lemma decode_nil (hlaw : crate.Lawful ends.sender.raptorq)
    (hpos : 0 < ends.sender.raptorq.transferLength.toNat) (id : UInt8) :
    ends.sender.raptorq.decode crate id [] = none := by
  cases hdec : ends.sender.raptorq.decode crate id [] with
  | none => rfl
  | some block =>
    have heq : ∀ x : UInt8, block = List.replicate ends.sender.raptorq.transferLength.toNat x :=
      fun x => hlaw.decode_encode id _ [] List.length_replicate (by simp) block hdec
    have hreplicate := (heq 0).symm.trans (heq 1)
    rw [List.replicate_right_inj (by omega)] at hreplicate
    cases hreplicate

/-- **The outcome of a block** of which only its own packets have been collected. -/
lemma Inv.outcome_cases (h : Inv crate ends todo s) (hlaw : crate.Lawful ends.sender.raptorq)
    (hpos : 0 < ends.sender.raptorq.transferLength.toNat) {i : ℕ} {packets : List Packet}
    (hall : ∀ p ∈ packets, PacketOf crate ends s.stream i p) :
    outcome (ends.receiver.raptorq.decode crate) (.block (UInt8.ofNat i) packets) = none ∨
      ∃ b, s.stream[i]? = some b ∧
        outcome (ends.receiver.raptorq.decode crate) (.block (UInt8.ofNat i) packets) = some b := by
  rw [ends.raptorq_eq]
  simp only [outcome]
  cases packets with
  | nil => simp [decode_nil hlaw hpos]
  | cons p packets =>
    obtain ⟨b, hb, -⟩ := hall p List.mem_cons_self
    cases hdec : ends.sender.raptorq.decode crate (UInt8.ofNat i) (p :: packets) with
    | none => exact .inl rfl
    | some block =>
      refine .inr ⟨b, hb, ?_⟩
      have hencoded : ∀ q ∈ p :: packets,
          q ∈ ends.sender.raptorq.encode crate (UInt8.ofNat i) b.serialized := by
        intro q hq
        obtain ⟨b', hb', hq'⟩ := hall q hq
        obtain rfl : b = b' := by simpa using hb.symm.trans hb'
        exact hq'
      rw [hlaw.decode_encode _ _ _ (h.length_eq hb) hencoded block hdec]
      rfl

/-! ## The steps -/

/-- The sender puts more blocks on the stream, or none. -/
lemma Inv.sender (h : Inv crate ends todo s)
    (hmax : Block.maxDataLen ends.sender.raptorq = some len) (hpos : 0 < len) (hn : n < 256)
    (hfew : todo.reduceOption.length < 2 ^ 32) {a : Sender.Label m n} {sender : Sender m n Packet}
    (ht : Sender.Trans ends.sender (ends.sender.raptorq.encode crate) s.sender a sender) :
    Inv crate ends todo { s with sender := sender } := by
  obtain ⟨more, hstream, hservers, hpipeline⟩ : ∃ more : List Block,
      sender.pipeline.put.reduceOption = s.stream ++ more ∧
      Servers.Inv ends.sender todo sender.servers (s.stream ++ more) ∧
      sender.pipeline.Inv (ends.sender.raptorq.encode crate) := by
    cases ht with
    | @server a servers out pipeline hserver hput =>
      have hreach : LTS.Reach (Pipeline.step (ends.sender.raptorq.encode crate))
          s.sender.pipeline pipeline := Sender.putAll_reach (fun _ _ _ => trivial) hput
      refine ⟨out.reduceOption, ?_, h.servers.step hmax hpos hfew hserver,
        hreach.invariant h.pipeline fun _ _ _ _ hinv _ hs => hinv.step hn hs⟩
      rw [Sender.putAll_eq hput, List.reduceOption_append]
      rfl
    | @pipeline a pipeline ha hpipe =>
      refine ⟨[], ?_, by simpa using h.servers, h.pipeline.step hn hpipe⟩
      cases Pipeline.step_iff.mp hpipe with
      | put => cases ha
      | _ => exact (List.append_nil _).symm
  obtain ⟨pending, hpending, hinformed⟩ := h.informed
  have heq : ({ s with sender := sender } : Lossy m n d k Packet).stream = s.stream ++ more :=
    hstream
  refine ⟨by rwa [heq], hpipeline, ?_, h.demux, pending, hpending, ?_⟩
  · rw [heq]
    exact h.core.mono fun _ _ hp => hp.append more
  · rw [heq]
    exact hinformed.mono more

/-- **Packets arrive.** -/
lemma Inv.arrive (h : Inv crate ends todo s) (hlaw : crate.Lawful ends.sender.raptorq)
    {first : ℕ × ℕ} {rest : Option (List (ℕ × ℕ))} {a : ℕ × Packet}
    {batch : Option (List (ℕ × Packet))} (hok : s.Sound crate ends (.arrive first rest))
    (ha : s.packet first = some a) (hbatch : s.packets rest = some batch)
    (hp : s.core.reblock.phase = .recv) :
    Inv crate ends todo { s with
      core := { s.core with
        reblock := s.core.reblock.onDatagrams crate (datagrams crate a batch) }
      expected := s.current first.1 } := by
  obtain ⟨hleaves, hunmistaken⟩ := hok
  obtain ⟨hfirst, hpacket⟩ := h.packetOf ha
  obtain ⟨hnumbers, hpackets⟩ := h.packetOf_rest hbatch
  have hall : ∀ a' ∈ a :: batch.getD [], PacketOf crate ends s.stream a'.1 a'.2 := by
    intro a' ha'
    rcases List.mem_cons.mp ha' with rfl | ha'
    · exact hpacket
    · exact hpackets a' ha'
  have hcurrent : s.current first.1 = if s.core.reblock.reset then a.1 else s.expected := by
    rw [hfirst, current]
  have hgenuine : ∀ b ∈ a :: batch.getD [],
      Genuine (.init Packet (if s.core.reblock.reset then a.1 else s.expected)) b := by
    intro b hb
    rw [← hcurrent]
    have hmem : b.1 ∈ (first :: rest.getD []).map Prod.fst := by
      rw [List.map_cons, ← hnumbers, ← hfirst, ← List.map_cons]
      exact List.mem_map_of_mem hb
    obtain ⟨place, hplace, heq⟩ := List.mem_map.mp hmem
    have hplaced := hunmistaken place hplace
    rw [heq] at hplaced
    exact hplaced
  obtain ⟨pending, hpending, hinformed⟩ := h.informed
  refine ⟨h.servers, h.pipeline, ?_, h.demux, pending, hpending, ?_⟩
  · show InSequence crate _ _ (s.current first.1) _
    rw [hcurrent]
    exact h.core.arrive hp (h.carries hlaw hall) hgenuine hall
  · show Informed s.stream _ pending (s.current first.1) _
    cases hr : s.core.reblock.reset with
    | false => rwa [current, hr]
    | true =>
      obtain ⟨hle, hmissed⟩ := hleaves hr
      obtain ⟨b, hb, -⟩ := hpacket
      rw [hfirst] at hb
      rw [hpending] at hmissed
      rw [current, hr]
      exact hinformed.jump hle (List.getElem?_eq_some_iff.mp hb).1.le hmissed

/-- **The reblock worker and the decoding threads.** -/
lemma Inv.moved (h : Inv crate ends todo s) (hlaw : crate.Lawful ends.sender.raptorq)
    (hpos : 0 < ends.sender.raptorq.transferLength.toNat) {a : Core.Label d} {core : Core d Packet}
    (hok : s.core.Orderly crate ends.receiver.raptorq a)
    (hinput : ∀ datagrams, a ≠ .datagrams datagrams) (houtput : a ≠ .dispatch)
    (ht : Core.Trans crate ends.receiver.raptorq s.core a core) :
    Inv crate ends todo (s.moved core) := by
  have hreceived := ht.received_eq houtput
  obtain ⟨hcore, hcases⟩ := h.core.step hok hinput ht
  obtain ⟨pending, hpending, hinformed⟩ := h.informed
  refine ⟨h.servers, h.pipeline, hcore, h.demux, ?_⟩
  change ∃ pending, core.decoding.emitted.map _ = core.decoding.received ++ pending ∧
    Informed s.stream core.decoding.received pending (advance s.expected s.core core) s.demux
  rw [hreceived]
  rcases hcases with ⟨hemitted, hadvance⟩ | ⟨packets, hemitted, hgood, hadvance⟩
  · rw [hemitted, hadvance]
    exact ⟨pending, hpending, hinformed⟩
  · rw [hemitted, hadvance]
    refine ⟨pending ++ [outcome (ends.receiver.raptorq.decode crate)
      (.block (UInt8.ofNat s.expected) packets)], ?_, ?_⟩
    · rw [List.map_append, ← List.append_assoc, ← hpending]
      rfl
    · rcases h.outcome_cases hlaw hpos hgood with hnone | ⟨b, hb, hsome⟩
      · rw [hnone]
        exact hinformed.marker
      · rw [hsome]
        exact hinformed.item hb

/-- **The dispatch worker.** -/
lemma Inv.dispatch (h : Inv crate ends todo s)
    (hmax : Block.maxDataLen ends.sender.raptorq = some len) (hpos : 0 < len)
    {message : Option Block} {rest : List (Option Block)} {core : Core d Packet}
    (hrunning : s.demux.dispatch = none) (hout : s.core.decoding.gate.output = message :: rest)
    (ht : Core.Trans crate ends.receiver.raptorq s.core .dispatch core) :
    Inv crate ends todo
      { s.moved core with demux := s.demux.receive ends.receiver message } := by
  have hok : s.core.Orderly crate ends.receiver.raptorq .dispatch := trivial
  obtain ⟨hcore, -⟩ := h.core.step hok (by simp) ht
  obtain ⟨pending, hpending, hinformed⟩ := h.informed
  obtain ⟨more, hmore⟩ : message :: rest <+: pending := by
    have hreceived := h.core.received_isPrefix
    change _ <+: s.messages crate ends at hreceived
    rwa [hpending, List.prefix_append_right_inj, hout] at hreceived
  rw [List.cons_append] at hmore
  rw [← hmore] at hpending hinformed
  refine ⟨h.servers, h.pipeline, hcore, h.demux.receive _ message, rest ++ more, ?_⟩
  cases ht with
  | dispatch hd =>
    cases hd with
    | dispatch hout' =>
      obtain ⟨rfl, rfl⟩ := List.cons.inj (hout.symm.trans hout')
      refine ⟨?_, ?_⟩
      · show s.messages crate ends = s.core.decoding.received ++ [message] ++ (rest ++ more)
        rw [hpending, List.append_assoc]
        rfl
      · have hadvance : (s.moved { s.core with decoding := { s.core.decoding with
            gate := s.core.decoding.gate.pop rest
            received := s.core.decoding.received ++ [message] } }).expected = s.expected :=
          if_pos rfl
        show Informed s.stream (s.core.decoding.received ++ [message]) (rest ++ more)
          (s.moved _).expected _
        rw [hadvance]
        exact hinformed.receive hrunning (h.servers.source hmax hpos) ends.receiver

/-- **Every sound step keeps the invariant.** -/
theorem Inv.step (h : Inv crate ends todo s) (hlaw : crate.Lawful ends.sender.raptorq)
    (hmax : Block.maxDataLen ends.sender.raptorq = some len) (hpos : 0 < len) (hn : n < 256)
    (hfew : todo.reduceOption.length < 2 ^ 32) {a : Label m n d k} (hok : s.Sound crate ends a)
    (ht : Trans crate ends s a s') : Inv crate ends todo s' := by
  have hlen : 0 < ends.sender.raptorq.transferLength.toNat := by
    unfold Block.maxDataLen at hmax
    split at hmax
    · simp only [Option.some.injEq] at hmax
      omega
    · cases hmax
  cases ht with
  | sender hsender => exact h.sender hmax hpos hn hfew hsender
  | arrive ha hbatch hp => exact h.arrive hlaw hok ha hbatch hp
  | timeout hcore =>
    have htimeout : s.core.Orderly crate ends.receiver.raptorq .timeout := trivial
    exact h.moved hlaw hlen htimeout (by simp) (by simp) hcore
  | reblock hcore =>
    have hreblock : s.core.Orderly crate ends.receiver.raptorq .reblock := hok
    exact h.moved hlaw hlen hreblock (by simp) (by simp) hcore
  | @decode w core hcore =>
    have hdecode : s.core.Orderly crate ends.receiver.raptorq (.decode w) := hok
    exact h.moved hlaw hlen hdecode (by simp) (by simp) hcore
  | dispatch hrunning hout hcore => exact h.dispatch hmax hpos hrunning hout hcore
  | client hclient =>
    obtain ⟨pending, hpending, hinformed⟩ := h.informed
    exact ⟨h.servers, h.pipeline, h.core, h.demux.clientStep hclient, pending, hpending,
      hinformed.clientStep hclient⟩

/-- A transfer at the receiver is of a client that was started. -/
lemma Inv.exists_started (h : Inv crate ends todo s) {t : Transfer} (ht : t ∈ s.demux.transfers) :
    ∃ c, s.sender.servers.started[t.clientId.toNat]? = some c := by
  obtain ⟨pending, -, pos, hdelivered, -⟩ := h.informed
  obtain ⟨part, hne, hpre, -⟩ := hdelivered.begun t ht
  have hpart : part <+: blocksOf t.clientId s.stream := by
    rw [← List.take_append_drop pos s.stream, blocksOf_append]
    exact hpre.trans (List.prefix_append _ _)
  by_cases hlt : t.clientId.toNat < s.sender.servers.started.length
  · exact ⟨_, List.getElem?_eq_getElem hlt⟩
  · rw [h.servers.shares.fresh t.clientId (not_lt.mp hlt)] at hpart
    exact absurd (List.prefix_nil.mp hpart) hne

/-- **Integrity.** For a transfer that ended with success, the whole stream of its client has been
written, and there is no other transfer of that client. -/
def Intact (s : Lossy m n d k Packet) : Prop :=
  ∀ t ∈ s.demux.transfers, .clientEnd true ∈ t.calls →
    (∃ c, s.sender.servers.started[t.clientId.toNat]? = some c ∧ c.failure = none ∧
      written t.calls = c.bytes) ∧
    ∀ t' ∈ s.demux.transfers, t'.clientId = t.clientId → t' = t

/-- The invariant gives integrity. -/
lemma Inv.intact (h : Inv crate ends todo s)
    (hmax : Block.maxDataLen ends.sender.raptorq = some len) (hpos : 0 < len) : s.Intact := by
  intro t ht hcall
  obtain ⟨c, hc⟩ := h.exists_started ht
  obtain ⟨pending, -, pos, hdelivered, -⟩ := h.informed
  have hunique : ∀ t' ∈ s.demux.transfers, t'.clientId = t.clientId → t' = t := fun t' ht' hid =>
    List.inj_on_of_nodup_map hdelivered.unique ht' ht hid
  have hpart : blocksOf t.clientId (s.stream.take pos) <+:
      transfer ends.sender.raptorq ends.sender.flush t.clientId c := by
    refine List.IsPrefix.trans ?_ (h.servers.shares.isPrefix hc)
    conv_rhs => rw [← List.take_append_drop pos s.stream, blocksOf_append]
    exact List.prefix_append _ _
  obtain ⟨type, bytes, hconveys, hcases⟩ :=
    transfer_conveys hmax hpos ends.sender.flush t.clientId c
  obtain ⟨rfl, hwritten⟩ := hdelivered.success h.demux ht hcall hconveys hpart
  refine ⟨⟨c, hc, ?_⟩, hunique⟩
  rcases hcases with ⟨hfailure, -, rfl⟩ | ⟨-, htype, -⟩
  · exact ⟨hfailure, hwritten⟩
  · cases htype

end Lossy

section Results

variable {m n d k : ℕ} {Packet : Type*} {crate : Crate Packet} {ends : Ends}
  {s : Lossy m n d k Packet} {todo : List (Option ClientSocket)} {len : ℕ}

/-- **Integrity over an unreliable network.** For any number of clients and of threads, every order
of their steps, every loss, duplication and reordering of datagrams and all reset timeouts: if every
step is sound, each transfer that ended with success has been written the whole stream of its
client. -/
theorem integrity (hlaw : crate.Lawful ends.sender.raptorq)
    (hmax : Block.maxDataLen ends.sender.raptorq = some len) (hpos : 0 < len) (hn : n < 256)
    (hfew : todo.reduceOption.length < 2 ^ 32)
    (h : LTS.ReachVia (Lossy.step crate ends) (Lossy.Sound crate ends)
      (Lossy.init m n d k Packet todo) s) : s.Intact := by
  have hinv : Lossy.Inv crate ends todo s := by
    refine h.invariant (P := Lossy.Inv crate ends todo) (.init crate ends todo) ?_
    intro t a t' _ ht hok hs
    exact ht.step hlaw hmax hpos hn hfew hok (Lossy.step_iff.mp hs)
  exact hinv.intact hmax hpos

/-- Both ends with the smallest geometry. -/
def smallest : Ends where
  sender := ⟨RaptorQ.single, false, 1, false⟩
  receiver := ⟨RaptorQ.single, false, false⟩
  raptorq_eq := rfl

/-- A client that sends eight bytes, in a `Start`, a `Data` and an `End` block. -/
def eightBytes : ClientSocket :=
  ⟨[[1, 2, 3, 4, 5, 6, 7, 8]], none, by simp⟩

/-- The sender sends the next block. -/
def sendBlock : List (Lossy.Label 1 1 1 1) :=
  [.sender (.server (.server 0)), .sender (.pipeline .ordering), .sender (.pipeline .ordering),
    .sender (.pipeline (.encoding 0)), .sender (.pipeline (.encoding 0)),
    .sender (.pipeline (.encoding 0)), .sender (.pipeline (.encoding 0)), .sender (.pipeline .udp)]

/-- The client connects, and its three blocks are sent. -/
def sendTransfer : List (Lossy.Label 1 1 1 1) :=
  [.sender (.server .main), .sender (.server (.server 0)), .sender (.server (.server 0))] ++
    sendBlock ++ sendBlock ++ sendBlock

/-- The decoding thread passes a block on to the dispatch worker. -/
def passBlock : List (Lossy.Label 1 1 1 1) :=
  [.decode 0, .decode 0, .decode 0, .decode 0, .dispatch]

/-- The reset timeout fires between two blocks, and the last block arrives before the second one,
which is duplicated. -/
def reordered : List (Lossy.Label 1 1 1 1) :=
  sendTransfer ++ [.arrive (0, 0) none, .reblock, .reblock, .reblock, .reblock] ++ passBlock ++
    [.timeout, .arrive (1, 0) (some [(2, 0), (1, 0)]), .reblock, .reblock, .reblock, .reblock,
      .reblock] ++ passBlock ++ passBlock ++
    [.client 0 .ok, .client 0 .ok, .client 0 .ok, .client 0 .ok, .client 0 .ok, .client 0 .ok]

/-- A client whose packets arrive in another order, and twice. -/
theorem integrity_reordered : ∃ s : Lossy 1 1 1 1 (UInt8 × List UInt8),
    s.demux.transfers.map (fun t => (t.clientId, written t.calls, t.calls.getLast?)) =
      [(0, [1, 2, 3, 4, 5, 6, 7, 8], some (.clientEnd true))] ∧ s.Intact := by
  have hrun : (LTS.runVia (Lossy.step Crate.single smallest) (Lossy.Sound Crate.single smallest)
      (Lossy.init 1 1 1 1 _ [some eightBytes]) reordered).map (fun s => s.demux.transfers.map
        fun t => (t.clientId, written t.calls, t.calls.getLast?)) =
      some [(0, [1, 2, 3, 4, 5, 6, 7, 8], some (.clientEnd true))] := by
    decide +kernel
  obtain ⟨s, hs, htransfers⟩ := Option.map_eq_some_iff.mp hrun
  have hmax : Block.maxDataLen RaptorQ.single = some 7 := by decide
  exact ⟨s, htransfers, integrity Crate.single_lawful hmax (by decide) (by decide) (by decide)
    (LTS.reachVia_of_runVia hs)⟩

/-- The second block is lost. The reset timeout fires after the first one, and the receiver goes on
with the last one. -/
def unnoticed : List (Lossy.Label 1 1 1 1) :=
  sendTransfer ++ [.arrive (0, 0) none, .reblock, .reblock, .reblock, .reblock] ++ passBlock ++
    [.timeout, .arrive (2, 0) none, .reblock, .reblock, .reblock, .reblock] ++ passBlock ++
    [.client 0 .ok, .client 0 .ok, .client 0 .ok, .client 0 .ok, .client 0 .ok]

/-- **A lost block may go unnoticed.** The transfer ends with success, and seven bytes are
missing. -/
theorem integrity_violated : ∃ s : Lossy 1 1 1 1 (UInt8 × List UInt8),
    LTS.Reach (Lossy.step Crate.single smallest) (Lossy.init 1 1 1 1 _ [some eightBytes]) s ∧
    s.sender.servers.started.map Reader.bytes = [[1, 2, 3, 4, 5, 6, 7, 8]] ∧
    s.demux.transfers.map (fun t => (t.clientId, written t.calls, t.calls.getLast?)) =
      [(0, [8], some (.clientEnd true))] ∧ ¬ s.Intact := by
  have hrun : (LTS.run (Lossy.step Crate.single smallest)
      (Lossy.init 1 1 1 1 _ [some eightBytes]) unnoticed).map (fun s =>
        (s.sender.servers.started.map Reader.bytes, s.demux.transfers.map
          fun t => (t.clientId, written t.calls, t.calls.getLast?))) =
      some ([[1, 2, 3, 4, 5, 6, 7, 8]], [(0, [8], some (.clientEnd true))]) := by
    decide +kernel
  obtain ⟨s, hs, heq⟩ := Option.map_eq_some_iff.mp hrun
  obtain ⟨hstarted, htransfers⟩ := Prod.mk.inj heq
  refine ⟨s, LTS.reach_of_run hs, hstarted, htransfers, fun hintact => ?_⟩
  obtain ⟨t, hsingle, ht⟩ := List.map_eq_singleton_iff.mp htransfers
  simp only [Prod.mk.injEq] at ht
  obtain ⟨hid, hwritten, hlast⟩ := ht
  have hmem : t ∈ s.demux.transfers := by simp [hsingle]
  obtain ⟨⟨c, hc, -, hbytes⟩, -⟩ := hintact t hmem (List.mem_of_getLast? hlast)
  have hget := congrArg (·[0]?) hstarted
  rw [hid] at hc
  simp [show s.sender.servers.started[0]? = some c from hc, ← hbytes, hwritten] at hget

end Results

end Lidi.Link
