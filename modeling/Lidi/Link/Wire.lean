import Lidi.Link.Integrity
import Lidi.Link.Socket
import Lidi.Protocol.Geometry
import Lidi.Receive.ShortDatagrams
import Lidi.Send.Finish

set_option relaxedAutoImplicit false
set_option autoImplicit false

/-!
# The link with its sockets

Between the two ends there are two sockets and a wire. The udp worker of the sender hands the
packets of each block to its socket, and returns if that fails. Any datagram that is on the wire may
arrive at the socket of the receiver, at any time and as often as the network likes. The udp worker
of the receiver takes datagrams from there, cut to the size of its buffers, and passes them on to
the reblock worker.

## Main definitions

* `Link.Wire` — the state of the link with its sockets.
* `Link.Wire.stepWith`, `Link.Wire.step` — the next step.
* `Link.Wire.Models` — the relation to the link in which packets arrive.
* `Crate.Sized` — what the program relies on: the size of a serialized packet.

## Main results

* `Link.Wire.Models.step` — every step is a step of the link in which packets arrive whole, or none.
* `Link.Wire.Models.of_reach` — every run is modelled by a run of that link.
* `Link.wire_refines_lossy` — the link with its sockets refines that link, and its reblock worker
  never panics.
-/

namespace Lidi

/-- What the program relies on: a serialized packet has the four bytes of its payload number, and no
more data than the size of a packet. -/
def Crate.Sized {Packet : Type*} (crate : Crate Packet) (raptorq : RaptorQ) : Prop :=
  ∀ id data, data.length = raptorq.transferLength.toNat →
    ∀ p ∈ raptorq.encode crate id data,
      (crate.serialize p).length ≤ raptorq.maxPacketSize.toNat + 4

/-- The packets of a geometry that is built for an MTU fit in it. -/
lemma RaptorQ.Built.packet_le {profile : Profile} {mtu : UInt16}
    {blockSize repair minRepair : UInt32} {raptorq : RaptorQ}
    (h : Built profile mtu blockSize repair minRepair raptorq)
    (hmtu : 32 ≤ mtu.toNat) : raptorq.maxPacketSize.toNat + 4 ≤ mtu.toNat := by
  have hlt := mtu.toNat_lt
  rw [h.maxPacketSize_eq, packetSize]
  omega

open Receive in
/-- The reblock worker stays safe, if it only receives batches that it can read. -/
lemma Receive.Core.Trans.safe {d : ℕ} {Packet : Type*} {crate : Crate Packet} {raptorq : RaptorQ}
    {s s' : Core d Packet} {a : Core.Label d}
    (hcrate : ∀ d, crate.deserialize d = none ↔ d.length < 4)
    (h : Core.Trans crate raptorq s a s') (hsafe : s.reblock.Safe)
    (hin : ∀ datagrams, a = .datagrams datagrams → s.reblock.Readable datagrams) :
    s'.reblock.Safe := by
  rcases h.reblock with ⟨heq, -⟩ | ⟨input, res, hres, heq, -, hinput⟩
  · rwa [heq]
  · rw [heq]
    exact hsafe.next hcrate (fun datagrams hds => hin datagrams (hinput datagrams hds)) hres

namespace Link

open Send Receive

/-- The configurations of the two sockets. -/
structure Sockets where
  batchSend : Option UInt32
  fromMtu : UInt16
  batchReceive : Option UInt32

/-- The workers of the two ends, the socket of the sender and what it has put on the wire, the
datagrams that wait in the socket of the receiver, and those on `to_reblock`. `sending` and
`receiving` tell whether the udp workers have not failed. -/
structure Wire (m n d k : ℕ) (Packet : Type*) where
  sender : Sender m n Packet
  core : Core d Packet
  demux : Demux k
  outgoing : Socket.Outgoing
  sending : Bool
  queue : List (List UInt8)
  receiving : Bool
  toReblock : List Datagrams

namespace Wire

variable {m n d k : ℕ} {Packet : Type*} {crate : Crate Packet} {ends : Ends} {sockets : Sockets}
  {s s' : Wire m n d k Packet} {clients : List ClientSocket} {answers : List Bool}

/-- The initial state, with the clients that are going to connect, and whether the socket of the
sender will take the datagrams. -/
def init (m n d k : ℕ) (Packet : Type*) (clients : List ClientSocket) (answers : List Bool) :
    Wire m n d k Packet where
  sender := Sender.init m n Packet (clients.map some)
  core := Core.init d Packet
  demux := Demux.init k
  outgoing := ⟨answers, []⟩
  sending := true
  queue := []
  receiving := true
  toReblock := []

/-- A worker of the sender moves; a datagram of the wire arrives at the socket of the receiver; the
udp worker of the receiver receives datagrams, or fails; the reblock worker receives datagrams, or
its reset timeout fires; or a worker of the receiver moves. -/
inductive Label (m n d k : ℕ)
  | sender (a : Sender.Label m n)
  | network (i : ℕ)
  | recv
  | recvFails
  | datagrams
  | timeout
  | reblock
  | decode (w : Fin d)
  | dispatch
  | client (w : Fin k) (answer : Client.Answer)

/-- What `udp.send` is called with, if it is called in a step of the sender. -/
def called (before after : Sender m n Packet) : Option (List Packet) :=
  after.pipeline.sent[before.pipeline.sent.length]?

/-- The link after a step of the sender. -/
def transmit (crate : Crate Packet) (sockets : Sockets) (s : Wire m n d k Packet)
    (sender : Sender m n Packet) : Wire m n d k Packet :=
  match called s.sender sender with
  | none => { s with sender := sender }
  | some packets =>
    let res := (Socket.SendM.new sockets.batchSend).send crate packets s.outgoing
    { s with sender := sender, outgoing := res.2, sending := res.1.toBool }

/-- The step is one of the udp worker of the sender. -/
def isUdp : Sender.Label m n → Bool
  | .pipeline .udp => true
  | _ => false

/-- The next step of two ends with these configurations; `none` if the worker is blocked or has
returned. -/
def stepWith (crate : Crate Packet) (sender : Send.Config) (receiver : Receive.Config)
    (sockets : Sockets) (s : Wire m n d k Packet) :
    Label m n d k → Option (Wire m n d k Packet)
  | .sender a =>
    if isUdp a && !s.sending then none
    else
      (s.sender.step sender (sender.raptorq.encode crate) a).map
        (s.transmit crate sockets)
  | .network i => (s.outgoing.wire[i]?).map fun datagram =>
      { s with queue := s.queue ++ [datagram] }
  | .recv =>
    if s.receiving then
      ((Socket.Receive.new sockets.fromMtu sockets.batchReceive).recv s.queue).map fun res =>
        { s with queue := res.2, toReblock := s.toReblock ++ [res.1] }
    else none
  | .recvFails => if s.receiving then some { s with receiving := false } else none
  | .datagrams =>
    match s.toReblock with
    | [] => none
    | datagrams :: rest =>
      (s.core.step crate receiver.raptorq (.datagrams datagrams)).map fun core =>
        { s with core := core, toReblock := rest }
  | .timeout =>
    if s.toReblock = [] then
      (s.core.step crate receiver.raptorq .timeout).map ({ s with core := · })
    else none
  | .reblock => (s.core.step crate receiver.raptorq .reblock).map ({ s with core := · })
  | .decode w => (s.core.step crate receiver.raptorq (.decode w)).map ({ s with core := · })
  | .dispatch =>
    if s.demux.dispatch.isSome then none
    else
      (s.core.decoding.gate.output.head?).bind fun message =>
        (s.core.step crate receiver.raptorq .dispatch).map fun core =>
          { s with core := core, demux := s.demux.receive receiver message }
  | .client w answer => (s.demux.clientStep receiver w answer).map ({ s with demux := · })

/-- The next step of ends that share a geometry. -/
def step (crate : Crate Packet) (ends : Ends) (sockets : Sockets) (s : Wire m n d k Packet)
    (a : Label m n d k) : Option (Wire m n d k Packet) :=
  s.stepWith crate ends.sender ends.receiver sockets a

end Wire

/-! ## What is on the wire -/

section Wire

variable {m n d k : ℕ} {Packet : Type*} {crate : Crate Packet} {ends : Ends} {sockets : Sockets}
  {l l' : Lossy m n d k Packet}

/-- A packet that has been sent stays where it is. -/
lemma Lossy.packet_mono (hsent : l.sender.pipeline.sent <+: l'.sender.pipeline.sent)
    {place : ℕ × ℕ} {a : ℕ × Packet} (h : l.packet place = some a) : l'.packet place = some a := by
  simp only [packet, Option.map_eq_some_iff, Option.bind_eq_some_iff] at h ⊢
  obtain ⟨p, ⟨packets, hpackets, hp⟩, heq⟩ := h
  exact ⟨p, ⟨packets, Marked.getElem?_of_isPrefix hsent hpackets, hp⟩, heq⟩

/-- So do those at several places. -/
lemma Lossy.packets_mono (hsent : l.sender.pipeline.sent <+: l'.sender.pipeline.sent)
    {rest : Option (List (ℕ × ℕ))} {batch : Option (List (ℕ × Packet))}
    (h : l.packets rest = some batch) : l'.packets rest = some batch := by
  cases rest with
  | none => exact h
  | some places =>
    simp only [packets, Option.map_eq_some_iff] at h ⊢
    obtain ⟨as, has, heq⟩ := h
    refine ⟨as, ?_, heq⟩
    clear heq
    induction places generalizing as with
    | nil => exact has
    | cons place places ih =>
      simp only [List.mapM_cons, bind, pure, Option.bind_eq_some_iff] at has ⊢
      obtain ⟨a, ha, as', has', heq⟩ := has
      exact ⟨a, packet_mono hsent ha, as', ih as' has', heq⟩

/-- The datagram is a packet that has been sent. -/
def OnWire (crate : Crate Packet) (l : Lossy m n d k Packet) (datagram : List UInt8) : Prop :=
  ∃ place a, l.packet place = some a ∧ crate.serialize a.2 = datagram

/-- The datagrams are packets that have been sent, one or a batch. -/
def Arrives (crate : Crate Packet) (l : Lossy m n d k Packet) (datagrams : Datagrams) : Prop :=
  ∃ first rest a batch, l.packet first = some a ∧ l.packets rest = some batch ∧
    Lossy.datagrams crate a batch = datagrams

/-- What is on the wire stays there. -/
lemma OnWire.mono (hsent : l.sender.pipeline.sent <+: l'.sender.pipeline.sent)
    {datagram : List UInt8} (h : OnWire crate l datagram) : OnWire crate l' datagram := by
  obtain ⟨place, a, ha, heq⟩ := h
  exact ⟨place, a, Lossy.packet_mono hsent ha, heq⟩

/-- What can arrive can still arrive later. -/
lemma Arrives.mono (hsent : l.sender.pipeline.sent <+: l'.sender.pipeline.sent)
    {datagrams : Datagrams} (h : Arrives crate l datagrams) : Arrives crate l' datagrams := by
  obtain ⟨first, rest, a, batch, ha, hbatch, heq⟩ := h
  exact ⟨first, rest, a, batch, Lossy.packet_mono hsent ha, Lossy.packets_mono hsent hbatch, heq⟩

/-- The places of datagrams that are on the wire. -/
lemma exists_places {datagrams : List (List UInt8)} (h : ∀ d ∈ datagrams, OnWire crate l d) :
    ∃ (places : List (ℕ × ℕ)) (as : List (ℕ × Packet)), places.mapM l.packet = some as ∧
      as.map (fun a => crate.serialize a.2) = datagrams := by
  induction datagrams with
  | nil => exact ⟨[], [], rfl, rfl⟩
  | cons d ds ih =>
    obtain ⟨place, a, ha, heq⟩ := h d List.mem_cons_self
    obtain ⟨places, as, has, hmap⟩ := ih fun d' hd' => h d' (List.mem_cons_of_mem d hd')
    exact ⟨place :: places, a :: as, by simp [ha, has], by simp [heq, hmap]⟩

/-- Datagrams that arrive can be read, and there is at least one. -/
lemma Arrives.readable {crate : Crate Packet}
    (hserialize : ∀ p, crate.deserialize (crate.serialize p) = some p)
    (hcrate : ∀ d, crate.deserialize d = none ↔ d.length < 4) {datagrams : Datagrams}
    (h : Arrives crate l datagrams) (s : Reblock Packet) : s.Readable datagrams := by
  have hlong : ∀ p, 4 ≤ (crate.serialize p).length := by
    intro p
    by_contra hshort
    have hnone := (hcrate (crate.serialize p)).mpr (by omega)
    rw [hserialize] at hnone
    cases hnone
  obtain ⟨first, rest, a, batch, -, -, rfl⟩ := h
  cases batch with
  | none =>
    refine ⟨fun d hd => ?_, fun _ => List.cons_ne_nil _ _⟩
    rw [List.mem_singleton.mp hd]
    exact hlong a.2
  | some batch =>
    refine ⟨fun d hd => ?_, fun _ => List.cons_ne_nil _ _⟩
    obtain ⟨a', -, rfl⟩ := List.mem_map.mp hd
    exact hlong a'.2

/-- **What the udp worker of the receiver receives**, if the datagrams in its socket fit in its
buffers and it asks for at least one. -/
lemma recv_arrives {queue rest : List (List UInt8)} {datagrams : Datagrams}
    (hqueue : ∀ d ∈ queue, OnWire crate l d ∧ d.length ≤ sockets.fromMtu.toNat)
    (hbatch : sockets.batchReceive ≠ some 0)
    (h : (Socket.Receive.new sockets.fromMtu sockets.batchReceive).recv queue =
      some (datagrams, rest)) :
    Arrives crate l datagrams ∧ rest ⊆ queue := by
  have hmsg : (Socket.Receive.msg sockets.fromMtu).recv queue = some (datagrams, rest) →
      Arrives crate l datagrams ∧ rest ⊆ queue := by
    intro h
    cases queue with
    | nil => cases h
    | cons d ds =>
      obtain ⟨⟨place, a, ha, hd⟩, hlen⟩ := hqueue d List.mem_cons_self
      simp only [Socket.Receive.recv, List.take_of_length_le hlen, Option.some.injEq,
        Prod.mk.injEq] at h
      obtain ⟨rfl, rfl⟩ := h
      refine ⟨⟨place, none, a, none, ha, rfl, ?_⟩, List.subset_cons_self d ds⟩
      rw [← hd]
      rfl
  cases hsize : sockets.batchReceive with
  | none =>
    rw [hsize] at h
    exact hmsg h
  | some size =>
    rw [hsize] at h
    by_cases hone : size = 1
    · subst hone
      exact hmsg h
    have hpos : size ≠ 0 := fun hzero => hbatch (hzero ▸ hsize)
    rw [Socket.Receive.new_of_ne_one _ hone] at h
    cases queue with
    | nil => simp [Socket.Receive.recv, hpos] at h
    | cons d ds =>
      -- the whole batch fits in the buffers
      have hfits : ((d :: ds).take size.toNat).map (·.take sockets.fromMtu.toNat) =
          (d :: ds).take size.toNat := by
        nth_rewrite 2 [← List.map_id ((d :: ds).take size.toNat)]
        apply List.map_congr_left
        intro d' hd'
        exact List.take_of_length_le (hqueue d' (List.mem_of_mem_take hd')).2
      simp only [Socket.Receive.recv, hfits, reduceCtorEq, and_false, if_false, Option.some.injEq,
        Prod.mk.injEq] at h
      obtain ⟨rfl, rfl⟩ := h
      refine ⟨?_, List.drop_subset _ _⟩
      -- and there is a first datagram
      have hsize : size.toNat ≠ 0 := fun hzero => hpos (UInt32.toNat_inj.mp hzero)
      obtain ⟨more, hmore⟩ := Nat.exists_eq_succ_of_ne_zero hsize
      obtain ⟨first, a, ha, hd⟩ := (hqueue d List.mem_cons_self).1
      have hrest : ∀ d' ∈ ds.take more, OnWire crate l d' := fun d' hd' =>
        (hqueue d' (List.mem_cons_of_mem d (List.mem_of_mem_take hd'))).1
      obtain ⟨places, as, has, hmap⟩ := exists_places hrest
      refine ⟨first, some places, a, some as, ha, by simp [Lossy.packets, has], ?_⟩
      rw [hmore, List.take_succ_cons, ← hd, ← hmap]
      rfl

/-! ## The refinement -/

namespace Wire

variable {s s' : Wire m n d k Packet} {clients : List ClientSocket} {answers : List Bool} {len : ℕ}

/-- **The relation** between the link with its sockets and the one in which packets arrive: the
workers are the same, and all datagrams between them are packets that have been sent. -/
structure Models (crate : Crate Packet) (ends : Ends) (clients : List ClientSocket)
    (s : Wire m n d k Packet) (l : Lossy m n d k Packet) : Prop where
  sender_eq : l.sender = s.sender
  core_eq : l.core = s.core
  demux_eq : l.demux = s.demux
  inv : l.sender.Inv ends.sender (ends.sender.raptorq.encode crate) clients
  safe : l.core.reblock.Safe
  wire : ∀ d ∈ s.outgoing.wire, OnWire crate l d
  queue : ∀ d ∈ s.queue, OnWire crate l d
  toReblock : ∀ datagrams ∈ s.toReblock, Arrives crate l datagrams

/-- The two links start together. -/
lemma Models.init (crate : Crate Packet) (ends : Ends) (clients : List ClientSocket)
    (answers : List Bool) :
    Models crate ends clients (init m n d k Packet clients answers)
      (Lossy.init m n d k Packet (clients.map some)) where
  sender_eq := rfl
  core_eq := rfl
  demux_eq := rfl
  inv := .init _ _ clients
  safe := .of_phase (.inl rfl)
  wire := List.forall_mem_nil _
  queue := List.forall_mem_nil _
  toReblock := List.forall_mem_nil _

/-- What is on the wire fits in the buffers of the receiver. -/
lemma Models.length_le (h : Models crate ends clients s l)
    (hsized : crate.Sized ends.sender.raptorq) {mtu : ℕ}
    (hmtu : ends.sender.raptorq.maxPacketSize.toNat + 4 ≤ mtu) {datagram : List UInt8}
    (hd : OnWire crate l datagram) : datagram.length ≤ mtu := by
  obtain ⟨place, a, ha, rfl⟩ := hd
  simp only [Lossy.packet, Option.map_eq_some_iff, Option.bind_eq_some_iff] at ha
  obtain ⟨p, ⟨packets, hpackets, hp⟩, rfl⟩ := ha
  obtain ⟨id, data, hlen, rfl⟩ := h.inv.mem_encode (List.mem_of_getElem? hpackets)
  exact (hsized id data hlen p (List.mem_of_getElem? hp)).trans hmtu

/-- **A step of the sender.** -/
lemma Models.send (h : Models crate ends clients s l)
    (hmax : Block.maxDataLen ends.sender.raptorq = some len) (hpos : 0 < len) (hn : n < 256)
    (hfew : clients.length < 2 ^ 32) {a : Sender.Label m n} {sender : Sender m n Packet}
    (ht : Sender.Trans ends.sender (ends.sender.raptorq.encode crate) l.sender a sender) :
    Models crate ends clients (s.transmit crate sockets sender) { l with sender := sender } := by
  have hinv := h.inv.step hmax hpos hn hfew ht
  rcases ht.sent_eq with hsent | ⟨packets, hsent⟩
  · have hcalled : called s.sender sender = none := by
      rw [called, hsent, h.sender_eq, List.getElem?_eq_none_iff]
    have hmono : l.sender.pipeline.sent <+: sender.pipeline.sent := by rw [hsent]
    rw [transmit, hcalled]
    exact ⟨rfl, h.core_eq, h.demux_eq, hinv, h.safe, fun d hd => (h.wire d hd).mono hmono,
      fun d hd => (h.queue d hd).mono hmono, fun ds hds => (h.toReblock ds hds).mono hmono⟩
  · have hcalled : called s.sender sender = some packets := by
      rw [called, hsent, h.sender_eq, List.getElem?_concat_length]
    have hmono : l.sender.pipeline.sent <+: sender.pipeline.sent := by
      rw [hsent]
      exact List.prefix_append _ _
    rw [transmit, hcalled]
    refine ⟨rfl, h.core_eq, h.demux_eq, hinv, h.safe, fun d hd => ?_,
      fun d hd => (h.queue d hd).mono hmono, fun ds hds => (h.toReblock ds hds).mono hmono⟩
    rcases Socket.SendM.mem_wire_send hd with hd | ⟨p, hp, heq⟩
    · exact (h.wire d hd).mono hmono
    · -- one of the packets of the block that has just been sent
      obtain ⟨j, hj⟩ := List.mem_iff_getElem?.mp hp
      refine ⟨(l.sender.pipeline.sent.length, j), (l.sender.pipeline.sent.length, p), ?_,
        heq⟩
      simp [Lossy.packet, hsent, hj]

/-- **A step of the receiver** that takes the same step in the link in which packets arrive. -/
lemma Models.receive (h : Models crate ends clients s l) {core : Core d Packet} {demux : Demux k}
    {toReblock : List Datagrams} (expected : ℕ) (hsafe : core.reblock.Safe)
    (hsub : toReblock ⊆ s.toReblock) :
    Models crate ends clients { s with core := core, demux := demux, toReblock := toReblock }
      { l with core := core, demux := demux, expected := expected } :=
  ⟨h.sender_eq, rfl, rfl, h.inv, hsafe, h.wire, h.queue, fun ds hds => h.toReblock ds (hsub hds)⟩

/-- **Every step** is a step of the link in which packets arrive, or none.

**Proof sketch.** What is on the wire are packets that have been sent, and so is what waits in the
socket of the receiver. All of them fit in the buffers, so that the udp worker receives whole
packets. -/
theorem Models.step (h : Models crate ends clients s l) (hlaw : crate.Lawful ends.sender.raptorq)
    (hsized : crate.Sized ends.sender.raptorq)
    (hcrate : ∀ d, crate.deserialize d = none ↔ d.length < 4)
    (hfits : ends.sender.raptorq.maxPacketSize.toNat + 4 ≤ sockets.fromMtu.toNat)
    (hbatch : sockets.batchReceive ≠ some 0)
    (hmax : Block.maxDataLen ends.sender.raptorq = some len) (hpos : 0 < len) (hn : n < 256)
    (hfew : clients.length < 2 ^ 32) {a : Label m n d k}
    (hs : Wire.step crate ends sockets s a = some s') :
    ∃ l', LTS.Reach (Lossy.step crate ends) l l' ∧ Models crate ends clients s' l' := by
  have hsafe : ∀ {a : Core.Label d} {core : Core d Packet},
      (∀ datagrams, a = .datagrams datagrams → Arrives crate l datagrams) →
      Core.Trans crate ends.receiver.raptorq l.core a core → core.reblock.Safe :=
    fun harrives ht => ht.safe hcrate h.safe fun datagrams hds =>
      (harrives datagrams hds).readable hlaw.deserialize_serialize hcrate _
  have hmove : ∀ {a : Lossy.Label m n d k} {core : Core d Packet}, core.reblock.Safe →
      Lossy.step crate ends l a = some (l.moved core) →
      ∃ l', LTS.Reach (Lossy.step crate ends) l l' ∧
        Models crate ends clients { s with core := core } l' := by
    intro a core hsafe hstep
    refine ⟨_, .tail .refl trivial hstep, ?_⟩
    rw [Lossy.moved, ← h.demux_eq]
    exact h.receive _ hsafe (List.Subset.refl _)
  cases a with
  | sender a =>
    simp only [Wire.step, Wire.stepWith] at hs
    split at hs
    · cases hs
    · rw [← h.sender_eq, Option.map_eq_some_iff] at hs
      obtain ⟨sender, hsender, rfl⟩ := hs
      have ht := Sender.step_iff.mp hsender
      exact ⟨_, .tail .refl trivial (Lossy.step_iff.mpr (.sender ht)), h.send hmax hpos hn hfew ht⟩
  | network i =>
    simp only [Wire.step, Wire.stepWith, Option.map_eq_some_iff] at hs
    obtain ⟨datagram, hget, rfl⟩ := hs
    refine ⟨l, .refl, { h with queue := fun d hd => ?_ }⟩
    rcases List.mem_append.mp hd with hd | hd
    · exact h.queue d hd
    · rw [List.mem_singleton.mp hd]
      exact h.wire datagram (List.mem_of_getElem? hget)
  | recv =>
    simp only [Wire.step, Wire.stepWith] at hs
    split at hs
    · rw [Option.map_eq_some_iff] at hs
      obtain ⟨⟨datagrams, rest⟩, hrecv, rfl⟩ := hs
      obtain ⟨harrives, hsub⟩ := recv_arrives (fun d hd =>
        ⟨h.queue d hd, h.length_le hsized hfits (h.queue d hd)⟩) hbatch hrecv
      refine ⟨l, .refl, { h with queue := fun d hd => h.queue d (hsub hd), toReblock := ?_ }⟩
      intro ds hds
      rcases List.mem_append.mp hds with hds | hds
      · exact h.toReblock ds hds
      · rw [List.mem_singleton.mp hds]
        exact harrives
    · cases hs
  | recvFails =>
    simp only [Wire.step, Wire.stepWith] at hs
    split at hs
    · cases hs
      exact ⟨l, .refl, { h with }⟩
    · cases hs
  | datagrams =>
    cases hqueue : s.toReblock with
    | nil => simp [Wire.step, Wire.stepWith, hqueue] at hs
    | cons datagrams rest =>
      simp only [Wire.step, Wire.stepWith, hqueue, ← h.core_eq, Option.map_eq_some_iff] at hs
      obtain ⟨core, hcore, rfl⟩ := hs
      have harrives := h.toReblock datagrams (by simp [hqueue])
      have hsafe' := hsafe (by simpa using harrives) (Core.step_iff.mp hcore)
      obtain ⟨first, batch, a, as, ha, has, rfl⟩ := harrives
      have hstep : Lossy.step crate ends l (.arrive first batch) =
          some { l with core := core, expected := l.current first.1 } := by
        simp [Lossy.step, Lossy.stepWith, ha, has, hcore]
      refine ⟨_, .tail .refl trivial hstep, ?_⟩
      rw [h.demux_eq]
      exact h.receive _ hsafe' (by simp [hqueue])
  | timeout =>
    simp only [Wire.step, Wire.stepWith] at hs
    split at hs
    · rw [← h.core_eq, Option.map_eq_some_iff] at hs
      obtain ⟨core, hcore, rfl⟩ := hs
      have ht := Core.step_iff.mp hcore
      exact hmove (hsafe (by simp) ht) (Lossy.step_iff.mpr (.timeout ht))
    · cases hs
  | reblock =>
    simp only [Wire.step, Wire.stepWith, ← h.core_eq, Option.map_eq_some_iff] at hs
    obtain ⟨core, hcore, rfl⟩ := hs
    have ht := Core.step_iff.mp hcore
    exact hmove (hsafe (by simp) ht) (Lossy.step_iff.mpr (.reblock ht))
  | decode w =>
    simp only [Wire.step, Wire.stepWith, ← h.core_eq, Option.map_eq_some_iff] at hs
    obtain ⟨core, hcore, rfl⟩ := hs
    have ht := Core.step_iff.mp hcore
    exact hmove (hsafe (by simp) ht) (Lossy.step_iff.mpr (.decode ht))
  | dispatch =>
    cases hrunning : s.demux.dispatch with
    | some f => simp [Wire.step, Wire.stepWith, hrunning] at hs
    | none =>
      simp only [Wire.step, Wire.stepWith, hrunning, Option.isSome_none, Bool.false_eq_true,
        if_false, ← h.core_eq, Option.bind_eq_some_iff, Option.map_eq_some_iff,
        List.head?_eq_some_iff] at hs
      obtain ⟨message, ⟨rest, hout⟩, core, hcore, rfl⟩ := hs
      have ht := Core.step_iff.mp hcore
      rw [← h.demux_eq] at hrunning ⊢
      exact ⟨_, .tail .refl trivial (Lossy.step_iff.mpr (.dispatch hrunning hout ht)),
        h.receive _ (hsafe (by simp) ht) (List.Subset.refl _)⟩
  | client w answer =>
    simp only [Wire.step, Wire.stepWith, ← h.demux_eq, Option.map_eq_some_iff] at hs
    obtain ⟨demux, hclient, rfl⟩ := hs
    have ht := Demux.clientStep_iff.mp hclient
    rw [← h.core_eq]
    exact ⟨_, .tail .refl trivial (Lossy.step_iff.mpr (.client ht)),
      h.receive l.expected h.safe (List.Subset.refl _)⟩

/-- **Every run** is modelled by one of the link in which packets arrive, if these fit in the
buffers of the receiver. -/
theorem Models.of_reach {answers : List Bool} (hlaw : crate.Lawful ends.sender.raptorq)
    (hsized : crate.Sized ends.sender.raptorq)
    (hcrate : ∀ d, crate.deserialize d = none ↔ d.length < 4)
    (hfits : ends.sender.raptorq.maxPacketSize.toNat + 4 ≤ sockets.fromMtu.toNat)
    (hbatch : sockets.batchReceive ≠ some 0)
    (hmax : Block.maxDataLen ends.sender.raptorq = some len) (hpos : 0 < len) (hn : n < 256)
    (hfew : clients.length < 2 ^ 32)
    (h : LTS.Reach (Wire.step crate ends sockets) (Wire.init m n d k Packet clients answers) s) :
    ∃ l, LTS.Reach (Lossy.step crate ends) (Lossy.init m n d k Packet (clients.map some)) l ∧
      Models crate ends clients s l := by
  refine h.invariant (P := fun s => ∃ l, LTS.Reach (Lossy.step crate ends)
    (Lossy.init m n d k Packet (clients.map some)) l ∧ Models crate ends clients s l)
    ⟨_, .refl, .init crate ends clients answers⟩ ?_
  rintro t a t' - ⟨l, hreach, hmodels⟩ - hs
  obtain ⟨l', hmore, hmodels'⟩ :=
    hmodels.step hlaw hsized hcrate hfits hbatch hmax hpos hn hfew hs
  exact ⟨l', hreach.trans hmore, hmodels'⟩

end Wire

section Results

open Wire

variable {s : Wire m n d k Packet} {clients : List ClientSocket} {answers : List Bool} {len : ℕ}
  {profile : Profile} {blockSize repair minRepair : UInt32}

/-- **The link with its sockets refines the one in which packets arrive**, and its reblock worker
never panics. For any number of clients and threads, every order of their steps, whatever the
kernel takes from the sender, whatever the network loses, duplicates and reorders, and however the
sockets send and receive in batches: if the geometry was built for the MTU of the receiver, the
workers are in a state that they can reach in the link in which packets arrive. -/
theorem wire_refines_lossy (hlaw : crate.Lawful ends.sender.raptorq)
    (hsized : crate.Sized ends.sender.raptorq)
    (hcrate : ∀ d, crate.deserialize d = none ↔ d.length < 4)
    (hnew : RaptorQ.new profile sockets.fromMtu blockSize repair minRepair =
      .ok ends.receiver.raptorq)
    (hmtu : 32 ≤ sockets.fromMtu.toNat) (hbatch : sockets.batchReceive ≠ some 0)
    (hmax : Block.maxDataLen ends.sender.raptorq = some len) (hpos : 0 < len) (hn : n < 256)
    (hfew : clients.length < 2 ^ 32)
    (h : LTS.Reach (Wire.step crate ends sockets) (Wire.init m n d k Packet clients answers) s) :
    (∃ l, LTS.Reach (Lossy.step crate ends) (Lossy.init m n d k Packet (clients.map some)) l ∧
      l.sender = s.sender ∧ l.core = s.core ∧ l.demux = s.demux) ∧
    s.core.reblock.phase ≠ .panicked := by
  have hfits := (RaptorQ.Built.of_new hnew).packet_le hmtu
  rw [ends.raptorq_eq] at hfits
  obtain ⟨l, hreach, hmodels⟩ :=
    Models.of_reach hlaw hsized hcrate hfits hbatch hmax hpos hn hfew h
  refine ⟨⟨l, hreach, hmodels.sender_eq, hmodels.core_eq, hmodels.demux_eq⟩, ?_⟩
  rw [← hmodels.core_eq]
  exact hmodels.safe.1

/-- Packets are sent and received in batches, with buffers for 48 bytes. -/
def inBatches : Sockets :=
  ⟨some 4, 48, some 2⟩

/-- A client connects, and its three blocks are sent. The first packet arrives, and then the other
two, in one batch and in the wrong order. -/
def throughSockets : List (Wire.Label 1 1 1 1) :=
  let block : List (Sender.Label 1 1) :=
    [.server (.server 0), .pipeline .ordering, .pipeline .ordering, .pipeline (.encoding 0),
      .pipeline (.encoding 0), .pipeline (.encoding 0), .pipeline (.encoding 0), .pipeline .udp]
  let connect : List (Sender.Label 1 1) :=
    [.server .main, .server (.server 0), .server (.server 0)]
  (connect ++ block ++ block ++ block).map .sender ++
    [.network 0, .recv, .datagrams, .reblock, .reblock, .reblock, .reblock, .decode 0, .decode 0,
      .decode 0, .decode 0, .dispatch, .network 2, .network 1, .recv, .datagrams]

/-- A client of eight bytes, of whose packets the last two arrive in one batch. -/
theorem wire_refines_lossy_inBatches : ∃ s : Wire 1 1 1 1 (UInt8 × List UInt8),
    (s.outgoing.wire.length, s.core.reblock.phase) = (3, .loop) ∧
    (∃ l, LTS.Reach (Lossy.step Crate.single smallest)
        (Lossy.init 1 1 1 1 _ ([eightBytes].map some)) l ∧
      l.sender = s.sender ∧ l.core = s.core ∧ l.demux = s.demux) ∧
    s.core.reblock.phase ≠ .panicked := by
  have hrun : (LTS.run (Wire.step Crate.single smallest inBatches)
      (Wire.init 1 1 1 1 _ [eightBytes] []) throughSockets).map (fun s =>
        (s.outgoing.wire.length, s.core.reblock.phase)) = some (3, .loop) := by
    decide +kernel
  obtain ⟨s, hs, heq⟩ := Option.map_eq_some_iff.mp hrun
  have hsized : Crate.single.Sized RaptorQ.single := by
    intro id data hlen p hp
    rw [Crate.single_encode, List.mem_singleton] at hp
    subst hp
    exact Nat.add_le_add_right hlen.le 4
  have hcrate : ∀ d, Crate.single.deserialize d = none ↔ d.length < 4 := by
    intro d
    simp [Crate.single]
  have hnew : RaptorQ.new .dev 48 16 0 0 = .ok RaptorQ.single := by decide
  have hmax : Block.maxDataLen RaptorQ.single = some 7 := by decide
  exact ⟨s, heq, wire_refines_lossy Crate.single_lawful hsized hcrate hnew (by decide) (by decide)
    hmax (by decide) (by decide) (by decide) (LTS.reach_of_run hs)⟩

end Results

end Wire

end Link

end Lidi
