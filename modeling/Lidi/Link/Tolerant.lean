import Lidi.Link.Integrity
import Lidi.Link.Isolation
import Lidi.Receive.Gathering

set_option relaxedAutoImplicit false
set_option autoImplicit false

/-!
# A network that loses too little to matter

The link over a network that may lose, duplicate and reorder datagrams, as long as it stays within
what the receiver tolerates: packets stay within the window of the reblock worker, the blocks that
are emitted decode, and after a reset timeout the receiver goes on where it was, with no block in
flight. Then no block is lost on the way to the dispatch worker.

## Main definitions

* `Link.Tolerant` — the state of the link, with the packets that have arrived since the last reset.
* `Link.Lossy.Gentle` — the condition on the steps.
* `Link.Lossy.Spares` — no call of some of the clients fails.
* `Link.Tolerant.Inv` — the invariant.

## Main results

* `Link.Tolerant.Inv.sound` — under the condition no loss goes unnoticed.
* `Link.Tolerant.Inv.step` — every gentle step keeps the invariant.
* `Link.Tolerant.Inv.refines_step` — a gentle step is a step of a faithful channel of blocks, or
  none.
-/

namespace Lidi.Link

open Send Receive Turnstile

/-- The link. `arrived` is a history of the packets that have arrived since the last reset. -/
structure Tolerant (m n d k : ℕ) (Packet : Type*) where
  link : Lossy m n d k Packet
  arrived : List (ℕ × Packet)

variable {m n d k : ℕ} {Packet : Type*} {crate : Crate Packet} {ends : Ends}

/-- The condition on the steps. The packets that arrive are not beyond the window and not taken for
packets of other blocks; after a reset the first one is of the block that the receiver waits for.
When the reblock worker overwrites `block_to_dispatch` no block is in flight, or nothing changes.
What is emitted decodes. -/
def Lossy.Gentle (crate : Crate Packet) (ends : Ends) (s : Lossy m n d k Packet) :
    Lossy.Label m n d k → Prop
  | .arrive first rest =>
    (s.core.reblock.reset = true → first.1 = s.expected) ∧
      ∀ a ∈ first :: rest.getD [],
        Lossy.Unmistaken s.expected a.1 ∧ a.1 < s.expected + windowWidth.toNat
  | .reblock => AllDecode crate ends.receiver.raptorq s.core .reblock ∧
      QuietReset crate ends.receiver.raptorq s.core .reblock
  | _ => True

/-- No call of these clients fails. -/
def Lossy.Spares (spared : ClientId → Prop) (s : Lossy m n d k Packet) :
    Lossy.Label m n d k → Prop
  | .client w answer => s.demux.Spares spared w answer
  | _ => True

/-- The link as a faithful channel of blocks: the channel has the blocks of the stream that the
dispatch worker has not received. -/
def Lossy.toMultiplex (s : Lossy m n d k Packet) : Multiplex m k where
  servers := s.sender.servers
  channel := s.stream.drop s.core.decoding.received.length
  demux := s.demux
  received := s.stream.take s.core.decoding.received.length

/-- Whether a step is gentle can be decided. -/
instance (s : Lossy m n d k Packet) (a : Lossy.Label m n d k) :
    Decidable (s.Gentle crate ends a) :=
  match a with
  | .arrive first rest => inferInstanceAs (Decidable
    ((s.core.reblock.reset = true → first.1 = s.expected) ∧
      ∀ a ∈ first :: rest.getD [],
        Lossy.Unmistaken s.expected a.1 ∧ a.1 < s.expected + windowWidth.toNat))
  | .reblock => inferInstanceAs (Decidable (AllDecode crate ends.receiver.raptorq s.core .reblock ∧
      QuietReset crate ends.receiver.raptorq s.core .reblock))
  | .sender _ | .timeout | .decode _ | .dispatch | .client _ _ => inferInstanceAs (Decidable True)

/-- Whether a step spares these clients can be decided. -/
instance {spared : ClientId → Prop} [DecidablePred spared] (s : Lossy m n d k Packet)
    (a : Lossy.Label m n d k) : Decidable (s.Spares spared a) :=
  match a with
  | .client w answer => inferInstanceAs (Decidable (s.demux.Spares spared w answer))
  | .sender _ | .arrive _ _ | .timeout | .reblock | .decode _ | .dispatch =>
    inferInstanceAs (Decidable True)

namespace Tolerant

variable {s s' : Tolerant m n d k Packet} {clients : List ClientSocket} {len : ℕ}
  {before : List (Option Block)} {i : ℕ}

/-- The initial state, with the clients that are going to connect. -/
def init (m n d k : ℕ) (Packet : Type*) (clients : List ClientSocket) :
    Tolerant m n d k Packet where
  link := Lossy.init m n d k Packet (clients.map some)
  arrived := []

/-- What has arrived since the last reset, after a step. -/
def arrivedAfter (s : Tolerant m n d k Packet) : Lossy.Label m n d k → List (ℕ × Packet)
  | .arrive first rest =>
    (if s.link.core.reblock.reset then [] else s.arrived) ++
      (first :: rest.getD []).filterMap s.link.packet
  | _ => s.arrived

/-- The next step; `none` if the worker is blocked. -/
def step (crate : Crate Packet) (ends : Ends) (s : Tolerant m n d k Packet)
    (a : Lossy.Label m n d k) : Option (Tolerant m n d k Packet) :=
  (s.link.step crate ends a).map fun link => ⟨link, s.arrivedAfter a⟩

/-- **The invariant** of a run that began, or began anew, at block `i` after the messages `before`.
Since then the receiver has emitted exactly the blocks before the one it waits for, and all of them
decode. -/
structure Inv (crate : Crate Packet) (ends : Ends) (clients : List ClientSocket)
    (before : List (Option Block)) (i : ℕ) (s : Tolerant m n d k Packet) : Prop where
  base : s.link.Inv crate ends (clients.map some)
  sender : s.link.sender.Inv ends.sender (ends.sender.raptorq.encode crate) clients
  advances : Advances crate ends.receiver.raptorq s.arrived s.link.expected s.link.core
  messages_eq : s.link.messages crate ends =
    before ++ ((s.link.stream.take s.link.expected).drop i).map some
  le_expected : i ≤ s.link.expected
  le_length : s.link.expected ≤ s.link.stream.length

/-- The invariant holds at the start. -/
lemma Inv.init (hmin : 0 < ends.receiver.raptorq.minNbPackets.toNat)
    (clients : List ClientSocket) :
    Inv crate ends clients [] 0 (init m n d k Packet clients) where
  base := .init crate ends _
  sender := .init _ _ clients
  advances := .init crate hmin 0
  messages_eq := rfl
  le_expected := le_rfl
  le_length := Nat.zero_le _

/-- After a reset the receiver goes on where it was. -/
lemma current_eq {link : Lossy m n d k Packet} {first : ℕ}
    (h : link.core.reblock.reset = true → first = link.expected) :
    link.current first = link.expected := by
  unfold Lossy.current
  split
  · exact h ‹_›
  · rfl

/-- **Under the condition no loss goes unnoticed.** -/
theorem Inv.sound (h : Inv crate ends clients before i s) (hd : d < 256) {a : Lossy.Label m n d k}
    (hok : s.link.Gentle crate ends a) : s.link.Sound crate ends a := by
  cases a with
  | arrive first rest =>
    obtain ⟨hfirst, hnear⟩ := hok
    refine ⟨fun hr => ?_, fun a ha => ?_⟩
    · rw [hfirst hr]
      exact ⟨le_rfl, by simp⟩
    · rw [current_eq hfirst]
      exact (hnear a ha).1
  | reblock => exact h.advances.orderly hd h.base.core hok.2
  | decode w => exact h.advances.orderly hd h.base.core (a := .decode w) trivial
  | sender | timeout | dispatch | client => trivial

/-! ## The steps -/

/-- The packets of a batch, one by one. -/
lemma filterMap_packet {link : Lossy m n d k Packet} {first : ℕ × ℕ}
    {rest : Option (List (ℕ × ℕ))} {a : ℕ × Packet} {batch : Option (List (ℕ × Packet))}
    (ha : link.packet first = some a) (hbatch : link.packets rest = some batch) :
    (first :: rest.getD []).filterMap link.packet = a :: batch.getD [] := by
  rw [List.filterMap_cons_some ha]
  cases rest with
  | none =>
    obtain rfl : batch = none := by simpa [Lossy.packets] using hbatch.symm
    rfl
  | some places =>
    simp only [Lossy.packets, Option.map_eq_some_iff] at hbatch
    obtain ⟨as, has, rfl⟩ := hbatch
    simp only [Option.getD_some]
    congr 1
    induction places generalizing as with
    | nil =>
      obtain rfl : as = [] := by simpa using has.symm
      rfl
    | cons place places ih =>
      simp only [List.mapM_cons, bind, pure, Option.bind_eq_some_iff, Option.some.injEq] at has
      obtain ⟨b, hb, as, has, rfl⟩ := has
      rw [List.filterMap_cons_some hb, ih as has]

/-- The beginning of the stream stays when the stream grows. -/
lemma take_eq_of_isPrefix {stream stream' : List Block} (hpre : stream <+: stream') {e : ℕ}
    (hle : e ≤ stream.length) : stream'.take e = stream.take e := by
  obtain ⟨more, rfl⟩ := hpre
  exact List.take_append_of_le_length hle

/-- **The sender moves.** -/
lemma Inv.step_sender (h : Inv crate ends clients before i s)
    (hmax : Block.maxDataLen ends.sender.raptorq = some len) (hpos : 0 < len) (hn : n < 256)
    (hfew : clients.length < 2 ^ 32) {a : Sender.Label m n} {sender : Sender m n Packet}
    (ht : Sender.Trans ends.sender (ends.sender.raptorq.encode crate) s.link.sender a sender) :
    Inv crate ends clients before i ⟨{ s.link with sender := sender }, s.arrived⟩ := by
  have hfew' : (clients.map some).reduceOption.length < 2 ^ 32 := by
    rwa [Pool.reduceOption_map_some]
  have hpre := Lossy.stream_isPrefix ht
  refine ⟨h.base.sender hmax hpos hn hfew' ht, h.sender.step hmax hpos hn hfew ht, h.advances, ?_,
    h.le_expected, h.le_length.trans hpre.length_le⟩
  show s.link.messages crate ends = before ++ ((List.take s.link.expected _).drop i).map some
  rw [take_eq_of_isPrefix hpre h.le_length]
  exact h.messages_eq

/-- The packets that arrive are those of their blocks, and in reach if their places are. -/
lemma inReach {link : Lossy m n d k Packet} {todo : List (Option ClientSocket)}
    (h : link.Inv crate ends todo) {first : ℕ × ℕ} {rest : Option (List (ℕ × ℕ))} {a : ℕ × Packet}
    {batch : Option (List (ℕ × Packet))} (ha : link.packet first = some a)
    (hbatch : link.packets rest = some batch) {e : ℕ}
    (hnear : ∀ a ∈ first :: rest.getD [],
      Lossy.Unmistaken e a.1 ∧ a.1 < e + windowWidth.toNat) :
    a.1 = first.1 ∧ (∀ b ∈ a :: batch.getD [], Lossy.PacketOf crate ends link.stream b.1 b.2) ∧
      ∀ b ∈ a :: batch.getD [], InReach e b := by
  obtain ⟨hnumber, hpacket⟩ := h.packetOf ha
  obtain ⟨hnumbers, hpackets⟩ := h.packetOf_rest hbatch
  refine ⟨hnumber, List.forall_mem_cons.mpr ⟨hpacket, hpackets⟩, fun b hb => ?_⟩
  have hmem : b.1 ∈ (first :: rest.getD []).map Prod.fst := by
    rw [List.map_cons, ← hnumbers, ← hnumber, ← List.map_cons]
    exact List.mem_map_of_mem hb
  obtain ⟨place, hplace, heq⟩ := List.mem_map.mp hmem
  have hplaced := hnear place hplace
  rw [heq] at hplaced
  exact hplaced

/-- **Packets arrive.** -/
lemma Inv.step_arrive (h : Inv crate ends clients before i s)
    (hlaw : crate.Lawful ends.sender.raptorq) (hd : d < 256) {first : ℕ × ℕ}
    {rest : Option (List (ℕ × ℕ))} {a : ℕ × Packet} {batch : Option (List (ℕ × Packet))}
    (hok : s.link.Gentle crate ends (.arrive first rest))
    (ha : s.link.packet first = some a) (hbatch : s.link.packets rest = some batch)
    (hp : s.link.core.reblock.phase = .recv) :
    Inv crate ends clients before i ⟨{ s.link with
      core := { s.link.core with
        reblock := s.link.core.reblock.onDatagrams crate (Lossy.datagrams crate a batch) }
      expected := s.link.current first.1 }, s.arrivedAfter (.arrive first rest)⟩ := by
  have hbase := h.base.arrive hlaw (h.sound hd hok) ha hbatch hp
  obtain ⟨hfirst, hnear⟩ := hok
  obtain ⟨hnumber, hall, hreach⟩ := inReach h.base ha hbatch hnear
  have hadvances := h.advances.arrive hd hp (h.base.carries hlaw hall) hreach fun hr => by
    rw [hnumber]
    exact hfirst hr
  have harrived : s.arrivedAfter (.arrive first rest) =
      (if s.link.core.reblock.reset then [] else s.arrived) ++ a :: batch.getD [] := by
    rw [arrivedAfter, filterMap_packet ha hbatch]
  rw [current_eq hfirst] at hbase ⊢
  rw [harrived]
  exact ⟨hbase, h.sender, hadvances, h.messages_eq, h.le_expected, h.le_length⟩

/-- What has a message decodes. -/
lemma outcome_ne_none {decode : UInt8 → List Packet → Option (List UInt8)} {r : Reassembled Packet}
    (h : (decodeItem decode r).isPass = true) : outcome decode r ≠ none := by
  obtain ⟨id, x, hpass⟩ := isPass_iff.mp h
  rw [← msg_decodeItem, hpass]
  simp

/-- **The reblock worker and the decoding threads.** -/
lemma Inv.step_moved (h : Inv crate ends clients before i s)
    (hlaw : crate.Lawful ends.sender.raptorq)
    (hpos : 0 < ends.sender.raptorq.transferLength.toNat) (hd : d < 256) {a : Core.Label d}
    {core : Core d Packet} (hdec : AllDecode crate ends.receiver.raptorq s.link.core a)
    (hquiet : QuietReset crate ends.receiver.raptorq s.link.core a)
    (hinput : ∀ datagrams, a ≠ .datagrams datagrams) (houtput : a ≠ .dispatch)
    (ht : Core.Trans crate ends.receiver.raptorq s.link.core a core) :
    Inv crate ends clients before i ⟨s.link.moved core, s.arrived⟩ := by
  have hok := h.advances.orderly hd h.base.core hquiet
  have hadvances := h.advances.step hd h.base.core hdec hquiet hinput ht
  obtain ⟨items, hitems, hpass, -⟩ := ht.decodes h.base.core.worker hdec
  obtain ⟨-, ⟨hemitted, hadvance⟩ | ⟨packets, hemitted, hgood, hadvance⟩⟩ :=
    h.base.core.step hok hinput ht
  · refine ⟨h.base.moved hlaw hpos hok hinput houtput ht, h.sender, hadvances, ?_, ?_, ?_⟩
    · show core.decoding.emitted.map _ =
        before ++ ((s.link.stream.take (advance _ _ core)).drop i).map some
      rw [hemitted, hadvance]
      exact h.messages_eq
    · exact h.le_expected.trans_eq hadvance.symm
    · exact hadvance.trans_le h.le_length
  · -- the block that is emitted decodes, so it is the next one of the stream
    obtain rfl := List.append_cancel_left (hitems.symm.trans hemitted)
    obtain ⟨b, hb, hsome⟩ := (h.base.outcome_cases hlaw hpos hgood).resolve_left
      (outcome_ne_none (hpass _ (List.mem_singleton_self _)))
    have hlt := (List.getElem?_eq_some_iff.mp hb).1
    refine ⟨h.base.moved hlaw hpos hok hinput houtput ht, h.sender, hadvances, ?_, ?_, ?_⟩
    · show core.decoding.emitted.map _ =
        before ++ ((s.link.stream.take (advance _ _ core)).drop i).map some
      have hle : i ≤ (s.link.stream.take s.link.expected).length := by
        rw [List.length_take]
        exact le_min h.le_expected (h.le_expected.trans h.le_length)
      rw [hemitted, hadvance, List.map_append, List.take_add_one, hb,
        List.drop_append_of_le_length hle, List.map_append, ← List.append_assoc, ← h.messages_eq,
        List.map_singleton, hsome]
      rfl
    · have hle := h.le_expected
      show i ≤ advance s.link.expected s.link.core core
      omega
    · show advance s.link.expected s.link.core core ≤ s.link.stream.length
      omega

/-- **The dispatch worker.** -/
lemma Inv.step_dispatch (h : Inv crate ends clients before i s)
    (hmax : Block.maxDataLen ends.sender.raptorq = some len) (hpos : 0 < len) (hd : d < 256)
    {message : Option Block} {rest : List (Option Block)} {core : Core d Packet}
    (hrunning : s.link.demux.dispatch = none)
    (hout : s.link.core.decoding.gate.output = message :: rest)
    (ht : Core.Trans crate ends.receiver.raptorq s.link.core .dispatch core) :
    Inv crate ends clients before i
      ⟨{ s.link.moved core with demux := s.link.demux.receive ends.receiver message },
        s.arrived⟩ := by
  have hdec : AllDecode crate ends.receiver.raptorq s.link.core .dispatch := trivial
  obtain ⟨hemitted, hadvance⟩ : core.decoding.emitted = s.link.core.decoding.emitted ∧
      advance s.link.expected s.link.core core = s.link.expected := by
    cases ht with
    | dispatch hd =>
      cases hd with
      | dispatch hout' => exact ⟨rfl, if_pos rfl⟩
  refine ⟨h.base.dispatch hmax hpos hrunning hout ht, h.sender,
    h.advances.step hd h.base.core hdec trivial (by simp) ht, ?_,
    h.le_expected.trans_eq hadvance.symm, hadvance.trans_le h.le_length⟩
  show core.decoding.emitted.map _ =
    before ++ ((s.link.stream.take (advance _ _ core)).drop i).map some
  rw [hemitted, hadvance]
  exact h.messages_eq

/-- **Every gentle step keeps the invariant.** -/
theorem Inv.step (h : Inv crate ends clients before i s) (hlaw : crate.Lawful ends.sender.raptorq)
    (hmax : Block.maxDataLen ends.sender.raptorq = some len) (hpos : 0 < len) (hn : n < 256)
    (hd : d < 256) (hfew : clients.length < 2 ^ 32) {a : Lossy.Label m n d k}
    (hok : s.link.Gentle crate ends a) {link : Lossy m n d k Packet}
    (ht : Lossy.Trans crate ends s.link a link) :
    Inv crate ends clients before i ⟨link, s.arrivedAfter a⟩ := by
  have hlen : 0 < ends.sender.raptorq.transferLength.toNat := by
    unfold Block.maxDataLen at hmax
    split at hmax
    · simp only [Option.some.injEq] at hmax
      omega
    · cases hmax
  have hother : ∀ a : Core.Label d, a ≠ .reblock →
      AllDecode crate ends.receiver.raptorq s.link.core a ∧
        QuietReset crate ends.receiver.raptorq s.link.core a := by
    intro a ha
    cases a <;> first | exact absurd rfl ha | exact ⟨trivial, trivial⟩
  cases ht with
  | sender hsender => exact h.step_sender hmax hpos hn hfew hsender
  | arrive ha hbatch hp => exact h.step_arrive hlaw hd hok ha hbatch hp
  | timeout hcore =>
    obtain ⟨hdec, hquiet⟩ := hother .timeout (by simp)
    exact h.step_moved hlaw hlen hd hdec hquiet (by simp) (by simp) hcore
  | reblock hcore => exact h.step_moved hlaw hlen hd hok.1 hok.2 (by simp) (by simp) hcore
  | @decode w core hcore =>
    obtain ⟨hdec, hquiet⟩ := hother (.decode w) (by simp)
    exact h.step_moved hlaw hlen hd hdec hquiet (by simp) (by simp) hcore
  | dispatch hrunning hout hcore => exact h.step_dispatch hmax hpos hd hrunning hout hcore
  | client hclient =>
    obtain ⟨pending, hpending, hinformed⟩ := h.base.informed
    have hbase := h.base
    exact ⟨⟨hbase.servers, hbase.pipeline, hbase.core, hbase.demux.clientStep hclient, pending,
      hpending, hinformed.clientStep hclient⟩, h.sender, h.advances, h.messages_eq, h.le_expected,
      h.le_length⟩

/-- The invariant of a reachable state. -/
theorem Inv.of_reach (hlaw : crate.Lawful ends.sender.raptorq)
    (hmax : Block.maxDataLen ends.sender.raptorq = some len) (hpos : 0 < len)
    (hmin : 0 < ends.receiver.raptorq.minNbPackets.toNat) (hn : n < 256) (hd : d < 256)
    (hfew : clients.length < 2 ^ 32)
    (h : LTS.ReachVia (Tolerant.step crate ends) (fun s a => s.link.Gentle crate ends a)
      (Tolerant.init m n d k Packet clients) s) : Inv crate ends clients [] 0 s := by
  refine h.invariant (P := fun s => Inv crate ends clients [] 0 s) (.init hmin clients) ?_
  intro t a t' _ hinv hok hs
  simp only [Tolerant.step, Option.map_eq_some_iff] at hs
  obtain ⟨link, hlink, rfl⟩ := hs
  exact hinv.step hlaw hmax hpos hn hd hfew hok (Lossy.step_iff.mp hlink)

/-! ## The link as a faithful channel of blocks -/

/-- What the dispatch worker has received or is about to receive is a beginning of the blocks that
were emitted. -/
lemma Inv.received_isPrefix (h : Inv crate ends clients [] 0 s) :
    s.link.core.decoding.received ++ s.link.core.decoding.gate.output <+:
      (s.link.stream.take s.link.expected).map some := by
  have hmessages := h.messages_eq
  rw [List.nil_append, List.drop_zero] at hmessages
  rw [← hmessages]
  exact h.base.core.received_isPrefix

/-- The dispatch worker has received the first blocks of the stream. -/
lemma Inv.length_received_le (h : Inv crate ends clients [] 0 s) :
    s.link.core.decoding.received.length ≤ s.link.stream.length := by
  have hle := ((List.prefix_append _ _).trans h.received_isPrefix).length_le
  rw [List.length_map, List.length_take] at hle
  omega

/-- **The next message** is the next block of the stream. -/
lemma Inv.message_eq (h : Inv crate ends clients [] 0 s) {message : Option Block}
    {rest : List (Option Block)} (hout : s.link.core.decoding.gate.output = message :: rest) :
    ∃ b, message = some b ∧ s.link.stream[s.link.core.decoding.received.length]? = some b := by
  have hnext : (s.link.core.decoding.received ++
      s.link.core.decoding.gate.output)[s.link.core.decoding.received.length]? = some message := by
    simp [hout]
  have hget := Marked.getElem?_of_isPrefix h.received_isPrefix hnext
  rw [List.getElem?_map, Option.map_eq_some_iff] at hget
  obtain ⟨b, hb, rfl⟩ := hget
  exact ⟨b, rfl, Marked.getElem?_of_isPrefix (List.take_prefix _ _) hb⟩

/-- **A step of the link** is a step of the channel of blocks, or nothing that is seen there. -/
theorem Inv.refines_step (h : Inv crate ends clients [] 0 s) {spared : ClientId → Prop}
    {a : Lossy.Label m n d k} (hspares : s.link.Spares spared a)
    (hs : Tolerant.step crate ends s a = some s') :
    LTS.ReachVia (Multiplex.step ends.sender ends.receiver) (Multiplex.Spares spared)
      s.link.toMultiplex s'.link.toMultiplex := by
  simp only [Tolerant.step, Option.map_eq_some_iff] at hs
  obtain ⟨link, hlink, rfl⟩ := hs
  have hle := h.length_received_le
  have hinner : ∀ {a : Core.Label d} {core : Core d Packet}, a ≠ .dispatch →
      Core.Trans crate ends.receiver.raptorq s.link.core a core →
      (s.link.moved core).toMultiplex = s.link.toMultiplex := by
    intro a core ha ht
    unfold Lossy.toMultiplex
    rw [show (s.link.moved core).core.decoding.received = _ from ht.received_eq ha]
    rfl
  cases Lossy.step_iff.mp hlink with
  | @sender a sender hsender =>
    have hpre := Lossy.stream_isPrefix hsender
    cases hsender with
    | @server a servers out pipeline hserver hput =>
      refine .tail .refl (a := .server a) trivial (Multiplex.step_iff.mpr ?_)
      have hstream : ({ s.link with sender := ⟨servers, pipeline⟩ } : Lossy m n d k Packet).stream =
          s.link.stream ++ out.reduceOption := by
        show pipeline.put.reduceOption = _
        rw [Sender.putAll_eq hput, List.reduceOption_append]
        rfl
      have hnext : Multiplex.Trans ends.sender ends.receiver s.link.toMultiplex (.server a) _ :=
        .server hserver.of_room
      unfold Lossy.toMultiplex at hnext ⊢
      rw [hstream, List.drop_append_of_le_length hle, List.take_append_of_le_length hle]
      exact hnext
    | @pipeline a pipeline ha hpipe =>
      have hsame : ({ s.link with sender := { s.link.sender with pipeline := pipeline } } :
          Lossy m n d k Packet).toMultiplex = s.link.toMultiplex := by
        have hput : pipeline.put = s.link.sender.pipeline.put := by
          cases Pipeline.step_iff.mp hpipe with
          | put => cases ha
          | _ => rfl
        simp only [Lossy.toMultiplex, Lossy.stream, hput]
      rw [hsame]
      exact .refl
  | arrive ha hbatch hp => exact .refl
  | timeout hcore | reblock hcore | decode hcore =>
    rw [hinner (by simp) hcore]
    exact .refl
  | @dispatch message rest core hrunning hout hcore =>
    obtain ⟨b, rfl, hb⟩ := h.message_eq hout
    have hreceived := hcore.received_dispatch hout
    refine .tail .refl (a := .dispatch) trivial (Multiplex.step_iff.mpr ?_)
    have hchannel : s.link.toMultiplex.channel =
        b :: s.link.stream.drop (s.link.core.decoding.received.length + 1) := by
      obtain ⟨hlt, hget⟩ := List.getElem?_eq_some_iff.mp hb
      rw [Lossy.toMultiplex, List.drop_eq_getElem_cons hlt, hget]
    have hnext : Multiplex.Trans ends.sender ends.receiver s.link.toMultiplex .dispatch _ :=
      .dispatch hchannel hrunning
    have hlength : core.decoding.received.length = s.link.core.decoding.received.length + 1 := by
      rw [hreceived, List.length_append, List.length_singleton]
    have hstate : ({ s.link.moved core with
        demux := s.link.demux.receive ends.receiver (some b) } :
        Lossy m n d k Packet).toMultiplex =
        { s.link.toMultiplex with
          channel := s.link.stream.drop (s.link.core.decoding.received.length + 1)
          demux := s.link.demux.receive ends.receiver (some b)
          received := s.link.toMultiplex.received ++ [b] } := by
      show (⟨_, List.drop core.decoding.received.length _, _,
        List.take core.decoding.received.length _⟩ : Multiplex m k) = _
      rw [hlength]
      refine congrArg (Multiplex.mk _ _ _) ?_
      show s.link.stream.take _ = s.link.stream.take _ ++ [b]
      rw [List.take_add_one, hb]
      rfl
    rw [hstate]
    exact hnext
  | @client w answer demux hclient =>
    exact .tail .refl (a := .client w answer) hspares (Multiplex.step_iff.mpr (.client hclient))

end Tolerant

end Lidi.Link
