import Lidi.Core.LTS
import Lidi.Receive.Informed
import Lidi.Receive.Resume
import Lidi.Send.Sender
import Lidi.Send.Transfers

set_option relaxedAutoImplicit false
set_option autoImplicit false

/-!
# The whole link over an unreliable network

The sender and the receiver with all their workers, and a network between them that loses,
duplicates and reorders datagrams. A datagram carries one packet. The udp worker of the receiver
hands over any datagrams that have been sent, in any order and as often as the network likes, one
by one or in batches.

## Main definitions

* `Link.Ends` — the configurations of the two ends.
* `Link.Lossy` — the state of the link.
* `Link.Lossy.stepWith`, `Link.Lossy.step` — the next step of one worker, or the arrival of
  datagrams.
* `Link.Lossy.Sound` — the condition on the steps under which the receiver notices every loss that
  matters.

## Main results

* `Link.Lossy.step_iff` — the steps as a relation.
-/

namespace Lidi.Link

open Send Receive

/-- The configurations of the two ends, which share the geometry. Two programs with geometries of
their own that fit together have the steps of such ends (`Link.Programs.step_ends`). -/
structure Ends where
  sender : Send.Config
  receiver : Receive.Config
  raptorq_eq : receiver.raptorq = sender.raptorq

/-- The sender with `m` clients and `n` encoding threads, the receiver with `d` decoding threads and
`k` client workers. What the udp worker of the sender has sent is what may arrive. `expected` is a
history: the number of the block that the reblock worker waits for, before it is cut to 8 bits. -/
structure Lossy (m n d k : ℕ) (Packet : Type*) where
  sender : Sender m n Packet
  core : Core d Packet
  demux : Demux k
  expected : ℕ

namespace Lossy

variable {m n d k : ℕ} {Packet : Type*} {crate : Crate Packet} {ends : Ends}
  {s s' : Lossy m n d k Packet}

/-- The initial state; `todo` are the calls that will be made of `new_client` and `stop`. -/
def init (m n d k : ℕ) (Packet : Type*) (todo : List (Option ClientSocket)) :
    Lossy m n d k Packet where
  sender := Sender.init m n Packet todo
  core := Core.init d Packet
  demux := Demux.init k
  expected := 0

/-- The blocks that were put on `to_ordering`, in this order: the stream that crosses the link. -/
def stream (s : Lossy m n d k Packet) : List Block :=
  s.sender.pipeline.put.reduceOption

/-- What the decoding threads make of the blocks that were emitted. -/
def messages (crate : Crate Packet) (ends : Ends) (s : Lossy m n d k Packet) :
    List (Option Block) :=
  s.core.decoding.emitted.map (outcome (ends.receiver.raptorq.decode crate))

/-- A packet that has been sent, with the number of its block, by its place in what was sent. -/
def packet (s : Lossy m n d k Packet) (place : ℕ × ℕ) : Option (ℕ × Packet) :=
  ((s.sender.pipeline.sent[place.1]?).bind (·[place.2]?)).map (place.1, ·)

/-- The packets at the places of the rest of a batch, if there is one. -/
def packets (s : Lossy m n d k Packet) : Option (List (ℕ × ℕ)) →
    Option (Option (List (ℕ × Packet)))
  | none => some none
  | some places => (places.mapM s.packet).map some

/-- The datagrams with these packets: a single one, or a batch. -/
def datagrams (crate : Crate Packet) (first : ℕ × Packet) :
    Option (List (ℕ × Packet)) → Datagrams
  | none => .single (crate.serialize first.2)
  | some rest => .multiple ((first :: rest).map fun a => crate.serialize a.2)

/-- A worker of the sender moves; datagrams arrive that carry the packets at these places; the reset
timeout fires; or a worker of the receiver moves. -/
inductive Label (m n d k : ℕ)
  | sender (a : Sender.Label m n)
  | arrive (first : ℕ × ℕ) (rest : Option (List (ℕ × ℕ)))
  | timeout
  | reblock
  | decode (w : Fin d)
  | dispatch
  | client (w : Fin k) (answer : Client.Answer)

/-- The number of the current block after packets of block `first` and others have arrived. -/
def current (s : Lossy m n d k Packet) (first : ℕ) : ℕ :=
  if s.core.reblock.reset then first else s.expected

/-- The link after the reblock worker or a decoding thread has moved. -/
def moved (s : Lossy m n d k Packet) (core : Core d Packet) : Lossy m n d k Packet :=
  { s with core := core, expected := advance s.expected s.core core }

/-- The next step of two ends with these configurations; `none` if the worker is blocked. -/
def stepWith (crate : Crate Packet) (sender : Send.Config) (receiver : Receive.Config)
    (s : Lossy m n d k Packet) : Label m n d k → Option (Lossy m n d k Packet)
  | .sender a =>
    (s.sender.step sender (sender.raptorq.encode crate) a).map ({ s with sender := · })
  | .arrive first rest =>
    (s.packet first).bind fun a => (s.packets rest).bind fun batch =>
      (s.core.step crate receiver.raptorq (.datagrams (datagrams crate a batch))).map
        fun core => { s with core := core, expected := s.current first.1 }
  | .timeout => (s.core.step crate receiver.raptorq .timeout).map s.moved
  | .reblock => (s.core.step crate receiver.raptorq .reblock).map s.moved
  | .decode w => (s.core.step crate receiver.raptorq (.decode w)).map s.moved
  | .dispatch =>
    if s.demux.dispatch.isSome then none
    else
      (s.core.decoding.gate.output.head?).bind fun message =>
        (s.core.step crate receiver.raptorq .dispatch).map fun core =>
          { s.moved core with demux := s.demux.receive receiver message }
  | .client w answer => (s.demux.clientStep receiver w answer).map ({ s with demux := · })

/-- The next step of ends that share a geometry. -/
def step (crate : Crate Packet) (ends : Ends) (s : Lossy m n d k Packet) (a : Label m n d k) :
    Option (Lossy m n d k Packet) :=
  s.stepWith crate ends.sender ends.receiver a

/-- The kinds of steps. -/
inductive Trans (crate : Crate Packet) (ends : Ends) (s : Lossy m n d k Packet) :
    Label m n d k → Lossy m n d k Packet → Prop
  | sender {a : Sender.Label m n} {sender : Sender m n Packet}
      (hsender : Sender.Trans ends.sender (ends.sender.raptorq.encode crate) s.sender a sender) :
      Trans crate ends s (.sender a) { s with sender := sender }
  | arrive {first : ℕ × ℕ} {rest : Option (List (ℕ × ℕ))} {a : ℕ × Packet}
      {batch : Option (List (ℕ × Packet))} (ha : s.packet first = some a)
      (hbatch : s.packets rest = some batch) (hp : s.core.reblock.phase = .recv) :
      Trans crate ends s (.arrive first rest) { s with
        core := { s.core with
          reblock := s.core.reblock.onDatagrams crate (datagrams crate a batch) }
        expected := s.current first.1 }
  | timeout {core : Core d Packet}
      (hcore : Core.Trans crate ends.receiver.raptorq s.core .timeout core) :
      Trans crate ends s .timeout (s.moved core)
  | reblock {core : Core d Packet}
      (hcore : Core.Trans crate ends.receiver.raptorq s.core .reblock core) :
      Trans crate ends s .reblock (s.moved core)
  | decode {w : Fin d} {core : Core d Packet}
      (hcore : Core.Trans crate ends.receiver.raptorq s.core (.decode w) core) :
      Trans crate ends s (.decode w) (s.moved core)
  | dispatch {message : Option Block} {rest : List (Option Block)} {core : Core d Packet}
      (hrunning : s.demux.dispatch = none)
      (hout : s.core.decoding.gate.output = message :: rest)
      (hcore : Core.Trans crate ends.receiver.raptorq s.core .dispatch core) :
      Trans crate ends s .dispatch
        { s.moved core with demux := s.demux.receive ends.receiver message }
  | client {w : Fin k} {answer : Client.Answer} {demux : Demux k}
      (hclient : Demux.ClientTrans ends.receiver s.demux w answer demux) :
      Trans crate ends s (.client w answer) { s with demux := demux }

/-- The step function does exactly the steps of the relation. -/
theorem step_iff {a : Label m n d k} : step crate ends s a = some s' ↔ Trans crate ends s a s' := by
  constructor
  · intro h
    cases a with
    | sender a =>
      simp only [step, stepWith, Option.map_eq_some_iff] at h
      obtain ⟨sender, hsender, rfl⟩ := h
      exact .sender (Sender.step_iff.mp hsender)
    | arrive first rest =>
      simp only [step, stepWith, Option.bind_eq_some_iff, Option.map_eq_some_iff] at h
      obtain ⟨a, ha, batch, hbatch, core, hcore, rfl⟩ := h
      cases Core.step_iff.mp hcore with
      | datagrams ds hp => exact .arrive ha hbatch hp
    | timeout =>
      simp only [step, stepWith, Option.map_eq_some_iff] at h
      obtain ⟨core, hcore, rfl⟩ := h
      exact .timeout (Core.step_iff.mp hcore)
    | reblock =>
      simp only [step, stepWith, Option.map_eq_some_iff] at h
      obtain ⟨core, hcore, rfl⟩ := h
      exact .reblock (Core.step_iff.mp hcore)
    | decode w =>
      simp only [step, stepWith, Option.map_eq_some_iff] at h
      obtain ⟨core, hcore, rfl⟩ := h
      exact .decode (Core.step_iff.mp hcore)
    | dispatch =>
      cases hrunning : s.demux.dispatch with
      | some f => simp [step, stepWith, hrunning] at h
      | none =>
        simp only [step, stepWith, hrunning, Option.isSome_none, Bool.false_eq_true, if_false,
          Option.bind_eq_some_iff, Option.map_eq_some_iff, List.head?_eq_some_iff] at h
        obtain ⟨message, ⟨rest, hout⟩, core, hcore, rfl⟩ := h
        exact .dispatch hrunning hout (Core.step_iff.mp hcore)
    | client w answer =>
      simp only [step, stepWith, Option.map_eq_some_iff] at h
      obtain ⟨demux, hclient, rfl⟩ := h
      exact .client (Demux.clientStep_iff.mp hclient)
  · intro h
    cases h with
    | sender hsender => simp [step, stepWith, Sender.step_iff.mpr hsender]
    | arrive ha hbatch hp => simp [step, stepWith, ha, hbatch, Core.step, hp]
    | timeout hcore => simp [step, stepWith, Core.step_iff.mpr hcore]
    | reblock hcore => simp [step, stepWith, Core.step_iff.mpr hcore]
    | decode hcore => simp [step, stepWith, Core.step_iff.mpr hcore]
    | dispatch hrunning hout hcore => simp [step, stepWith, hrunning, hout, Core.step_iff.mpr hcore]
    | client hclient => simp [step, stepWith, Demux.clientStep_iff.mpr hclient]

/-- A step of the sender puts more blocks on the stream, or none. -/
lemma stream_isPrefix {a : Sender.Label m n} {sender : Sender m n Packet}
    (ht : Sender.Trans ends.sender (ends.sender.raptorq.encode crate) s.sender a sender) :
    s.stream <+: ({ s with sender := sender } : Lossy m n d k Packet).stream := by
  cases ht with
  | @server a servers out pipeline hserver hput =>
    show _ <+: pipeline.put.reduceOption
    rw [Sender.putAll_eq hput, List.reduceOption_append]
    exact List.prefix_append _ _
  | @pipeline a pipeline ha hpipe =>
    cases Pipeline.step_iff.mp hpipe with
    | put => cases ha
    | _ => exact List.prefix_rfl

/-! ## The condition on the steps -/

/-- The packet of block `i` is not taken for one of another block while block `e` is the current
one: if its slot is in the window, so is its block. -/
def Unmistaken (e i : ℕ) : Prop :=
  (UInt8.ofNat i - UInt8.ofNat e).toNat < windowWidth.toNat → e ≤ i ∧ i < e + windowWidth.toNat

/-- After a reset the receiver does not go back, and the blocks that it leaves out are of no
transfer that is active after all the messages before. -/
def LeavesOut (crate : Crate Packet) (ends : Ends) (s : Lossy m n d k Packet) (e : ℕ) : Prop :=
  s.expected ≤ e ∧
    ∀ b ∈ (s.stream.take e).drop s.expected, Unmissed (viewOf (s.messages crate ends)) b

/-- The condition on the steps. When packets arrive, none of them is taken for one of another block;
if there is a reset, the blocks that are left out are of no active transfer. The reblock worker and
the decoding threads keep the blocks in flight in order. -/
def Sound (crate : Crate Packet) (ends : Ends) (s : Lossy m n d k Packet) :
    Label m n d k → Prop
  | .arrive first rest =>
    (s.core.reblock.reset = true → s.LeavesOut crate ends first.1) ∧
      ∀ a ∈ first :: rest.getD [], Unmistaken (s.current first.1) a.1
  | .reblock => s.core.Orderly crate ends.receiver.raptorq .reblock
  | .decode w => s.core.Orderly crate ends.receiver.raptorq (.decode w)
  | _ => True

/-- Whether a packet may be mistaken can be decided. -/
instance (e i : ℕ) : Decidable (Unmistaken e i) := by
  unfold Unmistaken
  infer_instance

/-- Whether the blocks that are left out matter can be decided. -/
instance (s : Lossy m n d k Packet) (e : ℕ) : Decidable (s.LeavesOut crate ends e) := by
  unfold LeavesOut
  infer_instance

/-- Whether a step is sound can be decided. -/
instance (s : Lossy m n d k Packet) (a : Label m n d k) : Decidable (s.Sound crate ends a) := by
  unfold Sound
  split <;> infer_instance

end Lossy

end Lidi.Link
