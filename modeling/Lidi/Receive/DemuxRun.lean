import Lidi.Core.LTS
import Lidi.Receive.Dispatch

set_option relaxedAutoImplicit false
set_option autoImplicit false

/-!
# Runs of the dispatch worker and the client workers

The dispatch worker receives any messages at all, and the client workers take their steps and drop
their queues at any moment. What the dispatch worker does depends on the client that a block is
addressed to, on its type, and on whether the transfer is active and its worker still there.

## Main definitions

* `Receive.Demux.Label`, `Receive.Demux.step` — the transition system.
* `Block.addressee` — the client and the type of a block that is of a transfer.
* `Receive.Demux.Received` — the kinds of steps of the dispatch worker.
* `Receive.Demux.Aside` — what the client workers may do to the transfers.

## Main results

* `Receive.Demux.received_of_receive` — receiving a message is one of the kinds of steps.
* `Receive.Demux.aside_of_step` — the other steps leave alone what the dispatch worker has done.
* `Receive.Demux.Received.valid`, `Receive.Demux.Valid.aside` — the active transfers stay transfers
  of their clients.
-/

namespace Lidi

/-- The client and the type of a block of known type that is not a heartbeat. -/
def Block.addressee (b : Block) : Option (ClientId × BlockType) :=
  match b.blockType, b.clientId with
  | .ok .heartbeat, _ => none
  | .ok type, some id => some (id, type)
  | _, _ => none

/-- A block of known type has a client number. -/
lemma Block.exists_clientId {b : Block} {type : BlockType} (h : b.blockType = .ok type) :
    ∃ id, b.clientId = some id := by
  have hlen : 5 ≤ b.bytes.length := by
    by_contra hlt
    have hget : (b.bytes[4]? : Option UInt8) = none := List.getElem?_eq_none (by omega)
    simp [Block.blockType, hget] at h
  exact ⟨_, if_pos (by omega)⟩

/-- A block without data that is built by the constructor is addressed to its client. -/
lemma Block.addressee_of_new {raptorq : RaptorQ} {type : BlockType} {id : ClientId} {b : Block}
    (h : Block.new type raptorq id none = .ok b) (htype : type ≠ .heartbeat) :
    b.addressee = some (id, type) := by
  have hty := Block.blockType_of_new h
  have hid := Block.clientId_of_new h
  cases type <;> simp_all [Block.addressee]

/-- The constructor without data fails only if the geometry has no room for the first two fields. -/
lemma Block.new_none_eq (type : BlockType) (raptorq : RaptorQ) (id : ClientId) :
    (raptorq.transferLength.toNat < 5 ∧ Block.new type raptorq id none = .error .panic) ∨
      5 ≤ raptorq.transferLength.toNat ∧ ∃ b, Block.new type raptorq id none = .ok b := by
  have hid : (LittleEndian.encode 4 id.toNat).length = 4 := LittleEndian.length_encode _ _
  by_cases hlt : raptorq.transferLength.toNat < 5
  · left
    simp [Block.new, hid, hlt]
  · right
    simp [Block.new, hid, hlt]
    omega

namespace Receive

open Function

/-- The `Abort` that is put in the queue of an active transfer when synchronization is lost. -/
def abortOf (raptorq : RaptorQ) (id : ClientId) : List Block :=
  match Block.new .abort raptorq id none with
  | .ok b => [b]
  | .error _ => []

namespace Transfer

/-- Sending several blocks. -/
def putAll (t : Transfer) (blocks : List Block) : Transfer :=
  blocks.foldl put t

/-- Putting a block in a queue does not change whose transfer it is. -/
@[simp]
lemma clientId_put (t : Transfer) (b : Block) : (t.put b).clientId = t.clientId := by
  unfold put
  split <;> rfl

/-- Putting a block in a queue does not drop it. -/
@[simp]
lemma dropped_put (t : Transfer) (b : Block) : (t.put b).dropped = t.dropped := by
  unfold put
  split <;> rfl

/-- A block that is put in a queue comes last. -/
lemma sent_put {t : Transfer} (h : t.dropped = false) (b : Block) :
    (t.put b).sent = t.sent ++ [b] := by
  simp [put, h, sent]

/-- Nothing gets into a queue whose receiving end has been dropped. -/
lemma put_of_dropped {t : Transfer} (h : t.dropped = true) (b : Block) : t.put b = t :=
  if_pos h

/-- Several blocks do not change whose transfer it is. -/
@[simp]
lemma clientId_putAll (t : Transfer) (blocks : List Block) :
    (t.putAll blocks).clientId = t.clientId := by
  unfold putAll
  induction blocks generalizing t with
  | nil => rfl
  | cons b blocks ih => exact (ih (t.put b)).trans (t.clientId_put b)

/-- Nor do they drop the queue. -/
@[simp]
lemma dropped_putAll (t : Transfer) (blocks : List Block) :
    (t.putAll blocks).dropped = t.dropped := by
  unfold putAll
  induction blocks generalizing t with
  | nil => rfl
  | cons b blocks ih => exact (ih (t.put b)).trans (t.dropped_put b)

/-- Several blocks come last, in their order. -/
lemma sent_putAll {t : Transfer} (h : t.dropped = false) (blocks : List Block) :
    (t.putAll blocks).sent = t.sent ++ blocks := by
  unfold putAll
  induction blocks generalizing t with
  | nil => simp
  | cons b blocks ih =>
    have hput := ih (t := t.put b) (by rw [dropped_put, h])
    rw [List.foldl_cons, hput, sent_put h, List.append_assoc, List.singleton_append]

/-- A queue that was dropped takes nothing. -/
lemma putAll_of_dropped {t : Transfer} (h : t.dropped = true) (blocks : List Block) :
    t.putAll blocks = t := by
  unfold putAll
  induction blocks with
  | nil => rfl
  | cons b blocks ih => rw [List.foldl_cons, put_of_dropped h, ih]

end Transfer

namespace Demux

variable {k : ℕ} {config : Config} {s s' : Demux k}

/-- The dispatch worker receives a message, a client worker takes a step, or the receiving end of
the queue of a transfer is dropped at some other moment: a worker that returns from a transfer
drops its queue a little later. -/
inductive Label (k : ℕ)
  | receive (m : Option Block)
  | client (w : Fin k) (answer : Client.Answer)
  | drop (q : ℕ)
  deriving DecidableEq

/-- The next step; `none` if the worker is blocked or has stopped. -/
def step (config : Config) (s : Demux k) : Label k → Option (Demux k)
  | .receive m => if s.dispatch.isNone then some (s.receive config m) else none
  | .client w answer => s.clientStep config w answer
  | .drop q => some { s with transfers := s.transfers.modify q Transfer.drop }

/-- The active transfers are transfers of their clients. -/
def Valid (s : Demux k) : Prop :=
  ∀ id q, s.active id = some q → ∃ t, s.transfers[q]? = some t ∧ t.clientId = id

/-- What is known of a block by its addressee. -/
lemma receive_eq (config : Config) (s : Demux k) (b : Block) : s.receive config (some b) =
    match b.addressee with
    | none => s
    | some (id, .start) => (s.register id).forward id b false
    | some (id, type) => s.forward id b (type = .abort || type = .end) := by
  unfold Demux.receive Block.addressee
  cases htype : b.blockType with
  | error e => simp [htype]
  | ok type =>
    obtain ⟨id, hid⟩ := Block.exists_clientId htype
    cases type <;> simp [htype, hid]

/-- The transfer after synchronization has been lost. -/
def aborted (raptorq : RaptorQ) (active : ClientId → Option ℕ) (q : ℕ) (t : Transfer) : Transfer :=
  if active t.clientId = some q then t.putAll (abortOf raptorq t.clientId) else t

/-- All active transfers get an `Abort`, unless none can be built. -/
lemma abortAll_eq (raptorq : RaptorQ) (active : ClientId → Option ℕ) (q : ℕ)
    (transfers : List Transfer) :
    (∃ transfers', abortAll raptorq active q transfers = .ok transfers' ∧
      ∀ i, transfers'[i]? = (transfers[i]?).map (aborted raptorq active (q + i))) ∨
    raptorq.transferLength.toNat < 5 ∧ ∃ f, abortAll raptorq active q transfers = .error f := by
  induction transfers generalizing q with
  | nil => exact .inl ⟨[], rfl, by simp⟩
  | cons t transfers ih =>
    rcases ih (q + 1) with ⟨rest, hrest, hget⟩ | ⟨hlt, f, hf⟩
    · have hall : ∀ t', t' = aborted raptorq active q t → ∀ i : ℕ, (t' :: rest)[i]? =
          ((t :: transfers)[i]?).map (aborted raptorq active (q + i)) := by
        rintro t' rfl i
        cases i with
        | zero => rfl
        | succ i =>
          have hindex : q + 1 + i = q + (i + 1) := by omega
          simp [hget i, hindex]
      by_cases hactive : active t.clientId = some q
      · rcases Block.new_none_eq .abort raptorq t.clientId with ⟨hlt, hnew⟩ | ⟨-, b, hnew⟩
        · refine .inr ⟨hlt, .panic, ?_⟩
          simp [abortAll, hrest, hactive, hnew, Outcome.mapError]
        · refine .inl ⟨t.put b :: rest, ?_, hall _ ?_⟩
          · simp [abortAll, hrest, hactive, hnew, Outcome.mapError]
          · simp [aborted, hactive, abortOf, hnew, Transfer.putAll]
      · refine .inl ⟨t :: rest, ?_, hall _ ?_⟩
        · simp [abortAll, hrest, hactive]
        · simp [aborted, hactive]
    · refine .inr ⟨hlt, f, ?_⟩
      simp [abortAll, hf]

/-- The kinds of steps of the dispatch worker. -/
inductive Received (config : Config) (s : Demux k) : Option Block → Demux k → Prop
  | lost {transfers : List Transfer}
      (hget : ∀ i, transfers[i]? = (s.transfers[i]?).map (aborted config.raptorq s.active i)) :
      Received config s none { s with transfers := transfers, active := fun _ => none }
  | stopped {f : Fault Error} (hlt : config.raptorq.transferLength.toNat < 5) :
      Received config s none { s with dispatch := some f }
  | ignored {b : Block} (hb : b.addressee = none) : Received config s (some b) s
  | start {b : Block} {id : ClientId} (hb : b.addressee = some (id, .start)) :
      Received config s (some b)
        { s.register id with transfers := s.transfers ++ [(Transfer.new id).put b] }
  | inactive {b : Block} {id : ClientId} {type : BlockType} (hb : b.addressee = some (id, type))
      (htype : type ≠ .start) (hactive : s.active id = none) : Received config s (some b) s
  | gone {b : Block} {id : ClientId} {type : BlockType} {q : ℕ} {t : Transfer}
      (hb : b.addressee = some (id, type)) (htype : type ≠ .start) (hactive : s.active id = some q)
      (ht : s.transfers[q]? = some t) (hdropped : t.dropped = true) :
      Received config s (some b) { s with active := update s.active id none }
  | data {b : Block} {id : ClientId} {q : ℕ} {t : Transfer}
      (hb : b.addressee = some (id, .data)) (hactive : s.active id = some q)
      (ht : s.transfers[q]? = some t) (hopen : t.dropped = false) :
      Received config s (some b) { s with transfers := s.transfers.set q (t.put b) }
  | last {b : Block} {id : ClientId} {type : BlockType} {q : ℕ} {t : Transfer}
      (hb : b.addressee = some (id, type)) (htype : type = .abort ∨ type = .end)
      (hactive : s.active id = some q) (ht : s.transfers[q]? = some t)
      (hopen : t.dropped = false) :
      Received config s (some b) { s with
        transfers := s.transfers.set q (t.put b)
        active := update s.active id none
        ended := update (retain (s.transfers.set q (t.put b)) s.ended) id (some q) }

/-- A block is not addressed as a heartbeat. -/
lemma addressee_ne_heartbeat {b : Block} {id : ClientId} : b.addressee ≠ some (id, .heartbeat) := by
  unfold Block.addressee
  cases b.blockType with
  | error e => simp
  | ok type => cases type <;> cases b.clientId <;> simp

/-- **Receiving a message is one of these steps.** -/
theorem received_of_receive (hvalid : s.Valid) (config : Config) (m : Option Block) :
    Received config s m (s.receive config m) := by
  cases m with
  | none =>
    simp only [Demux.receive, lose]
    rcases abortAll_eq config.raptorq s.active 0 s.transfers with
      ⟨transfers, hall, hget⟩ | ⟨hlt, f, hf⟩
    · rw [hall]
      exact .lost (by simpa using hget)
    · rw [hf]
      exact .stopped hlt
  | some b =>
    rw [receive_eq]
    cases hb : b.addressee with
    | none => exact .ignored hb
    | some a =>
      obtain ⟨id, type⟩ := a
      by_cases htype : type = .start
      · subst htype
        simp only [forward_register]
        exact .start hb
      · have hmatch : (match (some (id, type) : Option (ClientId × BlockType)) with
            | none => s
            | some (id, .start) => (s.register id).forward id b false
            | some (id, type) => s.forward id b (type = .abort || type = .end)) =
            s.forward id b (type = .abort || type = .end) := by
          cases type <;> first | rfl | exact absurd rfl htype
        rw [hmatch]
        unfold Demux.forward
        cases hactive : s.active id with
        | none => exact .inactive hb htype hactive
        | some q =>
          obtain ⟨t, ht, -⟩ := hvalid id q hactive
          simp only [ht]
          cases hdropped : t.dropped with
          | true =>
            simp only [if_true]
            exact .gone hb htype hactive ht hdropped
          | false =>
            cases type with
            | heartbeat => exact absurd hb addressee_ne_heartbeat
            | start => exact absurd rfl htype
            | data => exact .data hb hactive ht hdropped
            | abort => exact .last hb (.inl rfl) hactive ht hdropped
            | «end» => exact .last hb (.inr rfl) hactive ht hdropped

/-- What the client workers may do between two steps of the dispatch worker: they take blocks from
the queues and drop them. -/
structure Aside (s s' : Demux k) : Prop where
  active_eq : s'.active = s.active
  ended_eq : s'.ended = s.ended
  dispatch_eq : s'.dispatch = s.dispatch
  length_eq : s'.transfers.length = s.transfers.length
  kept : ∀ (q : ℕ) (t : Transfer), s.transfers[q]? = some t → ∃ t', s'.transfers[q]? = some t' ∧
    t'.clientId = t.clientId ∧ t'.sent = t.sent ∧ (t.dropped = true → t'.dropped = true)

/-- Nothing happens to a transfer. -/
lemma kept_self (t : Transfer) :
    t.clientId = t.clientId ∧ t.sent = t.sent ∧ (t.dropped = true → t.dropped = true) :=
  ⟨rfl, rfl, id⟩

/-- **The steps of the client workers leave alone what the dispatch worker has done.** -/
theorem aside_of_step {config : Config} {s s' : Demux k} {a : Label k}
    (h : Demux.step config s a = some s') (ha : ∀ m, a ≠ .receive m) : Aside s s' := by
  cases a with
  | receive m => exact absurd rfl (ha m)
  | client w answer =>
    cases clientStep_iff.mp h with
    | recv hw hin => exact ⟨rfl, rfl, rfl, rfl, fun q t ht => ⟨t, ht, kept_self t⟩⟩
    | acquire hw hsem => exact ⟨rfl, rfl, rfl, rfl, fun q t ht => ⟨t, ht, kept_self t⟩⟩
    | @serve q stage answer t t' result hw hq hstep =>
      refine ⟨rfl, rfl, rfl, List.length_set, fun q₁ t₁ ht₁ => ?_⟩
      by_cases heq : q₁ = q
      · subst heq
        obtain rfl : t = t₁ := by simpa using hq.symm.trans ht₁
        obtain ⟨hsent, hid⟩ := hstep.sent_eq
        have hlt := (List.getElem?_eq_some_iff.mp hq).1
        refine ⟨t', List.getElem?_set_self hlt, hid, hsent, fun hdropped => ?_⟩
        have hdrop := hstep.dropped_eq
        cases result with
        | go stage' => exact hdrop.trans hdropped
        | returned => exact hdrop
        | panicked => exact hdrop
      · exact ⟨t₁, (List.getElem?_set_ne (Ne.symm heq)).trans ht₁, kept_self t₁⟩
  | drop q =>
    cases h
    refine ⟨rfl, rfl, rfl, by simp, fun q₁ t₁ ht₁ => ?_⟩
    by_cases heq : q = q₁
    · exact ⟨t₁.drop, by simp [heq, ht₁], rfl, rfl, fun _ => rfl⟩
    · exact ⟨t₁, by simp [heq, ht₁], kept_self t₁⟩

/-- At first there is no active transfer. -/
lemma Valid.init : (init k).Valid := by
  intro id q hactive
  simp [Demux.init] at hactive

/-- The transfer in the active queue of a client is that of the client. -/
lemma Valid.clientId_eq (h : s.Valid) {id : ClientId} {q : ℕ} {t : Transfer}
    (hactive : s.active id = some q) (ht : s.transfers[q]? = some t) : t.clientId = id := by
  obtain ⟨t₁, ht₁, hid⟩ := h id q hactive
  obtain rfl : t = t₁ := by simpa using ht.symm.trans ht₁
  exact hid

/-- What the client workers do keeps the active transfers. -/
lemma Valid.aside (h : s.Valid) (haside : Aside s s') : s'.Valid := by
  intro id q hactive
  rw [haside.active_eq] at hactive
  obtain ⟨t, ht, hid⟩ := h id q hactive
  obtain ⟨t', ht', hid', -⟩ := haside.kept q t ht
  exact ⟨t', ht', hid'.trans hid⟩

/-- A step of the dispatch worker keeps the active transfers. -/
lemma Received.valid {m : Option Block} (hvalid : s.Valid) (h : Received config s m s') :
    s'.Valid := by
  -- putting a block in a queue does not change whose transfer it is
  have hset : ∀ {q t} (b : Block), s.transfers[q]? = some t → ∀ id q', s.active id = some q' →
      ∃ t', (s.transfers.set q (t.put b))[q']? = some t' ∧ t'.clientId = id := by
    intro q t b ht id q' hactive
    obtain ⟨t₁, ht₁, hid⟩ := hvalid id q' hactive
    by_cases heq : q = q'
    · subst heq
      obtain rfl : t = t₁ := by simpa using ht.symm.trans ht₁
      have hlt := (List.getElem?_eq_some_iff.mp ht).1
      exact ⟨t.put b, List.getElem?_set_self hlt, (t.clientId_put b).trans hid⟩
    · exact ⟨t₁, (List.getElem?_set_ne heq).trans ht₁, hid⟩
  cases h with
  | lost hget =>
    intro id q hactive
    simp at hactive
  | stopped hlt => exact hvalid
  | ignored hb => exact hvalid
  | @start b id hb =>
    intro id' q hactive
    simp only [register] at hactive
    by_cases heq : id' = id
    · subst heq
      obtain rfl : s.transfers.length = q := by simpa using hactive
      exact ⟨_, List.getElem?_concat_length, by simp [Transfer.new]⟩
    · rw [update_of_ne heq] at hactive
      obtain ⟨t, ht, hid⟩ := hvalid id' q hactive
      have hlt := (List.getElem?_eq_some_iff.mp ht).1
      exact ⟨t, (List.getElem?_append_left hlt).trans ht, hid⟩
  | inactive hb htype hactive => exact hvalid
  | @gone b id type q t hb htype hactive ht hdropped =>
    intro id' q' hactive'
    by_cases heq : id' = id
    · subst heq
      simp at hactive'
    · exact hvalid id' q' (by simpa [update_of_ne heq] using hactive')
  | @data b id q t hb hactive ht hopen => exact hset b ht
  | @last b id type q t hb htype hactive ht hopen =>
    intro id' q' hactive'
    by_cases heq : id' = id
    · subst heq
      simp at hactive'
    · exact hset b ht id' q' (by simpa [update_of_ne heq] using hactive')

end Demux

end Receive

end Lidi
