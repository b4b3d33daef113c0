import Lidi.Receive.Abandoned
import Lidi.Receive.Heard
import Lidi.Receive.Informed
import Lidi.Receive.Lossless

set_option relaxedAutoImplicit false
set_option autoImplicit false

/-!
# Reception while clients fail and blocks are lost

The calls of a client may fail, or the wait for its blocks may time out. The worker then gives the
transfer up and takes another one. The dispatch worker may get loss markers, and aborts the active
transfers. The other transfers go on as if nothing had happened: a transfer of which all blocks are
received, with no marker in between, gets all of them in its queue, and it is not over before the
last one.

## Main definitions

* `Receive.Demux.Spares` — the condition on the steps: no call of some of the clients fails.
* `Receive.Finished` — the last block of a transfer has been received while it was active.
* `Receive.Isolated` — the invariant.

## Main results

* `Receive.Isolated.receive`, `Receive.Isolated.clientStep` — the steps keep the invariant.
* `Receive.Isolated.received_whole` — if the client workers can do nothing more and no transfer is
  active, then the transfers of the clients that were spared have ended with all their blocks, if
  they have finished.
-/

namespace Lidi

/-- A client worker can read the type and the data of the block. -/
def Block.Readable (b : Block) : Prop :=
  ∃ type data, b.blockType = .ok type ∧ b.payload = some data

/-- A block of the sender can be read. -/
lemma Block.Carries.readable {raptorq : RaptorQ} {b : Block} {type : BlockType} {id : ClientId}
    {data : List UInt8} (h : b.Carries raptorq type id data) : b.Readable :=
  ⟨type, data, h.blockType_eq, h.payload_eq⟩

/-- The addressee of a well-formed block. -/
lemma Block.Carries.addressee_eq {raptorq : RaptorQ} {b : Block} {type : BlockType} {id : ClientId}
    {data : List UInt8} (h : b.Carries raptorq type id data) :
    b.addressee = if type = .heartbeat then none else some (id, type) := by
  unfold Block.addressee
  rw [h.blockType_eq, h.clientId_eq]
  cases type <;> rfl

namespace Receive

open Function

variable {k : ℕ} {s s' : Demux k} {config : Config} {w : Fin k} {answer : Client.Answer}
  {spared : ClientId → Prop}

namespace Demux

/-- The client that a worker serves. -/
def client (s : Demux k) (w : Fin k) : Option ClientId :=
  match s.workers w with
  | .serve q _ => (s.transfers[q]?).map Transfer.clientId
  | _ => none

/-- If the worker serves one of these clients, its calls succeed. -/
def Spares (spared : ClientId → Prop) (s : Demux k) (w : Fin k) (answer : Client.Answer) : Prop :=
  ∀ id ∈ s.client w, spared id → answer = .ok

/-- Whether a step spares these clients can be decided. -/
instance [DecidablePred spared] : Decidable (s.Spares spared w answer) :=
  Option.decidableForallMem (s.client w)

/-- A worker that fails does not serve a client that is spared. -/
lemma Spares.not_spared (h : s.Spares spared w answer) (hfault : answer ≠ .ok) {q : ℕ}
    {stage : Client.Stage} {t : Transfer} (hw : s.workers w = .serve q stage)
    (hq : s.transfers[q]? = some t) : ¬ spared t.clientId := by
  intro hspared
  exact hfault (h t.clientId (by simp [client, hw, hq]) hspared)

end Demux

/-! ## Transfers that are received to their ends -/

section Finished

variable {messages : List (Option Block)} {m : Option Block} {view : ClientId → Bool}
  {id : ClientId} {raptorq : RaptorQ} {blocks more : List Block} {b : Block}

/-- The last block of the transfer has been received while the transfer was active. -/
def Finished (messages : List (Option Block)) (id : ClientId) : Prop :=
  ∃ before b type after, messages = before ++ some b :: after ∧
    b.addressee = some (id, type) ∧ (type = .abort ∨ type = .end) ∧ viewOf before id = true

/-- A transfer is active after a message if the message is its `Start`, or if it was active before
and the message is not a marker and does not end it. -/
lemma of_activeAfter (h : activeAfter view m id = true) : ∃ b, m = some b ∧
    (b.addressee = some (id, .start) ∨
      (view id = true ∧ ∀ type, b.addressee = some (id, type) → type = .data)) := by
  cases m with
  | none => simp [activeAfter] at h
  | some b =>
    refine ⟨b, rfl, ?_⟩
    unfold activeAfter at h
    cases hb : b.addressee with
    | none => exact .inr ⟨by simpa [hb] using h, by simp⟩
    | some a =>
      obtain ⟨id', type⟩ := a
      by_cases hid : id = id'
      · subst hid
        cases type with
        | heartbeat => exact absurd hb Demux.addressee_ne_heartbeat
        | start => exact .inl rfl
        | data => exact .inr ⟨by simpa [hb] using h, by simp⟩
        | abort | «end» => simp [hb] at h
      · have hne : id' ≠ id := Ne.symm hid
        refine .inr ⟨?_, by simp [hne]⟩
        cases type <;> simpa [hb, update_of_ne hid] using h

/-- A transfer that was active is active after a block, or the block ends it. -/
lemma activeAfter_or_ends (h : view id = true) (b : Block) : activeAfter view (some b) id = true ∨
    ∃ type, b.addressee = some (id, type) ∧ (type = .abort ∨ type = .end) := by
  cases hb : b.addressee with
  | none => exact .inl (by simpa [activeAfter, hb] using h)
  | some a =>
    obtain ⟨id', type⟩ := a
    by_cases hid : id = id'
    · subst hid
      cases type with
      | heartbeat => exact absurd hb Demux.addressee_ne_heartbeat
      | start => exact .inl (by simp [activeAfter, hb])
      | data => exact .inl (by simpa [activeAfter, hb] using h)
      | abort => exact .inr ⟨_, rfl, .inl rfl⟩
      | «end» => exact .inr ⟨_, rfl, .inr rfl⟩
    · left
      cases type <;> simpa [activeAfter, hb, update_of_ne hid] using h

/-- A transfer that has finished stays so. -/
lemma Finished.append (h : Finished messages id) (m : Option Block) :
    Finished (messages ++ [m]) id := by
  obtain ⟨before, b, type, after, rfl, hb, htype, hview⟩ := h
  exact ⟨before, b, type, after ++ [m], by simp, hb, htype, hview⟩

/-- A transfer that has finished had finished before, or finishes with the last message. -/
lemma Finished.of_append (h : Finished (messages ++ [m]) id) : Finished messages id ∨
    ∃ b type, m = some b ∧ b.addressee = some (id, type) ∧ (type = .abort ∨ type = .end) ∧
      viewOf messages id = true := by
  obtain ⟨before, b, type, after, heq, hb, htype, hview⟩ := h
  rcases LTS.append_eq_append_cons heq with ⟨more, rfl, -⟩ | ⟨more, rfl, hm⟩
  · exact .inl ⟨before, b, type, more, rfl, hb, htype, hview⟩
  · obtain ⟨rfl, rfl⟩ : more = [] ∧ m = some b := by
      cases more with
      | nil =>
        obtain ⟨hm, -⟩ : m = some b ∧ after = [] := by simpa using hm
        exact ⟨rfl, hm⟩
      | cons x more => simp at hm
    rw [List.append_nil] at hview
    exact .inr ⟨b, type, rfl, hb, htype, hview⟩

/-- **Without a marker** a transfer that was active is still active, or has finished. -/
lemma active_or_finished (h : viewOf messages id = true) (blocks : List Block) :
    viewOf (messages ++ blocks.map some) id = true ∨ Finished (messages ++ blocks.map some) id := by
  induction blocks using List.reverseRecOn with
  | nil => exact .inl (by simpa using h)
  | append_singleton blocks b ih =>
    rw [List.map_append, List.map_singleton, ← List.append_assoc]
    rcases ih with hview | hfin
    · rw [viewOf_append]
      refine (activeAfter_or_ends hview b).imp_right fun ⟨type, hb, htype⟩ => ?_
      exact ⟨_, b, type, [], rfl, hb, htype, hview⟩
    · exact .inr (hfin.append _)

/-- A transfer of which the last block has been sent has no more blocks. -/
lemma Source.blocksOf_append_eq (h : Source raptorq (blocks ++ more)) (hb : b ∈ blocksOf id blocks)
    (hends : b.outcome ≠ none) : blocksOf id (blocks ++ more) = blocksOf id blocks := by
  obtain ⟨type, whole, bytes, -, hconveys, hpre⟩ := h.conveys id (by
    rw [blocksOf_append]
    exact List.append_ne_nil_of_left_ne_nil (List.ne_nil_of_mem hb) _)
  rw [blocksOf_append] at hpre ⊢
  have heq := hconveys.eq_of_isPrefix ((List.prefix_append _ _).trans hpre) hb hends
  have hlen := hpre.length_le
  rw [heq, List.length_append] at hlen
  have hnil : blocksOf id more = [] := List.eq_nil_of_length_eq_zero (by omega)
  rw [hnil, List.append_nil]

/-- A transfer that has ended has got a block that ends it. -/
lemma Ended.exists_last {t : Transfer} {ok : Bool} (h : Ended t ok) :
    ∃ b ∈ t.sent, b.outcome ≠ none := by
  obtain ⟨body, last, htaken, -, hlast⟩ := h.taken_eq
  exact ⟨last, by simp [Transfer.sent, htaken], by simp [hlast]⟩

end Finished

/-- **The invariant of a reception in which clients fail and blocks are lost.** `stream` are the
blocks that are sent, `received` the messages that the dispatch worker has received. A transfer that
is not over and has not got its last block is active; a client with an active transfer, as far as
the messages tell, has one without a last block. The transfer of a client that is spared is not over
before it has ended with a call of `client_end`, and has got all its blocks if it has finished. -/
structure Isolated (spared : ClientId → Prop) (stream : List Block)
    (received : List (Option Block)) (s : Demux k) : Prop where
  inv : s.Inv
  running : s.dispatch = none
  readable : ∀ t ∈ s.transfers, ∀ b ∈ t.sent, b.Readable
  active : ∀ q t, s.transfers[q]? = some t → t.dropped = false →
    (∀ b ∈ t.sent, b.outcome = none) → s.active t.clientId = some q
  unended : ∀ id q t, s.active id = some q → s.transfers[q]? = some t →
    ∀ b ∈ t.sent, b.outcome = none
  opened : ∀ id, viewOf received id = true →
    ∃ t ∈ s.transfers, t.clientId = id ∧ ∀ b ∈ t.sent, b.outcome = none
  whole : ∀ id, spared id → Finished received id → ∃ t ∈ s.transfers, t.clientId = id ∧
    t.sent = blocksOf id stream ∧ ∃ b ∈ t.sent, b.outcome ≠ none
  ended : ∀ t ∈ s.transfers, spared t.clientId → t.dropped = true → ∃ ok, Ended t ok
  permits : s.Permits
  healthy : ∀ w, s.workers w ≠ .panicked

namespace Isolated

variable {raptorq : RaptorQ} {stream : List Block} {received : List (Option Block)} {b : Block}
  {m : Option Block} {id : ClientId} {type : BlockType} {len q i : ℕ} {t t' : Transfer}
  {stage : Client.Stage} {result : Client.Result}

/-- The invariant holds at the start. -/
lemma init (spared : ClientId → Prop) (stream : List Block) (k : ℕ) :
    Isolated spared stream [] (Demux.init k) where
  inv := Demux.Inv.init
  running := rfl
  readable := List.forall_mem_nil _
  active q t ht := by simp [Demux.init] at ht
  unended id q t hactive := by simp [Demux.init] at hactive
  opened id hview := by simp [viewOf] at hview
  whole id _ hfin := by
    obtain ⟨before, b, type, after, heq, -⟩ := hfin
    simp at heq
  ended := List.forall_mem_nil _
  permits := .init k
  healthy w := by simp [Demux.init]

/-- More blocks are sent. -/
lemma mono (h : Isolated spared stream received s) {more : List Block}
    (hsource : Source raptorq (stream ++ more)) : Isolated spared (stream ++ more) received s := by
  refine ⟨h.inv, h.running, h.readable, h.active, h.unended, h.opened, fun id hspared hfin => ?_,
    h.ended, h.permits, h.healthy⟩
  obtain ⟨t, ht, hid, hsent, b, hb, hends⟩ := h.whole id hspared hfin
  exact ⟨t, ht, hid, hsent.trans (hsource.blocksOf_append_eq (hsent ▸ hb) hends).symm, b, hb, hends⟩

/-- **The transfer of a client that is spared is active** if the messages say so. -/
lemma exists_active (h : Isolated spared stream received s) (hspared : spared id)
    (hview : viewOf received id = true) :
    ∃ q t, s.active id = some q ∧ s.transfers[q]? = some t ∧ t.dropped = false := by
  obtain ⟨t, ht, rfl, hsent⟩ := h.opened id hview
  obtain ⟨q, hq⟩ := List.getElem?_of_mem ht
  have hopen : t.dropped = false := by
    by_contra hdropped
    obtain ⟨ok, hended⟩ := h.ended t ht hspared (by simpa using hdropped)
    obtain ⟨b, hb, hends⟩ := hended.exists_last
    exact hends (hsent b hb)
  exact ⟨q, t, h.active q t hq hopen hsent, hq, hopen⟩

/-! ## The dispatch worker -/

/-- A block that is not put in any queue. -/
lemma pass (h : Isolated spared stream received s) (hstart : ∀ id, b.addressee ≠ some (id, .start))
    {active : ClientId → Option ℕ}
    (hkept : ∀ q t, s.transfers[q]? = some t → t.dropped = false →
      s.active t.clientId = some q → active t.clientId = some q)
    (hold : ∀ id q, active id = some q → s.active id = some q)
    (hlast : ∀ id type, b.addressee = some (id, type) → spared id → viewOf received id = false) :
    Isolated spared stream (received ++ [some b]) { s with active := active } := by
  refine ⟨h.inv, h.running, h.readable,
    fun q t hq hopen hnone => hkept q t hq hopen (h.active q t hq hopen hnone),
    fun id q t hactive => h.unended id q t (hold id q hactive), fun id hview => ?_,
    fun id hspared hfin => ?_, h.ended, h.permits, h.healthy⟩
  · rw [viewOf_append] at hview
    obtain ⟨b', hb', hstart' | ⟨hview, -⟩⟩ := of_activeAfter hview
    · obtain rfl := Option.some.inj hb'
      exact absurd hstart' (hstart id)
    · exact h.opened id hview
  · rcases hfin.of_append with hfin | ⟨b', type, hb', haddr, -, hview⟩
    · exact h.whole id hspared hfin
    · obtain rfl := Option.some.inj hb'
      simp [hlast id type haddr hspared] at hview

/-- A `Start` opens a queue. -/
lemma register (h : Isolated spared stream received s) (hb : b.addressee = some (id, .start))
    (hreadable : b.Readable) (hnew : ∀ t ∈ s.transfers, t.clientId ≠ id) :
    Isolated spared stream (received ++ [some b])
      { s.register id with transfers := s.transfers ++ [(Transfer.new id).put b] } := by
  have hout : b.outcome = none := Block.outcome_of_addressee hb
  have hsent : ((Transfer.new id).put b).sent = [b] := Transfer.sent_put rfl b
  have hinv : Demux.Inv
      { s.register id with transfers := s.transfers ++ [(Transfer.new id).put b] } :=
    Account.congr (h.inv.register id) (by simp [Demux.register, Demux.progress_put])
  have hcases : ∀ (q : ℕ) (t : Transfer), (s.transfers ++ [(Transfer.new id).put b])[q]? = some t →
      s.transfers[q]? = some t ∨ (q = s.transfers.length ∧ t = (Transfer.new id).put b) := by
    intro q t ht
    rcases lt_or_ge q s.transfers.length with hlt | hge
    · exact .inl (by rwa [List.getElem?_append_left hlt] at ht)
    · have hlt := (List.getElem?_eq_some_iff.mp ht).1
      rw [List.length_append, List.length_singleton] at hlt
      obtain rfl : q = s.transfers.length := by omega
      rw [List.getElem?_concat_length, Option.some.injEq] at ht
      exact .inr ⟨rfl, ht.symm⟩
  refine ⟨hinv, h.running, fun t ht => ?_, fun q t hq hopen hnone => ?_,
    fun id' q t hactive hq => ?_, fun id' hview => ?_, fun id' hspared hfin => ?_,
    fun t ht hspared hd => ?_, h.permits, h.healthy⟩
  · rcases List.mem_append.mp ht with ht | ht
    · exact h.readable t ht
    · rw [List.mem_singleton.mp ht, hsent]
      simpa using hreadable
  · rcases hcases q t hq with hq | ⟨rfl, rfl⟩
    · simp only [Demux.register, update_of_ne (hnew t (List.mem_of_getElem? hq))]
      exact h.active q t hq hopen hnone
    · exact update_self ..
  · rcases hcases q t hq with hq | ⟨-, rfl⟩
    · have hlt := (List.getElem?_eq_some_iff.mp hq).1
      refine h.unended id' q t ?_ hq
      by_cases hid : id' = id
      · subst hid
        simp only [Demux.register, update_self, Option.some.injEq] at hactive
        omega
      · simpa only [Demux.register, update_of_ne hid] using hactive
    · rw [hsent]
      simpa using hout
  · rw [viewOf_append] at hview
    obtain ⟨b', hb', hstart | ⟨hview, -⟩⟩ := of_activeAfter hview
    · obtain rfl := Option.some.inj hb'
      obtain ⟨rfl, -⟩ : id = id' ∧ True := by simpa [hb] using hstart
      refine ⟨_, List.mem_append_right _ (List.mem_singleton_self _), rfl, ?_⟩
      rw [hsent]
      simpa using hout
    · obtain ⟨t, ht, hid, hsent⟩ := h.opened id' hview
      exact ⟨t, List.mem_append_left _ ht, hid, hsent⟩
  · rcases hfin.of_append with hfin | ⟨b', type, hb', haddr, htype, -⟩
    · obtain ⟨t, ht, hwhole⟩ := h.whole id' hspared hfin
      exact ⟨t, List.mem_append_left _ ht, hwhole⟩
    · obtain rfl := Option.some.inj hb'
      obtain ⟨-, rfl⟩ : id = id' ∧ BlockType.start = type := by simpa [hb] using haddr
      simp at htype
  · rcases List.mem_append.mp ht with ht | ht
    · exact h.ended t ht hspared hd
    · rw [List.mem_singleton.mp ht] at hd
      cases hd

/-- A block is put in the queue of an active transfer, which stays active unless the block ends
it. -/
lemma put (h : Isolated spared stream received s) (hdel : Delivered (stream.take i) s)
    (hsource : Source raptorq stream) (hget : stream[i]? = some b)
    (hb : b.addressee = some (id, type)) (htype : type ≠ .start) (hactive : s.active id = some q)
    (hq : s.transfers[q]? = some t) (hopen : t.dropped = false)
    {active ended : ClientId → Option ℕ} (hdata : b.outcome = none → active = s.active)
    (hlast : b.outcome ≠ none → active = update s.active id none) :
    Isolated spared stream (received ++ [some b])
      { s with transfers := s.transfers.set q (t.put b), active := active, ended := ended } := by
  obtain ⟨t₁, ht₁, hid, hsent⟩ := hdel.active id q hactive
  obtain rfl : t = t₁ := by simpa using hq.symm.trans ht₁
  have hout := Block.outcome_of_addressee hb
  have hput : (t.put b).clientId = id ∧ (t.put b).dropped = false ∧
      (t.put b).sent = t.sent ++ [b] :=
    ⟨(t.clientId_put b).trans hid, (t.dropped_put b).trans hopen, Transfer.sent_put hopen b⟩
  have hold : ∀ id' q', active id' = some q' → s.active id' = some q' := by
    intro id' q' hid'
    by_cases hnone : b.outcome = none
    · rwa [hdata hnone] at hid'
    · rw [hlast hnone] at hid'
      by_cases heq : id' = id
      · simp [heq] at hid'
      · rwa [update_of_ne heq] at hid'
  -- the transfers afterwards: that of the block, and the others
  have hcases : ∀ (q' : ℕ) (t' : Transfer), (s.transfers.set q (t.put b))[q']? = some t' →
      (q' = q ∧ t' = t.put b) ∨ (s.transfers[q']? = some t' ∧ t'.clientId ≠ id) := by
    intro q' t' ht'
    rcases Demux.getElem?_set_cases ht' with heq | ⟨hne, ht'⟩
    · exact .inl heq
    · exact .inr ⟨ht', fun hid' => hne (hdel.index_eq ht' hq (hid'.trans hid.symm))⟩
  have hkept : ∀ t' ∈ s.transfers, t' = t ∨ t' ∈ s.transfers.set q (t.put b) := by
    intro t' ht'
    obtain ⟨q', hq'⟩ := List.getElem?_of_mem ht'
    by_cases hne : q' = q
    · subst hne
      exact .inl (Option.some.inj (hq'.symm.trans hq))
    · exact .inr (List.mem_of_getElem? ((List.getElem?_set_ne (Ne.symm hne)).trans hq'))
  have hmem : t.put b ∈ s.transfers.set q (t.put b) :=
    List.mem_set (List.getElem?_eq_some_iff.mp hq).1 _
  have hinv : Demux.Inv
      { s with transfers := s.transfers.set q (t.put b), active := active, ended := ended } :=
    Account.congr h.inv (Demux.map_set_of_eq hq (Demux.progress_put t b))
  have hnone := h.unended id q t hactive hq
  refine ⟨hinv, h.running, fun t' ht' => ?_, fun q' t' hq' hopen' hnone' => ?_,
    fun id' q' t' hid' hq' => ?_, fun id' hview => ?_, fun id' hspared hfin => ?_,
    fun t' ht' hspared hd => ?_, h.permits, h.healthy⟩
  · rcases List.mem_or_eq_of_mem_set ht' with ht' | rfl
    · exact h.readable t' ht'
    · rw [hput.2.2]
      intro b' hb'
      rcases List.mem_append.mp hb' with hb' | hb'
      · exact h.readable t (List.mem_of_getElem? hq) b' hb'
      · obtain ⟨_, _, _, hcarries⟩ := hsource.carries b (List.mem_of_getElem? hget)
        exact List.mem_singleton.mp hb' ▸ hcarries.readable
  · rcases hcases q' t' hq' with ⟨rfl, rfl⟩ | ⟨hq', hid'⟩
    · rw [hput.1, hdata (hnone' b (by simp [hput.2.2]))]
      exact hactive
    · have hsame := h.active q' t' hq' hopen' hnone'
      show active t'.clientId = some q'
      by_cases hends : b.outcome = none
      · rwa [hdata hends]
      · rwa [hlast hends, update_of_ne hid']
  · rcases hcases q' t' hq' with ⟨rfl, rfl⟩ | ⟨hq', -⟩
    · have hids : id' = id := by
        obtain ⟨t₁, ht₁, hid₁, -⟩ := hdel.active id' q' (hold id' q' hid')
        rw [← hid₁, ← hid, Option.some.inj (ht₁.symm.trans hq)]
      have hends : b.outcome = none := by
        by_contra hends
        change active id' = some q' at hid'
        rw [hlast hends, hids, update_self] at hid'
        cases hid'
      rw [hput.2.2, List.forall_mem_append]
      exact ⟨hnone, by simpa using hends⟩
    · exact h.unended id' q' t' (hold id' q' hid') hq'
  · rw [viewOf_append] at hview
    obtain ⟨b', hb', hstart | ⟨hview, hty⟩⟩ := of_activeAfter hview
    · obtain rfl := Option.some.inj hb'
      simp [hb, htype] at hstart
    · obtain rfl := Option.some.inj hb'
      obtain ⟨t', ht', hid', hsent'⟩ := h.opened id' hview
      rcases hkept t' ht' with rfl | ht'
      · obtain rfl := hty type (hid' ▸ hid.symm ▸ hb)
        refine ⟨_, hmem, hput.1.trans (hid.symm.trans hid'), ?_⟩
        rw [hput.2.2, List.forall_mem_append]
        exact ⟨hsent', by simpa [Client.outcome] using hout⟩
      · exact ⟨t', ht', hid', hsent'⟩
  · rcases hfin.of_append with hfin | ⟨b', type', hb', haddr, htype', -⟩
    · obtain ⟨t', ht', hid', hsent', b', hb', hends⟩ := h.whole id' hspared hfin
      rcases hkept t' ht' with rfl | ht'
      · exact absurd (hnone b' hb') hends
      · exact ⟨t', ht', hid', hsent', b', hb', hends⟩
    · obtain rfl := Option.some.inj hb'
      obtain ⟨rfl, rfl⟩ : id = id' ∧ type = type' := by simpa [hb] using haddr
      have hends : b.outcome ≠ none := by
        rw [hout]
        rcases htype' with rfl | rfl <;> simp [Client.outcome]
      have hof := Block.isOf_of_addressee hb
      have htake : (t.put b).sent = blocksOf id (stream.take (i + 1)) := by
        rw [hput.2.2, hsent, List.take_add_one, hget, Option.toList_some, blocksOf_append_self hof]
      have hblocks : blocksOf id stream = blocksOf id (stream.take (i + 1)) := by
        rw [← List.take_append_drop (i + 1) stream] at hsource
        conv_lhs => rw [← List.take_append_drop (i + 1) stream]
        exact hsource.blocksOf_append_eq (b := b) (by simp [← htake, hput.2.2]) hends
      exact ⟨_, hmem, hput.1, htake.trans hblocks.symm, b, by simp [hput.2.2], hends⟩
  · rcases List.mem_or_eq_of_mem_set ht' with ht' | rfl
    · exact h.ended t' ht' hspared hd
    · rw [hput.2.1] at hd
      cases hd

/-- What a loss marker does to a transfer: it gets an `Abort` if it is active and not over. -/
lemma aborted_cases (hmax : Block.maxDataLen raptorq = some len) (active : ClientId → Option ℕ)
    (q : ℕ) (t : Transfer) :
    (active t.clientId = some q ∧ t.dropped = false ∧ ∃ a, a.Readable ∧ a.outcome ≠ none ∧
      Demux.aborted raptorq active q t = t.put a) ∨
    ((active t.clientId = some q → t.dropped = true) ∧ Demux.aborted raptorq active q t = t) := by
  unfold Demux.aborted
  by_cases hactive : active t.clientId = some q
  · rw [if_pos hactive]
    cases hdropped : t.dropped with
    | true => exact .inr ⟨fun _ => rfl, Transfer.putAll_of_dropped hdropped _⟩
    | false =>
      obtain ⟨a, hnew, ha⟩ := Block.new_carries hmax .abort t.clientId none (by simp)
      have hout : a.outcome = some false := Block.outcome_eq ha.blockType_eq
      exact .inl ⟨hactive, rfl, a, ha.readable, by simp [hout], by simp [abortOf, hnew,
        Transfer.putAll]⟩
  · rw [if_neg hactive]
    exact .inr ⟨fun h => absurd h hactive, rfl⟩

/-- **A loss marker** aborts the active transfers, and leaves the others alone. -/
lemma lose (h : Isolated spared stream received s) (hmax : Block.maxDataLen raptorq = some len)
    {transfers : List Transfer}
    (hget : ∀ i, transfers[i]? = (s.transfers[i]?).map (Demux.aborted raptorq s.active i))
    (hinv : Demux.Inv { s with transfers := transfers, active := fun _ => none }) :
    Isolated spared stream (received ++ [none])
      { s with transfers := transfers, active := fun _ => none } := by
  have hentry : ∀ (q : ℕ) (t' : Transfer), transfers[q]? = some t' →
      ∃ t, s.transfers[q]? = some t ∧ t' = Demux.aborted raptorq s.active q t := by
    intro q t' ht'
    rw [hget, Option.map_eq_some_iff] at ht'
    obtain ⟨t, ht, rfl⟩ := ht'
    exact ⟨t, ht, rfl⟩
  refine ⟨hinv, h.running, fun t' ht' => ?_, fun q t' hq hopen hnone => ?_,
    fun id q t hactive => by simp at hactive, fun id hview => by simp [activeAfter] at hview,
    fun id hspared hfin => ?_, fun t' ht' hspared hd => ?_, h.permits, h.healthy⟩
  · obtain ⟨q, hq⟩ := List.getElem?_of_mem ht'
    obtain ⟨t, ht, rfl⟩ := hentry q t' hq
    have hold := h.readable t (List.mem_of_getElem? ht)
    rcases aborted_cases hmax s.active q t with ⟨-, hopen, a, ha, -, heq⟩ | ⟨-, heq⟩
    · rw [heq, Transfer.sent_put hopen, List.forall_mem_append]
      exact ⟨hold, by simpa using ha⟩
    · rwa [heq]
  · obtain ⟨t, ht, rfl⟩ := hentry q t' hq
    -- an active transfer would have got an `Abort`
    rcases aborted_cases hmax s.active q t with ⟨-, hopen', a, -, hends, heq⟩ | ⟨hover, heq⟩
    · rw [heq, Transfer.sent_put hopen'] at hnone
      exact absurd (hnone a (by simp)) hends
    · rw [heq] at hopen hnone
      have hactive := h.active q t ht hopen hnone
      simp [hover hactive] at hopen
  · rcases hfin.of_append with hfin | ⟨b, type, hb, -⟩
    · obtain ⟨t, ht, hid, hsent, b, hb, hends⟩ := h.whole id hspared hfin
      obtain ⟨q, hq⟩ := List.getElem?_of_mem ht
      have hsame : transfers[q]? = some t := by
        rw [hget, hq, Option.map_some]
        rcases aborted_cases hmax s.active q t with ⟨hactive, -⟩ | ⟨-, heq⟩
        · exact absurd (h.unended t.clientId q t hactive hq b hb) hends
        · rw [heq]
      exact ⟨t, List.mem_of_getElem? hsame, hid, hsent, b, hb, hends⟩
    · cases hb
  · obtain ⟨q, hq⟩ := List.getElem?_of_mem ht'
    obtain ⟨t, ht, rfl⟩ := hentry q t' hq
    rcases aborted_cases hmax s.active q t with ⟨-, hopen, a, -, -, heq⟩ | ⟨-, heq⟩
    · rw [heq, Transfer.dropped_put, hopen] at hd
      cases hd
    · rw [heq] at hspared hd ⊢
      exact h.ended t (List.mem_of_getElem? ht) hspared hd

/-- **Receiving a message keeps the invariant.** The queues have got what they should of the blocks
before position `i`, and the message is the block at this position, or a marker. -/
theorem receive (h : Isolated spared stream received s)
    (hmax : Block.maxDataLen config.raptorq = some len) (hsource : Source raptorq stream)
    (hdel : Delivered (stream.take i) s) (hm : ∀ b ∈ m, stream[i]? = some b) :
    Isolated spared stream (received ++ [m]) (s.receive config m) := by
  have hinv := h.inv.receive config m
  have hreceived := Demux.received_of_receive hdel.valid config m
  generalize s.receive config m = s' at hinv hreceived ⊢
  -- where the transfer is not active or its queue has been dropped, the client is not spared
  have hlost : ∀ {id : ClientId}, (∀ q t, s.active id = some q → s.transfers[q]? = some t →
      t.dropped = true) → spared id → viewOf received id = false := by
    intro id hover hspared
    by_contra hview
    obtain ⟨q, t, hactive, hq, hopen⟩ := h.exists_active hspared (by simpa using hview)
    simp [hover q t hactive hq] at hopen
  cases hreceived with
  | lost hget => exact h.lose hmax hget hinv
  | stopped hlt =>
    have := Block.overhead_add_maxDataLen hmax
    rw [Block.serializeOverhead] at this
    omega
  | ignored hb =>
    exact h.pass (by simp [hb]) (fun _ _ _ _ hactive => hactive) (fun _ _ hactive => hactive)
      (by simp [hb])
  | @start b id hb =>
    have hget := hm b rfl
    obtain ⟨type, id', data, hcarries⟩ := hsource.carries b (List.mem_of_getElem? hget)
    obtain ⟨rfl, rfl⟩ : id' = id ∧ type = .start := by
      have heq := hcarries.addressee_eq
      rw [hb] at heq
      split at heq
      · cases heq
      · simpa [eq_comm] using heq
    have hsource' : Source raptorq (stream.take i ++ [b]) := by
      rw [← List.take_append_drop (i + 1) stream, List.take_add_one, hget] at hsource
      exact hsource.of_append
    exact h.register hb hcarries.readable
      (hdel.clientId_ne ((hsource'.start_iff hcarries (by simp)).mp rfl))
  | @inactive b id type hb htype hactive =>
    refine h.pass (by simp [hb, htype]) (fun _ _ _ _ hactive => hactive)
      (fun _ _ hactive => hactive) fun id' type' haddr => hlost ?_
    obtain ⟨rfl, -⟩ : id = id' ∧ type = type' := by simpa [hb] using haddr
    simp [hactive]
  | @gone b id type q t hb htype hactive hq hdropped =>
    refine h.pass (by simp [hb, htype]) (fun q' t' hq' hopen hactive' => ?_)
      (fun id' q' hactive' => ?_) fun id' type' haddr => hlost ?_
    · rw [update_of_ne, hactive']
      rintro rfl
      obtain rfl : q = q' := Option.some.inj (hactive.symm.trans hactive')
      rw [Option.some.inj (hq'.symm.trans hq), hdropped] at hopen
      cases hopen
    · by_cases hid : id' = id
      · simp [hid] at hactive'
      · rwa [update_of_ne hid] at hactive'
    · obtain ⟨rfl, -⟩ : id = id' ∧ type = type' := by simpa [hb] using haddr
      intro q' t' hactive' hq'
      obtain rfl : q = q' := Option.some.inj (hactive.symm.trans hactive')
      rwa [Option.some.inj (hq'.symm.trans hq)]
  | @data b id q t hb hactive hq hopen =>
    exact h.put hdel hsource (hm b rfl) hb (by simp) hactive hq hopen (fun _ => rfl) fun hends =>
      absurd (Block.outcome_of_addressee hb) hends
  | @last b id type q t hb htype hactive hq hopen =>
    have hends : b.outcome ≠ none := by
      rw [Block.outcome_of_addressee hb]
      rcases htype with rfl | rfl <;> simp [Client.outcome]
    refine h.put hdel hsource (hm b rfl) hb ?_ hactive hq hopen (fun hnone => absurd hnone hends)
      fun _ => rfl
    rcases htype with rfl | rfl <;> simp

/-! ## The client workers -/

/-- A transfer that a worker serves is not over. -/
lemma serving (h : Isolated spared stream received s) (hw : s.workers w = .serve q stage)
    (hq : s.transfers[q]? = some t) : t.dropped = false ∧ Serving t stage := by
  refine h.inv.status q stage t (List.mem_append_right _ (Pool.mem_holding.mpr ⟨w, ?_⟩)) hq
  rw [hw]
  rfl

/-- The blocks in the queue of a transfer can be read. -/
lemma readable_of_queue (h : Isolated spared stream received s) (hq : s.transfers[q]? = some t)
    {rest : List Block} (hqueue : t.queue = b :: rest) : b.Readable :=
  h.readable t (List.mem_of_getElem? hq) b (by simp [Transfer.sent, hqueue])

/-- A transfer that is served and has taken all its blocks is active. -/
lemma active_of_queue (h : Isolated spared stream received s) {buffer : List UInt8}
    (hw : s.workers w = .serve q (.running buffer)) (hq : s.transfers[q]? = some t)
    (hqueue : t.queue = []) : s.active t.clientId = some q := by
  obtain ⟨hopen, -, -, htaken⟩ := h.serving hw hq
  exact h.active q t hq hopen (by simpa [Transfer.sent, hqueue] using htaken)

/-- A worker goes on with its transfer, or has ended it, or one of the calls has failed. -/
lemma result_cases (h : Isolated spared stream received s)
    (hmax : Block.maxDataLen config.raptorq = some len) (hw : s.workers w = .serve q stage)
    (hq : s.transfers[q]? = some t)
    (hstep : Client.Trans config (s.alive q t) t stage answer result t') :
    (∃ stage', result = .go stage') ∨
      (result = .returned ∧ ((∃ ok, Ended t' ok) ∨ answer ≠ .ok)) := by
  have hnext := (h.serving hw hq).2.step hstep
  cases hstep with
  | new _ => exact .inl ⟨_, rfl⟩
  | newPanic hnone => simp [hnone] at hmax
  | newFails | timeout | fault => exact .inr ⟨rfl, .inr (by simp)⟩
  | gone hqueue halive =>
    simp [Demux.alive, h.running, h.active_of_queue hw hq hqueue] at halive
  | unknown hqueue htype =>
    obtain ⟨type, data, hty, -⟩ := h.readable_of_queue hq hqueue
    simp [hty] at htype
  | payloadPanic hqueue htype hpayload =>
    obtain ⟨type, data, -, hpay⟩ := h.readable_of_queue hq hqueue
    simp [hpay] at hpayload
  | data hqueue htype hpayload hout => exact .inl ⟨_, rfl⟩
  | @finish buffer payload b rest type ok hqueue htype hpayload hout =>
    refine .inr ⟨rfl, .inl (hnext.resolve_right fun hnone => hnone ok ?_)⟩
    simp [Transfer.drop, Transfer.call]

/-- **A step of a client worker keeps the invariant**, if no call of a client that is spared
fails. -/
theorem clientStep (h : Isolated spared stream received s)
    (hmax : Block.maxDataLen config.raptorq = some len) (hspares : s.Spares spared w answer)
    (ht : Demux.ClientTrans config s w answer s') : Isolated spared stream received s' := by
  have hinv := h.inv.clientStep ht
  have hpermits := h.permits.clientStep ht
  have hhealthy : ∀ v : Worker, v ≠ .panicked → ∀ w', update s.workers w v w' ≠ .panicked :=
    fun v hv => (forall_update_iff s.workers fun _ v => v ≠ .panicked).mpr
      ⟨hv, fun w' _ => h.healthy w'⟩
  cases ht with
  | recv hw hin =>
    exact ⟨hinv, h.running, h.readable, h.active, h.unended, h.opened, h.whole, h.ended, hpermits,
      hhealthy _ (by simp)⟩
  | acquire hw hsem =>
    exact ⟨hinv, h.running, h.readable, h.active, h.unended, h.opened, h.whole, h.ended, hpermits,
      hhealthy _ (by simp)⟩
  | @serve q stage answer t t' result hw hq hstep =>
    obtain ⟨hsent, hid⟩ := hstep.sent_eq
    obtain ⟨hopen, -⟩ := h.serving hw hq
    have hdropped := hstep.dropped_eq
    have hresult := h.result_cases hmax hw hq hstep
    -- every transfer is still there, with the same client and the same blocks
    have hkept : ∀ t₁ ∈ s.transfers, ∃ t₂ ∈ s.transfers.set q t',
        t₂.clientId = t₁.clientId ∧ t₂.sent = t₁.sent := by
      intro t₁ ht₁
      obtain ⟨q₁, hq₁⟩ := List.getElem?_of_mem ht₁
      by_cases hne : q₁ = q
      · subst hne
        obtain rfl : t₁ = t := Option.some.inj (hq₁.symm.trans hq)
        exact ⟨t', List.mem_set (List.getElem?_eq_some_iff.mp hq).1 _, hid, hsent⟩
      · exact ⟨t₁, List.mem_of_getElem? ((List.getElem?_set_ne (Ne.symm hne)).trans hq₁), rfl, rfl⟩
    refine ⟨hinv, h.running, fun t₁ ht₁ => ?_, fun q₁ t₁ hq₁ hopen₁ hnone => ?_,
      fun id q₁ t₁ hactive hq₁ => ?_, fun id hview => ?_, fun id hspared hfin => ?_,
      fun t₁ ht₁ hspared hd => ?_, hpermits, ?_⟩
    · rcases List.mem_or_eq_of_mem_set ht₁ with ht₁ | rfl
      · exact h.readable t₁ ht₁
      · rw [hsent]
        exact h.readable t (List.mem_of_getElem? hq)
    · rcases Demux.getElem?_set_cases hq₁ with ⟨rfl, rfl⟩ | ⟨-, hq₁⟩
      · rw [hid]
        exact h.active q₁ t hq hopen (hsent ▸ hnone)
      · exact h.active q₁ t₁ hq₁ hopen₁ hnone
    · rcases Demux.getElem?_set_cases hq₁ with ⟨rfl, rfl⟩ | ⟨-, hq₁⟩
      · rw [hsent]
        exact h.unended id q₁ t hactive hq
      · exact h.unended id q₁ t₁ hactive hq₁
    · obtain ⟨t₁, ht₁, hid₁, hnone⟩ := h.opened id hview
      obtain ⟨t₂, ht₂, hid₂, hsent₂⟩ := hkept t₁ ht₁
      exact ⟨t₂, ht₂, hid₂.trans hid₁, hsent₂.symm ▸ hnone⟩
    · obtain ⟨t₁, ht₁, hid₁, hsent₁, hlast⟩ := h.whole id hspared hfin
      obtain ⟨t₂, ht₂, hid₂, hsent₂⟩ := hkept t₁ ht₁
      exact ⟨t₂, ht₂, hid₂.trans hid₁, hsent₂.trans hsent₁, hsent₂.symm ▸ hlast⟩
    · rcases List.mem_or_eq_of_mem_set ht₁ with ht₁ | rfl
      · exact h.ended t₁ ht₁ hspared hd
      · rcases hresult with ⟨stage', rfl⟩ | ⟨-, hended | hfault⟩
        · rw [hdropped, hopen] at hd
          cases hd
        · exact hended
        · exact absurd (hid ▸ hspared) (hspares.not_spared hfault hw hq)
    · rcases hresult with ⟨stage', rfl⟩ | ⟨rfl, -⟩
      · exact hhealthy _ (by simp [Worker.next])
      · exact hhealthy _ (by simp [Worker.next])

/-- A worker that serves a transfer can take a step, if no transfer is active. -/
lemma exists_step (h : Isolated spared stream received s)
    (hmax : Block.maxDataLen config.raptorq = some len) (hnone : ∀ id, s.active id = none)
    (hw : s.workers w = .serve q stage) (hq : s.transfers[q]? = some t) :
    ∃ result t', Client.Trans config (s.alive q t) t stage .ok result t' := by
  cases stage with
  | new => exact ⟨_, _, .new hmax⟩
  | running buffer =>
    cases hqueue : t.queue with
    | nil =>
      have hactive := h.active_of_queue hw hq hqueue
      simp [hnone] at hactive
    | cons b rest =>
      obtain ⟨type, data, htype, hpayload⟩ := h.readable_of_queue hq hqueue
      cases hout : Client.outcome type with
      | none => exact ⟨_, _, .data hqueue htype hpayload hout⟩
      | some ok => exact ⟨_, _, .finish hqueue htype hpayload hout⟩

/-- **When the client workers can do nothing more** and no transfer is active, every transfer of a
client that was spared has ended.

**Proof sketch.** A worker that serves a transfer could go on, so no worker does, and no transfer is
in hand. -/
theorem all_ended (h : Isolated spared stream received s)
    (hmax : Block.maxDataLen config.raptorq = some len) (hk : 0 < k)
    (hnone : ∀ id, s.active id = none) (hstuck : ∀ w, Demux.clientStep config s w .ok = none) :
    ∀ t ∈ s.transfers, spared t.clientId → ∃ ok, Ended t ok := by
  have hserve : ∀ w q stage, s.workers w ≠ .serve q stage := by
    intro w q stage hw
    have hmem : (q, stage) ∈ s.held :=
      List.mem_append_right _ (Pool.mem_holding.mpr ⟨w, congrArg Worker.transfer hw⟩)
    have hq := List.getElem?_eq_getElem (h.inv.lt_length q stage hmem)
    obtain ⟨result, t', hstep⟩ := h.exists_step hmax hnone hw hq
    have hmove := Demux.clientStep_iff.mpr (.serve hw hq hstep)
    simp [hstuck w] at hmove
  have hheld : s.held = [] := h.permits.held_eq_nil h.healthy hk hserve hstuck
  intro t ht hspared
  obtain ⟨q, hq⟩ := List.getElem?_of_mem ht
  exact h.ended t ht hspared (h.inv.unheld q t hq (by simp [hheld])).1

/-- With no active transfer, a transfer of which the first block has been received has finished, if
no marker has been received since. -/
lemma finished (h : Isolated spared stream received s) (hnone : ∀ id, s.active id = none)
    (hspared : spared id) {before : List (Option Block)} {blocks : List Block}
    (hreceived : received = before ++ blocks.map some)
    (hbegun : viewOf before id = true ∨ ∃ b ∈ blocks, b.addressee = some (id, .start)) :
    Finished received id := by
  have hview : viewOf received id ≠ true := by
    intro hview
    obtain ⟨q, -, hactive, -⟩ := h.exists_active hspared hview
    simp [hnone] at hactive
  subst hreceived
  rcases hbegun with hbegun | ⟨b, hb, hstart⟩
  · exact (active_or_finished hbegun blocks).resolve_left hview
  · obtain ⟨l, l', rfl⟩ := List.append_of_mem hb
    have hopens : viewOf (before ++ (l.map some ++ [some b])) id = true := by
      rw [← List.append_assoc, viewOf_append]
      simp [activeAfter, hstart]
    have hsplit : before ++ (l ++ b :: l').map some =
        before ++ (l.map some ++ [some b]) ++ l'.map some := by simp
    rw [hsplit] at hview ⊢
    exact (active_or_finished hopens l').resolve_left hview

/-- No transfer is active if all of them were sent to their ends, and nothing that was sent is still
on its way. -/
lemma none_active (h : Isolated spared stream received s) (hdel : Delivered stream s)
    (hwhole : ∀ id, blocksOf id stream ≠ [] → ∃ type bytes, Client.outcome type ≠ none ∧
      Conveys raptorq id type (blocksOf id stream) bytes) (id : ClientId) : s.active id = none := by
  by_contra hactive
  obtain ⟨q, hq⟩ := Option.ne_none_iff_exists'.mp hactive
  obtain ⟨t, ht, rfl, hsent⟩ := hdel.active id q hq
  obtain ⟨part, hne, hpre, -⟩ := hdel.begun t (List.mem_of_getElem? ht)
  obtain ⟨type, bytes, htype, hconveys⟩ := hwhole t.clientId fun hnil =>
    hne (List.prefix_nil.mp (hnil ▸ hpre))
  obtain ⟨-, body, last, heq, -, hlast⟩ := hconveys.script
  have hnone := h.unended t.clientId q t hq ht last (by simp [hsent, heq])
  exact htype (hlast.symm.trans hnone)

/-- **A transfer that has finished is received whole** by a client that is spared. -/
theorem received_whole (h : Isolated spared stream received s)
    (hmax : Block.maxDataLen config.raptorq = some len) (hk : 0 < k)
    (hnone : ∀ id, s.active id = none) (hstuck : ∀ w, Demux.clientStep config s w .ok = none)
    (hspared : spared id) (hfin : Finished received id) :
    ∃ t ∈ s.transfers, t.clientId = id ∧ t.sent = blocksOf id stream ∧ ∃ ok, Ended t ok := by
  obtain ⟨t, ht, rfl, hsent, -⟩ := h.whole id hspared hfin
  exact ⟨t, ht, rfl, hsent, h.all_ended hmax hk hnone hstuck t ht hspared⟩

end Isolated

end Receive

end Lidi
