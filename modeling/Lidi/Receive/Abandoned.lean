import Lidi.Receive.Demultiplex

set_option relaxedAutoImplicit false
set_option autoImplicit false

/-!
# Abandoned transfers

When the dispatch worker drops the sending end of a queue, the client worker should have been told
how the transfer ended, by an `End` or an `Abort` as the last block. This is so until a client
starts a transfer while its previous one is still active: the old queue is dropped without a word.

## Main definitions

* `Receive.Demux.NoneAbandoned` — no transfer has been dropped without a last block.
* `Receive.Demux.Concludes` — the steps that abandon no transfer.

## Main results

* `Receive.Demux.Accounted.step` — these steps keep the invariant.
* `Receive.Demux.none_abandoned` — after such steps no transfer is abandoned, and any other step
  abandons one.
* `Receive.Demux.restart_abandons` — a client that starts again.
-/

namespace Lidi

/-- Whether a block ends its transfer is known from its type. -/
lemma Block.outcome_of_addressee {b : Block} {id : ClientId} {type : BlockType}
    (h : b.addressee = some (id, type)) : b.outcome = Receive.Client.outcome type := by
  unfold Block.addressee at h
  unfold Block.outcome
  cases htype : b.blockType with
  | error e => simp [htype] at h
  | ok type' => cases type' <;> cases hid : b.clientId <;> simp_all

namespace Receive

open Function

/-- The last block put in the queue ends the transfer. -/
def Transfer.concluded (t : Transfer) : Bool :=
  t.sent.getLast?.any (·.outcome.isSome)

/-- Only what has been put in the queue matters. -/
lemma Transfer.concluded_congr {t t' : Transfer} (h : t'.sent = t.sent) :
    t'.concluded = t.concluded := by
  rw [concluded, concluded, h]

/-- The last block decides. -/
lemma Transfer.concluded_of_sent {t t' : Transfer} {b : Block} (h : t'.sent = t.sent ++ [b]) :
    t'.concluded = b.outcome.isSome := by
  simp [concluded, h]

namespace Demux

variable {k : ℕ} {config : Config} {s s' : Demux k} {m : Option Block}

/-- **No transfer is abandoned**: where a client worker still has the receiving end of a queue and
the dispatch worker has dropped the sending end, the last block of the queue ends the transfer. -/
def NoneAbandoned (s : Demux k) : Prop :=
  ∀ q t, s.transfers[q]? = some t → t.dropped = false → s.alive q t = false → t.concluded = true

/-- The client has an active transfer, and a worker still has the receiving end of its queue. -/
def listening (s : Demux k) (id : ClientId) : Bool :=
  (s.active id).any fun q => (s.transfers[q]?).any fun t => !t.dropped

/-- The condition on the steps: a `Start` comes only from a client without such a transfer, and
where synchronization is lost, an `Abort` can be built or there is no such transfer. -/
def Concludes (config : Config) (s : Demux k) : Label k → Prop
  | .receive none => 5 ≤ config.raptorq.transferLength.toNat ∨
      ∀ t ∈ s.transfers, s.listening t.clientId = false
  | .receive (some b) =>
    match b.addressee with
    | some (id, .start) => s.listening id = false
    | _ => True
  | _ => True

/-- Whether a step concludes the transfers that it drops can be decided. -/
instance (config : Config) (s : Demux k) (a : Label k) : Decidable (Concludes config s a) := by
  unfold Concludes
  split
  · infer_instance
  · split <;> infer_instance
  · infer_instance

/-- The transfers whose receiving end is still there: an active one has not been concluded, any
other one has. -/
structure Accounted (s : Demux k) : Prop where
  valid : s.Valid
  active : ∀ q t, s.transfers[q]? = some t → t.dropped = false → s.active t.clientId = some q →
    s.dispatch = none ∧ t.concluded = false
  closed : ∀ q t, s.transfers[q]? = some t → t.dropped = false → s.active t.clientId ≠ some q →
    t.concluded = true
  ended : ∀ id q, s.ended id = some q → ∃ t, s.transfers[q]? = some t ∧ t.concluded = true

/-- Only an active transfer that gets its last block becomes an ended one. -/
lemma Received.ended {id : ClientId} {q : ℕ} (h : Received config s m s')
    (hended : s'.ended id = some q) : s.ended id = some q ∨
      ∃ b type t, m = some b ∧ b.addressee = some (id, type) ∧ (type = .abort ∨ type = .end) ∧
        s.active id = some q ∧ s.transfers[q]? = some t ∧ t.dropped = false := by
  cases h with
  | @last b id' type q' t hb htype hactive ht hopen =>
    by_cases heq : id = id'
    · subst heq
      obtain rfl : q' = q := by simpa using hended
      exact .inr ⟨b, type, t, rfl, hb, htype, hactive, ht, hopen⟩
    · simp only [update_of_ne heq, retain, Option.filter_eq_some_iff] at hended
      exact .inl hended.1
  | _ => exact .inl hended

/-- The dispatch worker stops only if it cannot build an `Abort`. -/
lemma Received.dispatch (h : Received config s m s')
    (hm : m = none → 5 ≤ config.raptorq.transferLength.toNat) : s'.dispatch = s.dispatch := by
  cases h with
  | stopped hlt =>
    have hge := hm rfl
    omega
  | _ => rfl

/-- What a block is to an open queue of a client: nothing, another `Start` of the client, or a
block for the queue, which closes it if it ends the transfer. -/
lemma Event.received_cases (raptorq : RaptorQ) (q : ℕ) (id : ClientId) (b : Block) :
    let e := Event.received (some b)
    (e.entry raptorq id = [] ∧ e.closes q id = false) ∨
      (b.addressee = some (id, .start) ∧ e.entry raptorq id = [] ∧ e.closes q id = true) ∨
      (e.entry raptorq id = [b] ∧ e.closes q id = b.outcome.isSome) := by
  intro e
  cases haddr : b.addressee with
  | none => exact .inl (by simp [e, Event.entry, Event.closes, haddr])
  | some a =>
    obtain ⟨id', type⟩ := a
    by_cases hid : id' = id
    · subst hid
      have hout := Block.outcome_of_addressee haddr
      cases type with
      | heartbeat => exact absurd haddr addressee_ne_heartbeat
      | start => exact .inr (.inl ⟨rfl, by simp [e, Event.entry, haddr],
          by simp [e, Event.closes, haddr]⟩)
      | _ => exact .inr (.inr ⟨by simp [e, Event.entry, haddr],
          by simp [e, Event.closes, haddr, hout, Client.outcome]⟩)
    · exact .inl (by simp [e, Event.entry, Event.closes, haddr, hid])

/-- A client is listening if its active transfer still has a worker. -/
lemma listening_of_active {q : ℕ} {t : Transfer} (ht : s.transfers[q]? = some t)
    (hopen : t.dropped = false) (hactive : s.active t.clientId = some q) :
    s.listening t.clientId = true := by
  simp [listening, hactive, ht, hopen]

namespace Accounted

variable {q : ℕ} {t t' : Transfer}

/-- The invariant holds at the start. -/
lemma init : Accounted (init k) where
  valid := Valid.init
  active := by simp [Demux.init]
  closed := by simp [Demux.init]
  ended := by simp [Demux.init]

/-- What a step of the dispatch worker makes of an active transfer whose worker is there. -/
lemma fed_active (h : Accounted s) (hidle : s.dispatch = none) (hm : Received config s m s')
    (hok : Concludes config s (.receive m)) (ht : s.transfers[q]? = some t)
    (hopen : t.dropped = false) (hactive : s.active t.clientId = some q)
    (hfed : Fed config.raptorq s s' (.received m) q t t') :
    s'.active t.clientId = some q ∧ s'.dispatch = none ∧ t'.concluded = false ∨
      s'.active t.clientId ≠ some q ∧ t'.concluded = true := by
  have hlist := listening_of_active ht hopen hactive
  have hsent := hfed.sent_of_open hactive hopen
  have hnot := (h.active q t ht hopen hactive).2
  cases m with
  | none =>
    have hlen : 5 ≤ config.raptorq.transferLength.toNat := by
      rcases hok with hlen | hquiet
      · exact hlen
      · simp [hquiet t (List.mem_of_getElem? ht)] at hlist
    obtain ⟨a, ha, haddr⟩ := abortOf_eq t.clientId hlen
    have hdispatch := (hm.dispatch fun _ => hlen).trans hidle
    refine .inr ⟨hfed.leaves rfl hdispatch, ?_⟩
    rw [Transfer.concluded_of_sent (hsent.trans (by rw [Event.entry, ha])),
      Block.outcome_of_addressee haddr]
    rfl
  | some b =>
    have hdispatch := (hm.dispatch (by simp)).trans hidle
    rcases Event.received_cases config.raptorq q t.clientId b with
      ⟨hentry, hcloses⟩ | ⟨haddr, -, -⟩ | ⟨hentry, hcloses⟩
    · rw [hentry, List.append_nil] at hsent
      exact .inl ⟨hfed.stays hactive hopen hcloses, hdispatch,
        (Transfer.concluded_congr hsent).trans hnot⟩
    · simp [Concludes, haddr, hlist] at hok
    · rw [hentry] at hsent
      have hconcluded := Transfer.concluded_of_sent hsent
      cases hout : b.outcome.isSome with
      | false =>
        rw [hout] at hcloses hconcluded
        exact .inl ⟨hfed.stays hactive hopen hcloses, hdispatch, hconcluded⟩
      | true =>
        rw [hout] at hcloses hconcluded
        exact .inr ⟨hfed.leaves hcloses hdispatch, hconcluded⟩

/-- A concluded transfer whose worker is there is left alone. -/
lemma fed_over (h : Accounted s) (ht : s.transfers[q]? = some t) (hconcluded : t.concluded = true)
    (hfed : Fed config.raptorq s s' (.received m) q t t') : t'.concluded = true := by
  refine (Transfer.concluded_congr (hfed.sent_of_closed fun hactive => ?_)).trans hconcluded
  by_contra hopen
  have hnot := (h.active q t ht (by simpa using hopen) hactive).2
  simp [hconcluded] at hnot

/-- A step of the dispatch worker that meets the condition keeps the invariant. -/
lemma received (h : Accounted s) (hidle : s.dispatch = none) (hm : Received config s m s')
    (hok : Concludes config s (.receive m)) : Accounted s' := by
  -- a transfer is an old one, or the `Start` has just opened its queue
  have hold : ∀ q t', s'.transfers[q]? = some t' →
      (∃ t, s.transfers[q]? = some t ∧ Fed config.raptorq s s' (.received m) q t t') ∨
      s'.active t'.clientId = some q ∧ s'.dispatch = none ∧ t'.concluded = false := by
    intro q t' ht'
    by_cases hlt : q < s.transfers.length
    · have ht := List.getElem?_eq_getElem hlt
      obtain ⟨t₁, ht₁, hfed⟩ := hm.fed h.valid ht
      obtain rfl : t' = t₁ := by simpa using ht'.symm.trans ht₁
      exact .inl ⟨_, ht, hfed⟩
    · have hlt' := (List.getElem?_eq_some_iff.mp ht').1
      rcases hm.opens with ⟨hlen, -⟩ | ⟨b, id, -, hb, hactive, hdispatch, htransfers⟩
      · omega
      · obtain rfl : q = s.transfers.length := by
          simp only [htransfers, List.length_append, List.length_singleton] at hlt'
          omega
        rw [htransfers, List.getElem?_concat_length, Option.some.injEq] at ht'
        subst ht'
        refine .inr ⟨by rw [Transfer.clientId_put]; exact hactive, hdispatch.trans hidle, ?_⟩
        rw [Transfer.concluded_of_sent (Transfer.sent_put rfl b), Block.outcome_of_addressee hb]
        rfl
  have hopen : ∀ q t', s'.transfers[q]? = some t' → t'.dropped = false →
      s'.active t'.clientId = some q ∧ s'.dispatch = none ∧ t'.concluded = false ∨
      s'.active t'.clientId ≠ some q ∧ t'.concluded = true := by
    intro q t' ht' hdropped
    rcases hold q t' ht' with ⟨t, ht, hfed⟩ | hnew
    · rw [hfed.dropped_eq] at hdropped
      rw [hfed.clientId_eq]
      by_cases hactive : s.active t.clientId = some q
      · exact h.fed_active hidle hm hok ht hdropped hactive hfed
      · exact .inr ⟨fun hactive' => hactive (hfed.away hactive'),
          h.fed_over ht (h.closed q t ht hdropped hactive) hfed⟩
    · exact .inl hnew
  refine ⟨hm.valid h.valid, ?_, ?_, ?_⟩
  · intro q t' ht' hdropped hactive
    rcases hopen q t' ht' hdropped with ⟨-, hright⟩ | ⟨hne, -⟩
    · exact hright
    · exact absurd hactive hne
  · intro q t' ht' hdropped hne
    rcases hopen q t' ht' hdropped with ⟨hactive, -⟩ | ⟨-, hright⟩
    · exact absurd hactive hne
    · exact hright
  · intro id q hended
    rcases hm.ended hended with hended | ⟨b, type, t, rfl, hb, htype, hactive, ht, hdropped⟩
    · obtain ⟨t, ht, hconcluded⟩ := h.ended id q hended
      obtain ⟨t', ht', hfed⟩ := hm.fed h.valid ht
      exact ⟨t', ht', h.fed_over ht hconcluded hfed⟩
    · obtain ⟨t', ht', hfed⟩ := hm.fed h.valid ht
      obtain ⟨t₁, ht₁, rfl⟩ := h.valid id q hactive
      obtain rfl : t = t₁ := by simpa using ht.symm.trans ht₁
      refine ⟨t', ht', ?_⟩
      have hsent := hfed.sent_of_open hactive hdropped
      have hentry : Event.entry config.raptorq t.clientId (.received (some b)) = [b] := by
        rcases htype with rfl | rfl <;> simp [Event.entry, hb]
      rw [hentry] at hsent
      rw [Transfer.concluded_of_sent hsent, Block.outcome_of_addressee hb]
      rcases htype with rfl | rfl <;> rfl

/-- What the client workers do keeps the invariant. -/
lemma aside (h : Accounted s) (haside : Aside s s') : Accounted s' := by
  have hold : ∀ (q : ℕ) (t' : Transfer), s'.transfers[q]? = some t' →
      ∃ t, s.transfers[q]? = some t ∧
      t'.clientId = t.clientId ∧ t'.concluded = t.concluded ∧
      (t'.dropped = false → t.dropped = false) := by
    intro q t' ht'
    have hlt : q < s.transfers.length := haside.length_eq ▸ (List.getElem?_eq_some_iff.mp ht').1
    have ht := List.getElem?_eq_getElem hlt
    obtain ⟨t₁, ht₁, hid, hsent, hdropped⟩ := haside.kept q _ ht
    obtain rfl : t' = t₁ := by simpa using ht'.symm.trans ht₁
    refine ⟨_, ht, hid, Transfer.concluded_congr hsent, fun hfalse => ?_⟩
    by_contra htrue
    simp [hdropped (by simpa using htrue)] at hfalse
  refine ⟨h.valid.aside haside, ?_, ?_, ?_⟩
  · intro q t' ht' hopen hactive
    obtain ⟨t, ht, hid, hconcluded, hdropped⟩ := hold q t' ht'
    rw [haside.active_eq, hid] at hactive
    rw [haside.dispatch_eq, hconcluded]
    exact h.active q t ht (hdropped hopen) hactive
  · intro q t' ht' hopen hactive
    obtain ⟨t, ht, hid, hconcluded, hdropped⟩ := hold q t' ht'
    rw [haside.active_eq, hid] at hactive
    rw [hconcluded]
    exact h.closed q t ht (hdropped hopen) hactive
  · intro id q hended
    rw [haside.ended_eq] at hended
    obtain ⟨t, ht, hconcluded⟩ := h.ended id q hended
    obtain ⟨t', ht', -, hsent, -⟩ := haside.kept q t ht
    exact ⟨t', ht', (Transfer.concluded_congr hsent).trans hconcluded⟩

/-- **The steps that meet the condition keep the invariant.** -/
theorem step (h : Accounted s) {a : Label k} (hok : Concludes config s a)
    (ht : Demux.step config s a = some s') : Accounted s' := by
  cases a with
  | receive m =>
    simp only [Demux.step, Option.ite_none_right_eq_some, Option.some.injEq] at ht
    obtain ⟨hidle, rfl⟩ := ht
    exact h.received (Option.isNone_iff_eq_none.mp hidle) (received_of_receive h.valid config m) hok
  | client w answer => exact h.aside (aside_of_step ht (by simp))
  | drop q => exact h.aside (aside_of_step ht (by simp))

/-- In such a state no transfer is abandoned. -/
lemma noneAbandoned (h : Accounted s) : s.NoneAbandoned := by
  intro q t ht hopen halive
  by_cases hactive : s.active t.clientId = some q
  · have hidle := (h.active q t ht hopen hactive).1
    simp [alive, hidle, hactive] at halive
  · exact h.closed q t ht hopen hactive

/-- A step of the dispatch worker that does not meet the condition abandons a transfer. -/
lemma abandons (h : Accounted s) (hm : Received config s m s')
    (hbad : ¬ Concludes config s (.receive m)) : ¬ s'.NoneAbandoned := by
  -- the client has an active transfer that gets nothing and is not active any more
  obtain ⟨id, hlist, hentry, hcloses, hended⟩ : ∃ id, s.listening id = true ∧
      Event.entry config.raptorq id (.received m) = [] ∧
      (∀ q, Event.closes q id (.received m) = true) ∧
      ∀ id q, s'.ended id = some q → s.ended id = some q := by
    cases m with
    | none =>
      simp only [Concludes, not_or, not_forall, Bool.not_eq_false] at hbad
      obtain ⟨hlt, t, -, hlist⟩ := hbad
      refine ⟨t.clientId, hlist, ?_, fun _ => rfl, fun id q hended => ?_⟩
      · rcases Block.new_none_eq .abort config.raptorq t.clientId with ⟨-, hnew⟩ | ⟨hge, -⟩
        · rw [Event.entry, abortOf, hnew]
        · omega
      · rcases hm.ended hended with hended | ⟨b, type, t, hb, -⟩
        · exact hended
        · cases hb
    | some b =>
      simp only [Concludes] at hbad
      split at hbad
      · rename_i id hb
        refine ⟨id, by simpa using hbad, by simp [Event.entry, hb],
          fun q => by simp [Event.closes, hb], fun id q hended => ?_⟩
        rcases hm.ended hended with hended | ⟨b', type, t, heq, hb', htype, -⟩
        · exact hended
        · cases heq
          rw [hb] at hb'
          cases hb'
          simp at htype
      · exact absurd trivial hbad
  obtain ⟨q, hactive, t, ht, hopen⟩ : ∃ q, s.active id = some q ∧
      ∃ t, s.transfers[q]? = some t ∧ t.dropped = false := by
    simpa [Demux.listening, Option.any_eq_true] using hlist
  obtain ⟨t₁, ht₁, rfl⟩ := h.valid id q hactive
  obtain rfl : t = t₁ := by simpa using ht.symm.trans ht₁
  have hnot := (h.active q t ht hopen hactive).2
  obtain ⟨t', ht', hfed⟩ := hm.fed h.valid ht
  have hsent := hfed.sent_of_open hactive hopen
  rw [hentry, List.append_nil] at hsent
  have hnot' : t'.concluded = false := (Transfer.concluded_congr hsent).trans hnot
  intro hnone
  have halive : s'.alive q t' = false := by
    rw [alive, hfed.clientId_eq]
    cases hdispatch : s'.dispatch with
    | some f => rfl
    | none =>
      have hne := hfed.leaves (hcloses q) hdispatch
      have hne' : s'.ended t.clientId ≠ some q := by
        intro heq
        obtain ⟨t₂, ht₂, hconcluded⟩ := h.ended _ q (hended _ q heq)
        obtain rfl : t = t₂ := by simpa using ht.symm.trans ht₂
        simp [hnot] at hconcluded
      simp [hne, hne']
  have hconcluded := hnone q t' ht' (hfed.dropped_eq.trans hopen) halive
  simp [hnot'] at hconcluded

end Accounted

/-- **No transfer is abandoned in a run whose steps meet the condition, and a step that does not
meet it abandons one.** -/
theorem none_abandoned {s : Demux k}
    (h : LTS.ReachVia (Demux.step config) (Concludes config) (init k) s) :
    s.NoneAbandoned ∧ ∀ a s', Demux.step config s a = some s' →
      (s'.NoneAbandoned ↔ Concludes config s a) := by
  have hinv : Accounted s := h.invariant .init fun _ _ _ _ hinv hok hstep => hinv.step hok hstep
  refine ⟨hinv.noneAbandoned, fun a s' hstep => ⟨fun hnone => ?_, fun hok => ?_⟩⟩
  · by_contra hbad
    cases a with
    | receive m =>
      simp only [Demux.step, Option.ite_none_right_eq_some, Option.some.injEq] at hstep
      obtain ⟨-, rfl⟩ := hstep
      exact hinv.abandons (received_of_receive hinv.valid config m) hbad hnone
    | client w answer => exact hbad trivial
    | drop q => exact hbad trivial
  · exact (hinv.step hok hstep).noneAbandoned

/-- Two transfers of one client, the first of which is ended before the second one starts. -/
def restartRun : List (Label 1) :=
  [.receive (some (.single .start 0)), .client 0 .ok, .receive (some (.single .end 0)),
    .receive (some (.single .start 0)), .receive none]

/-- A client that starts again after its end, and a loss of synchronization. -/
theorem none_abandoned_restart : ∃ s : Demux 1, s.transfers.map Transfer.sent =
    [[.single .start 0, .single .end 0], [.single .start 0, .single .abort 0]] ∧
    s.NoneAbandoned := by
  have hrun : (LTS.runVia (Demux.step ⟨RaptorQ.single, false, false⟩)
      (Concludes ⟨RaptorQ.single, false, false⟩) (init 1) restartRun).map
      (fun s => s.transfers.map Transfer.sent) =
      some [[.single .start 0, .single .end 0], [.single .start 0, .single .abort 0]] := by
    decide +kernel
  obtain ⟨s, hs, hsent⟩ := Option.map_eq_some_iff.mp hrun
  exact ⟨s, hsent, (none_abandoned (LTS.reachVia_of_runVia hs)).1⟩

/-- **A client that starts again abandons its transfer.** The sender has restarted, and its client
numbers start at zero again. -/
theorem restart_abandons : ∃ s : Demux 1,
    LTS.Reach (Demux.step ⟨RaptorQ.single, false, false⟩) (init 1) s ∧ ¬ s.NoneAbandoned := by
  have hrun : (LTS.run (Demux.step ⟨RaptorQ.single, false, false⟩) (init 1)
      [.receive (some (.single .start 0)), .receive (some (.single .start 0))]).map
      (fun s => (s.transfers, s.alive 0 ⟨0, [.single .start 0], false, [], []⟩)) =
      some ([⟨0, [.single .start 0], false, [], []⟩, ⟨0, [.single .start 0], false, [], []⟩],
        false) := by
    decide +kernel
  obtain ⟨s, hs, heq⟩ := Option.map_eq_some_iff.mp hrun
  rw [Prod.mk.injEq] at heq
  refine ⟨s, LTS.reach_of_run hs, fun hnone => ?_⟩
  have hconcluded := hnone 0 ⟨0, [.single .start 0], false, [], []⟩ (by rw [heq.1]; rfl) rfl heq.2
  exact absurd hconcluded (by decide)

end Demux

end Receive

end Lidi
