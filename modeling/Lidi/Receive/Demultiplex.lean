import Lidi.Receive.DemuxRun

set_option relaxedAutoImplicit false
set_option autoImplicit false

/-!
# Demultiplexing

The queue of a transfer gets the `Start` that opened it and then the blocks of its client, up to
what closes it: a block that ends the transfer, another `Start` of the client, the loss of
synchronization, or the end of its worker.

## Main definitions

* `Receive.Demux.Event`, `Receive.Demux.Logged` — what has happened, in order.
* `Receive.Demux.queueOf` — what the queue of a transfer gets, from what happens after its `Start`.

## Main results

* `Receive.Demux.Demultiplexed.step` — each event puts in the queues what the definition says.
* `Receive.Demux.demultiplexes` — so does every run.
-/

namespace Lidi.Receive.Demux

open Function

variable {k : ℕ} {config : Config} {raptorq : RaptorQ}

/-- The dispatch worker has received a message, or the receiving end of the queue of a transfer has
been dropped. -/
inductive Event
  | received (m : Option Block)
  | gone (q : ℕ)
  deriving DecidableEq

namespace Event

/-- The event is a `Start`. -/
def starts : Event → Bool
  | .received (some b) => b.addressee.any (·.2 = .start)
  | _ => false

/-- What the event puts in an open queue of the client: a block of the client that does not open
another queue, or an `Abort` if synchronization has been lost. -/
def entry (raptorq : RaptorQ) (id : ClientId) : Event → List Block
  | .received none => abortOf raptorq id
  | .received (some b) => if b.addressee.any fun a => a.1 = id && a.2 ≠ .start then [b] else []
  | .gone _ => []

/-- The event closes the queue number `q`, of the client `id`: synchronization has been lost, or
the client has ended the transfer or started another one, or the receiving end is gone. -/
def closes (q : ℕ) (id : ClientId) : Event → Bool
  | .received none => true
  | .received (some b) => b.addressee.any fun a => a.1 = id && a.2 ≠ .data
  | .gone q' => q' = q

end Event

/-- What is put in the queue number `q`, of the client `id`, after its `Start`: what the events
put in it up to the first one that closes it. -/
def queueOf (raptorq : RaptorQ) (q : ℕ) (id : ClientId) : List Event → List Block
  | [] => []
  | e :: rest => e.entry raptorq id ++ if e.closes q id then [] else queueOf raptorq q id rest

/-- A later event changes a queue only if it is still open. -/
lemma queueOf_append (q : ℕ) (id : ClientId) (events : List Event) (e : Event) :
    queueOf raptorq q id (events ++ [e]) = queueOf raptorq q id events ++
      if events.any (·.closes q id) then [] else e.entry raptorq id := by
  induction events with
  | nil => simp [queueOf]
  | cons e' events ih =>
    cases hcloses : e'.closes q id with
    | true => simp [queueOf, hcloses]
    | false => simp [queueOf, hcloses, ih]

/-- That a worker is gone puts nothing in a queue. -/
lemma queueOf_append_gone (q : ℕ) (id : ClientId) (events : List Event) (gone : List ℕ) :
    queueOf raptorq q id (events ++ gone.map .gone) = queueOf raptorq q id events := by
  induction gone generalizing events with
  | nil => simp
  | cons q' gone ih =>
    have happ : events ++ (q' :: gone).map Event.gone =
        (events ++ [.gone q']) ++ gone.map Event.gone := by simp
    rw [happ, ih, queueOf_append]
    simp [Event.entry]

/-- The transfers whose receiving end has been dropped in a step. -/
def justDropped (s s' : Demux k) : List ℕ :=
  (List.range s.transfers.length).filter fun q =>
    (s'.transfers[q]?).any Transfer.dropped && !(s.transfers[q]?).any Transfer.dropped

/-- The workers, with the history of what has happened. -/
structure Logged (k : ℕ) where
  demux : Demux k
  log : List Event

namespace Logged

/-- The initial state. -/
def init (k : ℕ) : Logged k :=
  ⟨Demux.init k, []⟩

/-- The next step, with what happens in it. -/
def step (config : Config) (s : Logged k) (a : Label k) : Option (Logged k) :=
  (Demux.step config s.demux a).map fun demux =>
    match a with
    | .receive m => ⟨demux, s.log ++ [.received m]⟩
    | _ => ⟨demux, s.log ++ (justDropped s.demux demux).map .gone⟩

end Logged

/-- The number of queues that have been opened. -/
def opened (log : List Event) : ℕ :=
  log.countP Event.starts

/-- A step of the dispatch worker opens a queue exactly if it receives a `Start`. -/
theorem Received.opens {s s' : Demux k} {m : Option Block} (h : Received config s m s') :
    s'.transfers.length = s.transfers.length ∧ Event.starts (.received m) = false ∨
    ∃ b id, m = some b ∧ b.addressee = some (id, .start) ∧ s'.active id = some s.transfers.length ∧
      s'.dispatch = s.dispatch ∧ s'.transfers = s.transfers ++ [(Transfer.new id).put b] := by
  cases h with
  | @lost transfers hget =>
    have hnone : ∀ i : ℕ, transfers[i]? = none ↔ s.transfers[i]? = none := by
      intro i
      rw [hget i, Option.map_eq_none_iff]
    simp only [List.getElem?_eq_none_iff] at hnone
    have hle := (hnone s.transfers.length).mpr le_rfl
    have hge := (hnone transfers.length).mp le_rfl
    exact .inl ⟨by show transfers.length = s.transfers.length; omega, rfl⟩
  | stopped hlt => exact .inl ⟨rfl, rfl⟩
  | ignored hb => exact .inl ⟨rfl, by simp [Event.starts, hb]⟩
  | @start b id hb => exact .inr ⟨b, id, rfl, hb, by simp [register], rfl, rfl⟩
  | inactive hb htype hactive => exact .inl ⟨rfl, by simp [Event.starts, hb, htype]⟩
  | gone hb htype hactive ht hdropped => exact .inl ⟨rfl, by simp [Event.starts, hb, htype]⟩
  | data hb hactive ht hopen => exact .inl ⟨List.length_set, by simp [Event.starts, hb]⟩
  | last hb htype hactive ht hopen =>
    refine .inl ⟨List.length_set, ?_⟩
    rcases htype with rfl | rfl <;> simp [Event.starts, hb]

/-- What a step of the dispatch worker does to a queue. -/
structure Fed (raptorq : RaptorQ) (s s' : Demux k) (e : Event) (q : ℕ) (t t' : Transfer) :
    Prop where
  clientId_eq : t'.clientId = t.clientId
  dropped_eq : t'.dropped = t.dropped
  sent_of_open : s.active t.clientId = some q → t.dropped = false →
    t'.sent = t.sent ++ e.entry raptorq t.clientId
  stays : s.active t.clientId = some q → t.dropped = false → e.closes q t.clientId = false →
    s'.active t.clientId = some q
  leaves : e.closes q t.clientId = true → s'.dispatch = none → s'.active t.clientId ≠ some q
  sent_of_closed : (s.active t.clientId = some q → t.dropped = true) → t'.sent = t.sent
  away : s'.active t.clientId = some q → s.active t.clientId = some q

section Fed

variable {s s' : Demux k} {q : ℕ} {t : Transfer} {m : Option Block}

/-- A block of another client, or one of no client, does nothing to a queue. -/
lemma Fed.of_other {b : Block} (hactive : s'.active t.clientId = s.active t.clientId)
    (hother : ∀ a, b.addressee = some a → a.1 ≠ t.clientId) :
    Fed raptorq s s' (.received (some b)) q t t := by
  have hentry : Event.entry raptorq t.clientId (.received (some b)) = [] := by
    cases hb : b.addressee with
    | none => simp [Event.entry, hb]
    | some a => simp [Event.entry, hb, hother a hb]
  have hcloses : Event.closes q t.clientId (.received (some b)) = false := by
    cases hb : b.addressee with
    | none => simp [Event.closes, hb]
    | some a => simp [Event.closes, hb, hother a hb]
  refine ⟨rfl, rfl, ?_, ?_, ?_, fun _ => rfl, fun h => hactive.symm.trans h⟩
  · intro _ _
    rw [hentry, List.append_nil]
  · intro h _ _
    exact hactive.trans h
  · intro h
    rw [hcloses] at h
    cases h

/-- A block of another client. -/
lemma Fed.of_addressee {b : Block} {id : ClientId} {type : BlockType}
    (hb : b.addressee = some (id, type)) (hid : t.clientId ≠ id)
    (hactive : s'.active t.clientId = s.active t.clientId) :
    Fed raptorq s s' (.received (some b)) q t t := by
  refine .of_other hactive fun a ha => ?_
  rw [hb, Option.some.injEq] at ha
  rw [← ha]
  exact Ne.symm hid

/-- The client is served by another transfer. -/
lemma Fed.of_elsewhere {e : Event} (hactive : s.active t.clientId ≠ some q)
    (haway : s'.active t.clientId = some q → s.active t.clientId = some q) :
    Fed raptorq s s' e q t t where
  clientId_eq := rfl
  dropped_eq := rfl
  sent_of_open h := absurd h hactive
  stays h := absurd h hactive
  leaves _ _ h := hactive (haway h)
  sent_of_closed _ := rfl
  away := haway

/-- A block of the client itself, which is put in the queue and closes it unless it is `Data`. -/
lemma Fed.of_put {b : Block} {type : BlockType} (hb : b.addressee = some (t.clientId, type))
    (htype : type ≠ .start) (hactive : s.active t.clientId = some q) (hopen : t.dropped = false)
    (hstays : type = .data → s'.active t.clientId = some q)
    (hleaves : type ≠ .data → s'.active t.clientId ≠ some q) :
    Fed raptorq s s' (.received (some b)) q t (t.put b) := by
  refine ⟨t.clientId_put b, t.dropped_put b, fun _ _ => ?_, fun _ _ hcloses => hstays ?_,
    fun hcloses _ => hleaves ?_, fun hdropped => ?_, fun _ => hactive⟩
  · rw [Transfer.sent_put hopen]
    simp [Event.entry, hb, htype]
  · simpa [Event.closes, hb] using hcloses
  · simpa [Event.closes, hb] using hcloses
  · simp [hdropped hactive] at hopen

/-- **What a step of the dispatch worker does to each queue.** -/
theorem Received.fed (hvalid : s.Valid) (h : Received config s m s')
    (ht : s.transfers[q]? = some t) :
    ∃ t', s'.transfers[q]? = some t' ∧ Fed config.raptorq s s' (.received m) q t t' := by
  have hlt : q < s.transfers.length := (List.getElem?_eq_some_iff.mp ht).1
  cases h with
  | @lost transfers hget =>
    refine ⟨aborted config.raptorq s.active q t, by rw [hget, ht, Option.map_some], ?_⟩
    by_cases hactive : s.active t.clientId = some q
    · rw [aborted, if_pos hactive]
      refine ⟨t.clientId_putAll _, t.dropped_putAll _, ?_, by simp [Event.closes], by simp, ?_,
        by simp⟩
      · intro _ hopen
        exact Transfer.sent_putAll hopen _
      · intro hdropped
        rw [Transfer.putAll_of_dropped (hdropped hactive)]
    · rw [aborted, if_neg hactive]
      exact .of_elsewhere hactive (by simp)
  | @stopped f hlt =>
    have hnone : abortOf config.raptorq t.clientId = [] := by
      rcases Block.new_none_eq .abort config.raptorq t.clientId with ⟨-, hnew⟩ | ⟨hge, -⟩
      · rw [abortOf, hnew]
      · omega
    exact ⟨t, ht, rfl, rfl, by simp [Event.entry, hnone], by simp [Event.closes], by simp,
      fun _ => rfl, id⟩
  | @ignored b hb => exact ⟨t, ht, .of_other rfl (by simp [hb])⟩
  | @start b id hb =>
    refine ⟨t, (List.getElem?_append_left hlt).trans ht, ?_⟩
    by_cases hid : t.clientId = id
    · subst hid
      -- the client has started another transfer
      have hlen : s.transfers.length ≠ q := by omega
      exact ⟨rfl, rfl, by simp [Event.entry, hb], by simp [Event.closes, hb],
        by simp [register, hlen], fun _ => rfl, by simp [register, hlen]⟩
    · exact .of_addressee hb hid (by simp [register, update_of_ne hid])
  | @inactive b id type hb htype hactive =>
    refine ⟨t, ht, ?_⟩
    by_cases hid : t.clientId = id
    · subst hid
      exact .of_elsewhere (by simp [hactive]) id
    · exact .of_addressee hb hid rfl
  | @gone b id type q₁ t₁ hb htype hactive ht₁ hdropped =>
    refine ⟨t, ht, ?_⟩
    by_cases hid : t.clientId = id
    · subst hid
      have hopen : s.active t.clientId = some q → t.dropped = true := by
        intro h
        obtain rfl : q₁ = q := by simpa using hactive.symm.trans h
        obtain rfl : t = t₁ := by simpa using ht.symm.trans ht₁
        exact hdropped
      refine ⟨rfl, rfl, ?_, ?_, by simp, fun _ => rfl, by simp⟩
      · intro h hfalse
        simp [hopen h] at hfalse
      · intro h hfalse
        simp [hopen h] at hfalse
    · exact .of_addressee hb hid (update_of_ne hid _ _)
  | @data b id q₁ t₁ hb hactive ht₁ hopen =>
    by_cases hq : q₁ = q
    · subst hq
      obtain rfl : t = t₁ := by simpa using ht.symm.trans ht₁
      obtain rfl := hvalid.clientId_eq hactive ht
      exact ⟨t.put b, List.getElem?_set_self hlt,
        .of_put hb (by simp) hactive hopen (fun _ => hactive) fun hne => absurd rfl hne⟩
    · refine ⟨t, (List.getElem?_set_ne hq).trans ht, ?_⟩
      by_cases hid : t.clientId = id
      · subst hid
        exact .of_elsewhere (fun h => hq (by simpa using hactive.symm.trans h)) id
      · exact .of_addressee hb hid rfl
  | @last b id type q₁ t₁ hb htype hactive ht₁ hopen =>
    by_cases hq : q₁ = q
    · subst hq
      obtain rfl : t = t₁ := by simpa using ht.symm.trans ht₁
      obtain rfl := hvalid.clientId_eq hactive ht
      have hlast : type ≠ .start ∧ type ≠ .data := by
        rcases htype with rfl | rfl <;> simp
      exact ⟨t.put b, List.getElem?_set_self hlt,
        .of_put hb hlast.1 hactive hopen (fun heq => absurd heq hlast.2) (by simp)⟩
    · refine ⟨t, (List.getElem?_set_ne hq).trans ht, ?_⟩
      by_cases hid : t.clientId = id
      · subst hid
        exact .of_elsewhere (fun h => hq (by simpa using hactive.symm.trans h)) (by simp)
      · exact .of_addressee hb hid (update_of_ne hid _ _)

end Fed

/-- The queue number `q`, opened by `b`, has got what it should from the events since then. If it
is open, it is active and its worker is there; once it is closed, this is never so again. -/
structure Queued (raptorq : RaptorQ) (s : Demux k) (q : ℕ) (id : ClientId) (b : Block)
    (events : List Event) (t : Transfer) : Prop where
  clientId_eq : t.clientId = id
  sent_eq : t.sent = b :: queueOf raptorq q id events
  isOpen : events.any (·.closes q id) = false → s.active id = some q ∧ t.dropped = false
  closed : events.any (·.closes q id) = true →
    s.dispatch = none → s.active id = some q → t.dropped = true

/-- **The invariant of the queues.** -/
structure Demultiplexed (raptorq : RaptorQ) (s : Logged k) : Prop where
  valid : s.demux.Valid
  length_eq : s.demux.transfers.length = opened s.log
  queued : ∀ before after b id, s.log = before ++ .received (some b) :: after →
    b.addressee = some (id, .start) → ∃ t, s.demux.transfers[opened before]? = some t ∧
      Queued raptorq s.demux (opened before) id b after t

section Queued

variable {s s' : Demux k} {q : ℕ} {id : ClientId} {b : Block} {events : List Event}
  {t t' : Transfer}

/-- The queue that a `Start` has just opened. -/
lemma Queued.start (hactive : s.active id = some q) :
    Queued raptorq s q id b [] ((Transfer.new id).put b) where
  clientId_eq := (Transfer.new id).clientId_put b
  sent_eq := Transfer.sent_put rfl b
  isOpen _ := ⟨hactive, (Transfer.new id).dropped_put b⟩
  closed h := by simp at h

/-- A step of the dispatch worker. -/
lemma Queued.fed {e : Event} (h : Queued raptorq s q id b events t) (hidle : s.dispatch = none)
    (hfed : Fed raptorq s s' e q t t') : Queued raptorq s' q id b (events ++ [e]) t' := by
  obtain ⟨rfl, hsent, hopen, hclosed⟩ := h
  refine ⟨hfed.clientId_eq, ?_, ?_, ?_⟩
  · rw [queueOf_append]
    cases hany : events.any (·.closes q t.clientId) with
    | false =>
      obtain ⟨hactive, hdropped⟩ := hopen hany
      rw [hfed.sent_of_open hactive hdropped, hsent]
      simp
    | true =>
      rw [hfed.sent_of_closed (hclosed hany hidle), hsent]
      simp
  · intro hany
    simp only [List.any_append, List.any_cons, List.any_nil, Bool.or_false, Bool.or_eq_false_iff]
      at hany
    obtain ⟨hactive, hdropped⟩ := hopen hany.1
    exact ⟨hfed.stays hactive hdropped hany.2, hfed.dropped_eq.trans hdropped⟩
  · intro hany hidle' hactive
    simp only [List.any_append, List.any_cons, List.any_nil, Bool.or_false, Bool.or_eq_true]
      at hany
    rcases hany with hany | hcloses
    · exact hfed.dropped_eq.trans (hclosed hany hidle (hfed.away hactive))
    · exact absurd hactive (hfed.leaves hcloses hidle')

/-- What the client workers do. -/
lemma Queued.aside (h : Queued raptorq s q id b events t) (haside : Aside s s')
    (ht : s.transfers[q]? = some t) : ∃ t', s'.transfers[q]? = some t' ∧
      Queued raptorq s' q id b (events ++ (justDropped s s').map .gone) t' := by
  obtain ⟨t', ht', hid, hsent, hdropped⟩ := haside.kept q t ht
  have hlt : q < s.transfers.length := (List.getElem?_eq_some_iff.mp ht).1
  have hmem : q ∈ justDropped s s' ↔ t'.dropped = true ∧ t.dropped = false := by
    simp only [justDropped, List.mem_filter, List.mem_range, hlt, ht, ht', Option.any_some,
      true_and, Bool.and_eq_true, Bool.not_eq_true']
  have hgone : ((justDropped s s').map Event.gone).any (·.closes q id) =
      decide (q ∈ justDropped s s') := by
    rw [Bool.eq_iff_iff]
    simp [Event.closes]
  have hany : (events ++ (justDropped s s').map Event.gone).any (·.closes q id) =
      (events.any (·.closes q id) || decide (q ∈ justDropped s s')) := by
    rw [List.any_append, hgone]
  refine ⟨t', ht', hid.trans h.clientId_eq, ?_, ?_, ?_⟩
  · rw [queueOf_append_gone, hsent, h.sent_eq]
  · intro hfalse
    rw [hany, Bool.or_eq_false_iff, decide_eq_false_iff_not, hmem] at hfalse
    obtain ⟨hactive, hopen⟩ := h.isOpen hfalse.1
    refine ⟨haside.active_eq ▸ hactive, ?_⟩
    by_contra htrue
    exact hfalse.2 ⟨by simpa using htrue, hopen⟩
  · intro htrue hidle hactive
    rw [hany, Bool.or_eq_true, decide_eq_true_eq, hmem] at htrue
    rcases htrue with hclosed | ⟨hgone, -⟩
    · rw [haside.dispatch_eq] at hidle
      rw [haside.active_eq] at hactive
      exact hdropped (h.closed hclosed hidle hactive)
    · exact hgone

end Queued

namespace Demultiplexed

variable {s s' : Logged k}

/-- The invariant holds at the start. -/
lemma init : Demultiplexed raptorq (Logged.init k) where
  valid := Valid.init
  length_eq := rfl
  queued before after b id hlog := by simp [Logged.init] at hlog

/-- A step of the dispatch worker keeps the invariant. -/
lemma received (h : Demultiplexed config.raptorq s) (hidle : s.demux.dispatch = none)
    {m : Option Block} {demux : Demux k} (ht : Received config s.demux m demux) :
    Demultiplexed config.raptorq ⟨demux, s.log ++ [.received m]⟩ := by
  have hcount : opened (s.log ++ [.received m]) =
      opened s.log + if Event.starts (.received m) then 1 else 0 := by
    simp [opened, List.countP_append, List.countP_singleton]
  refine ⟨ht.valid h.valid, ?_, ?_⟩
  · rw [hcount, ← h.length_eq]
    rcases ht.opens with ⟨hlen, hstarts⟩ | ⟨b, id, rfl, hb, -, -, htransfers⟩
    · simp [hlen, hstarts]
    · have hstarts : Event.starts (.received (some b)) = true := by simp [Event.starts, hb]
      simp [htransfers, hstarts]
  · intro before after b id hlog hb
    rcases LTS.append_eq_append_cons hlog with ⟨more, hold, rfl⟩ | ⟨more, rfl, hnew⟩
    · obtain ⟨t, htq, hqueued⟩ := h.queued before more b id hold hb
      obtain ⟨t', htq', hfed⟩ := ht.fed h.valid htq
      exact ⟨t', htq', hqueued.fed hidle hfed⟩
    · -- the queue has just been opened
      obtain ⟨rfl, rfl, hnil⟩ : more = [] ∧ m = some b ∧ after = [] := by
        cases more with
        | nil => simpa [eq_comm] using hnew
        | cons e more => simp at hnew
      rw [List.append_nil, ← h.length_eq, hnil]
      have hstarts : Event.starts (.received (some b)) = true := by simp [Event.starts, hb]
      rcases ht.opens with ⟨-, hfalse⟩ | ⟨b', id', hb', haddr, hactive, -, htransfers⟩
      · rw [hstarts] at hfalse
        cases hfalse
      · obtain rfl : b = b' := Option.some.inj hb'
        obtain rfl : id = id' := by
          rw [hb] at haddr
          simpa using haddr
        rw [htransfers]
        exact ⟨_, List.getElem?_concat_length, .start hactive⟩

/-- What the client workers do keeps the invariant. -/
lemma aside (h : Demultiplexed raptorq s) {demux : Demux k} (haside : Aside s.demux demux) :
    Demultiplexed raptorq ⟨demux, s.log ++ (justDropped s.demux demux).map .gone⟩ := by
  refine ⟨h.valid.aside haside, ?_, ?_⟩
  · rw [haside.length_eq, h.length_eq, opened, opened, List.countP_append]
    simp [Event.starts, List.countP_map, Function.comp_def]
  · intro before after b id hlog hb
    rcases LTS.append_eq_append_cons hlog with ⟨more, hold, rfl⟩ | ⟨more, -, hnew⟩
    · obtain ⟨t, ht, hqueued⟩ := h.queued before more b id hold hb
      exact hqueued.aside haside ht
    · have hmem : Event.received (some b) ∈ (justDropped s.demux demux).map Event.gone := by
        simp [hnew]
      simp at hmem

/-- **Each event puts in the queues what the definition says.** -/
theorem step (h : Demultiplexed config.raptorq s) {a : Label k}
    (ht : Logged.step config s a = some s') : Demultiplexed config.raptorq s' := by
  simp only [Logged.step, Option.map_eq_some_iff] at ht
  obtain ⟨demux, hdemux, rfl⟩ := ht
  cases a with
  | receive m =>
    simp only [Demux.step, Option.ite_none_right_eq_some, Option.some.injEq] at hdemux
    obtain ⟨hidle, rfl⟩ := hdemux
    exact h.received (Option.isNone_iff_eq_none.mp hidle) (received_of_receive h.valid config m)
  | client w answer => exact h.aside (aside_of_step hdemux (by simp))
  | drop q => exact h.aside (aside_of_step hdemux (by simp))

end Demultiplexed

/-- The `Abort` of a client, in a geometry with room for its fields. -/
lemma abortOf_eq (id : ClientId) (h : 5 ≤ raptorq.transferLength.toNat) :
    ∃ a, abortOf raptorq id = [a] ∧ a.addressee = some (id, .abort) := by
  rcases Block.new_none_eq .abort raptorq id with ⟨hlt, -⟩ | ⟨-, a, hnew⟩
  · omega
  · exact ⟨a, by rw [abortOf, hnew], Block.addressee_of_new hnew (by simp)⟩

/-- **Demultiplexing.** Whatever the dispatch worker receives, and whenever the client workers drop
their queues, there is one queue for each `Start`, and it gets this `Start` and then the blocks of
its client, in order, up to the first event that closes it. If this is the loss of synchronization,
it gets a single `Abort` at last. -/
theorem demultiplexes {s : Logged k} (h : LTS.Reach (Logged.step config) (Logged.init k) s) :
    s.demux.transfers.length = opened s.log ∧
    (∀ before after b id, s.log = before ++ .received (some b) :: after →
      b.addressee = some (id, .start) → ∃ t, s.demux.transfers[opened before]? = some t ∧
        t.clientId = id ∧ t.sent = b :: queueOf config.raptorq (opened before) id after) ∧
    ∀ id, 5 ≤ config.raptorq.transferLength.toNat →
      ∃ a, abortOf config.raptorq id = [a] ∧ a.addressee = some (id, .abort) := by
  have hinv : Demultiplexed config.raptorq s :=
    h.invariant .init fun _ _ _ _ hinv _ hstep => hinv.step hstep
  refine ⟨hinv.length_eq, fun before after b id hlog hb => ?_, abortOf_eq⟩
  obtain ⟨t, ht, hqueued⟩ := hinv.queued before after b id hlog hb
  exact ⟨t, ht, hqueued.clientId_eq, hqueued.sent_eq⟩

/-- Two clients, one of which starts again before it has ended, and a loss of synchronization. -/
def mixedBlocks : List (Option Block) :=
  [some (.single .start 7), some (.single .data 7), some (.single .start 9),
    some (.single .data 7), some (.single .data 9), some (.single .start 7),
    some (.single .data 7), none, some (.single .data 9)]

/-- The queues of two of the three transfers. -/
theorem demultiplexes_mixed : ∃ s : Logged 1, s.log = mixedBlocks.map .received ∧
    (∃ t, s.demux.transfers[0]? = some t ∧ t.clientId = 7 ∧
      t.sent = [.single .start 7, .single .data 7, .single .data 7]) ∧
    ∃ t, s.demux.transfers[1]? = some t ∧ t.clientId = 9 ∧
      t.sent = [.single .start 9, .single .data 9, .single .abort 9] := by
  have hrun : (LTS.run (Logged.step ⟨RaptorQ.single, false, false⟩) (Logged.init 1)
      (mixedBlocks.map .receive)).map (fun s => s.log) =
      some (mixedBlocks.map .received) := by
    decide +kernel
  obtain ⟨s, hs, hlog⟩ := Option.map_eq_some_iff.mp hrun
  obtain ⟨-, hqueue, -⟩ := demultiplexes (LTS.reach_of_run hs)
  exact ⟨s, hlog, hqueue [] _ _ 7 hlog rfl, hqueue [.received (some (.single .start 7)),
    .received (some (.single .data 7))] _ _ 9 hlog rfl⟩

end Lidi.Receive.Demux
