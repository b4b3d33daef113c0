import Lidi.Receive.Delivery

set_option relaxedAutoImplicit false
set_option autoImplicit false

/-!
# Reception without losses

If the dispatch worker receives all the blocks that were sent and no call of a client fails, then
every queue has got all the blocks of its transfer that were sent so far, and no transfer is over
before its last block.

## Main definitions

* `Receive.Lossless` — the invariant.
* `Receive.Demux.Permits` — the permits of the semaphore, held or free.

## Main results

* `Receive.Demux.Permits.clientStep` — the semaphore loses no permit.
* `Receive.Demux.Permits.held_eq_nil` — when the client workers can do nothing more.
* `Receive.Lossless.receive`, `Receive.Lossless.clientStep` — the steps keep the invariant.
* `Receive.Lossless.all_ended` — if the client workers can do nothing more and all transfers were
  sent to their ends, then all transfers have ended.
-/

namespace Lidi.Receive

open Function

variable {k : ℕ}

/-- The permits of the semaphore are free, or taken by workers that serve a transfer or have
panicked. -/
def Worker.permit : Worker → Option Unit
  | .serve _ _ => some ()
  | .panicked => some ()
  | _ => none

/-- No permit is lost. -/
def Demux.Permits (s : Demux k) : Prop :=
  s.multiplexControl + (Pool.holding fun w => (s.workers w).permit).length = k

namespace Demux

variable {s s' : Demux k} {config : Config} {w : Fin k} {answer : Client.Answer}

/-- At first all permits are free. -/
lemma Permits.init (k : ℕ) : (init k).Permits := by
  have hnone : Pool.holding (fun _ : Fin k => Worker.recv.permit) = [] :=
    Pool.holding_eq_nil.mpr fun _ => rfl
  simp [Permits, Demux.init, hnone]

/-- **The semaphore loses no permit**, whatever the calls of the clients do. -/
theorem Permits.clientStep (h : s.Permits) (ht : ClientTrans config s w answer s') :
    s'.Permits := by
  unfold Permits at h
  cases ht with
  | @recv q rest hw hin =>
    have hupdate := Pool.length_phases_update (v := .wait q) (a := none) (b := none)
      (congrArg Worker.permit hw) rfl
    simp only [Permits]
    omega
  | @acquire q permits hw hsem =>
    have hupdate := Pool.length_phases_update (v := .serve q .new) (a := none) (b := some ())
      (congrArg Worker.permit hw) rfl
    simp only [Option.toList_none, Option.toList_some, List.length_nil, List.length_singleton,
      Nat.zero_add] at hupdate
    simp only [Permits]
    omega
  | @serve q stage answer t t' result hw hq hstep =>
    have hserve := congrArg Worker.permit hw
    cases result with
    | go stage' =>
      have hupdate := Pool.length_phases_update (v := .serve q stage') (a := some ())
        (b := some ()) hserve rfl
      simp only [Permits, served, Worker.next, Worker.signals]
      omega
    | returned =>
      have hupdate := Pool.length_phases_update (v := .recv) (a := some ()) (b := none) hserve rfl
      simp only [Option.toList_none, Option.toList_some, List.length_nil,
        List.length_singleton] at hupdate
      simp only [Permits, served, Worker.next, Worker.signals]
      omega
    | panicked =>
      have hupdate := Pool.length_phases_update (v := .panicked) (a := some ()) (b := some ())
        hserve rfl
      simp only [Permits, served, Worker.next, Worker.signals]
      omega

/-- **When the client workers can do nothing more** and none of them serves a transfer, no transfer
is in hand.

**Proof sketch.** All permits are free, so no worker waits for one, and all of them look for a
transfer. There is none, or they could take it. -/
lemma Permits.held_eq_nil (h : s.Permits) (hhealthy : ∀ w, s.workers w ≠ .panicked) (hk : 0 < k)
    (hserve : ∀ w q stage, s.workers w ≠ .serve q stage)
    (hstuck : ∀ w, Demux.clientStep config s w .ok = none) : s.held = [] := by
  have hpermits : s.multiplexControl = k := by
    have hfree : Pool.holding (fun w => (s.workers w).permit) = [] := by
      refine Pool.holding_eq_nil.mpr fun w => ?_
      cases hw : s.workers w with
      | serve q stage => exact absurd hw (hserve w q stage)
      | panicked => exact absurd hw (hhealthy w)
      | _ => rfl
    simpa [Permits, hfree] using h
  have hrecv : ∀ w, s.workers w = .recv := by
    intro w
    cases hw : s.workers w with
    | recv => rfl
    | wait q =>
      obtain ⟨n, hn⟩ := Nat.exists_eq_succ_of_ne_zero (hpermits.trans_ne hk.ne')
      have hmove : Demux.clientStep config s w .ok = some _ :=
        clientStep_iff.mpr (.acquire hw hn)
      simp [hstuck w] at hmove
    | serve q stage => exact absurd hw (hserve w q stage)
    | panicked => exact absurd hw (hhealthy w)
  have hclients : s.toClients = [] := by
    cases hin : s.toClients with
    | nil => rfl
    | cons q rest =>
      have hmove : Demux.clientStep config s ⟨0, hk⟩ .ok = some _ :=
        clientStep_iff.mpr (.recv (hrecv ⟨0, hk⟩) hin)
      simp [hstuck ⟨0, hk⟩] at hmove
  have hidle : Pool.holding (fun w => (s.workers w).transfer) = [] :=
    Pool.holding_eq_nil.mpr fun w => by rw [hrecv]; rfl
  simp [held, hclients, hidle]

end Demux

/-- **The invariant of a reception without losses.** `blocks` are the blocks sent so far, all of
which have been received. -/
structure Lossless (blocks : List Block) (s : Demux k) : Prop where
  inv : s.Inv
  delivered : Delivered blocks s
  running : s.dispatch = none
  full : ∀ t ∈ s.transfers, t.sent = blocksOf t.clientId blocks
  opened : ∀ id, blocksOf id blocks ≠ [] → ∃ t ∈ s.transfers, t.clientId = id
  active : ∀ q t, s.transfers[q]? = some t → (∀ b ∈ t.sent, b.outcome = none) →
    s.active t.clientId = some q
  ended : ∀ t ∈ s.transfers, t.dropped = true → ∃ ok, Ended t ok
  permits : s.Permits
  healthy : ∀ w, s.workers w ≠ .panicked

namespace Lossless

variable {raptorq : RaptorQ} {blocks : List Block} {b : Block} {s s' : Demux k} {config : Config}
  {id : ClientId}

/-- The invariant holds at the start. -/
lemma init (k : ℕ) : Lossless [] (Demux.init k) where
  inv := Demux.Inv.init
  delivered := .init k
  running := rfl
  full := by simp [Demux.init]
  opened := by simp
  active := by simp [Demux.init]
  ended := by simp [Demux.init]
  permits := .init k
  healthy := by simp [Demux.init]

/-- A transfer without a last block is still in hand. -/
lemma dropped_eq_false (h : Lossless blocks s) {t : Transfer} (ht : t ∈ s.transfers)
    (hsent : ∀ b ∈ t.sent, b.outcome = none) : t.dropped = false := by
  by_contra hdropped
  obtain ⟨ok, hended⟩ := h.ended t ht (by simpa using hdropped)
  obtain ⟨body, last, htaken, -, hlast⟩ := hended.taken_eq
  have hnone := hsent last (by simp [Transfer.sent, htaken])
  rw [hnone] at hlast
  cases hlast

/-- A transfer keeps its account when a block is put in its queue. -/
lemma ended_put {t : Transfer} (h : t.dropped = true → ∃ ok, Ended t ok) (b : Block) :
    (t.put b).dropped = true → ∃ ok, Ended (t.put b) ok := by
  unfold Transfer.put
  split
  · exact h
  · rename_i hopen
    intro hdropped
    exact absurd hdropped hopen

/-- The first block of a transfer opens its queue. -/
lemma register (h : Lossless blocks s) (hb : b.IsOf id) (hfirst : blocksOf id blocks = []) :
    Lossless (blocks ++ [b]) ((s.register id).forward id b false) := by
  have hdelivered := h.delivered.register hb hfirst
  have hinv := (h.inv.register id).forward id b false
  rw [Demux.forward_register] at hdelivered hinv ⊢
  have hnew := h.delivered.clientId_ne hfirst
  have hblocks : blocksOf id (blocks ++ [b]) = [b] := by
    rw [blocksOf_append_self hb, hfirst, List.nil_append]
  refine ⟨hinv, hdelivered, h.running, ?_, ?_, ?_, ?_, h.permits, h.healthy⟩
  · intro t ht
    rcases List.mem_append.mp ht with ht | ht
    · rw [blocksOf_append_of_ne hb (hnew t ht)]
      exact h.full t ht
    · rw [List.mem_singleton.mp ht]
      exact hblocks.symm
  · intro id' hne
    by_cases hid : id' = id
    · exact ⟨_, List.mem_append_right _ (List.mem_singleton_self _), hid.symm⟩
    · rw [blocksOf_append_of_ne hb hid] at hne
      obtain ⟨t, ht, hid'⟩ := h.opened id' hne
      exact ⟨t, List.mem_append_left _ ht, hid'⟩
  · intro q t ht hopen
    rcases lt_or_ge q s.transfers.length with hlt | hge
    · rw [List.getElem?_append_left hlt] at ht
      have hid := hnew t (List.mem_of_getElem? ht)
      simp only [Demux.register, update_of_ne hid]
      exact h.active q t ht hopen
    · have hlt := (List.getElem?_eq_some_iff.mp ht).1
      rw [List.length_append, List.length_singleton] at hlt
      obtain rfl : q = s.transfers.length := by omega
      rw [List.getElem?_concat_length, Option.some.injEq] at ht
      rw [← ht]
      exact update_self ..
  · intro t ht hdropped
    rcases List.mem_append.mp ht with ht | ht
    · exact h.ended t ht hdropped
    · rw [List.mem_singleton.mp ht] at hdropped
      cases hdropped

/-- The next block of a transfer goes to its queue. -/
lemma forward (h : Lossless blocks s) (hsource : Source raptorq (blocks ++ [b])) (hb : b.IsOf id)
    (hnext : blocksOf id blocks ≠ []) {willEnd : Bool} (hend : willEnd = true → b.outcome ≠ none) :
    Lossless (blocks ++ [b]) (s.forward id b willEnd) := by
  have hdelivered := h.delivered.forward hb willEnd
  have hinv := h.inv.forward id b willEnd
  obtain ⟨t, ht, hid⟩ := h.opened id hnext
  obtain ⟨q, hq⟩ := List.getElem?_of_mem ht
  have hopen : ∀ b' ∈ t.sent, b'.outcome = none := by
    rw [h.full t ht, hid]
    exact hsource.outcome_eq_none hb
  have hactive := h.active q t hq hopen
  rw [hid] at hactive
  have hdropped := h.dropped_eq_false ht hopen
  have hput : (t.put b).clientId = id ∧ (t.put b).sent = t.sent ++ [b] := by
    simp [Transfer.put, hdropped, Transfer.sent, hid]
  -- the transfers afterwards: that of the block, and the others
  have hcases : ∀ (q' : ℕ) (t' : Transfer), (s.transfers.set q (t.put b))[q']? = some t' →
      (q' = q ∧ t' = t.put b) ∨ (s.transfers[q']? = some t' ∧ t'.clientId ≠ id) := by
    intro q' t' ht'
    rcases Demux.getElem?_set_cases ht' with heq | ⟨hne, ht'⟩
    · exact .inl heq
    · refine .inr ⟨ht', fun hid' => hne ?_⟩
      exact h.delivered.index_eq ht' hq (hid'.trans hid.symm)
  have hfull : ∀ t' ∈ s.transfers.set q (t.put b),
      t'.sent = blocksOf t'.clientId (blocks ++ [b]) := by
    intro t' ht'
    obtain ⟨q', hq'⟩ := List.getElem?_of_mem ht'
    rcases hcases q' t' hq' with ⟨-, rfl⟩ | ⟨hq', hid'⟩
    · rw [hput.1, hput.2, blocksOf_append_self hb, h.full t ht, hid]
    · rw [blocksOf_append_of_ne hb hid']
      exact h.full t' (List.mem_of_getElem? hq')
  have hopened : ∀ id', blocksOf id' (blocks ++ [b]) ≠ [] →
      ∃ t' ∈ s.transfers.set q (t.put b), t'.clientId = id' := by
    intro id' hne
    by_cases hid' : id' = id
    · exact ⟨t.put b, List.mem_set (List.getElem?_eq_some_iff.mp hq).1 _, hput.1.trans hid'.symm⟩
    · rw [blocksOf_append_of_ne hb hid'] at hne
      obtain ⟨t', ht', rfl⟩ := h.opened id' hne
      obtain ⟨q', hq'⟩ := List.getElem?_of_mem ht'
      have hne' : q ≠ q' := by
        rintro rfl
        obtain rfl : t = t' := by simpa using hq.symm.trans hq'
        exact hid' hid
      exact ⟨t', List.mem_of_getElem? ((List.getElem?_set_ne hne').trans hq'), rfl⟩
  have hended : ∀ t' ∈ s.transfers.set q (t.put b), t'.dropped = true → ∃ ok, Ended t' ok := by
    intro t' ht'
    rcases List.mem_or_eq_of_mem_set ht' with ht' | rfl
    · exact h.ended t' ht'
    · exact ended_put (h.ended t ht) b
  have hstate : s.forward id b willEnd =
      if willEnd then { s with
        transfers := s.transfers.set q (t.put b)
        active := update s.active id none
        ended := update (Demux.retain (s.transfers.set q (t.put b)) s.ended) id (some q) }
      else { s with transfers := s.transfers.set q (t.put b) } := by
    simp [Demux.forward, hactive, hq, hdropped]
  rw [hstate] at hdelivered hinv ⊢
  cases willEnd with
  | false =>
    refine ⟨hinv, hdelivered, h.running, hfull, hopened, ?_, hended, h.permits, h.healthy⟩
    intro q' t' hq' hopen'
    rcases hcases q' t' hq' with ⟨rfl, rfl⟩ | ⟨hq', -⟩
    · rw [hput.1]
      exact hactive
    · exact h.active q' t' hq' hopen'
  | true =>
    refine ⟨hinv, hdelivered, h.running, hfull, hopened, ?_, hended, h.permits, h.healthy⟩
    intro q' t' hq' hopen'
    rcases hcases q' t' hq' with ⟨rfl, rfl⟩ | ⟨hq', hid'⟩
    · rw [hput.2] at hopen'
      exact absurd (hopen' b (by simp)) (hend rfl)
    · simp only [if_true, update_of_ne hid']
      exact h.active q' t' hq' hopen'

/-- **Receiving the next block keeps the invariant.** -/
theorem receive (h : Lossless blocks s) (config : Config)
    (hsource : Source raptorq (blocks ++ [b])) :
    Lossless (blocks ++ [b]) (s.receive config (some b)) := by
  obtain ⟨type, id, data, hb⟩ := hsource.carries b (by simp)
  unfold Demux.receive
  simp only [hb.blockType_eq, hb.clientId_eq]
  by_cases htype : type = .heartbeat
  · subst htype
    have hnot : ∀ id', ¬ b.IsOf id' := fun id' => not_isOf_heartbeat hb
    have hsame : ∀ id', blocksOf id' (blocks ++ [b]) = blocksOf id' blocks := fun id' => by
      rw [blocksOf_append, blocksOf_singleton_of_not (hnot id'), List.append_nil]
    exact ⟨h.inv, h.delivered.ignore hnot, h.running, by simpa only [hsame] using h.full,
      by simpa only [hsame] using h.opened, h.active, h.ended, h.permits, h.healthy⟩
  · have hof := isOf_of_carries hb htype
    have hfirst := hsource.start_iff hb htype
    have houtcome := Block.outcome_eq hb.blockType_eq
    cases type with
    | heartbeat => exact absurd rfl htype
    | start => exact h.register hof (hfirst.mp rfl)
    | data => exact h.forward hsource hof (fun he => by simpa using hfirst.mpr he) nofun
    | abort =>
      refine h.forward hsource hof (fun he => by simpa using hfirst.mpr he) fun _ => ?_
      simp [houtcome, Client.outcome]
    | «end» =>
      refine h.forward hsource hof (fun he => by simpa using hfirst.mpr he) fun _ => ?_
      simp [houtcome, Client.outcome]

variable {len : ℕ} {w : Fin k} {q : ℕ} {t t' : Transfer} {stage : Client.Stage}
  {result : Client.Result}

/-- A transfer that a worker serves. -/
lemma serving (h : Lossless blocks s) (hw : s.workers w = .serve q stage)
    (hq : s.transfers[q]? = some t) : t.dropped = false ∧ Serving t stage := by
  refine h.inv.status q stage t (List.mem_append_right _ (Pool.mem_holding.mpr ⟨w, ?_⟩)) hq
  rw [hw]
  rfl

/-- The blocks that are still in the queue are well formed. -/
lemma carries_of_queue (h : Lossless blocks s) (hsource : Source raptorq blocks)
    (hq : s.transfers[q]? = some t) {rest : List Block} (hqueue : t.queue = b :: rest) :
    ∃ type id data, b.Carries raptorq type id data := by
  have hmem : b ∈ blocksOf t.clientId blocks := by
    rw [← h.full t (List.mem_of_getElem? hq), Transfer.sent, hqueue]
    simp
  exact hsource.carries b (List.mem_of_mem_filter hmem)

/-- A transfer that is still served keeps the sending end of its queue. -/
lemma alive_of_queue (h : Lossless blocks s) {buffer : List UInt8}
    (hw : s.workers w = .serve q (.running buffer)) (hq : s.transfers[q]? = some t)
    (hqueue : t.queue = []) : s.alive q t = true := by
  obtain ⟨-, -, -, htaken⟩ := h.serving hw hq
  have hactive := h.active q t hq (by simpa [Transfer.sent, hqueue] using htaken)
  simp [Demux.alive, h.running, hactive]

/-- If no call fails, a worker goes on with its transfer or has ended it. -/
lemma result_cases (h : Lossless blocks s) (hsource : Source raptorq blocks)
    (hmax : Block.maxDataLen config.raptorq = some len) (hw : s.workers w = .serve q stage)
    (hq : s.transfers[q]? = some t)
    (hstep : Client.Trans config (s.alive q t) t stage .ok result t') :
    (∃ stage', result = .go stage') ∨ (result = .returned ∧ ∃ ok, Ended t' ok) := by
  have hnext := (h.serving hw hq).2.step hstep
  cases hstep with
  | new _ => exact .inl ⟨_, rfl⟩
  | newPanic hnone => simp [hnone] at hmax
  | gone hqueue halive => simp [h.alive_of_queue hw hq hqueue] at halive
  | unknown hqueue htype =>
    obtain ⟨type, id, data, hb⟩ := h.carries_of_queue hsource hq hqueue
    simp [hb.blockType_eq] at htype
  | payloadPanic hqueue htype hpayload =>
    obtain ⟨type, id, data, hb⟩ := h.carries_of_queue hsource hq hqueue
    simp [hb.payload_eq] at hpayload
  | data hqueue htype hpayload hout => exact .inl ⟨_, rfl⟩
  | @finish buffer payload b rest type ok hqueue htype hpayload hout =>
    refine .inr ⟨rfl, hnext.resolve_right fun hnone => hnone ok ?_⟩
    simp [Transfer.drop, Transfer.call]

/-- **A step of a client worker keeps the invariant**, if no call fails. -/
theorem clientStep (h : Lossless blocks s) (hsource : Source raptorq blocks)
    (hmax : Block.maxDataLen config.raptorq = some len)
    (ht : Demux.ClientTrans config s w .ok s') : Lossless blocks s' := by
  have hinv := h.inv.clientStep ht
  have hdelivered := h.delivered.clientStep ht
  have hpermits := h.permits.clientStep ht
  have hhealthy : ∀ v : Worker, v ≠ .panicked → ∀ w', update s.workers w v w' ≠ .panicked :=
    fun v hv => (forall_update_iff s.workers fun _ v => v ≠ .panicked).mpr
      ⟨hv, fun w' _ => h.healthy w'⟩
  cases ht with
  | recv hw hin =>
    exact ⟨hinv, hdelivered, h.running, h.full, h.opened, h.active, h.ended, hpermits,
      hhealthy _ (by simp)⟩
  | acquire hw hsem =>
    exact ⟨hinv, hdelivered, h.running, h.full, h.opened, h.active, h.ended, hpermits,
      hhealthy _ (by simp)⟩
  | @serve q stage answer t t' result hw hq hstep =>
    obtain ⟨hsent, hid⟩ := hstep.sent_eq
    obtain ⟨hopen, -⟩ := h.serving hw hq
    have hdropped := hstep.dropped_eq
    have hresult := h.result_cases hsource hmax hw hq hstep
    refine ⟨hinv, hdelivered, h.running, ?_, ?_, ?_, ?_, hpermits, ?_⟩
    · intro t₁ ht₁
      rcases List.mem_or_eq_of_mem_set ht₁ with ht₁ | rfl
      · exact h.full t₁ ht₁
      · rw [hsent, hid]
        exact h.full t (List.mem_of_getElem? hq)
    · intro id hne
      obtain ⟨t₁, ht₁, rfl⟩ := h.opened id hne
      have hmem : t₁.clientId ∈ (s.transfers.set q t').map Transfer.clientId := by
        rw [Demux.map_set_of_eq hq hid]
        exact List.mem_map_of_mem ht₁
      exact List.mem_map.mp hmem
    · intro q' t₁ ht₁ hnone
      rcases Demux.getElem?_set_cases ht₁ with ⟨rfl, rfl⟩ | ⟨-, ht₁⟩
      · rw [hid]
        exact h.active q' t hq (hsent ▸ hnone)
      · exact h.active q' t₁ ht₁ hnone
    · intro t₁ ht₁ hd
      rcases List.mem_or_eq_of_mem_set ht₁ with ht₁ | rfl
      · exact h.ended t₁ ht₁ hd
      · rcases hresult with ⟨stage', rfl⟩ | ⟨-, hended⟩
        · rw [hdropped, hopen] at hd
          cases hd
        · exact hended
    · rcases hresult with ⟨stage', rfl⟩ | ⟨rfl, -⟩
      · exact hhealthy _ (by simp [Worker.next])
      · exact hhealthy _ (by simp [Worker.next])

/-- **When the client workers can do nothing more.** If all transfers were sent to their ends, and
there is at least one client worker, then every transfer has ended. -/
theorem all_ended (h : Lossless blocks s) (hsource : Source raptorq blocks)
    (hmax : Block.maxDataLen config.raptorq = some len) (hk : 0 < k)
    (hwhole : ∀ id, blocksOf id blocks ≠ [] → ∃ type bytes, Client.outcome type ≠ none ∧
      Conveys raptorq id type (blocksOf id blocks) bytes)
    (hstuck : ∀ w, Demux.clientStep config s w .ok = none) :
    ∀ t ∈ s.transfers, ∃ ok, Ended t ok := by
  -- no worker serves a transfer: its queue would have got the last block of the transfer
  have hserve : ∀ w q stage, s.workers w ≠ .serve q stage := by
    intro w q stage hw
    have hq : ∃ t, s.transfers[q]? = some t := by
      have hmem : (q, stage) ∈ s.held :=
        List.mem_append_right _ (Pool.mem_holding.mpr ⟨w, congrArg Worker.transfer hw⟩)
      exact ⟨_, List.getElem?_eq_getElem (h.inv.lt_length q stage hmem)⟩
    obtain ⟨t, hq⟩ := hq
    have hnone : Client.step config (s.alive q t) t stage .ok = none := by
      have hs := hstuck w
      simp only [Demux.clientStep, hw, hq, Option.map_eq_none_iff] at hs
      exact hs
    have hno : ∀ result t', ¬ Client.Trans config (s.alive q t) t stage .ok result t' :=
      fun result t' htrans => by simp [Client.step_iff.mpr htrans] at hnone
    cases stage with
    | new => exact hno _ _ (.new hmax)
    | running buffer =>
      cases hqueue : t.queue with
      | nil =>
        obtain ⟨-, -, -, htaken⟩ := h.serving hw hq
        have ht := List.mem_of_getElem? hq
        obtain ⟨part, hne, hpre, -⟩ := h.delivered.begun t ht
        have hblocks : blocksOf t.clientId blocks ≠ [] := by
          intro he
          rw [he] at hpre
          exact hne (List.prefix_nil.mp hpre)
        obtain ⟨type, bytes, htype, hconveys⟩ := hwhole _ hblocks
        obtain ⟨-, body, last, heq, -, hlast⟩ := hconveys.script
        have hsent : t.taken = body ++ [last] := by
          rw [← heq, ← h.full t ht, Transfer.sent, hqueue, List.append_nil]
        have hout := htaken last (by simp [hsent])
        exact htype (hlast.symm.trans hout)
      | cons b rest =>
        obtain ⟨type, id, data, hb⟩ := h.carries_of_queue hsource hq hqueue
        cases hout : Client.outcome type with
        | none => exact hno _ _ (.data hqueue hb.blockType_eq hb.payload_eq hout)
        | some ok => exact hno _ _ (.finish hqueue hb.blockType_eq hb.payload_eq hout)
  have hheld : s.held = [] := h.permits.held_eq_nil h.healthy hk hserve hstuck
  intro t ht
  obtain ⟨q, hq⟩ := List.getElem?_of_mem ht
  exact h.ended t ht (h.inv.unheld q t hq (by simp [hheld])).1

end Lossless

end Lidi.Receive
