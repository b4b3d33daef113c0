import Lidi.Protocol.Transfer
import Lidi.Receive.Dispatch

set_option relaxedAutoImplicit false
set_option autoImplicit false

/-!
# What the dispatch worker has put in the queues

The dispatch worker receives the blocks of many transfers, some of them lost, with a marker where
a block is missing. At any moment the queue of an active transfer has got all the blocks of the
transfer that were sent so far; that of another transfer a beginning of them, possibly followed by
an `Abort`.

## Main definitions

* `Receive.Source` — blocks that are a beginning of some transfers, interleaved.
* `Receive.Delivered` — the invariant, relative to the blocks sent so far.

## Main results

* `Receive.Delivered.receive` — receiving the next block keeps the invariant.
* `Receive.Delivered.lose`, `Receive.Delivered.skip` — a loss marker, and what is lost with it.
* `Receive.Delivered.success` — a transfer that ended with success got a whole transfer.
-/

namespace Lidi

/-- Blocks of data carry their bytes, and none of them ends a transfer. -/
lemma payloads_dataBlocks {raptorq : RaptorQ} {id : ClientId} {blocks : List Block}
    {bytes : List UInt8} (h : DataBlocks raptorq id blocks bytes) :
    Receive.payloads blocks = bytes ∧ ∀ b ∈ blocks, b.outcome = none := by
  induction blocks generalizing bytes with
  | nil => exact ⟨h.symm, by simp⟩
  | cons b blocks ih =>
    obtain ⟨data, rest, hb, hrest, rfl⟩ := h
    obtain ⟨hpay, hout⟩ := ih hrest
    refine ⟨by simp [hb.payload_eq, hpay], fun b' hb' => ?_⟩
    rcases List.mem_cons.mp hb' with rfl | hb'
    · rw [Block.outcome_eq hb.blockType_eq]
      rfl
    · exact hout b' hb'

/-- A transfer ends with its last block and not before, and its data are those of its blocks. -/
lemma Conveys.script {raptorq : RaptorQ} {id : ClientId} {type : BlockType} {blocks : List Block}
    {bytes : List UInt8} (h : Conveys raptorq id type blocks bytes) :
    Receive.payloads blocks = bytes ∧ ∃ body last, blocks = body ++ [last] ∧
      (∀ b ∈ body, b.outcome = none) ∧ last.outcome = Receive.Client.outcome type := by
  obtain ⟨start, body, last, data, rest, rfl, hstart, hbody, hlast, rfl⟩ := h
  obtain ⟨hpay, hout⟩ := payloads_dataBlocks hbody
  refine ⟨by simp [hstart.payload_eq, hlast.payload_eq, hpay], start :: body, last, rfl, ?_,
    Block.outcome_eq hlast.blockType_eq⟩
  intro b hb
  rcases List.mem_cons.mp hb with rfl | hb
  · rw [Block.outcome_eq hstart.blockType_eq]
    rfl
  · exact hout b hb

/-- A part of a transfer that ends it is the whole. -/
lemma Conveys.eq_of_isPrefix {raptorq : RaptorQ} {id : ClientId} {type : BlockType}
    {blocks part : List Block} {bytes : List UInt8} (h : Conveys raptorq id type blocks bytes)
    (hpart : part <+: blocks) {b : Block} (hb : b ∈ part) (hends : b.outcome ≠ none) :
    part = blocks := by
  obtain ⟨-, body, last, rfl, hbody, -⟩ := h.script
  rcases List.prefix_concat_iff.mp hpart with heq | hpre
  · exact heq
  · exact absurd (hbody b (hpre.subset hb)) hends

namespace Receive

open Function

variable {k : ℕ}

/-- The blocks are well formed, and those of each transfer are a beginning of a whole one. -/
structure Source (raptorq : RaptorQ) (blocks : List Block) : Prop where
  carries : ∀ b ∈ blocks, ∃ type id data, b.Carries raptorq type id data
  conveys : ∀ id, blocksOf id blocks ≠ [] → ∃ type whole bytes,
    Client.outcome type ≠ none ∧ Conveys raptorq id type whole bytes ∧ blocksOf id blocks <+: whole

section Source

variable {raptorq : RaptorQ} {blocks : List Block} {b : Block} {type : BlockType} {id : ClientId}
  {data : List UInt8}

/-- A beginning of such blocks is one. -/
lemma Source.of_append {more : List Block} (h : Source raptorq (blocks ++ more)) :
    Source raptorq blocks where
  carries b hb := h.carries b (List.mem_append_left _ hb)
  conveys id hne := by
    have happ : blocksOf id (blocks ++ more) = blocksOf id blocks ++ blocksOf id more :=
      blocksOf_append
    obtain ⟨type, whole, bytes, htype, hconveys, hpre⟩ := h.conveys id (by simp [happ, hne])
    rw [happ] at hpre
    exact ⟨type, whole, bytes, htype, hconveys, (List.prefix_append _ _).trans hpre⟩

/-- A transfer starts with its `Start` block. -/
lemma Source.start_iff (h : Source raptorq (blocks ++ [b])) (hb : b.Carries raptorq type id data)
    (htype : type ≠ .heartbeat) : type = .start ↔ blocksOf id blocks = [] := by
  have hof := isOf_of_carries hb htype
  have happ : blocksOf id (blocks ++ [b]) = blocksOf id blocks ++ [b] := by
    rw [blocksOf_append, blocksOf_singleton_self hof]
  obtain ⟨type', whole, bytes, htype', ⟨start, body, last, d, r, rfl, hstart, hbody, hlast, -⟩,
    hpre⟩ := h.conveys id (by simp [happ])
  rw [happ] at hpre
  cases hblocks : blocksOf id blocks with
  | nil =>
    rw [hblocks, List.nil_append, List.cons_prefix_cons] at hpre
    have hty := hb.blockType_eq.symm.trans (hpre.1 ▸ hstart.blockType_eq)
    simpa using hty
  | cons b₀ rest =>
    rw [hblocks, List.cons_append, List.cons_prefix_cons] at hpre
    have hmem : b ∈ body ++ [last] := hpre.2.subset (by simp)
    simp only [reduceCtorEq, iff_false]
    rintro rfl
    rcases List.mem_append.mp hmem with hmem | hmem
    · obtain ⟨d', hdata⟩ := hbody.carries b hmem
      have hty := hb.blockType_eq.symm.trans hdata.blockType_eq
      simp at hty
    · rw [List.mem_singleton.mp hmem] at hb
      have hty := hb.blockType_eq.symm.trans hlast.blockType_eq
      simp only [Except.ok.injEq] at hty
      exact htype' (hty ▸ rfl)

/-- Before the last block of a transfer there is none that ends it. -/
lemma Source.outcome_eq_none (h : Source raptorq (blocks ++ [b])) (hb : b.IsOf id) :
    ∀ b' ∈ blocksOf id blocks, b'.outcome = none := by
  have happ : blocksOf id (blocks ++ [b]) = blocksOf id blocks ++ [b] := by
    rw [blocksOf_append, blocksOf_singleton_self hb]
  obtain ⟨type', whole, bytes, htype', hconveys, hpre⟩ := h.conveys id (by simp [happ])
  intro b' hb'
  by_contra hends
  have hpart : blocksOf id blocks <+: whole := by
    rw [happ] at hpre
    exact (List.prefix_append _ _).trans hpre
  have heq := hconveys.eq_of_isPrefix hpart hb' hends
  have hlen := hpre.length_le
  rw [happ, heq, List.length_append, List.length_singleton] at hlen
  omega

end Source

/-- The queue of the transfer has got a beginning of its blocks, and possibly an `Abort`. -/
def Begun (blocks : List Block) (t : Transfer) : Prop :=
  ∃ part, part ≠ [] ∧ part <+: blocksOf t.clientId blocks ∧
    (t.sent = part ∨ ∃ a, a.outcome = some false ∧ t.sent = part ++ [a])

/-- A transfer that has begun has still begun when more blocks are received. -/
lemma Begun.append {blocks : List Block} {t : Transfer} (h : Begun blocks t) (more : List Block) :
    Begun (blocks ++ more) t := by
  obtain ⟨part, hne, hpre, hsent⟩ := h
  refine ⟨part, hne, ?_, hsent⟩
  rw [blocksOf_append]
  exact hpre.trans (List.prefix_append _ _)

/-- **The invariant of the queues.** `blocks` are the blocks sent so far, received or lost. -/
structure Delivered (blocks : List Block) (s : Demux k) : Prop where
  active : ∀ id q, s.active id = some q →
    ∃ t, s.transfers[q]? = some t ∧ t.clientId = id ∧ t.sent = blocksOf id blocks
  begun : ∀ t ∈ s.transfers, Begun blocks t
  unique : (s.transfers.map Transfer.clientId).Nodup

namespace Delivered

variable {blocks more : List Block} {s s' : Demux k} {config : Config} {raptorq : RaptorQ}
  {id : ClientId} {b : Block} {type : BlockType} {data : List UInt8}

/-- The invariant holds at the start. -/
lemma init (k : ℕ) : Delivered [] (Demux.init k) where
  active := by simp [Demux.init]
  begun := by simp [Demux.init]
  unique := List.nodup_nil

/-- What the client workers do is not seen by the dispatch worker. -/
lemma clientStep (h : Delivered blocks s) {w : Fin k} {answer : Client.Answer}
    (ht : Demux.ClientTrans config s w answer s') : Delivered blocks s' := by
  cases ht with
  | recv hw hin => exact ⟨h.active, h.begun, h.unique⟩
  | acquire hw hsem => exact ⟨h.active, h.begun, h.unique⟩
  | @serve q stage answer t t' result hw hq hstep =>
    obtain ⟨hsent, hid⟩ := hstep.sent_eq
    obtain ⟨hlt, hget⟩ := List.getElem?_eq_some_iff.mp hq
    refine ⟨?_, ?_, ?_⟩
    · intro id q' hactive
      obtain ⟨t₁, ht₁, hid₁, hsent₁⟩ := h.active id q' hactive
      by_cases heq : q' = q
      · subst heq
        obtain rfl : t = t₁ := by simpa using hq.symm.trans ht₁
        exact ⟨t', List.getElem?_set_self hlt, hid.trans hid₁, hsent.trans hsent₁⟩
      · exact ⟨t₁, (List.getElem?_set_ne (Ne.symm heq)).trans ht₁, hid₁, hsent₁⟩
    · intro t₁ ht₁
      rcases List.mem_or_eq_of_mem_set ht₁ with ht₁ | rfl
      · exact h.begun t₁ ht₁
      · have hbegun := h.begun t (List.mem_of_getElem? hq)
        unfold Begun at hbegun ⊢
        rwa [hsent, hid]
    · rw [Demux.served, Demux.map_set_of_eq hq hid]
      exact h.unique

/-- With no active transfer, blocks may be lost. -/
lemma skip (h : Delivered blocks s) (hactive : ∀ id, s.active id = none) (more : List Block) :
    Delivered (blocks ++ more) s where
  active id q hid := by simp [hactive id] at hid
  begun t ht := (h.begun t ht).append more
  unique := h.unique

/-- A block of no transfer does not matter. -/
lemma ignore (h : Delivered blocks s) (hb : ∀ id, ¬ b.IsOf id) : Delivered (blocks ++ [b]) s := by
  have hsame : ∀ id, blocksOf id (blocks ++ [b]) = blocksOf id blocks := fun id => by
    rw [blocksOf_append, blocksOf_singleton_of_not (hb id), List.append_nil]
  exact ⟨by simpa only [hsame] using h.active, fun t ht => (h.begun t ht).append [b], h.unique⟩

/-- A block of an inactive transfer is dropped. -/
lemma drop (h : Delivered blocks s) (hb : b.IsOf id) (hactive : s.active id = none) :
    Delivered (blocks ++ [b]) s where
  active id' q hid' := by
    have hne : ¬ b.IsOf id' := by
      intro hb'
      rw [isOf_unique hb' hb, hactive] at hid'
      cases hid'
    rw [blocksOf_append, blocksOf_singleton_of_not hne, List.append_nil]
    exact h.active id' q hid'
  begun t ht := (h.begun t ht).append [b]
  unique := h.unique

/-- Transfers may become inactive. -/
lemma shrink (h : Delivered blocks s) (htransfers : s'.transfers = s.transfers)
    (hactive : ∀ id q, s'.active id = some q → s.active id = some q) : Delivered blocks s' where
  active id q hid := by
    rw [htransfers]
    exact h.active id q (hactive id q hid)
  begun := by
    rw [htransfers]
    exact h.begun
  unique := by
    rw [htransfers]
    exact h.unique

/-- Putting the next block of an active transfer in its queue. -/
lemma put (h : Delivered blocks s) (hb : b.IsOf id) {q : ℕ} {t : Transfer}
    (hactive : s.active id = some q) (ht : s.transfers[q]? = some t) (hopen : t.dropped = false) :
    Delivered (blocks ++ [b]) { s with transfers := s.transfers.set q (t.put b) } := by
  obtain ⟨t', ht', hid, hsent⟩ := h.active id q hactive
  obtain rfl : t = t' := by simpa using ht.symm.trans ht'
  obtain ⟨hlt, -⟩ := List.getElem?_eq_some_iff.mp ht
  have hput : (t.put b).clientId = id ∧ (t.put b).sent = blocksOf id (blocks ++ [b]) := by
    rw [blocksOf_append, blocksOf_singleton_self hb, ← hsent]
    simp [Transfer.put, hopen, Transfer.sent, hid]
  refine ⟨?_, ?_, ?_⟩
  · intro id' q' hactive'
    by_cases hid' : id' = id
    · subst hid'
      obtain rfl : q = q' := by simpa using hactive.symm.trans hactive'
      exact ⟨_, List.getElem?_set_self hlt, hput.1, hput.2⟩
    · obtain ⟨t₁, ht₁, hid₁, hsent₁⟩ := h.active id' q' hactive'
      have hq : q ≠ q' := by
        rintro rfl
        obtain rfl : t = t₁ := by simpa using ht.symm.trans ht₁
        exact hid' (hid₁.symm.trans hid)
      have hne : ¬ b.IsOf id' := fun hb' => hid' (isOf_unique hb' hb)
      rw [blocksOf_append, blocksOf_singleton_of_not hne, List.append_nil]
      exact ⟨t₁, (List.getElem?_set_ne hq).trans ht₁, hid₁, hsent₁⟩
  · intro t₁ ht₁
    rcases List.mem_or_eq_of_mem_set ht₁ with ht₁ | rfl
    · exact (h.begun t₁ ht₁).append [b]
    · refine ⟨blocksOf id (blocks ++ [b]), ?_, by rw [hput.1], .inl hput.2⟩
      rw [blocksOf_append, blocksOf_singleton_self hb]
      simp
  · rw [Demux.map_set_of_eq ht (hput.1.trans hid.symm)]
    exact h.unique

/-- Forwarding the next block of a transfer. -/
lemma forward (h : Delivered blocks s) (hb : b.IsOf id) (willEnd : Bool) :
    Delivered (blocks ++ [b]) (s.forward id b willEnd) := by
  have hinactive : ∀ id' q, update s.active id none id' = some q → s.active id' = some q := by
    intro id' q hid'
    by_cases heq : id' = id
    · subst heq
      simp at hid'
    · rwa [update_of_ne heq] at hid'
  unfold Demux.forward
  split
  · rename_i hactive
    exact h.drop hb hactive
  · rename_i q hactive
    obtain ⟨t', ht', -⟩ := h.active id q hactive
    rw [ht']
    simp only
    split
    · have hshrunk : Delivered blocks { s with active := update s.active id none } :=
        h.shrink rfl hinactive
      exact hshrunk.drop hb (update_self ..)
    · rename_i hopen
      have hput := h.put hb hactive ht' (by simpa using hopen)
      split
      · exact hput.shrink rfl hinactive
      · exact hput

/-- Two transfers have different clients. -/
lemma index_eq (h : Delivered blocks s) {q q' : ℕ} {t t' : Transfer}
    (ht : s.transfers[q]? = some t) (ht' : s.transfers[q']? = some t')
    (hid : t.clientId = t'.clientId) : q = q' := by
  have hq : (s.transfers.map Transfer.clientId)[q]? = some t.clientId := by simp [ht]
  have hq' : (s.transfers.map Transfer.clientId)[q']? = some t.clientId := by simp [ht', hid]
  exact (List.getElem?_inj (List.getElem?_eq_some_iff.mp hq).1 h.unique).mp (hq.trans hq'.symm)

/-- There is no transfer of which nothing has been sent. -/
lemma clientId_ne (h : Delivered blocks s) (hfirst : blocksOf id blocks = []) :
    ∀ t ∈ s.transfers, t.clientId ≠ id := by
  rintro t ht rfl
  obtain ⟨part, hne, hpre, -⟩ := h.begun t ht
  rw [hfirst] at hpre
  exact hne (List.prefix_nil.mp hpre)

/-- The first block of a transfer opens its queue. -/
lemma register (h : Delivered blocks s) (hb : b.IsOf id) (hfirst : blocksOf id blocks = []) :
    Delivered (blocks ++ [b]) ((s.register id).forward id b false) := by
  have hnew := h.clientId_ne hfirst
  have hblocks : blocksOf id (blocks ++ [b]) = [b] := by
    rw [blocksOf_append, hfirst, blocksOf_singleton_self hb, List.nil_append]
  rw [Demux.forward_register]
  refine ⟨?_, ?_, ?_⟩
  · intro id' q hactive
    by_cases hid' : id' = id
    · subst hid'
      have hq : s.transfers.length = q := by simpa [Demux.register] using hactive
      subst hq
      refine ⟨(Transfer.new id').put b, List.getElem?_concat_length, rfl, ?_⟩
      rw [hblocks]
      rfl
    · have hactive' : s.active id' = some q := by simpa [Demux.register, hid'] using hactive
      obtain ⟨t, ht, hid, hsent⟩ := h.active id' q hactive'
      have hlt := (List.getElem?_eq_some_iff.mp ht).1
      have hne : ¬ b.IsOf id' := fun hb' => hid' (isOf_unique hb' hb)
      rw [blocksOf_append, blocksOf_singleton_of_not hne, List.append_nil]
      exact ⟨t, (List.getElem?_append_left hlt).trans ht, hid, hsent⟩
  · intro t ht
    rcases List.mem_append.mp ht with ht | ht
    · exact (h.begun t ht).append [b]
    · rw [List.mem_singleton.mp ht]
      have hid : ((Transfer.new id).put b).clientId = id := rfl
      refine ⟨[b], by simp, ?_, .inl rfl⟩
      rw [hid, hblocks]
  · simp only [List.map_append, List.map_singleton]
    refine List.nodup_append.mpr ⟨h.unique, List.nodup_singleton _, ?_⟩
    rintro _ hid _ hid' rfl
    obtain ⟨t, ht, rfl⟩ := List.mem_map.mp hid
    exact hnew t ht (List.mem_singleton.mp hid')

/-- The loop over the active transfers changes each of them by an `Abort` at most. -/
lemma abortAll_get {active : ClientId → Option ℕ} {q : ℕ} {transfers transfers' : List Transfer}
    (h : Demux.abortAll raptorq active q transfers = .ok transfers') {i : ℕ} {t' : Transfer}
    (ht' : transfers'[i]? = some t') :
    ∃ t, transfers[i]? = some t ∧ (t' = t ∨ active t.clientId = some (q + i) ∧
      ∃ a, a.outcome = some false ∧ t' = t.put a) := by
  induction transfers generalizing q transfers' i with
  | nil =>
    cases h
    simp at ht'
  | cons t transfers ih =>
    simp only [Demux.abortAll] at h
    split at h
    · cases h
    · rename_i rest hrest
      have htail : ∀ head, (head :: rest)[i]? = some t' → i ≠ 0 → ∃ t₁,
          (t :: transfers)[i]? = some t₁ ∧ (t' = t₁ ∨ active t₁.clientId = some (q + i) ∧
            ∃ a, a.outcome = some false ∧ t' = t₁.put a) := by
        intro head hget hi
        obtain ⟨j, rfl⟩ := Nat.exists_eq_succ_of_ne_zero hi
        obtain ⟨t₁, ht₁, hcases⟩ := ih hrest hget
        have hindex : q + 1 + j = q + (j + 1) := by omega
        exact ⟨t₁, ht₁, hindex ▸ hcases⟩
      split at h
      · rename_i hactive
        split at h
        · cases h
        · rename_i block hnew
          cases h
          by_cases hi : i = 0
          · subst hi
            have houtcome : block.outcome = some false := by
              cases hblock : Block.new .abort raptorq t.clientId none with
              | error f => cases f <;> simp [hblock, Outcome.mapError] at hnew
              | ok b =>
                obtain rfl : b = block := by simpa [hblock, Outcome.mapError] using hnew
                exact Block.outcome_eq (Block.blockType_of_new hblock)
            refine ⟨t, rfl, .inr ⟨hactive, block, houtcome, ?_⟩⟩
            simpa using ht'.symm
          · exact htail _ ht' hi
      · cases h
        by_cases hi : i = 0
        · subst hi
          exact ⟨t, rfl, .inl (by simpa using ht'.symm)⟩
        · exact htail _ ht' hi

/-- **A loss marker ends the active transfers.** -/
theorem lose (h : Delivered blocks s) (config : Config) :
    Delivered blocks (s.receive config none) ∧
      ((s.receive config none).dispatch = none →
        ∀ id, (s.receive config none).active id = none) := by
  simp only [Demux.receive, Demux.lose]
  split
  · exact ⟨h.shrink rfl fun _ _ => id, fun hnone => by simp at hnone⟩
  · rename_i transfers' hall
    refine ⟨⟨by simp, fun t' ht' => ?_, ?_⟩, fun _ _ => rfl⟩
    · obtain ⟨i, hi⟩ := List.getElem?_of_mem ht'
      obtain ⟨t, ht, heq | ⟨hactive, a, ha, rfl⟩⟩ := abortAll_get hall hi
      · exact heq ▸ h.begun t (List.mem_of_getElem? ht)
      · rw [Nat.zero_add] at hactive
        obtain ⟨t₁, ht₁, hid, hsent⟩ := h.active _ _ hactive
        obtain rfl : t = t₁ := by simpa using ht.symm.trans ht₁
        obtain ⟨part, hne, hpre, hcases⟩ := h.begun t (List.mem_of_getElem? ht)
        unfold Transfer.put
        split
        · exact ⟨part, hne, hpre, hcases⟩
        · refine ⟨t.sent, ?_, ?_, .inr ⟨a, ha, ?_⟩⟩
          · rcases hcases with hpart | ⟨a', -, hpart⟩ <;> simp [hpart, hne]
          · rw [hsent]
          · simp [Transfer.sent]
    · have hids : transfers'.map Transfer.clientId = s.transfers.map Transfer.clientId := by
        have hprog := congrArg (List.map Transfer.clientId) (Demux.abortAll_progress hall)
        simpa [List.map_map, Function.comp_def, Transfer.progress] using hprog
      rw [hids]
      exact h.unique

/-- **Receiving the next block keeps the invariant.** -/
theorem receive (h : Delivered blocks s) (config : Config) (hb : b.Carries raptorq type id data)
    (hstart : type = .start → blocksOf id blocks = []) :
    Delivered (blocks ++ [b]) (s.receive config (some b)) := by
  unfold Demux.receive
  simp only [hb.blockType_eq, hb.clientId_eq]
  cases type with
  | heartbeat => exact h.ignore fun id' => not_isOf_heartbeat hb
  | start => exact h.register (isOf_of_carries hb nofun) (hstart rfl)
  | data => exact h.forward (isOf_of_carries hb nofun) false
  | abort => exact h.forward (isOf_of_carries hb nofun) true
  | «end» => exact h.forward (isOf_of_carries hb nofun) true

/-- **A transfer that ended with success got a whole transfer.** If every transfer is sent as one
that conveys some bytes, then the bytes of one that ended with success have been written. -/
theorem success (h : Delivered blocks s) (hinv : s.Inv) {t : Transfer} (ht : t ∈ s.transfers)
    (hcall : .clientEnd true ∈ t.calls) {whole : List Block} {bytes : List UInt8}
    (hwhole : Conveys raptorq t.clientId type whole bytes)
    (hpart : blocksOf t.clientId blocks <+: whole) :
    type = .end ∧ written t.calls = bytes := by
  have hended := hinv.ended ht hcall
  obtain ⟨body, last, htaken, hbody, hlast⟩ := hended.taken_eq
  obtain ⟨part, -, hpre, hsent⟩ := h.begun t ht
  have htakenPart : t.taken <+: part := by
    have hprefix : t.taken <+: t.sent := List.prefix_append _ _
    rcases hsent with hsent | ⟨a, ha, hsent⟩
    · rwa [hsent] at hprefix
    · rw [hsent] at hprefix
      rcases List.prefix_concat_iff.mp hprefix with heq | hprefix
      · -- the last block taken would be the `Abort`
        rw [htaken] at heq
        have hlasta := (List.append_inj' heq rfl).2
        simp only [List.cons.injEq, and_true] at hlasta
        rw [hlasta, ha] at hlast
        cases hlast
      · exact hprefix
  have hmem : last ∈ t.taken := by simp [htaken]
  have heq : t.taken = whole :=
    hwhole.eq_of_isPrefix (htakenPart.trans (hpre.trans hpart)) hmem (by simp [hlast])
  obtain ⟨hpay, body', last', hwhole', -, hlast'⟩ := hwhole.script
  refine ⟨?_, ?_⟩
  · rw [← heq, htaken] at hwhole'
    have hlasts := (List.append_inj' hwhole' rfl).2
    simp only [List.cons.injEq, and_true] at hlasts
    rw [← hlasts, hlast] at hlast'
    cases type <;> simp [Client.outcome] at hlast' ⊢
  · rw [hended.written_eq, heq, hpay]

end Delivered

end Receive

end Lidi
