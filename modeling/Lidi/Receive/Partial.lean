import Lidi.Receive.Delivery
import Lidi.Receive.DemuxRun

set_option relaxedAutoImplicit false
set_option autoImplicit false

/-!
# What is written of a transfer that fails

A transfer may fail in many ways: a loss marker, a timeout, a write that fails, a disconnected
queue. At any moment what has been written of it is a beginning of its stream, since the `Abort`
blocks that the receiver makes up have no data, and a worker that gives up writes at most what its
buffer holds.

## Main definitions

* `Receive.Transfer.Partial` — the invariant of a transfer.

## Main results

* `Receive.Demux.Partial.clientStep` — a step of a client worker.
* `Receive.Demux.Partial.receive` — a step of the dispatch worker.
* `Receive.Delivered.written_isPrefix` — what has been written.
-/

namespace Lidi

/-- The block is not an `Abort` with data. -/
def Block.Harmless (b : Block) : Prop :=
  b.outcome = some false → b.payload.getD [] = []

/-- A block that is built without data has none, whatever the geometry. -/
lemma Block.harmless_of_new {raptorq : RaptorQ} {type : BlockType} {id : ClientId} {b : Block}
    (h : Block.new type raptorq id none = .ok b) : b.Harmless := by
  intro _
  simp only [Block.new] at h
  split at h
  · cases h
  · cases h
    have hfields : (LittleEndian.encode 4 id.toNat ++ [type.serialized]).length = 5 := by
      simp [LittleEndian.length_encode]
    rw [Block.payload, Block.payloadLen, Block.u32At, Block.overwrite, List.drop_left' hfields,
      hfields, List.drop_replicate, List.take_replicate, LittleEndian.decode_replicate_zero]
    split
    · simp only [Option.bind_some]
      split <;> simp
    · rfl

namespace Receive

open Function

/-- **The invariant of a transfer.** The `Abort` blocks in its queue have no data, and what has been
written are data of the blocks taken. -/
structure Transfer.Partial (t : Transfer) : Prop where
  harmless : ∀ b ∈ t.sent, b.Harmless
  written_isPrefix : written t.calls <+: payloads t.taken

/-- A new transfer has written nothing. -/
lemma Transfer.Partial.new (id : ClientId) : (Transfer.new id).Partial where
  harmless := by simp [Transfer.new, Transfer.sent]
  written_isPrefix := List.prefix_rfl

/-- A block is put in the queue. -/
lemma Transfer.Partial.put {t : Transfer} (h : t.Partial) {b : Block} (hb : b.Harmless) :
    (t.put b).Partial := by
  cases hdropped : t.dropped with
  | true => rwa [Transfer.put_of_dropped hdropped]
  | false =>
    refine ⟨fun b' hb' => ?_, ?_⟩
    · rw [Transfer.sent_put hdropped, List.mem_append, List.mem_singleton] at hb'
      rcases hb' with hb' | rfl
      · exact h.harmless b' hb'
      · exact hb
    · simpa [Transfer.put, hdropped] using h.written_isPrefix

section Client

variable {config : Config} {alive : Bool} {t t' : Transfer} {stage : Client.Stage}
  {answer : Client.Answer} {result : Client.Result}

/-- **A step of a client worker** writes data of the blocks that it has taken. -/
theorem Transfer.Partial.clientStep (h : t.Partial) (hserving : Serving t stage)
    (ht : Client.Trans config alive t stage answer result t') : t'.Partial := by
  refine ⟨fun b hb => h.harmless b (ht.sent_eq.1 ▸ hb), ?_⟩
  -- on the way out the worker writes what its buffer holds
  have hflush : ∀ buffer, Serving t (.running buffer) →
      written (t.calls ++ BufWriter.flushBuf buffer) = payloads t.taken := by
    rintro buffer ⟨-, hwritten, -⟩
    rw [written_append, BufWriter.written_flushBuf, hwritten]
  have hstep := hserving.step ht
  cases ht with
  | new hmax | newPanic hmax | newFails =>
    obtain ⟨htaken, hcalls⟩ := hserving
    simp [Transfer.call, Transfer.drop, hcalls, Call.bytes]
  | gone hq halive | timeout hq hcfg =>
    show written (t.calls ++ BufWriter.flushBuf _) <+: _
    rw [hflush _ hserving]
    exact List.prefix_rfl
  | @unknown _ b rest _ hq htype | @payloadPanic _ b rest _ hq htype hpayload =>
    show written (t.calls ++ BufWriter.flushBuf _) <+: payloads (t.taken ++ [b])
    rw [hflush _ hserving, payloads_append]
    exact List.prefix_append _ _
  | data hq htype hpayload hout => exact Serving.written_isPrefix hstep
  | @finish buffer payload b rest type ok hq htype hpayload hout =>
    rcases hstep with ⟨ok', hended⟩ | hnone
    · rw [hended.written_eq]
    · exact absurd (by simp [Transfer.call, Transfer.drop]) (hnone ok)
  | @fault buffer payload b rest type n hq htype hpayload hio =>
    obtain ⟨-, hwritten, -⟩ := hserving
    show written (t.calls ++ [.write ((buffer ++ payload).take n)]) <+: payloads (t.taken ++ [b])
    have hbytes : payloads (t.taken ++ [b]) = written t.calls ++ (buffer ++ payload) := by
      simp [← hwritten, hpayload]
    rw [hbytes, written_append, written_cons, written_nil, List.append_nil,
      List.prefix_append_right_inj]
    exact List.take_prefix n _

end Client

/-! ## All transfers -/

namespace Demux

variable {k : ℕ} {config : Config} {s s' : Demux k} {m : Option Block}

/-- Every transfer keeps the invariant. -/
def Partial (s : Demux k) : Prop :=
  ∀ t ∈ s.transfers, t.Partial

/-- The invariant holds at the start. -/
lemma Partial.init : (init k).Partial := by
  simp [Partial, Demux.init]

/-- Replacing one transfer. -/
lemma Partial.set (h : s.Partial) {q : ℕ} {t : Transfer} (ht : t.Partial) :
    ∀ t' ∈ s.transfers.set q t, t'.Partial := by
  intro t' ht'
  rcases List.mem_or_eq_of_mem_set ht' with ht' | rfl
  · exact h t' ht'
  · exact ht

/-- **The client workers.** -/
theorem Partial.clientStep (h : s.Partial) (hinv : s.Inv) {w : Fin k} {answer : Client.Answer}
    (ht : ClientTrans config s w answer s') : s'.Partial := by
  cases ht with
  | recv hw hin => exact h
  | acquire hw hsem => exact h
  | @serve q stage answer t t' result hw hq hstep =>
    have hmem : (q, stage) ∈ s.held := by
      refine List.mem_append_right _ (Pool.mem_holding.mpr ⟨w, ?_⟩)
      rw [hw]
      rfl
    have hserving := (Account.status hinv q stage t hmem hq).2
    exact h.set ((h t (List.mem_of_getElem? hq)).clientStep hserving hstep)

/-- **The dispatch worker**, which puts blocks in the queues that it has received or built. -/
theorem Partial.receive (h : s.Partial) (hm : ∀ b ∈ m, b.Harmless) (ht : Received config s m s') :
    s'.Partial := by
  have hput : ∀ {q : ℕ} {t : Transfer} {b : Block}, s.transfers[q]? = some t → b.Harmless →
      (t.put b).Partial := fun ht hb => (h _ (List.mem_of_getElem? ht)).put hb
  cases ht with
  | @lost transfers hget =>
    intro t' ht'
    obtain ⟨i, hi⟩ := List.getElem?_of_mem ht'
    rw [hget, Option.map_eq_some_iff] at hi
    obtain ⟨t, ht, rfl⟩ := hi
    have hold := h t (List.mem_of_getElem? ht)
    unfold aborted
    split
    · unfold abortOf
      split
      · rename_i b hnew
        exact hold.put (Block.harmless_of_new hnew)
      · exact hold
    · exact hold
  | stopped hlt | ignored hb | inactive hb htype hactive | gone hb htype hactive ht hdropped =>
    exact h
  | @start b id hb =>
    intro t ht
    rcases List.mem_append.mp ht with ht | ht
    · exact h t ht
    · rw [List.mem_singleton.mp ht]
      exact (Transfer.Partial.new id).put (hm b rfl)
  | data hb hactive ht hopen | last hb htype hactive ht hopen => exact h.set (hput ht (hm _ rfl))

end Demux

/-- **What has been written of a transfer is a beginning of its data.** -/
theorem Delivered.written_isPrefix {k : ℕ} {blocks : List Block} {s : Demux k}
    (h : Delivered blocks s) (hbegun : s.Partial) {t : Transfer} (ht : t ∈ s.transfers) :
    written t.calls <+: payloads (blocksOf t.clientId blocks) := by
  obtain ⟨part, -, hpre, hsent⟩ := h.begun t ht
  have hdata : payloads t.sent = payloads part := by
    rcases hsent with hsent | ⟨a, ha, hsent⟩
    · rw [hsent]
    · have hpayload := (hbegun t ht).harmless a (by simp [hsent]) ha
      simp [hsent, hpayload]
  have htaken : payloads t.taken <+: payloads t.sent := payloads_isPrefix (List.prefix_append _ _)
  rw [hdata] at htaken
  exact ((hbegun t ht).written_isPrefix.trans htaken).trans (payloads_isPrefix hpre)

end Receive

end Lidi
