import Lidi.Protocol.Transfer
import Lidi.Receive.DemuxRun

set_option relaxedAutoImplicit false
set_option autoImplicit false

/-!
# Where the blocks of a transfer come from

As long as no loss marker has come, the dispatch worker puts nothing in the queue of a transfer but
blocks of this transfer that it has received. In particular it makes up no `Abort`.

## Main definitions

* `Receive.Demux.Heard` — every block in a queue has been received.

## Main results

* `Receive.Demux.Heard.clientStep` — a step of a client worker.
* `Receive.Demux.Heard.receive` — a step of the dispatch worker.
-/

namespace Lidi

/-- The addressee of a block is the client that it is of. -/
lemma Block.isOf_of_addressee {b : Block} {id : ClientId} {type : BlockType}
    (h : b.addressee = some (id, type)) : b.IsOf id := by
  unfold Block.addressee at h
  split at h
  · cases h
  · rename_i type' id' hne htype hid
    obtain ⟨rfl, rfl⟩ : id' = id ∧ type' = type := by simpa using h
    refine ⟨hid, fun type hty => ?_⟩
    rintro rfl
    exact hne (Except.ok.inj (htype.symm.trans hty))
  · cases h

namespace Receive.Demux

open Function

variable {k : ℕ} {config : Config} {s s' : Demux k} {received : List (Option Block)}
  {m : Option Block}

/-- **Every block in a queue has been received** and is of the transfer, if no loss marker has
been. -/
def Heard (received : List (Option Block)) (s : Demux k) : Prop :=
  none ∉ received → ∀ t ∈ s.transfers, ∀ b ∈ t.sent, some b ∈ received ∧ b.IsOf t.clientId

/-- The invariant holds at the start. -/
lemma Heard.init (received : List (Option Block)) : (init k).Heard received := by
  intro _ t ht
  simp [Demux.init] at ht

/-- **The client workers** put nothing in the queues. -/
lemma Heard.clientStep (h : s.Heard received) {w : Fin k} {answer : Client.Answer}
    (ht : ClientTrans config s w answer s') : s'.Heard received := by
  intro hmarker
  cases ht with
  | recv hw hin => exact h hmarker
  | acquire hw hsem => exact h hmarker
  | @serve q stage answer t t' result hw hq hstep =>
    obtain ⟨hsent, hid⟩ := hstep.sent_eq
    intro t₁ ht₁
    rcases List.mem_or_eq_of_mem_set ht₁ with ht₁ | rfl
    · exact h hmarker t₁ ht₁
    · rw [hsent, hid]
      exact h hmarker t (List.mem_of_getElem? hq)

/-- **The dispatch worker** puts a block in the queue of the transfer that it is of. -/
theorem Heard.receive (h : s.Heard received) (hvalid : s.Valid)
    (ht : Received config s m s') : s'.Heard (received ++ [m]) := by
  intro hmarker
  rw [List.mem_append, List.mem_singleton, not_or] at hmarker
  have hold : ∀ t ∈ s.transfers, ∀ b ∈ t.sent, some b ∈ received ++ [m] ∧ b.IsOf t.clientId := by
    intro t ht b hb
    obtain ⟨hreceived, hof⟩ := h hmarker.1 t ht b hb
    exact ⟨List.mem_append_left _ hreceived, hof⟩
  have hput : ∀ {q : ℕ} {t : Transfer} {b : Block} {id : ClientId} {type : BlockType},
      m = some b → b.addressee = some (id, type) → s.active id = some q →
      s.transfers[q]? = some t → t.dropped = false →
      ∀ t' ∈ s.transfers.set q (t.put b), ∀ b' ∈ t'.sent,
        some b' ∈ received ++ [m] ∧ b'.IsOf t'.clientId := by
    rintro q t b id type rfl hb hactive hq hopen t' ht' b' hb'
    rcases List.mem_or_eq_of_mem_set ht' with ht' | rfl
    · exact hold t' ht' b' hb'
    · rw [Transfer.sent_put hopen, List.mem_append, List.mem_singleton] at hb'
      rw [Transfer.clientId_put]
      rcases hb' with hb' | rfl
      · exact hold t (List.mem_of_getElem? hq) b' hb'
      · have hof := Block.isOf_of_addressee hb
        rw [← hvalid.clientId_eq hactive hq] at hof
        exact ⟨by simp, hof⟩
  cases ht with
  | lost hget | stopped hlt => exact absurd rfl hmarker.2
  | ignored hb | inactive hb htype hactive | gone hb htype hactive ht hdropped => exact hold
  | @start b id hb =>
    intro t ht b' hb'
    rcases List.mem_append.mp ht with ht | ht
    · exact hold t ht b' hb'
    · rw [List.mem_singleton.mp ht, Transfer.sent_put rfl] at hb'
      rw [List.mem_singleton.mp ht, Transfer.clientId_put]
      obtain rfl : b' = b := by simpa [Transfer.new, Transfer.sent] using hb'
      exact ⟨by simp, Block.isOf_of_addressee hb⟩
  | data hb hactive hq hopen => exact hput rfl hb hactive hq hopen
  | last hb htype hactive hq hopen => exact hput rfl hb hactive hq hopen

end Receive.Demux

end Lidi
