import Lidi.Send.Sender

set_option relaxedAutoImplicit false
set_option autoImplicit false

/-!
# The sender of a single client, stopped after it

`diode-oneshot-send` starts a sender with one server worker and no heartbeat, gives it one client
and calls `stop`. The server worker puts the transfer of the client on `to_ordering`, followed by
as many stop markers as there are encoding threads.

## Main definitions

* `Send.oneshot` — the initial state of such a sender.
* `Send.Stage` — what has been put on `to_ordering`, by the phase of the server worker.

## Main results

* `Send.Stage.of_reach` — the stages describe every reachable state.
* `Send.ordered_eq_transfer` — a stopped ordering worker has received the whole transfer.
-/

namespace Lidi.Send

open Turnstile

/-- The configuration of `diode-oneshot-send` with `n` encoding threads. -/
def oneshotConfig (raptorq : RaptorQ) (flush : Bool) (n : ℕ) : Config where
  raptorq := raptorq
  flush := flush
  nbEncodeThreads := n
  heartbeat := false

/-- The sender of `diode-oneshot-send`: one client, then `stop`. -/
def oneshot (n : ℕ) (Packet : Type*) (client : ClientSocket) : Sender 1 n Packet :=
  Sender.init 1 n Packet [some client, none]

section Stage

variable {n : ℕ} {Packet : Type*} {raptorq : RaptorQ} {flush : Bool} {client : ClientSocket}
  {servers servers' : Servers 1} {put : List (Option Block)}

/-- What has been put on `to_ordering`, by the phase of the server worker. -/
def Stage (raptorq : RaptorQ) (flush : Bool) (n : ℕ) (client : ClientSocket) (s : Servers 1)
    (put : List (Option Block)) : Prop :=
  let blocks := (transfer raptorq flush 0 client).map some
  match s.workers 0 with
  | .recv =>
    (s.toServer ++ s.todo = [some client, none] ∧ s.clientIdCounter = 0 ∧ put = []) ∨
      (s.toServer ++ s.todo = [none] ∧ put = blocks)
  | .wait c =>
    c = client ∧ s.toServer ++ s.todo = [none] ∧ s.clientIdCounter = 0 ∧ put = []
  | .client id rest res =>
    id = 0 ∧ s.toServer ++ s.todo = [none] ∧
      put ++ (rest ++ abortBlocks raptorq 0 res).map some = blocks
  | .abort _ block => s.toServer ++ s.todo = [none] ∧ put ++ [some block] = blocks
  | .stopping left =>
    s.toServer ++ s.todo = [] ∧ ∃ j, j + left = n ∧ put = blocks ++ List.replicate j none
  | .returned => s.toServer ++ s.todo = [] ∧ put = blocks ++ List.replicate n none
  | .failed _ => s.toServer ++ s.todo = [none] ∧ put = blocks

/-- **Every step of the server worker moves from stage to stage.** -/
lemma Stage.step (h : Stage raptorq flush n client servers put) {room : Bool}
    {a : Servers.Label 1} {out : List (Option Block)}
    (ht : Servers.Trans (oneshotConfig raptorq flush n) room servers a servers' out) :
    Stage raptorq flush n client servers' (put ++ out) := by
  have hzero : ∀ w : Fin 1, w = 0 := fun w => Subsingleton.elim w 0
  unfold Stage at h ⊢
  cases ht with
  | @main c rest htodo hroom =>
    have hjoin : (servers.toServer ++ [c]) ++ rest = servers.toServer ++ servers.todo := by
      simp [htodo]
    simpa only [hjoin, List.append_nil] using h
  | @take w c rest hw hin =>
    obtain rfl := hzero w
    simp only [hw, hin, List.cons_append] at h
    rcases h with ⟨hq, hid, hput⟩ | ⟨hq, -⟩
    · simp only [List.cons.injEq, Option.some.injEq] at hq
      simp [hq.1, hq.2, hid, hput]
    · simp at hq
  | @takeStop w rest hw hin =>
    obtain rfl := hzero w
    simp only [hw, hin, List.cons_append] at h
    rcases h with ⟨hq, -⟩ | ⟨hq, hput⟩
    · simp at hq
    · simp only [List.cons.injEq, true_and] at hq
      simp only [Function.update_self]
      exact ⟨hq, 0, by simp [oneshotConfig], by simp [hput]⟩
  | @start w c permits hw hsem =>
    obtain rfl := hzero w
    simp only [hw] at h
    obtain ⟨rfl, hq, hid, rfl⟩ := h
    simp only [Function.update_self, hid]
    exact ⟨trivial, hq, rfl⟩
  | @send w id b blocks res hw hroom =>
    obtain rfl := hzero w
    simp only [hw] at h
    obtain ⟨rfl, hq, hput⟩ := h
    simp only [Function.update_self]
    exact ⟨trivial, hq, by simpa using hput⟩
  | @finish w id res hw =>
    obtain rfl := hzero w
    simp only [hw] at h
    obtain ⟨rfl, hq, hput⟩ := h
    simp only [Function.update_self, List.append_nil]
    rcases res with (_ | e) | _
    · simpa [Servers.afterClient, abortBlocks] using And.intro hq hput
    · cases hnew : Block.new .abort raptorq 0 none with
      | error f =>
        cases f <;>
        simpa [Servers.afterClient, abortBlocks, oneshotConfig, hnew, Outcome.mapError,
          Except.toOption] using And.intro hq hput
      | ok block =>
        simpa [Servers.afterClient, abortBlocks, oneshotConfig, hnew, Outcome.mapError,
          Except.toOption] using And.intro hq hput
    · right
      simpa [Servers.afterClient, abortBlocks] using And.intro hq hput
  | @abort w id b hw hroom =>
    obtain rfl := hzero w
    simp only [hw] at h
    simp only [Function.update_self]
    exact .inr h
  | @stop w left hw hroom =>
    obtain rfl := hzero w
    simp only [hw] at h
    obtain ⟨hq, j, hj, hput⟩ := h
    simp only [Function.update_self]
    refine ⟨hq, j + 1, by omega, ?_⟩
    rw [hput, List.replicate_succ']
    simp
  | @stopped w hw =>
    obtain rfl := hzero w
    simp only [hw] at h
    obtain ⟨hq, j, hj, hput⟩ := h
    simp only [Function.update_self, List.append_nil]
    exact ⟨hq, by rw [hput, ← hj]; rfl⟩
  | heartbeat hcfg hroom hb => simp [oneshotConfig] at hcfg

/-- The stage of a reachable state. -/
theorem Stage.of_reach {encode : UInt8 → List UInt8 → List Packet}
    {ok : Sender 1 n Packet → Sender.Label 1 n → Prop} {s : Sender 1 n Packet}
    (h : LTS.ReachVia (Sender.step (oneshotConfig raptorq flush n) encode) ok
      (oneshot n Packet client) s) :
    Stage raptorq flush n client s.servers s.pipeline.put := by
  refine h.invariant (P := fun s => Stage raptorq flush n client s.servers s.pipeline.put) ?_ ?_
  · exact .inl ⟨rfl, rfl, rfl⟩
  · intro t a t' _ hstage _ hs
    cases Sender.step_iff.mp hs with
    | server hserver hput =>
      rw [Sender.putAll_eq hput]
      exact hstage.step hserver
    | @pipeline a pipeline ha hpipe =>
      have hput : pipeline.put = t.pipeline.put := by
        cases Pipeline.step_iff.mp hpipe with
        | put m hroom => simp [Pipeline.Label.isWorker] at ha
        | _ => rfl
      rw [hput]
      exact hstage

/-- Up to the first stop marker the transfer has been put on `to_ordering`. -/
lemma Stage.put_of_mem (h : Stage raptorq flush n client servers put) (hnone : none ∈ put) :
    ∃ j, put = (transfer raptorq flush 0 client).map some ++ List.replicate j none := by
  have hsome : ∀ rest, put ++ rest = (transfer raptorq flush 0 client).map some → False := by
    intro rest hput
    have hmem : none ∈ (transfer raptorq flush 0 client).map some := by
      rw [← hput]
      exact List.mem_append_left _ hnone
    simp at hmem
  unfold Stage at h
  split at h
  · rcases h with ⟨-, -, rfl⟩ | ⟨-, hput⟩
    · simp at hnone
    · exact (hsome [] (by simpa using hput)).elim
  · obtain ⟨-, -, -, rfl⟩ := h
    simp at hnone
  · exact (hsome _ h.2.2).elim
  · exact (hsome _ h.2).elim
  · obtain ⟨-, j, -, hput⟩ := h
    exact ⟨j, hput⟩
  · exact ⟨n, h.2⟩
  · exact (hsome [] (by simpa using h.2)).elim

/-- Two lists of blocks followed by stop markers are the same up to the first marker. -/
private lemma eq_of_append_none {α : Type*} {l l' : List α} {rest : List (Option α)} {j : ℕ}
    (h : l.map some ++ none :: rest = l'.map some ++ List.replicate j none) : l = l' := by
  induction l generalizing l' with
  | nil =>
    cases l' with
    | nil => rfl
    | cons a l' => simp at h
  | cons a l ih =>
    cases l' with
    | nil => cases j <;> simp [List.replicate_succ] at h
    | cons b l' =>
      simp only [List.map_cons, List.cons_append, List.cons.injEq, Option.some.injEq] at h
      rw [h.1, ih h.2]

/-- **A stopped ordering worker has received the whole transfer.** -/
theorem ordered_eq_transfer {encode : UInt8 → List UInt8 → List Packet}
    {p : Pipeline n Packet} (hp : p.Inv encode) (h : Stage raptorq flush n client servers p.put)
    (hstop : p.ordering.stopMarker = [none]) :
    p.ordered = transfer raptorq flush 0 client := by
  have hput := hp.put_eq
  rw [hstop] at hput
  obtain ⟨j, hj⟩ := h.put_of_mem (by simp [hput])
  rw [hput, List.append_assoc] at hj
  exact eq_of_append_none hj

end Stage

end Lidi.Send
