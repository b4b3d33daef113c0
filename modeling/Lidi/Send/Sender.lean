import Lidi.Send.Order
import Lidi.Send.Server

set_option relaxedAutoImplicit false
set_option autoImplicit false

/-!
# The sender

The server workers and the pipeline side by side, joined by the channel `to_ordering`.

## Main definitions

* `Send.Sender` — the state of the sender with `m` clients and `n` encoding threads.
* `Send.Sender.step` — the next step of one worker.

## Main results

* `Send.Sender.pipeline_reach` — the pipeline of the sender makes steps of the pipeline alone.
* `Send.Sender.lift` — what the pipeline can do by its own workers, it can do in the sender.
-/

namespace Lidi.Send

open Turnstile

/-- The sender. -/
structure Sender (m n : ℕ) (Packet : Type*) where
  servers : Servers m
  pipeline : Pipeline n Packet

namespace Sender

variable {m n : ℕ} {Packet : Type*} {cfg : Config} {encode : UInt8 → List UInt8 → List Packet}
  {s s' : Sender m n Packet}

/-- The initial state; `todo` are the calls that will be made of `new_client` and `stop`. -/
def init (m n : ℕ) (Packet : Type*) (todo : List (Option ClientSocket)) : Sender m n Packet where
  servers := Servers.init m todo
  pipeline := Pipeline.init n Packet

/-- Which worker takes the step. -/
inductive Label (m n : ℕ)
  | server (a : Servers.Label m)
  | pipeline (a : Pipeline.Label n)

/-- The messages are put on `to_ordering`. -/
def putAll (encode : UInt8 → List UInt8 → List Packet) (p : Pipeline n Packet)
    (out : List (Option Block)) : Option (Pipeline n Packet) :=
  out.foldlM (fun p m => p.step encode (.put m)) p

/-- The next step; `none` if the worker is blocked or has returned. -/
def step (cfg : Config) (encode : UInt8 → List UInt8 → List Packet) (s : Sender m n Packet) :
    Label m n → Option (Sender m n Packet)
  | .server a =>
    (s.servers.step cfg (HasRoom (some n) s.pipeline.toOrdering) a).bind fun (servers, out) =>
      (putAll encode s.pipeline out).map fun pipeline => ⟨servers, pipeline⟩
  | .pipeline a =>
    if a.isWorker then (s.pipeline.step encode a).map ({ s with pipeline := · }) else none

/-- The kinds of steps. -/
inductive Trans (cfg : Config) (encode : UInt8 → List UInt8 → List Packet)
    (s : Sender m n Packet) : Label m n → Sender m n Packet → Prop
  | server {a : Servers.Label m} {servers : Servers m} {out : List (Option Block)}
      {pipeline : Pipeline n Packet}
      (hserver : Servers.Trans cfg (HasRoom (some n) s.pipeline.toOrdering) s.servers a servers out)
      (hput : putAll encode s.pipeline out = some pipeline) :
      Trans cfg encode s (.server a) ⟨servers, pipeline⟩
  | pipeline {a : Pipeline.Label n} {pipeline : Pipeline n Packet} (ha : a.isWorker = true)
      (hpipe : s.pipeline.step encode a = some pipeline) :
      Trans cfg encode s (.pipeline a) { s with pipeline := pipeline }

/-- The step function does exactly the steps of the relation. -/
theorem step_iff {a : Label m n} : step cfg encode s a = some s' ↔ Trans cfg encode s a s' := by
  constructor
  · intro h
    cases a with
    | server a =>
      simp only [step, Option.bind_eq_some_iff, Option.map_eq_some_iff] at h
      obtain ⟨⟨servers, out⟩, hserver, pipeline, hput, rfl⟩ := h
      exact .server (Servers.step_iff.mp hserver) hput
    | pipeline a =>
      by_cases ha : a.isWorker = true
      · simp only [step, if_pos ha, Option.map_eq_some_iff] at h
        obtain ⟨pipeline, hpipe, rfl⟩ := h
        exact .pipeline ha hpipe
      · simp only [step, if_neg ha, reduceCtorEq] at h
  · intro h
    cases h with
    | server hserver hput => simp [step, Servers.step_iff.mpr hserver, hput]
    | pipeline ha hpipe => simp [step, ha, hpipe]

/-- Putting messages changes the channel and the history only. -/
lemma putAll_eq {p p' : Pipeline n Packet} {out : List (Option Block)}
    (h : putAll encode p out = some p') :
    p' = { p with toOrdering := p.toOrdering ++ out, put := p.put ++ out } := by
  induction out generalizing p with
  | nil =>
    simp only [putAll, List.foldlM_nil, Option.pure_def, Option.some.injEq] at h
    simp [← h]
  | cons m out ih =>
    simp only [putAll, List.foldlM_cons, Option.bind_eq_bind, Option.bind_eq_some_iff] at h
    obtain ⟨q, hq, hrest⟩ := h
    rw [ih hrest]
    cases Pipeline.step_iff.mp hq with
    | put m hroom => simp

/-- The messages of `putAll` are steps of the pipeline. -/
lemma putAll_reach {ok : Pipeline n Packet → Pipeline.Label n → Prop} {p p' : Pipeline n Packet}
    {out : List (Option Block)} (hok : ∀ q, ∀ m ∈ out, ok q (.put m))
    (h : putAll encode p out = some p') :
    LTS.ReachVia (Pipeline.step encode) ok p p' := by
  induction out generalizing p with
  | nil =>
    simp only [putAll, List.foldlM_nil, Option.pure_def, Option.some.injEq] at h
    exact h ▸ .refl
  | cons m out ih =>
    simp only [putAll, List.foldlM_cons, Option.bind_eq_bind, Option.bind_eq_some_iff] at h
    obtain ⟨q, hq, hrest⟩ := h
    have hfirst : LTS.ReachVia (Pipeline.step encode) ok p q :=
      .tail .refl (hok p m List.mem_cons_self) hq
    exact hfirst.trans (ih (fun q m hm => hok q m (List.mem_cons_of_mem _ hm)) hrest)

/-- **Projection.** The pipeline of a reachable sender is a reachable pipeline. -/
theorem pipeline_reach {ok : Sender m n Packet → Label m n → Prop}
    {okP : Pipeline n Packet → Pipeline.Label n → Prop} {todo : List (Option ClientSocket)}
    (h : LTS.ReachVia (step cfg encode) ok (init m n Packet todo) s)
    (hput : ∀ p m, okP p (.put m)) (hok : ∀ s a, ok s (.pipeline a) → okP s.pipeline a) :
    LTS.ReachVia (Pipeline.step encode) okP (Pipeline.init n Packet) s.pipeline := by
  refine h.simulate Sender.pipeline fun t a t' _ hstep hs => ?_
  cases step_iff.mp hs with
  | server hserver hout => exact putAll_reach (fun q m _ => hput q m) hout
  | pipeline ha hpipe => exact .tail .refl (hok t _ hstep) hpipe

/-- **Lifting.** The workers of the pipeline can move without the others. -/
theorem lift {servers : Servers m} {p p' : Pipeline n Packet}
    (h : LTS.ReachVia (Pipeline.step encode) (fun _ a => a.isWorker = true) p p') :
    LTS.Reach (step cfg encode) (⟨servers, p⟩ : Sender m n Packet) ⟨servers, p'⟩ :=
  h.simulate (fun p => ⟨servers, p⟩) fun _ _ _ _ ha hs =>
    .tail .refl trivial (step_iff.mpr (.pipeline ha hs))

end Sender

end Lidi.Send
