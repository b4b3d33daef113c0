import Mathlib.Tactic.Common

set_option relaxedAutoImplicit false
set_option autoImplicit false

/-!
# Labelled transition systems with partial step functions

A system is a function `step : S → A → Option S`: the label resolves every choice of the
scheduler and of the environment, and `none` means that the labelled step is not enabled. A step
that waits (a full channel, a taken mutex) is one that is not enabled.

Runs may be restricted to steps that meet a condition on the state before the step and the label.

## Main definitions

* `LTS.run` — the state reached by a list of labels, if every step is enabled.
* `LTS.ReachVia` — the states reached by steps that meet a condition; `LTS.Reach` is the
  unconditional version.
* `LTS.Stuck` — no step with a label of a given kind is enabled.
* `LTS.Terminates` — every sequence of steps with labels of a given kind is finite.

## Main results

* `LTS.ReachVia.invariant` — the induction rule: what holds initially and is kept by every
  allowed step holds of every reachable state.
* `LTS.ReachVia.simulate` — a map of states under which every step becomes a sequence of steps
  of a second system carries reachability over.
* `LTS.reach_of_run` — a computed run is a proof of reachability.
* `LTS.terminates_of_measure` — a measure that decreases bounds the sequences of steps.
* `LTS.append_eq_append_cons` — where an event is in a history that a step has extended.
-/

namespace LTS

variable {S A T B : Type*}

/-- The state reached from `s` by the steps with the given labels, if all of them are enabled. -/
def run (step : S → A → Option S) (s : S) : List A → Option S
  | [] => some s
  | a :: as => (step s a).bind fun s' => run step s' as

/-- The states reached from `s₀` by steps whose label and state before the step satisfy `ok`. -/
inductive ReachVia (step : S → A → Option S) (ok : S → A → Prop) (s₀ : S) : S → Prop
  | refl : ReachVia step ok s₀ s₀
  | tail {s s' : S} {a : A} (h : ReachVia step ok s₀ s) (hok : ok s a)
      (hstep : step s a = some s') : ReachVia step ok s₀ s'

/-- The states reached from `s₀` by any steps. -/
abbrev Reach (step : S → A → Option S) (s₀ : S) : S → Prop :=
  ReachVia step (fun _ _ => True) s₀

/-- The state reached by the steps with the given labels, if all of them are enabled and meet the
condition. -/
def runVia (step : S → A → Option S) (ok : S → A → Prop) [∀ s a, Decidable (ok s a)] (s : S) :
    List A → Option S
  | [] => some s
  | a :: as => if ok s a then (step s a).bind fun s' => runVia step ok s' as else none

/-- No step with a label in `P` is enabled. -/
def Stuck (step : S → A → Option S) (P : A → Prop) (s : S) : Prop :=
  ∀ a, P a → step s a = none

/-- Every sequence of steps with labels in `P` from `s` is finite. -/
def Terminates (step : S → A → Option S) (P : A → Prop) (s : S) : Prop :=
  Acc (fun s₂ s₁ => ∃ a, P a ∧ step s₁ a = some s₂) s

section Rules

variable {step : S → A → Option S} {ok ok' : S → A → Prop} {s₀ s s' : S}

/-- **The invariant rule.** The step hypothesis may use that the state before the step is itself
reachable, so invariants can be proved one after the other. -/
theorem ReachVia.invariant {P : S → Prop} (h : ReachVia step ok s₀ s) (h₀ : P s₀)
    (hstep : ∀ s a s', ReachVia step ok s₀ s → P s → ok s a → step s a = some s' → P s') :
    P s := by
  induction h with
  | refl => exact h₀
  | tail hr hok hs ih => exact hstep _ _ _ hr ih hok hs

/-- A weaker condition on the steps reaches more states. -/
theorem ReachVia.mono (h : ReachVia step ok s₀ s) (himp : ∀ s a, ok s a → ok' s a) :
    ReachVia step ok' s₀ s := by
  induction h with
  | refl => exact .refl
  | tail _ hok hs ih => exact .tail ih (himp _ _ hok) hs

/-- Reachability is transitive. -/
theorem ReachVia.trans (h : ReachVia step ok s₀ s) (h' : ReachVia step ok s s') :
    ReachVia step ok s₀ s' := by
  induction h' with
  | refl => exact h
  | tail _ hok hs ih => exact .tail ih hok hs

/-- One unconditional step. -/
theorem Reach.next {a : A} (h : Reach step s₀ s) (hs : step s a = some s') : Reach step s₀ s' :=
  .tail h trivial hs

/-- A run whose labels are all enabled and meet the condition reaches its last state. -/
theorem reachVia_of_runVia [∀ s a, Decidable (ok s a)] {as : List A}
    (h : runVia step ok s as = some s') : ReachVia step ok s s' := by
  induction as generalizing s with
  | nil =>
    simp only [runVia, Option.some.injEq] at h
    exact h ▸ .refl
  | cons a as ih =>
    by_cases hok : ok s a
    · simp only [runVia, if_pos hok, Option.bind_eq_some_iff] at h
      obtain ⟨t, ht, hrun⟩ := h
      have hfirst : ReachVia step ok s t := .tail .refl hok ht
      exact hfirst.trans (ih hrun)
    · simp only [runVia, if_neg hok, reduceCtorEq] at h

/-- If the condition on the steps only looks at the labels, it can be checked on the list. -/
theorem reachVia_of_run {okA : A → Prop} {as : List A} (h : run step s as = some s')
    (hok : ∀ a ∈ as, okA a) : ReachVia step (fun _ a => okA a) s s' := by
  induction as generalizing s with
  | nil =>
    simp only [run, Option.some.injEq] at h
    exact h ▸ .refl
  | cons a as ih =>
    simp only [run, Option.bind_eq_some_iff] at h
    obtain ⟨t, ht, hrun⟩ := h
    have hfirst : ReachVia step (fun _ a => okA a) s t :=
      .tail .refl (hok a List.mem_cons_self) ht
    exact hfirst.trans (ih hrun fun b hb => hok b (List.mem_cons_of_mem _ hb))

/-- A run whose labels are all enabled reaches its last state. -/
theorem reach_of_run {as : List A} (h : run step s as = some s') : Reach step s s' :=
  reachVia_of_run h fun _ _ => trivial

/-- **The simulation rule.** If `f` maps every allowed step of the first system to a sequence of
allowed steps of the second, it maps reachable states to reachable states. -/
theorem ReachVia.simulate {stepT : T → B → Option T} {okT : T → B → Prop} (f : S → T)
    (h : ReachVia step ok s₀ s)
    (hsim : ∀ s a s', ReachVia step ok s₀ s → ok s a → step s a = some s' →
      ReachVia stepT okT (f s) (f s')) :
    ReachVia stepT okT (f s₀) (f s) := by
  induction h with
  | refl => exact .refl
  | tail hr hok hs ih => exact ih.trans (hsim _ _ _ hr hok hs)

/-- **The termination rule.** A measure that every step with a label in `P` decreases. -/
theorem terminates_of_measure {P : A → Prop} {M : Type*} {lt : M → M → Prop}
    (hlt : WellFounded lt) (μ : S → M)
    (hstep : ∀ s a s', P a → step s a = some s' → lt (μ s') (μ s)) (s : S) :
    Terminates step P s := by
  refine Subrelation.accessible ?_ ((InvImage.wf μ hlt).apply s)
  rintro s₂ s₁ ⟨a, ha, hs⟩
  exact hstep _ _ _ ha hs

end Rules

/-- Where an event is in a history that has grown: in the old part or in the new one. -/
lemma append_eq_append_cons {α : Type*} {old new before after : List α} {x : α}
    (h : old ++ new = before ++ x :: after) :
    (∃ more, old = before ++ x :: more ∧ after = more ++ new) ∨
      ∃ more, before = old ++ more ∧ new = more ++ x :: after := by
  rcases List.append_eq_append_iff.mp h with ⟨more, hbefore, hnew⟩ | ⟨more, hold, hmore⟩
  · exact .inr ⟨more, hbefore, hnew⟩
  · cases more with
    | nil => exact .inr ⟨[], by simpa using hold.symm, hmore.symm⟩
    | cons y more =>
      rw [List.cons_append, List.cons.injEq] at hmore
      obtain ⟨rfl, hafter⟩ := hmore
      exact .inl ⟨more, hold, hafter⟩

end LTS
