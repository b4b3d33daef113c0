import Mathlib.Algebra.BigOperators.Fin
import Mathlib.Data.List.FinRange
import Mathlib.Data.List.Perm.Basic
import Mathlib.Data.List.ReduceOption
import Mathlib.Logic.Function.Basic

set_option relaxedAutoImplicit false
set_option autoImplicit false

/-!
# What a pool of workers holds

A pool is a function from worker indices to what each worker has in hand, if anything. The
lemmas here account for the things in hand as a list up to permutation, so that an invariant can
say "in hand plus done is everything taken" without naming the workers.

## Main definitions

* `Pool.holding` — the list of the things in hand, by increasing worker index.

## Main results

* `Pool.holding_update` — changing what one worker holds exchanges one item for another.
* `Pool.sum_update` — the same for a quantity that is added up over the workers.
* `Pool.reduceOption_map` — a list with gaps, without them.
-/

namespace Pool

variable {n : ℕ} {γ : Type*}

/-- A pool of one worker: `0` names it. -/
instance neZero_one : NeZero 1 :=
  ⟨Nat.one_ne_zero⟩

/-- A pool of two workers: `0` and `1` name them. -/
instance neZero_two : NeZero 2 :=
  ⟨Nat.succ_ne_zero 1⟩

/-- What is there, of the things computed from the members of a list. -/
lemma reduceOption_map {δ : Type*} (f : γ → Option δ) (l : List γ) :
    (l.map f).reduceOption = l.filterMap f := by
  show (l.map f).filterMap id = l.filterMap f
  rw [List.filterMap_map, Function.id_comp]

/-- Nothing is removed from a list without gaps. -/
lemma reduceOption_map_some (l : List γ) : (l.map some).reduceOption = l := by
  rw [reduceOption_map, List.filterMap_some]

/-- The things held by the workers of a pool. -/
def holding (f : Fin n → Option γ) : List γ :=
  (List.finRange n).filterMap f

/-- What is held is held by some worker. -/
@[simp]
lemma mem_holding {f : Fin n → Option γ} {x : γ} : x ∈ holding f ↔ ∃ w, f w = some x := by
  simp [holding]

/-- A pool of `n` workers holds at most `n` things. -/
lemma length_holding_le (f : Fin n → Option γ) : (holding f).length ≤ n :=
  (List.length_filterMap_le f _).trans_eq List.length_finRange

/-- Nothing is held if no worker holds anything. -/
lemma holding_eq_nil {f : Fin n → Option γ} : holding f = [] ↔ ∀ w, f w = none := by
  simp [holding, List.filterMap_eq_nil_iff]

/-- Off the updated position, `filterMap` does not see a `Function.update`. -/
private lemma filterMap_update_of_notMem {f : Fin n → Option γ} {w : Fin n} {v : Option γ}
    {l : List (Fin n)} (h : w ∉ l) :
    l.filterMap (Function.update f w v) = l.filterMap f := by
  refine List.filterMap_congr fun w' hw' => ?_
  have hne : w' ≠ w := by
    rintro rfl
    exact h hw'
  exact Function.update_of_ne hne v f

/-- A worker of a list without repetitions gives back what it held for what it holds now. -/
private lemma filterMap_update_perm {f : Fin n → Option γ} {w : Fin n} {v : Option γ}
    {l : List (Fin n)} (hl : l.Nodup) (h : w ∈ l) :
    ((f w).toList ++ l.filterMap (Function.update f w v)).Perm
      (v.toList ++ l.filterMap f) := by
  obtain ⟨l₁, l₂, rfl⟩ := List.append_of_mem h
  have h₁ : w ∉ l₁ := fun hw => by
    have hd := List.disjoint_of_nodup_append hl
    exact hd hw List.mem_cons_self
  have h₂ : w ∉ l₂ := (List.nodup_cons.mp hl.of_append_right).1
  -- both sides list the unchanged workers once, around the old and the new thing of `w`
  have hsplit : ∀ g : Fin n → Option γ, (w :: l₂).filterMap g = (g w).toList ++ l₂.filterMap g := by
    intro g
    cases hg : g w <;> simp [hg]
  simp only [List.filterMap_append, hsplit, Function.update_self,
    filterMap_update_of_notMem h₁, filterMap_update_of_notMem h₂]
  generalize (f w).toList = a
  generalize v.toList = b
  generalize l₁.filterMap f = x
  generalize l₂.filterMap f = y
  have hswap : ∀ c d : List γ, (c ++ (x ++ (d ++ y))).Perm (x ++ (c ++ (d ++ y))) :=
    fun c d => by
      rw [← List.append_assoc, ← List.append_assoc x]
      exact List.perm_append_comm.append_right _
  have hab : (x ++ (a ++ (b ++ y))).Perm (x ++ (b ++ (a ++ y))) := by
    rw [← List.append_assoc a, ← List.append_assoc b]
    exact (List.perm_append_comm.append_right _).append_left _
  exact (hswap a b).trans (hab.trans (hswap b a).symm)

/-- **Exchange.** When worker `w` comes to hold `v`, the pool gains `v` and loses what `w` held. -/
theorem holding_update (f : Fin n → Option γ) (w : Fin n) (v : Option γ) :
    ((f w).toList ++ holding (Function.update f w v)).Perm (v.toList ++ holding f) :=
  filterMap_update_perm (List.nodup_finRange n) (List.mem_finRange w)

/-- What the other workers hold, besides what worker `w` comes to hold. -/
lemma holding_update_perm (f : Fin n → Option γ) (w : Fin n) (v : Option γ) :
    (holding (Function.update f w v)).Perm
      (v.toList ++ holding (Function.update f w none)) := by
  simpa using holding_update (Function.update f w none) w v

/-- What the other workers hold, besides what worker `w` holds. -/
lemma holding_perm_cons {f : Fin n → Option γ} {w : Fin n} {x : γ} (hw : f w = some x) :
    (holding f).Perm (x :: holding (Function.update f w none)) := by
  simpa [hw] using (holding_update f w none).symm

section Phases

variable {δ : Type*} {g : δ → Option γ} {f : Fin n → δ} {w : Fin n} {v : δ} {a b : Option γ}

/-- What the workers hold is read off their phases. Giving worker `w` a new phase changes what it
holds, and nothing else. -/
lemma phases_update (g : δ → Option γ) (f : Fin n → δ) (w : Fin n) (v : δ) :
    (fun w' => g (Function.update f w v w')) = Function.update (fun w' => g (f w')) w (g v) :=
  Function.comp_update g f w v

/-- A worker may change its phase if it goes on holding the same thing, if any. -/
lemma phases_congr (h : g v = g (f w)) :
    (fun w' => g (Function.update f w v w')) = fun w' => g (f w') := by
  rw [phases_update, h]
  exact Function.update_eq_self w _

/-- How many things the workers hold when one of them gets a new phase. -/
lemma length_phases_update (ha : g (f w) = a) (hb : g v = b) :
    a.toList.length + (holding fun w' => g (Function.update f w v w')).length =
      b.toList.length + (holding fun w' => g (f w')).length := by
  have hperm := (holding_update (fun w' => g (f w')) w b).length_eq
  rw [phases_update, hb, ← ha]
  simpa only [List.length_append] using hperm

/-- What the phases of the workers weigh when one of them gets a new phase. -/
lemma sum_update {g : δ → ℕ} {a b : ℕ} (ha : g (f w) = a) (hb : g v = b) :
    a + ∑ w', g (Function.update f w v w') = b + ∑ w', g (f w') := by
  have hrest : ∑ w' ∈ Finset.univ.erase w, g (Function.update f w v w') =
      ∑ w' ∈ Finset.univ.erase w, g (f w') :=
    Finset.sum_congr rfl fun w' hw' => by rw [Function.update_of_ne (Finset.ne_of_mem_erase hw')]
  rw [← Finset.add_sum_erase _ _ (Finset.mem_univ w), hrest, Function.update_self,
    ← Finset.add_sum_erase _ (fun w' => g (f w')) (Finset.mem_univ w)]
  omega

end Phases

end Pool
