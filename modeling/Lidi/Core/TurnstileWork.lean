import Lidi.Core.Turnstile
import Mathlib.Algebra.Order.BigOperators.Group.Finset

set_option relaxedAutoImplicit false
set_option autoImplicit false

/-!
# The threads at a turnstile do not go on forever

A thread that does not find its turn goes to sleep, and is woken each time another thread has
passed an item on. So a thread may go to sleep many times for one item; but only as often as items
are passed on.

## Main definitions

* `Turnstile.Gate.work` — the steps that the threads can still take, and what becomes of their
  messages.

## Main results

* `Turnstile.work_lt` — every step of a thread leaves less work.
-/

namespace Turnstile

open Function

variable {n : ℕ} {α β : Type*} {p : Params α β} {s s' : Gate n α β} {w : Fin n} {c : ℕ}

/-- The work of one of `n` threads, if a message weighs `c`. A thread that is about to wake the
others makes up for what each of them may do in vain. -/
def Phase.work (n c : ℕ) : Phase β → ℕ
  | idle | done => 0
  | bypass => c + 1
  | notify => n
  | enter _ _ => n + c + 1
  | asleep _ _ => n + c + 2
  | lock _ _ => n + c + 3

/-- The work of the threads, if a message on the output channel weighs `c`. -/
def Gate.work (c : ℕ) (s : Gate n α β) : ℕ :=
  (n + c + 4) * s.input.length + ∑ w, (s.workers w).work n c + c * s.output.length

/-- An item that has just been taken weighs less than before. -/
lemma Phase.work_ofItem_lt (n c : ℕ) (it : Item β) : (ofItem it).work n c < n + c + 4 := by
  cases it <;> simp only [ofItem, Phase.work] <;> omega

/-- A thread that is woken may go to sleep once more. -/
lemma Phase.work_wake_le (n c : ℕ) (ph : Phase β) : ph.wake.work n c ≤ ph.work n c + 1 := by
  cases ph <;> simp only [wake, Phase.work] <;> omega

/-- All the other threads are woken. -/
lemma sum_work_wake_lt {f : Fin n → Phase β} (hw : f w = .notify) :
    ∑ w', (update (fun w' => (f w').wake) w .idle w').work n c < ∑ w', (f w').work n c := by
  have hothers : ∑ w' ∈ Finset.univ.erase w, (update (fun w' => (f w').wake) w .idle w').work n c ≤
      ∑ w' ∈ Finset.univ.erase w, ((f w').work n c + 1) := by
    refine Finset.sum_le_sum fun w' hw' => ?_
    rw [update_of_ne (Finset.ne_of_mem_erase hw')]
    exact Phase.work_wake_le n c (f w')
  have hcard : (Finset.univ.erase w).card = n - 1 := by
    rw [Finset.card_erase_of_mem (Finset.mem_univ w), Finset.card_univ, Fintype.card_fin]
  have hpos : 0 < n := w.pos
  rw [Finset.sum_add_distrib, Finset.sum_const, hcard, smul_eq_mul, mul_one] at hothers
  rw [← Finset.add_sum_erase _ _ (Finset.mem_univ w),
    ← Finset.add_sum_erase _ (fun w' => (f w').work n c) (Finset.mem_univ w), update_self, hw,
    show Phase.work n c (.idle : Phase β) = 0 from rfl,
    show Phase.work n c (.notify : Phase β) = n from rfl]
  omega

/-- **Every step of a thread leaves less work.** -/
theorem work_lt (hs : step p s w = some s') : s'.work c < s.work c := by
  unfold Gate.work
  cases step_iff.mp hs with
  | @receive a rest hw hin =>
    have hlt := Phase.work_ofItem_lt n c (p.classify a)
    have hsum := Pool.sum_update (v := Phase.ofItem (p.classify a)) (a := 0)
      (congrArg (Phase.work n c) hw) rfl
    simp only [hin, List.length_cons, Nat.mul_succ]
    omega
  | bypass hw hroom =>
    have hzero : (if p.stops then Phase.done else .idle : Phase β).work n c = 0 := by
      split <;> rfl
    have hsum := Pool.sum_update (a := c + 1) (congrArg (Phase.work n c) hw) hzero
    simp only [List.length_append, List.length_singleton, Nat.mul_succ]
    omega
  | @enter id x hw hfree hturn =>
    have hsum := Pool.sum_update (v := Phase.enter id x) (a := n + c + 3) (b := n + c + 1)
      (congrArg (Phase.work n c) hw) rfl
    simp only
    omega
  | @sleep id x hw hfree hturn =>
    have hsum := Pool.sum_update (v := Phase.asleep id x) (a := n + c + 3) (b := n + c + 2)
      (congrArg (Phase.work n c) hw) rfl
    simp only
    omega
  | send hw hroom =>
    have hsum := Pool.sum_update (v := Phase.notify) (a := n + c + 1) (b := n)
      (congrArg (Phase.work n c) hw) rfl
    simp only [List.length_append, List.length_singleton, Nat.mul_succ]
    omega
  | notify hw =>
    have hlt := sum_work_wake_lt (c := c) hw
    simp only
    omega

section Surroundings

/-- An input brings work. -/
lemma work_push (s : Gate n α β) (a : α) : (s.push a).work c = s.work c + (n + c + 4) := by
  simp only [Gate.work, Gate.push, List.length_append, List.length_singleton, Nat.mul_succ]
  omega

/-- So does a message of someone else. -/
lemma work_emit (s : Gate n α β) (m : Option β) : (s.emit m).work c = s.work c + c := by
  simp only [Gate.work, Gate.emit, List.length_append, List.length_singleton, Nat.mul_succ]
  omega

/-- A message is received. -/
lemma work_pop {m : Option β} {rest : List (Option β)} (hout : s.output = m :: rest) :
    (s.pop rest).work c + c = s.work c := by
  simp only [Gate.work, Gate.pop, hout, List.length_cons, Nat.mul_succ]
  omega

/-- Setting the counter does not change what the threads hold. -/
@[simp]
lemma work_setTurn (s : Gate n α β) (id : UInt8) : (s.setTurn id).work c = s.work c := rfl

/-- Someone else wakes the threads. -/
lemma work_wakeAll_le (s : Gate n α β) : s.wakeAll.work c ≤ s.work c + n := by
  have hle : ∑ w, ((s.workers w).wake).work n c ≤ ∑ w, ((s.workers w).work n c + 1) :=
    Finset.sum_le_sum fun w _ => Phase.work_wake_le n c (s.workers w)
  rw [Finset.sum_add_distrib, Finset.sum_const, Finset.card_univ, Fintype.card_fin, smul_eq_mul,
    mul_one] at hle
  simp only [Gate.work, Gate.wakeAll]
  omega

end Surroundings

end Turnstile
