import Mathlib.Data.List.Basic
import Mathlib.Data.UInt

set_option relaxedAutoImplicit false
set_option autoImplicit false

/-!
# Linked sequences of numbers with gaps

A list of optional numbers is *linked* when every number directly followed by another is followed
by its successor. A `none` breaks the chain: the number after it is free. The relation also fixes
the two ends: the number that the first entry must have, if any, and the number that must come
next.

The last section is about runs of consecutive `UInt8` numbers, which wrap around.

## Main definitions

* `Linked` — the relation, over any type with a successor function.

## Main results

* `Linked.append_some`, `Linked.append_none` — extending at the far end.
* `Linked.getElem_eq` — the entries of a chain without gaps.
* `UInt8.eq_of_add_ofNat_eq` — fewer than 256 consecutive `UInt8` numbers are distinct.
-/

/-- `Linked succ c l e`: in `l` every number is followed by its successor or by a gap, the first
entry is `c` if `c` is given, and `e` is the number that follows. -/
def Linked {γ : Type*} (succ : γ → γ) : Option γ → List (Option γ) → γ → Prop
  | c, [], e => ∀ k, c = some k → e = k
  | c, some k :: l, e => (∀ k', c = some k' → k = k') ∧ Linked succ (some (succ k)) l e
  | _, none :: l, e => Linked succ none l e

namespace Linked

variable {γ : Type*} {succ : γ → γ} {c : Option γ} {l : List (Option γ)} {e : γ}

/-- No elements before the first one is known: any end will do. -/
@[simp]
lemma nil_none : Linked succ none [] e := by
  simp [Linked]

/-- No elements: the end is the expected one. -/
@[simp]
lemma nil_some {k : γ} : Linked succ (some k) [] e ↔ e = k := by
  simp [Linked]

/-- The chain continues with the number that must come next. -/
lemma append_some (h : Linked succ c l e) : Linked succ c (l ++ [some e]) (succ e) := by
  induction l generalizing c with
  | nil => simpa [Linked] using h
  | cons a l ih =>
    cases a with
    | none => exact ih h
    | some k => exact ⟨h.1, ih h.2⟩

/-- A gap at the end frees the number that comes next. -/
lemma append_none (h : Linked succ c l e) (e' : γ) : Linked succ c (l ++ [none]) e' := by
  induction l generalizing c with
  | nil => simp [Linked]
  | cons a l ih =>
    cases a with
    | none => exact ih h
    | some k => exact ⟨h.1, ih h.2⟩

/-- Forgetting the number that the first entry must have. -/
lemma forget (h : Linked succ c l e) : Linked succ none l e := by
  cases l with
  | nil => simp
  | cons a l =>
    cases a with
    | none => exact h
    | some k => exact ⟨by simp, h.2⟩

/-- Gaps alone are linked to anything. -/
lemma of_gaps (h : ∀ o ∈ l, o = none) : Linked succ none l e := by
  induction l with
  | nil => simp
  | cons o l ih =>
    obtain rfl : o = none := h o List.mem_cons_self
    exact ih fun o' ho' => h o' (List.mem_cons_of_mem _ ho')

/-- The first entry, if there is one, is the number it is required to be. -/
lemma start {k : γ} (h : Linked succ none (some k :: l) e) :
    Linked succ (some k) (some k :: l) e :=
  ⟨fun _ hk => Option.some.inj hk, h.2⟩

/-- Dropping the first entry of a chain. -/
lemma tail {a : Option γ} (h : Linked succ c (a :: l) e) : Linked succ (a.map succ) l e := by
  cases a with
  | none => exact h
  | some k => exact h.2

/-- If there is no gap before position `j`, the entry there is the `j`-th successor of the first
one. -/
lemma getElem_eq {k : γ} (h : Linked succ (some k) l e) {j : ℕ} {x : γ}
    (hgap : ∀ o ∈ l.take j, o.isSome = true) (hj : l[j]? = some (some x)) :
    x = succ^[j] k := by
  induction l generalizing k j with
  | nil => simp at hj
  | cons o l ih =>
    cases j with
    | zero =>
      have ho : o = some x := by simpa using hj
      subst ho
      exact h.1 k rfl
    | succ j =>
      obtain ⟨y, rfl⟩ : ∃ y, o = some y := Option.isSome_iff_exists.mp (hgap o (by simp))
      have hy : y = k := h.1 k rfl
      rw [Function.iterate_succ_apply, ← hy]
      exact ih h.2 (fun o ho => hgap o (by simp [ho])) (by simpa using hj)

/-- A chain without gaps ends at the successor reached by its length. -/
lemma end_eq {k : γ} (h : Linked succ (some k) l e) (hgap : ∀ o ∈ l, o.isSome = true) :
    e = succ^[l.length] k := by
  induction l generalizing k with
  | nil => simpa using h
  | cons o l ih =>
    obtain ⟨y, rfl⟩ : ∃ y, o = some y := Option.isSome_iff_exists.mp (hgap o (by simp))
    have hy : y = k := h.1 k rfl
    rw [List.length_cons, Function.iterate_succ_apply, ← hy]
    exact ih h.2 fun o ho => hgap o (by simp [ho])

/-- Consecutive numbers are linked. -/
lemma range' (k n : ℕ) : Linked Nat.succ (some k) ((List.range' k n).map some) (k + n) := by
  induction n generalizing k with
  | zero => simp
  | succ n ih =>
    have hend : k + (n + 1) = k + 1 + n := by omega
    rw [List.range'_succ, List.map_cons, hend]
    exact ⟨fun _ hk => Option.some.inj hk, ih (k + 1)⟩

end Linked

namespace UInt8

/-- Stepping a wrapping counter. -/
lemma iterate_add_one (k : UInt8) (j : ℕ) : (· + 1)^[j] k = k + UInt8.ofNat j := by
  induction j with
  | zero => simp
  | succ j ih =>
    rw [Function.iterate_succ_apply', ih, UInt8.ofNat_add, UInt8.add_assoc]
    rfl

/-- The distance from `t` to `k + j`, as long as it does not wrap. -/
lemma toNat_add_ofNat_sub {k t : UInt8} {j : ℕ} (h : (k - t).toNat + j < 256) :
    (k + UInt8.ofNat j - t).toNat = (k - t).toNat + j := by
  simp only [UInt8.toNat_sub, UInt8.toNat_add, UInt8.toNat_ofNat'] at h ⊢
  have := k.toNat_lt
  have := t.toNat_lt
  omega

/-- Within 256 consecutive numbers only the first one is the first one. -/
lemma eq_of_add_ofNat_eq {k t : UInt8} {j : ℕ} (h : (k - t).toNat + j < 256)
    (heq : k + UInt8.ofNat j = t) : k = t ∧ j = 0 := by
  have hd := toNat_add_ofNat_sub h
  rw [heq, UInt8.sub_self] at hd
  have hz : (k - t).toNat = 0 ∧ j = 0 := by
    simp at hd
    omega
  refine ⟨?_, hz.2⟩
  rw [hz.2] at heq
  simpa using heq

/-- The distance to a number other than `t` is one less from the successor of `t`. -/
lemma toNat_sub_add_one {k t : UInt8} (h : k ≠ t) : (k - (t + 1)).toNat + 1 = (k - t).toNat := by
  have hne : k.toNat ≠ t.toNat := fun heq => h (UInt8.toNat_inj.mp heq)
  have hk := k.toNat_lt
  have ht := t.toNat_lt
  simp only [UInt8.toNat_sub, UInt8.toNat_add, UInt8.toNat_ofNat]
  omega

end UInt8
