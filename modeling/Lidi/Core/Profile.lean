import Mathlib.Data.UInt
import Lidi.Core.Outcome

set_option relaxedAutoImplicit false
set_option autoImplicit false

/-!
# Machine arithmetic in two build profiles

A result that does not fit its type makes a debug build panic, and wraps around in a release build.
A division by zero panics in both.

## Main definitions

* `Profile` — the two kinds of builds.
* `Profile.subU16`, `Profile.addU16`, `Profile.mulU32`, `Profile.mulI32`, `Profile.divU32` — the
  operations.

## Main results

* `Profile.checked_eq_ok_iff` — what an operation returns.
* `Profile.subU16_cases` — a difference is computed or a debug build panics.
* `Profile.addU16_exact_iff`, `Profile.mulI32_exact_iff` — when it is exact.
-/

/-- How a program is built: with overflow checks or without. -/
inductive Profile
  | dev
  | release
  deriving DecidableEq, Repr

namespace Profile

section Checked

variable {ε α : Type*} {profile : Profile} {fits : Prop} [Decidable fits] {wrapped a : α}

/-- The result of an operation that wraps to the given value unless its exact result fits. -/
def checked (profile : Profile) (fits : Prop) [Decidable fits] (wrapped : α) : Outcome ε α :=
  if profile = .dev ∧ ¬ fits then .error .panic else .ok wrapped

/-- An operation that is in range where that is checked has the wrapped result. -/
lemma checked_of_fits (h : profile = .dev → fits) :
    (checked profile fits wrapped : Outcome ε α) = .ok wrapped :=
  if_neg fun hpanic => hpanic.2 (h hpanic.1)

/-- A development build panics out of range. -/
lemma checked_of_not (hdev : profile = .dev) (h : ¬ fits) :
    (checked profile fits wrapped : Outcome ε α) = .error .panic :=
  if_pos ⟨hdev, h⟩

/-- When a checked operation has a result. -/
lemma checked_eq_ok_iff :
    (checked profile fits wrapped : Outcome ε α) = .ok a ↔
      (profile = .dev → fits) ∧ wrapped = a := by
  by_cases h : profile = .dev → fits
  · rw [checked_of_fits h, Except.ok.injEq]
    exact (and_iff_right h).symm
  · obtain ⟨hdev, hnot⟩ := Classical.not_imp.mp h
    rw [checked_of_not hdev hnot]
    exact ⟨nofun, fun hok => absurd hok.1 h⟩

end Checked

variable {ε : Type*}

/-- Subtraction of 16-bit numbers. -/
def subU16 (profile : Profile) (a b : UInt16) : Outcome ε UInt16 :=
  profile.checked (b ≤ a) (a - b)

/-- Addition of 16-bit numbers. -/
def addU16 (profile : Profile) (a b : UInt16) : Outcome ε UInt16 :=
  profile.checked (a.toNat + b.toNat < 2 ^ 16) (a + b)

/-- Multiplication of 32-bit numbers. -/
def mulU32 (profile : Profile) (a b : UInt32) : Outcome ε UInt32 :=
  profile.checked (a.toNat * b.toNat < 2 ^ 32) (a * b)

/-- Multiplication of signed 32-bit numbers. -/
def mulI32 (profile : Profile) (a b : Int32) : Outcome ε Int32 :=
  profile.checked (-2 ^ 31 ≤ a.toInt * b.toInt ∧ a.toInt * b.toInt < 2 ^ 31) (a * b)

/-- Division of 32-bit numbers. -/
def divU32 (a b : UInt32) : Outcome ε UInt32 :=
  if b = 0 then .error .panic else .ok (a / b)

variable (profile : Profile) (ε)

/-- A difference wraps around, or a debug build notices it. -/
lemma subU16_cases (a b : UInt16) :
    (profile = .dev ∧ a.toNat < b.toNat ∧
      (profile.subU16 a b : Outcome ε UInt16) = .error .panic) ∨
    (profile = .dev → b.toNat ≤ a.toNat) ∧
      ∃ c, (profile.subU16 a b : Outcome ε UInt16) = .ok c ∧
        c.toNat = (a.toNat + (2 ^ 16 - b.toNat)) % 2 ^ 16 := by
  by_cases h : profile = .dev → b ≤ a
  · refine .inr ⟨fun hdev => UInt16.le_iff_toNat_le.mp (h hdev), a - b, checked_of_fits h, ?_⟩
    rw [UInt16.toNat_sub, Nat.add_comm]
  · obtain ⟨hdev, hnot⟩ := Classical.not_imp.mp h
    refine .inl ⟨hdev, ?_, checked_of_not hdev hnot⟩
    rwa [UInt16.le_iff_toNat_le, not_le] at hnot

/-- A sum is exact if it fits, and not otherwise. -/
lemma addU16_exact_iff (a b : UInt16) :
    (∃ c, (profile.addU16 a b : Outcome ε UInt16) = .ok c ∧ c.toNat = a.toNat + b.toNat) ↔
      a.toNat + b.toNat < 2 ^ 16 := by
  constructor
  · rintro ⟨c, -, hc⟩
    rw [← hc]
    exact c.toNat_lt
  · intro h
    refine ⟨a + b, checked_of_fits fun _ => h, ?_⟩
    rw [UInt16.toNat_add]
    exact Nat.mod_eq_of_lt h

/-- A product that fits is exact. -/
lemma mulI32_of_fits {a b : Int32} (hle : -2 ^ 31 ≤ a.toInt * b.toInt)
    (hlt : a.toInt * b.toInt < 2 ^ 31) :
    ∃ c, (profile.mulI32 a b : Outcome ε Int32) = .ok c ∧ c.toInt = a.toInt * b.toInt := by
  refine ⟨a * b, checked_of_fits fun _ => ⟨hle, hlt⟩, ?_⟩
  rw [Int32.toInt_mul]
  exact Int.bmod_eq_of_le (by omega) (by omega)

/-- A product is exact if it fits, and not otherwise. -/
lemma mulI32_exact_iff (a b : Int32) :
    (∃ c, (profile.mulI32 a b : Outcome ε Int32) = .ok c ∧ c.toInt = a.toInt * b.toInt) ↔
      -2 ^ 31 ≤ a.toInt * b.toInt ∧ a.toInt * b.toInt < 2 ^ 31 := by
  constructor
  · rintro ⟨c, -, hc⟩
    rw [← hc]
    exact ⟨c.le_toInt, c.toInt_lt⟩
  · rintro ⟨hle, hlt⟩
    exact profile.mulI32_of_fits ε hle hlt

end Profile
