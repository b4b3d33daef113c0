import Mathlib.Init

set_option relaxedAutoImplicit false
set_option autoImplicit false

/-!
# Outcomes of code that may panic

A function that returns a `Result` may also panic: an index out of range, an overflow of an
allocation size. The two are told apart, since the caller handles the first and not the second.

## Main definitions

* `Fault` — a panic or a returned error.
* `Outcome` — the result of a fallible function.
-/

/-- Why a function did not return a value. -/
inductive Fault (ε : Type*)
  | panic
  | error (e : ε)
  deriving DecidableEq, Repr

/-- The result of a function that returns a value or an error, or panics. -/
abbrev Outcome (ε α : Type*) :=
  Except (Fault ε) α

section Bind

universe u v

variable {ε : Type u} {α β : Type v}

/-- A success goes on. -/
@[simp]
lemma Outcome.ok_bind (a : α) (f : α → Outcome ε β) : (Except.ok a >>= f : Outcome ε β) = f a := rfl

/-- An error or a panic ends a computation. -/
@[simp]
lemma Outcome.error_bind (e : Fault ε) (f : α → Outcome ε β) :
    (Except.error e >>= f : Outcome ε β) = .error e := rfl

end Bind

/-- Converting the error, as the `?` operator does. -/
def Outcome.mapError {ε δ α : Type*} (f : ε → δ) : Outcome ε α → Outcome δ α
  | .ok a => .ok a
  | .error .panic => .error .panic
  | .error (.error e) => .error (.error (f e))

section MapError

variable {ε δ α : Type*} {f : ε → δ} {x : Outcome ε α}

/-- Changing errors leaves the successes. -/
lemma Outcome.mapError_eq_ok_iff {a : α} : x.mapError f = .ok a ↔ x = .ok a := by
  rcases x with (_ | e) | a <;> simp [Outcome.mapError]

/-- Changing errors leaves the panics. -/
lemma Outcome.mapError_eq_panic_iff : x.mapError f = .error .panic ↔ x = .error .panic := by
  rcases x with (_ | e) | a <;> simp [Outcome.mapError]

end MapError

/-- An I/O error, known by its message. -/
structure IoError where
  message : String
  deriving DecidableEq, Repr
