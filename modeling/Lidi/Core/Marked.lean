import Mathlib.Data.List.Basic
import Mathlib.Tactic.Common

set_option relaxedAutoImplicit false
set_option autoImplicit false

/-!
# Streams with marked losses

A receiver gets a stream of items through a channel that loses some of them. In the place of a
lost item there is a marker, or nothing at all; then the item is skipped, and must be one that the
receiver does not miss. Which items these are depends on what it has received so far: on its
*view*.

## Main definitions

* `Marked` — the messages on their way to the receiver are the stream from one position to
  another, with losses.

## Main results

* `Marked.trans`, `Marked.skipAll` — continuing at the far end.
* `Marked.mono` — the stream may grow.
* `Marked.receive` — the rule for the next message: it is an item of the stream, or a marker, after
  some items that are not missed.
* `Marked.caughtUp` — the rule for the end: with no message left, all other items are not missed.
-/

variable {V α : Type*}

/-- `Marked next harmless stream v e ms e'`: the messages `ms` are the stream from position `e` to
position `e'`, where `v` is the view of the receiver before it gets them. A marker may also stand
for an item that is not there yet. -/
inductive Marked (next : V → Option α → V) (harmless : V → α → Prop) (stream : List α) :
    V → ℕ → List (Option α) → ℕ → Prop
  | nil {v : V} {e : ℕ} : Marked next harmless stream v e [] e
  | skip {v : V} {e e' : ℕ} {a : α} {ms : List (Option α)} (ha : stream[e]? = some a)
      (hharm : harmless v a) (h : Marked next harmless stream v (e + 1) ms e') :
      Marked next harmless stream v e ms e'
  | item {v : V} {e e' : ℕ} {a : α} {ms : List (Option α)} (ha : stream[e]? = some a)
      (h : Marked next harmless stream (next v (some a)) (e + 1) ms e') :
      Marked next harmless stream v e (some a :: ms) e'
  | marker {v : V} {e e' : ℕ} {ms : List (Option α)}
      (h : Marked next harmless stream (next v none) (e + 1) ms e') :
      Marked next harmless stream v e (none :: ms) e'

namespace Marked

variable {next : V → Option α → V} {harmless : V → α → Prop} {stream stream' : List α} {v : V}
  {e e' e'' : ℕ} {ms ms' : List (Option α)}

/-- More messages follow. -/
theorem trans (h : Marked next harmless stream v e ms e')
    (h' : Marked next harmless stream (ms.foldl next v) e' ms' e'') :
    Marked next harmless stream v e (ms ++ ms') e'' := by
  induction h with
  | nil => exact h'
  | skip ha hharm _ ih => exact .skip ha hharm (ih h')
  | item ha _ ih => exact .item ha (ih h')
  | marker _ ih => exact .marker (ih h')

/-- The next item is sent. -/
lemma append_item (h : Marked next harmless stream v e ms e') {a : α} (ha : stream[e']? = some a) :
    Marked next harmless stream v e (ms ++ [some a]) (e' + 1) :=
  h.trans (.item ha .nil)

/-- A marker is sent in its place. -/
lemma append_marker (h : Marked next harmless stream v e ms e') :
    Marked next harmless stream v e (ms ++ [none]) (e' + 1) :=
  h.trans (.marker .nil)

/-- The items up to position `e'` are skipped. -/
lemma skipAll_of_view (hle : e ≤ e') (hlt : e' ≤ stream.length)
    (hharm : ∀ a ∈ (stream.take e').drop e, harmless v a) :
    Marked next harmless stream v e [] e' := by
  obtain ⟨count, rfl⟩ := Nat.exists_eq_add_of_le hle
  clear hle
  induction count generalizing e with
  | zero => exact .nil
  | succ count ih =>
    have hin : e < stream.length := by omega
    have hindex : e + (count + 1) = e + 1 + count := by omega
    have hcons : (stream.take (e + (count + 1))).drop e =
        stream[e] :: (stream.take (e + (count + 1))).drop (e + 1) := by
      rw [List.drop_eq_getElem_cons (by simp; omega), List.getElem_take]
    rw [hcons] at hharm
    refine .skip (List.getElem?_eq_getElem hin) (hharm _ List.mem_cons_self) ?_
    rw [hindex] at hlt hharm ⊢
    exact ih hlt fun a ha => hharm a (List.mem_cons_of_mem _ ha)

/-- Items that are not missed after all these messages are skipped. -/
theorem skipAll (h : Marked next harmless stream v e ms e') (hle : e' ≤ e'')
    (hlt : e'' ≤ stream.length)
    (hharm : ∀ a ∈ (stream.take e'').drop e', harmless (ms.foldl next v) a) :
    Marked next harmless stream v e ms e'' := by
  have hskip := h.trans (skipAll_of_view hle hlt hharm)
  rwa [List.append_nil] at hskip

/-- What is in a stream stays there when the stream grows. -/
lemma getElem?_of_isPrefix (hpre : stream <+: stream') {i : ℕ} {a : α} (ha : stream[i]? = some a) :
    stream'[i]? = some a := by
  obtain ⟨rest, rfl⟩ := hpre
  rw [List.getElem?_append_left (List.getElem?_eq_some_iff.mp ha).1, ha]

/-- The stream may grow. -/
theorem mono (h : Marked next harmless stream v e ms e') (hpre : stream <+: stream') :
    Marked next harmless stream' v e ms e' := by
  induction h with
  | nil => exact .nil
  | skip ha hharm _ ih => exact .skip (getElem?_of_isPrefix hpre ha) hharm ih
  | item ha _ ih => exact .item (getElem?_of_isPrefix hpre ha) ih
  | marker _ ih => exact .marker ih

/-- **The rule for the next message.** What holds of the view and the position of the receiver, and
is kept when an item that is not missed is skipped, holds when the next message comes: it is the
item at that position, or a marker. -/
theorem receive {P : ℕ → Prop} {m : Option α} (h : Marked next harmless stream v e (m :: ms) e')
    (hP : P e) (hskip : ∀ i a, P i → stream[i]? = some a → harmless v a → P (i + 1)) :
    ∃ i, P i ∧ (∀ a ∈ m, stream[i]? = some a) ∧
      Marked next harmless stream (next v m) (i + 1) ms e' := by
  generalize hms : m :: ms = all at h
  induction h with
  | nil => cases hms
  | skip ha hharm _ ih => exact ih (hskip _ _ hP ha hharm) hskip hms
  | @item v e e' a ms' ha h =>
    obtain ⟨rfl, rfl⟩ := List.cons.inj hms
    refine ⟨e, hP, fun a' ha' => ?_, h⟩
    obtain rfl : a = a' := Option.some.inj ha'
    exact ha
  | @marker v e e' ms' h =>
    obtain ⟨rfl, rfl⟩ := List.cons.inj hms
    exact ⟨e, hP, by simp, h⟩

/-- **The rule for the end.** With no message left, the receiver is at the far end once the items
that are not missed are skipped. -/
theorem caughtUp {P : ℕ → Prop} (h : Marked next harmless stream v e [] e') (hP : P e)
    (hskip : ∀ i a, P i → stream[i]? = some a → harmless v a → P (i + 1)) : P e' := by
  generalize hms : ([] : List (Option α)) = all at h
  induction h with
  | nil => exact hP
  | skip ha hharm _ ih => exact ih (hskip _ _ hP ha hharm) hskip hms
  | item | marker => cases hms

end Marked
