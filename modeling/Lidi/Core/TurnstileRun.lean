import Lidi.Core.LTS
import Lidi.Core.Turnstile

set_option relaxedAutoImplicit false
set_option autoImplicit false

/-!
# One thread at work

The pool at rest: no thread has anything in hand. From there one thread alone can take an item
and pass it on, if the item is a marker or shows the turn. If it shows another number, the thread
falls asleep, and nobody is there to wake it.

## Main definitions

* `Turnstile.Gate.Resting` — all threads wait for an item and there is none.

## Main results

* `Turnstile.Gate.Resting.pass`, `Turnstile.Gate.Resting.marker` — the runs back to rest.
* `Turnstile.Gate.Resting.strand` — the run to a standstill.
-/

namespace Turnstile

open Function

variable {n : ℕ} {α β : Type*} {p : Params α β} {s : Gate n α β} {a : α}

/-- All threads wait for an item, the mutex is free and there is no item. -/
structure Gate.Resting (s : Gate n α β) : Prop where
  workers : s.workers = fun _ => .idle
  locked : s.locked = false
  input : s.input = []

/-- At the start every worker rests. -/
lemma Gate.Resting.init (turn : UInt8) : (Gate.init n α β turn).Resting :=
  ⟨rfl, rfl, rfl⟩

/-- A thread back from `notify_all` in a pool of idle threads. -/
private lemma update_idle (w : Fin n) (f : Fin n → Phase β) (hf : ∀ w', w' ≠ w → f w' = .idle) :
    update (fun w' => (f w').wake) w .idle = fun _ => .idle := by
  funext w'
  rcases eq_or_ne w' w with rfl | hne
  · simp
  · simp [hne, hf w' hne, Phase.wake]

/-- A numbered item in its turn is passed on. -/
lemma Gate.Resting.pass (h : s.Resting) {x : β} (ha : p.classify a = .pass s.turn x)
    (hroom : HasRoom p.capacity s.output) (w : Fin n) :
    ∃ s', LTS.run (step p) (s.push a) [w, w, w, w] = some s' ∧ s'.Resting ∧
      s'.turn = s.turn + 1 := by
  have hwork := h.workers
  refine ⟨{ s with
    workers := fun _ => .idle
    turn := s.turn + 1
    output := s.output ++ [some x]
    taken := s.taken ++ [a]
    sent := s.sent ++ [.pass s.turn x] }, ?_, ⟨rfl, h.locked, h.input⟩, rfl⟩
  have hidle := update_idle w (update (fun _ => (.idle : Phase β)) w .notify)
    (fun w' hne => by simp [hne])
  simp [LTS.run, step, Gate.push, h.input, hwork, ha, Phase.ofItem, h.locked, hroom]
  simpa using hidle

/-- A marker is passed on. -/
lemma Gate.Resting.marker (h : s.Resting) (ha : p.classify a = .marker)
    (hstops : p.stops = false) (hroom : HasRoom p.capacity s.output) (w : Fin n) :
    ∃ s', LTS.run (step p) (s.push a) [w, w] = some s' ∧ s'.Resting ∧ s'.turn = s.turn := by
  have hwork := h.workers
  refine ⟨{ s with
    workers := fun _ => .idle
    output := s.output ++ [none]
    taken := s.taken ++ [a]
    sent := s.sent ++ [.marker] }, ?_, ⟨rfl, h.locked, h.input⟩, rfl⟩
  simp [LTS.run, step, Gate.push, h.input, hwork, ha, Phase.ofItem, hroom, hstops]

/-- A numbered item out of its turn puts the thread to sleep, and then no thread can move. -/
lemma Gate.Resting.strand (h : s.Resting) {id : UInt8} {x : β} (ha : p.classify a = .pass id x)
    (hturn : s.turn ≠ id) (w : Fin n) :
    ∃ s', LTS.run (step p) (s.push a) [w, w] = some s' ∧ s'.held ≠ [] ∧
      ∀ w', step p s' w' = none := by
  have hwork := h.workers
  refine ⟨{ s with
    workers := update (fun _ => .idle) w (.asleep id x)
    taken := s.taken ++ [a] }, ?_, ?_, fun w' => ?_⟩
  · simp [LTS.run, step, Gate.push, h.input, hwork, ha, Phase.ofItem, h.locked, hturn]
  · have hmem : Item.pass id x ∈ itemsOf (update (fun _ => (.idle : Phase β)) w (.asleep id x)) :=
      mem_itemsOf.mpr ⟨w, by simp [Phase.item]⟩
    exact List.ne_nil_of_mem hmem
  · rcases eq_or_ne w' w with rfl | hne
    · simp [step]
    · simp [step, hne, h.input]

/-- Threads that do not stop are never done. -/
lemma ne_done_of_step {s' : Gate n α β} {w : Fin n} (hstops : p.stops = false)
    (h : ∀ w, s.workers w ≠ .done) (hs : step p s w = some s') (w' : Fin n) :
    s'.workers w' ≠ .done := by
  have hupd : ∀ ph : Phase β, ph ≠ .done → update s.workers w ph w' ≠ .done := by
    intro ph hph
    rcases eq_or_ne w' w with rfl | hne
    · simpa using hph
    · simpa [hne] using h w'
  cases step_iff.mp hs with
  | @receive a rest hw hin => exact hupd _ (by cases p.classify a <;> simp [Phase.ofItem])
  | bypass hw hroom => exact hupd _ (by simp [hstops])
  | enter hw hfree hturn => exact hupd _ (by simp)
  | sleep hw hfree hturn => exact hupd _ (by simp)
  | send hw hroom => exact hupd _ (by simp)
  | notify hw =>
    rcases eq_or_ne w' w with rfl | hne
    · simp
    · have hph := h w'
      cases hwake : s.workers w' <;> simp_all [Phase.wake]

end Turnstile
