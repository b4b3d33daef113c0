import Lidi.Core.Linked
import Lidi.Core.Pool

set_option relaxedAutoImplicit false
set_option autoImplicit false

/-!
# A turnstile: numbered items passing one at a time through a pool of threads

A pool of `n` identical threads takes items from a first-in first-out input channel, works on
them in parallel and passes the results on to an output channel. An item that carries a number
goes through a *turn*: a wrapping 8-bit counter protected by a mutex and a condition variable.
A thread sends its result while the counter shows its number, then increments the counter and
wakes the others. An item without a number (a *marker*) is sent without looking at the turn.

The threads run as they would with a mutex `m`, a condition variable `c` and a counter `turn`:
```text
loop {
    match classify(input.recv()) {
        marker      => { output.send(none); if stops { return } }
        pass(id, x) => {
            lock m; while turn != id { wait c }
            output.send(some(x)); turn += 1; unlock m; notify_all c
        }
    }
}
```
Waiting releases the mutex and a woken thread takes it again before it looks at the counter.
Between the two `lock` and `unlock` no other thread sees the counter, so the send, the increment
and the release are one step. Spurious wake-ups are left out: they would only add steps.

## Main definitions

* `Turnstile.Item`, `Turnstile.Phase`, `Turnstile.Gate` — items, what a thread is doing, and the
  state shared by the threads. The fields `taken` and `sent` of `Turnstile.Gate` are histories:
  no step reads them.
* `Turnstile.step` — the next step of one thread, if it is not blocked.
* `Turnstile.Inv` — the mutex discipline, and that nothing is lost or duplicated.
* `Turnstile.Awake` — no thread sleeps through its own turn.

## Main results

* `Turnstile.step_iff` — the step function as a relation with one case per kind of step.
* `Turnstile.Inv.step` — every step keeps the discipline.
-/

namespace Turnstile

open Function

variable {n : ℕ} {α β : Type*}

/-! ## The threads -/

/-- An item as a thread sees it once it is taken: numbered, with what is to be sent, or a
marker. -/
inductive Item (β : Type*)
  | pass (id : UInt8) (x : β)
  | marker

namespace Item

/-- The message an item is turned into. -/
def msg : Item β → Option β
  | pass _ x => some x
  | marker => none

/-- The number of an item. -/
def id? : Item β → Option UInt8
  | pass id _ => some id
  | marker => none

/-- Does the item go through the turn? -/
def isPass : Item β → Bool
  | pass _ _ => true
  | marker => false

/-- A pass carries its message. -/
@[simp] lemma msg_pass (id : UInt8) (x : β) : (pass id x).msg = some x := rfl

/-- A marker carries none. -/
@[simp] lemma msg_marker : (marker : Item β).msg = none := rfl

/-- A pass has a number. -/
@[simp] lemma id?_pass (id : UInt8) (x : β) : (pass id x).id? = some id := rfl

/-- A marker has none. -/
@[simp] lemma id?_marker : (marker : Item β).id? = none := rfl

/-- A pass is one. -/
@[simp] lemma isPass_pass (id : UInt8) (x : β) : (pass id x).isPass = true := rfl

/-- A marker is not a pass. -/
@[simp] lemma isPass_marker : (marker : Item β).isPass = false := rfl

end Item

/-- What a thread is doing: waiting for an item, about to send a marker, about to take the mutex,
asleep on the condition variable, holding the mutex in its turn, about to wake the others, or
done for good. -/
inductive Phase (β : Type*)
  | idle
  | bypass
  | lock (id : UInt8) (x : β)
  | asleep (id : UInt8) (x : β)
  | enter (id : UInt8) (x : β)
  | notify
  | done

namespace Phase

/-- The phase of a thread that has just taken an item. -/
def ofItem : Item β → Phase β
  | .pass id x => lock id x
  | .marker => bypass

/-- The item that a thread has taken and not yet sent. -/
def item : Phase β → Option (Item β)
  | bypass => some .marker
  | lock id x | asleep id x | enter id x => some (.pass id x)
  | idle | notify | done => none

/-- The effect of `notify_all` on a thread. -/
def wake : Phase β → Phase β
  | asleep id x => lock id x
  | ph => ph

/-- A worker that has just classified an item holds it. -/
@[simp] lemma item_ofItem (it : Item β) : (ofItem it).item = some it := by
  cases it <;> rfl

/-- Waking does not change what is held. -/
@[simp] lemma item_wake (ph : Phase β) : ph.wake.item = ph.item := by
  cases ph <;> rfl

/-- Waking sends nobody to the turnstile who was not there. -/
@[simp] lemma wake_eq_enter {ph : Phase β} {id : UInt8} {x : β} :
    ph.wake = enter id x ↔ ph = enter id x := by
  cases ph <;> simp [wake]

/-- Nobody sleeps after waking. -/
@[simp] lemma wake_ne_asleep {ph : Phase β} {id : UInt8} {x : β} : ph.wake ≠ asleep id x := by
  cases ph <;> simp [wake]

/-- A worker does not start at the turnstile: it locks first. -/
@[simp] lemma ofItem_ne_enter {it : Item β} {id : UInt8} {x : β} : ofItem it ≠ enter id x := by
  cases it <;> simp [ofItem]

/-- A worker does not start asleep. -/
@[simp] lemma ofItem_ne_asleep {it : Item β} {id : UInt8} {x : β} : ofItem it ≠ asleep id x := by
  cases it <;> simp [ofItem]

end Phase

/-- How a pool treats its items: what an input is, how many messages the output channel can hold
(`none`: any number), and whether a thread returns after sending a marker. -/
structure Params (α β : Type*) where
  classify : α → Item β
  capacity : Option ℕ
  stops : Bool

/-- A channel with the given contents and capacity accepts one more message. -/
def HasRoom {γ : Type*} (capacity : Option ℕ) (contents : List γ) : Prop :=
  ∀ c ∈ capacity, contents.length < c

/-- Whether a channel has room can be decided. -/
instance {γ : Type*} (capacity : Option ℕ) (contents : List γ) :
    Decidable (HasRoom capacity contents) :=
  inferInstanceAs (Decidable (∀ c ∈ capacity, contents.length < c))

/-- The state of the pool and of its two channels. `taken` lists the inputs received so far and
`sent` the items whose message was put on the output channel by a thread. -/
structure Gate (n : ℕ) (α β : Type*) where
  input : List α
  workers : Fin n → Phase β
  turn : UInt8
  locked : Bool
  output : List (Option β)
  taken : List α
  sent : List (Item β)

/-- The initial state: empty channels, all threads waiting for an item. -/
def Gate.init (n : ℕ) (α β : Type*) (turn : UInt8) : Gate n α β where
  input := []
  workers := fun _ => .idle
  turn := turn
  locked := false
  output := []
  taken := []
  sent := []

/-- The items in hand. -/
def Gate.held (s : Gate n α β) : List (Item β) :=
  Pool.holding fun w => (s.workers w).item

/-- The next step of thread `w`; `none` if it is blocked or has returned. -/
def step (p : Params α β) (s : Gate n α β) (w : Fin n) : Option (Gate n α β) :=
  match s.workers w with
  | .idle =>
    match s.input with
    | [] => none
    | a :: rest =>
      some { s with
        input := rest
        taken := s.taken ++ [a]
        workers := update s.workers w (Phase.ofItem (p.classify a)) }
  | .bypass =>
    if HasRoom p.capacity s.output then
      some { s with
        output := s.output ++ [none]
        sent := s.sent ++ [.marker]
        workers := update s.workers w (if p.stops then .done else .idle) }
    else none
  | .lock id x =>
    if s.locked then none
    else if s.turn = id then
      some { s with locked := true, workers := update s.workers w (.enter id x) }
    else
      some { s with workers := update s.workers w (.asleep id x) }
  | .asleep _ _ => none
  | .enter id x =>
    if HasRoom p.capacity s.output then
      some { s with
        output := s.output ++ [some x]
        sent := s.sent ++ [.pass id x]
        turn := s.turn + 1
        locked := false
        workers := update s.workers w .notify }
    else none
  | .notify =>
    some { s with workers := update (fun w' => (s.workers w').wake) w .idle }
  | .done => none

/-- The kinds of steps of thread `w`. -/
inductive Trans (p : Params α β) (s : Gate n α β) (w : Fin n) : Gate n α β → Prop
  | receive {a : α} {rest : List α} (hw : s.workers w = .idle) (hin : s.input = a :: rest) :
      Trans p s w { s with
        input := rest
        taken := s.taken ++ [a]
        workers := update s.workers w (Phase.ofItem (p.classify a)) }
  | bypass (hw : s.workers w = .bypass) (hroom : HasRoom p.capacity s.output) :
      Trans p s w { s with
        output := s.output ++ [none]
        sent := s.sent ++ [.marker]
        workers := update s.workers w (if p.stops then .done else .idle) }
  | enter {id : UInt8} {x : β} (hw : s.workers w = .lock id x) (hfree : s.locked = false)
      (hturn : s.turn = id) :
      Trans p s w { s with locked := true, workers := update s.workers w (.enter id x) }
  | sleep {id : UInt8} {x : β} (hw : s.workers w = .lock id x) (hfree : s.locked = false)
      (hturn : s.turn ≠ id) :
      Trans p s w { s with workers := update s.workers w (.asleep id x) }
  | send {id : UInt8} {x : β} (hw : s.workers w = .enter id x)
      (hroom : HasRoom p.capacity s.output) :
      Trans p s w { s with
        output := s.output ++ [some x]
        sent := s.sent ++ [.pass id x]
        turn := s.turn + 1
        locked := false
        workers := update s.workers w .notify }
  | notify (hw : s.workers w = .notify) :
      Trans p s w { s with workers := update (fun w' => (s.workers w').wake) w .idle }

/-- The step function does exactly the steps of the relation. -/
theorem step_iff {p : Params α β} {s s' : Gate n α β} {w : Fin n} :
    step p s w = some s' ↔ Trans p s w s' := by
  constructor
  · intro h
    unfold step at h
    cases hw : s.workers w with
    | idle =>
      cases hin : s.input with
      | nil => simp [hw, hin] at h
      | cons a rest =>
        simp only [hw, hin, Option.some.injEq] at h
        exact h ▸ .receive hw hin
    | bypass =>
      by_cases hroom : HasRoom p.capacity s.output
      · simp only [hw, hroom, if_true, Option.some.injEq] at h
        exact h ▸ .bypass hw hroom
      · simp [hw, hroom] at h
    | lock id x =>
      cases hl : s.locked with
      | true => simp [hw, hl] at h
      | false =>
        by_cases hturn : s.turn = id
        · simp only [hw, hl, hturn, if_true, Bool.false_eq_true, if_false,
            Option.some.injEq] at h
          have ht := Trans.enter (p := p) hw hl hturn
          rw [← hturn] at h ht
          exact h ▸ ht
        · simp only [hw, hl, hturn, Bool.false_eq_true, if_false, Option.some.injEq] at h
          have ht := Trans.sleep (p := p) hw hl hturn
          rw [hl] at ht
          exact h ▸ ht
    | asleep id x => simp [hw] at h
    | enter id x =>
      by_cases hroom : HasRoom p.capacity s.output
      · simp only [hw, hroom, if_true, Option.some.injEq] at h
        exact h ▸ .send hw hroom
      · simp [hw, hroom] at h
    | notify =>
      simp only [hw, Option.some.injEq] at h
      exact h ▸ .notify hw
    | done => simp [hw] at h
  · intro h
    unfold step
    cases h with
    | receive hw hin => simp [hw, hin]
    | bypass hw hroom => simp [hw, hroom]
    | enter hw hfree hturn => simp [hw, hfree, hturn]
    | sleep hw hfree hturn => simp [hw, hfree, hturn]
    | send hw hroom => simp [hw, hroom]
    | notify hw => simp [hw]

/-- What a step does to the two channels. -/
lemma channels_step {p : Params α β} {s s' : Gate n α β} {w : Fin n} (hs : step p s w = some s') :
    s'.taken ++ s'.input = s.taken ++ s.input ∧
      ∃ items, s'.sent = s.sent ++ items ∧ s'.output = s.output ++ items.map Item.msg ∧
        (s.workers w ≠ .bypass → none ∉ items.map Item.msg) := by
  cases step_iff.mp hs with
  | receive hw hin => exact ⟨by simp [hin], [], by simp, by simp, by simp⟩
  | bypass hw hroom => exact ⟨rfl, [.marker], rfl, rfl, fun hne => absurd hw hne⟩
  | enter hw hfree hturn => exact ⟨rfl, [], by simp, by simp, by simp⟩
  | sleep hw hfree hturn => exact ⟨rfl, [], by simp, by simp, by simp⟩
  | @send id x hw hroom => exact ⟨rfl, [.pass id x], rfl, rfl, by simp⟩
  | notify hw => exact ⟨rfl, [], by simp, by simp, by simp⟩

/-! ## What the surroundings of the pool do -/

/-- Someone puts an input on the input channel. -/
def Gate.push (s : Gate n α β) (a : α) : Gate n α β :=
  { s with input := s.input ++ [a] }

/-- Someone else puts a message on the output channel. -/
def Gate.emit (s : Gate n α β) (m : Option β) : Gate n α β :=
  { s with output := s.output ++ [m] }

/-- Someone receives from the output channel and leaves `rest`. -/
def Gate.pop (s : Gate n α β) (rest : List (Option β)) : Gate n α β :=
  { s with output := rest }

/-- Someone takes the mutex, sets the counter and releases the mutex. -/
def Gate.setTurn (s : Gate n α β) (id : UInt8) : Gate n α β :=
  { s with turn := id }

/-- Someone calls `notify_all`. -/
def Gate.wakeAll (s : Gate n α β) : Gate n α β :=
  { s with workers := fun w => (s.workers w).wake }

/-! ## The mutex and the account of the items -/

/-- The items held by the threads `f`. -/
def itemsOf (f : Fin n → Phase β) : List (Item β) :=
  Pool.holding fun w => (f w).item

/-- What is held, as the items of the workers. -/
lemma held_def (s : Gate n α β) : s.held = itemsOf s.workers := rfl

/-- An item is held if a worker has it. -/
lemma mem_itemsOf {f : Fin n → Phase β} {it : Item β} :
    it ∈ itemsOf f ↔ ∃ w, (f w).item = some it := by
  simp [itemsOf]

/-- A worker holds at most one item. -/
lemma length_held_le (s : Gate n α β) : s.held.length ≤ n :=
  Pool.length_holding_le _

/-- Exchange of one item when thread `w` changes its phase. -/
lemma itemsOf_update (f : Fin n → Phase β) (w : Fin n) (ph : Phase β) :
    ((f w).item.toList ++ itemsOf (update f w ph)).Perm (ph.item.toList ++ itemsOf f) := by
  have hcomm : (fun w' => (update f w ph w').item) = update (fun w' => (f w').item) w ph.item := by
    funext w'
    exact apply_update (fun _ ph => Phase.item ph) f w ph w'
  unfold itemsOf
  rw [hcomm]
  exact Pool.holding_update (fun w' => (f w').item) w ph.item

/-- A step of a worker that keeps its item. -/
lemma itemsOf_update_same {f : Fin n → Phase β} {w : Fin n} {ph : Phase β}
    (h : ph.item = (f w).item) : (itemsOf (update f w ph)).Perm (itemsOf f) := by
  have hu := itemsOf_update f w ph
  rw [h] at hu
  exact (List.perm_append_left_iff _).mp hu

/-- A step of a worker that takes an item. -/
lemma itemsOf_update_gain {f : Fin n → Phase β} {w : Fin n} {ph : Phase β} {it : Item β}
    (hold : (f w).item = none) (hnew : ph.item = some it) :
    (itemsOf (update f w ph)).Perm (it :: itemsOf f) := by
  simpa [hold, hnew] using itemsOf_update f w ph

/-- A step of a worker that gives up its item. -/
lemma itemsOf_update_lose {f : Fin n → Phase β} {w : Fin n} {ph : Phase β} {it : Item β}
    (hold : (f w).item = some it) (hnew : ph.item = none) :
    (it :: itemsOf (update f w ph)).Perm (itemsOf f) := by
  simpa [hold, hnew] using itemsOf_update f w ph

/-- The notification that ends a turn changes no item. -/
lemma itemsOf_wake {f : Fin n → Phase β} {w : Fin n} (hw : f w = .notify) :
    itemsOf (update (fun w' => (f w').wake) w .idle) = itemsOf f := by
  unfold itemsOf
  congr 1
  funext w'
  rcases eq_or_ne w' w with rfl | hne
  · simp [hw, Phase.item]
  · simp [hne]

/-- The mutex discipline: the threads that have found their turn hold the mutex, and there is
at most one of them. -/
structure Mutex (s : Gate n α β) : Prop where
  enter_turn : ∀ w id x, s.workers w = .enter id x → s.locked = true ∧ s.turn = id
  holder : s.locked = true → ∃ w id x, s.workers w = .enter id x
  unique : ∀ w w' id id' x x', s.workers w = .enter id x → s.workers w' = .enter id' x' → w = w'

/-- No thread is in its turn while the mutex is free. -/
lemma Mutex.not_enter {s : Gate n α β} (h : Mutex s) (hfree : s.locked = false)
    {w : Fin n} {id : UInt8} {x : β} : s.workers w ≠ .enter id x := by
  intro hw
  have hl := (h.enter_turn w id x hw).1
  simp [hfree] at hl

/-- The discipline depends only on which threads are in their turn. -/
lemma Mutex.congr {s s' : Gate n α β} (h : Mutex s)
    (hiff : ∀ w id x, s'.workers w = .enter id x ↔ s.workers w = .enter id x)
    (hl : s'.locked = s.locked) (ht : s'.turn = s.turn) : Mutex s' where
  enter_turn w id x hw := by
    rw [hl, ht]
    exact h.enter_turn w id x ((hiff w id x).mp hw)
  holder hlock := by
    obtain ⟨w, id, x, hw⟩ := h.holder (hl ▸ hlock)
    exact ⟨w, id, x, (hiff w id x).mpr hw⟩
  unique w w' id id' x x' hw hw' :=
    h.unique w w' id id' x x' ((hiff _ _ _).mp hw) ((hiff _ _ _).mp hw')

/-- A change between two phases outside the turn. -/
lemma update_eq_enter_iff {f : Fin n → Phase β} {w : Fin n} {ph : Phase β}
    (hold : ∀ id x, f w ≠ .enter id x) (hnew : ∀ id x, ph ≠ .enter id x)
    (w' : Fin n) (id : UInt8) (x : β) :
    update f w ph w' = .enter id x ↔ f w' = .enter id x := by
  rcases eq_or_ne w' w with rfl | hne
  · simp [hold, hnew]
  · simp [hne]

/-- **Every step keeps the mutex discipline.** -/
theorem Mutex.step {p : Params α β} {s s' : Gate n α β} {w : Fin n} (h : Mutex s)
    (hs : step p s w = some s') : Mutex s' := by
  cases step_iff.mp hs with
  | receive hw hin =>
    exact h.congr (update_eq_enter_iff (by simp [hw]) (by simp)) rfl rfl
  | bypass hw hroom =>
    exact h.congr (update_eq_enter_iff (by simp [hw]) (by split <;> simp)) rfl rfl
  | @enter id x hw hfree hturn =>
    -- the mutex was free, so no other thread was in its turn
    have hnone : ∀ w' id' x', s.workers w' ≠ .enter id' x' := fun _ _ _ => h.not_enter hfree
    have honly : ∀ {w' id' x'}, update s.workers w (.enter id x) w' = .enter id' x' →
        w' = w ∧ id = id' := by
      intro w' id' x' hw'
      rcases eq_or_ne w' w with rfl | hne
      · simp only [update_self, Phase.enter.injEq] at hw'
        exact ⟨rfl, hw'.1⟩
      · rw [update_of_ne hne] at hw'
        exact absurd hw' (hnone w' id' x')
    refine ⟨?_, ?_, ?_⟩
    · intro w' id' x' hw'
      exact ⟨rfl, (honly hw').2 ▸ hturn⟩
    · intro _
      exact ⟨w, id, x, by simp⟩
    · intro w₁ w₂ id₁ id₂ x₁ x₂ h₁ h₂
      rw [(honly h₁).1, (honly h₂).1]
  | sleep hw hfree hturn =>
    exact h.congr (update_eq_enter_iff (by simp [hw]) (by simp)) rfl rfl
  | @send id x hw hroom =>
    have hnone : ∀ w' id' x', update s.workers w .notify w' ≠ .enter id' x' := by
      intro w' id' x' hw'
      rcases eq_or_ne w' w with rfl | hne
      · simp at hw'
      · rw [update_of_ne hne] at hw'
        exact hne (h.unique _ _ _ _ _ _ hw' hw)
    refine ⟨?_, by simp, ?_⟩
    · intro w' id' x' hw'
      exact absurd hw' (hnone w' id' x')
    · intro w₁ w₂ id₁ id₂ x₁ x₂ h₁ h₂
      exact absurd h₁ (hnone _ _ _)
  | notify hw =>
    refine h.congr (fun w' id x => ?_) rfl rfl
    rw [update_eq_enter_iff (by simp [hw]) (by simp)]
    simp

/-- Nothing is lost or duplicated: what was taken is in hand or sent. -/
def Account (p : Params α β) (s : Gate n α β) : Prop :=
  (s.held ++ s.sent).Perm (s.taken.map p.classify)

/-- An item that leaves the hands of a thread goes to the end of the sent ones. -/
private lemma account_send {held held' sent taken : List (Item β)} {it : Item β}
    (hacc : (held ++ sent).Perm taken) (hlose : (it :: held').Perm held) :
    (held' ++ (sent ++ [it])).Perm taken := by
  have hmid : (held' ++ (sent ++ [it])).Perm (it :: (held' ++ sent)) := by
    rw [← List.append_assoc]
    exact List.perm_append_singleton _ _
  exact hmid.trans ((hlose.append_right sent).trans hacc)

/-- **Every step keeps the account.** -/
theorem Account.step {p : Params α β} {s s' : Gate n α β} {w : Fin n} (h : Account p s)
    (hs : step p s w = some s') : Account p s' := by
  unfold Account at h ⊢
  cases step_iff.mp hs with
  | @receive a rest hw hin =>
    have hnone : (s.workers w).item = none := by
      rw [hw]
      rfl
    have hgain := itemsOf_update_gain hnone (Phase.item_ofItem (p.classify a))
    have hcons := (hgain.append_right s.sent).trans (h.cons (p.classify a))
    simp only [List.map_append, List.map_cons, List.map_nil]
    exact hcons.trans (List.perm_append_singleton _ _).symm
  | bypass hw hroom =>
    exact account_send h (itemsOf_update_lose (by rw [hw]; rfl) (by split <;> rfl))
  | enter hw hfree hturn =>
    exact ((itemsOf_update_same (by rw [hw]; rfl)).append_right _).trans h
  | sleep hw hfree hturn =>
    exact ((itemsOf_update_same (by rw [hw]; rfl)).append_right _).trans h
  | send hw hroom =>
    exact account_send h (itemsOf_update_lose (by rw [hw]; rfl) rfl)
  | notify hw =>
    simpa only [held_def, itemsOf_wake hw] using h

/-- No thread sleeps through its own turn: if one sleeps while the counter shows its number,
another one is about to wake it. -/
def Awake (s : Gate n α β) : Prop :=
  ∀ w id x, s.workers w = .asleep id x → s.turn = id → ∃ w', s.workers w' = .notify

/-- A thread in the phase `notify` stays there when another thread changes its phase. -/
private lemma exists_notify_update {f : Fin n → Phase β} {w : Fin n} {ph : Phase β}
    (hw : f w ≠ .notify) (h : ∃ w', f w' = .notify) : ∃ w', update f w ph w' = .notify := by
  obtain ⟨w', hw'⟩ := h
  have hne : w' ≠ w := by
    rintro rfl
    exact hw hw'
  exact ⟨w', by simpa [hne] using hw'⟩

/-- **No wake-up is lost.** A thread goes to sleep only while the counter does not show its
number, and whoever changes the counter is in the phase `notify` until all sleepers are woken. -/
theorem Awake.step {p : Params α β} {s s' : Gate n α β} {w : Fin n} (h : Awake s)
    (hs : step p s w = some s') : Awake s' := by
  -- a step that neither touches the counter nor puts a thread to sleep
  have hkeep : ∀ ph : Phase β, s.workers w ≠ .notify → (∀ id x, ph ≠ .asleep id x) →
      ∀ w' id x, update s.workers w ph w' = .asleep id x → s.turn = id →
        ∃ w'', update s.workers w ph w'' = .notify := by
    intro ph hw hph w' id x hw' ht
    rcases eq_or_ne w' w with rfl | hne
    · simp [hph] at hw'
    · rw [update_of_ne hne] at hw'
      exact exists_notify_update hw (h w' id x hw' ht)
  cases step_iff.mp hs with
  | receive hw hin => exact hkeep _ (by simp [hw]) (by simp)
  | bypass hw hroom => exact hkeep _ (by simp [hw]) (by split <;> simp)
  | enter hw hfree hturn => exact hkeep _ (by simp [hw]) (by simp)
  | @sleep id x hw hfree hturn =>
    intro w' id' x' hw' ht
    rcases eq_or_ne w' w with rfl | hne
    · simp only [update_self, Phase.asleep.injEq] at hw'
      exact absurd (hw'.1 ▸ ht) hturn
    · simp only [ne_eq, hne, not_false_eq_true, update_of_ne] at hw'
      exact exists_notify_update (by simp [hw]) (h w' id' x' hw' ht)
  | send hw hroom => exact fun _ _ _ _ _ => ⟨w, by simp⟩
  | notify hw =>
    intro w' id x hw'
    rcases eq_or_ne w' w with rfl | hne
    · simp at hw'
    · simp [hne] at hw'

/-- The invariant of the pool that needs no assumption on the items. -/
structure Inv (p : Params α β) (s : Gate n α β) : Prop where
  mutex : Mutex s
  account : Account p s

/-- The invariant holds at the start. -/
lemma Inv.init (p : Params α β) (turn : UInt8) : Inv p (Gate.init n α β turn) where
  mutex := ⟨by simp [Gate.init], by simp [Gate.init], by simp [Gate.init]⟩
  account := by simp [Account, Gate.init, Gate.held, Pool.holding, Phase.item]

/-- **Every step of a worker keeps the invariant.** -/
theorem Inv.step {p : Params α β} {s s' : Gate n α β} {w : Fin n} (h : Inv p s)
    (hs : step p s w = some s') : Inv p s' :=
  ⟨h.mutex.step hs, h.account.step hs⟩

section Surroundings

variable {p : Params α β} {s : Gate n α β}

/-- New work keeps the invariant. -/
lemma Inv.push (h : Inv p s) (a : α) : Inv p (s.push a) :=
  ⟨⟨h.mutex.1, h.mutex.2, h.mutex.3⟩, h.account⟩

/-- So does a message that somebody else sends. -/
lemma Inv.emit (h : Inv p s) (m : Option β) : Inv p (s.emit m) :=
  ⟨⟨h.mutex.1, h.mutex.2, h.mutex.3⟩, h.account⟩

/-- So does a message that is taken from the output. -/
lemma Inv.pop (h : Inv p s) (rest : List (Option β)) : Inv p (s.pop rest) :=
  ⟨⟨h.mutex.1, h.mutex.2, h.mutex.3⟩, h.account⟩

/-- The counter may be set by whoever gets the mutex. -/
lemma Inv.setTurn (h : Inv p s) (hfree : s.locked = false) (id : UInt8) :
    Inv p (s.setTurn id) :=
  ⟨⟨fun _ _ _ hw => absurd hw (h.mutex.not_enter hfree), h.mutex.2, h.mutex.3⟩, h.account⟩

/-- So does a notification from outside. -/
lemma Inv.wakeAll (h : Inv p s) : Inv p s.wakeAll := by
  refine ⟨h.mutex.congr (fun w id x => by simp [Gate.wakeAll]) rfl rfl, ?_⟩
  have hacc := h.account
  simpa [Account, Gate.held, Gate.wakeAll] using hacc

/-- Setting the counter wakes nobody, so there must be no sleeper, or the counter keeps its
value. -/
lemma Awake.setTurn (h : Awake s) {id : UInt8}
    (hq : (∀ w id' x, s.workers w ≠ .asleep id' x) ∨ id = s.turn) : Awake (s.setTurn id) := by
  rcases hq with hnone | rfl
  · exact fun w id' x hw => absurd hw (hnone w id' x)
  · exact h

/-- After a notification nobody sleeps, so nobody sleeps in vain. -/
lemma Awake.wakeAll (s : Gate n α β) : Awake s.wakeAll := by
  intro w id x hw
  simp [Gate.wakeAll] at hw

end Surroundings

end Turnstile
