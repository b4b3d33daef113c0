import Lidi.Core.Turnstile

set_option relaxedAutoImplicit false
set_option autoImplicit false

/-!
# Order and progress at a turnstile

Two order properties of the pool of `Lidi.Core.Turnstile`. In both, the numbers of the pending
items form a chain that starts at the turn, and fewer than 256 items are in hand, so that no two
of them have the same 8-bit number.

* `Turnstile.InOrder` looks at the numbered items only. It needs nothing of the markers.
* `Turnstile.Ordered` looks at all messages. It needs that a marker and a numbered item are never
  in hand at the same time, and allows that the turn lags behind the numbers.

## Main results

* `Turnstile.InOrder.step` — numbered items leave in the order in which they came.
* `Turnstile.progress` — as long as something is pending, some thread can move.
* `Turnstile.Ordered.step` — all messages leave in the order in which the items came.
-/

namespace Turnstile

open Function

variable {n : ℕ} {α β : Type*} {p : Params α β} {s s' : Gate n α β} {w : Fin n} {next : UInt8}

/-! ## The numbered items -/

/-- The numbered items of a list. -/
def passes (l : List (Item β)) : List (Item β) :=
  l.filter Item.isPass

/-- There are no passes among no items. -/
@[simp] lemma passes_nil : passes ([] : List (Item β)) = [] := rfl

/-- The passes of two lists. -/
@[simp]
lemma passes_append (l l' : List (Item β)) : passes (l ++ l') = passes l ++ passes l' :=
  List.filter_append ..

/-- A marker at the front is dropped. -/
@[simp] lemma passes_cons_marker (l : List (Item β)) : passes (.marker :: l) = passes l := rfl

/-- A pass at the front is kept. -/
@[simp]
lemma passes_cons_pass (id : UInt8) (x : β) (l : List (Item β)) :
    passes (.pass id x :: l) = .pass id x :: passes l := rfl

/-- Only numbered items have a message. -/
lemma filterMap_msg_passes (l : List (Item β)) :
    (passes l).filterMap Item.msg = l.filterMap Item.msg := by
  induction l with
  | nil => rfl
  | cons it l ih => cases it <;> simp [List.filterMap_cons, ih]

/-- Every numbered item is one message. -/
lemma length_filterMap_msg_passes (l : List (Item β)) :
    ((passes l).filterMap Item.msg).length = (passes l).length := by
  induction l with
  | nil => rfl
  | cons it l ih =>
    cases it with
    | pass id x => simp [ih]
    | marker => simpa using ih

/-- A numbered item is a number and a message. -/
lemma isPass_iff {it : Item β} : it.isPass = true ↔ ∃ id x, it = .pass id x := by
  cases it <;> simp

/-- The passes are the items with a number. -/
lemma mem_passes {l : List (Item β)} {it : Item β} :
    it ∈ passes l ↔ it ∈ l ∧ ∃ id x, it = .pass id x := by
  rw [passes, List.mem_filter, isPass_iff]

/-- Among numbered items there are no gaps. -/
lemma isSome_of_mem_passes {l : List (Item β)} {o : Option UInt8}
    (h : o ∈ (passes l).map Item.id?) : o.isSome = true := by
  obtain ⟨it, hit, rfl⟩ := List.mem_map.mp h
  obtain ⟨id, x, rfl⟩ := (mem_passes.mp hit).2
  rfl

/-- The numbered items taken and not yet sent, in the order in which they were taken. -/
def Gate.unsentPasses (p : Params α β) (s : Gate n α β) : List (Item β) :=
  (passes (s.taken.map p.classify)).drop (passes s.sent).length

/-- The numbered items on their way through the pool or still in the input channel. -/
def Gate.pendingPasses (p : Params α β) (s : Gate n α β) : List (Item β) :=
  s.unsentPasses p ++ passes (s.input.map p.classify)

/-- The numbered items were sent in the order in which they were taken, and those pending are
numbered consecutively from the turn on, up to the number `next` of the one that comes next. -/
structure InOrder (p : Params α β) (next : UInt8) (s : Gate n α β) : Prop where
  sentPrefix : passes s.sent <+: passes (s.taken.map p.classify)
  linked : Linked (· + 1) (some s.turn) ((s.pendingPasses p).map Item.id?) next

/-- At the start nothing has been taken or sent. -/
lemma InOrder.init (p : Params α β) (turn : UInt8) : InOrder p turn (Gate.init n α β turn) where
  sentPrefix := by simp [Gate.init]
  linked := by simp [Gate.init, Gate.pendingPasses, Gate.unsentPasses]

/-- The passes that were taken are those that were sent and then those that are held. -/
lemma InOrder.taken_eq (h : InOrder p next s) :
    passes (s.taken.map p.classify) = passes s.sent ++ s.unsentPasses p := by
  have ht := List.prefix_iff_eq_take.mp h.sentPrefix
  conv_lhs => rw [← List.take_append_drop (passes s.sent).length (passes (s.taken.map p.classify))]
  rw [← ht, Gate.unsentPasses]

/-- The numbered items in hand are the unsent ones. -/
lemma InOrder.passes_held_perm (h : InOrder p next s) (hacc : Account p s) :
    (passes s.held).Perm (s.unsentPasses p) := by
  have hf := hacc.filter Item.isPass
  rw [List.filter_append] at hf
  have hcomm : (passes s.sent ++ passes s.held).Perm _ := List.perm_append_comm.trans hf
  have htk := h.taken_eq
  rw [show (List.map p.classify s.taken).filter Item.isPass = _ from htk] at hcomm
  exact (List.perm_append_left_iff _).mp hcomm

/-- With fewer than 256 workers the passes that are held have different numbers. -/
lemma InOrder.length_unsent_lt (h : InOrder p next s) (hacc : Account p s) (hn : n < 256) :
    (s.unsentPasses p).length < 256 := by
  have hlen := (h.passes_held_perm hacc).length_eq
  have hle : (passes s.held).length ≤ s.held.length := List.length_filter_le ..
  have := length_held_le s
  omega

/-- **Only the first unsent item can find its turn.** Fewer than 256 items are in hand and their
numbers are consecutive, so the only one whose number is the turn is the first. -/
lemma InOrder.unsent_eq_cons (h : InOrder p next s) (hacc : Account p s) (hn : n < 256)
    {x : β} (hmem : .pass s.turn x ∈ s.held) :
    ∃ rest, s.unsentPasses p = .pass s.turn x :: rest := by
  have hpass : Item.pass s.turn x ∈ passes s.held := mem_passes.mpr ⟨hmem, _, _, rfl⟩
  have hun := (h.passes_held_perm hacc).mem_iff.mp hpass
  obtain ⟨j, hj, hget⟩ := List.getElem_of_mem hun
  have hlt := h.length_unsent_lt hacc hn
  have hpend : ((s.pendingPasses p).map Item.id?)[j]? = some (some s.turn) := by
    have hj' : (s.unsentPasses p)[j]? = some (.pass s.turn x) := by
      rw [List.getElem?_eq_getElem hj, hget]
    rw [Gate.pendingPasses, List.map_append, List.getElem?_append_left (by simpa using hj),
      List.getElem?_map, hj']
    rfl
  have hnum := h.linked.getElem_eq (fun o ho => by
    have hmap := List.mem_of_mem_take ho
    simp only [Gate.pendingPasses, Gate.unsentPasses, List.map_append, List.mem_append] at hmap
    rcases hmap with hmap | hmap
    · rw [List.map_drop] at hmap
      exact isSome_of_mem_passes (List.mem_of_mem_drop hmap)
    · exact isSome_of_mem_passes hmap) hpend
  rw [UInt8.iterate_add_one] at hnum
  have hz := (UInt8.eq_of_add_ofNat_eq (k := s.turn) (t := s.turn) (j := j)
    (by simp; omega) hnum.symm).2
  subst hz
  cases hcons : s.unsentPasses p with
  | nil => simp [hcons] at hj
  | cons it rest =>
    refine ⟨rest, ?_⟩
    simp only [hcons, List.getElem_cons_zero] at hget
    rw [hget]

/-- **Numbered items leave in the order in which they came.** -/
theorem InOrder.step (h : InOrder p next s) (hinv : Inv p s) (hn : n < 256)
    (hs : step p s w = some s') : InOrder p next s' := by
  cases step_iff.mp hs with
  | @receive a rest hw hin =>
    have hle : (passes s.sent).length ≤ (passes (s.taken.map p.classify)).length :=
      h.sentPrefix.length_le
    refine ⟨?_, ?_⟩
    · simp only [List.map_append, passes_append]
      exact h.sentPrefix.trans (List.prefix_append _ _)
    · -- the item moves from the input to the hands; the pending list stays as it is
      have hlink := h.linked
      simp only [Gate.pendingPasses, Gate.unsentPasses, hin, List.map_cons] at hlink
      simp only [Gate.pendingPasses, Gate.unsentPasses, List.map_append, List.map_cons,
        List.map_nil, passes_append, List.drop_append_of_le_length hle]
      rw [← List.singleton_append, passes_append] at hlink
      simpa using hlink
  | bypass hw hroom =>
    refine ⟨?_, ?_⟩
    · simpa using h.sentPrefix
    · simpa [Gate.pendingPasses, Gate.unsentPasses] using h.linked
  | enter hw hfree hturn => exact ⟨h.sentPrefix, h.linked⟩
  | sleep hw hfree hturn => exact ⟨h.sentPrefix, h.linked⟩
  | @send id x hw hroom =>
    have hturn := (hinv.mutex.enter_turn w id x hw).2
    have hmem : Item.pass s.turn x ∈ s.held := mem_itemsOf.mpr ⟨w, by rw [hw, hturn]; rfl⟩
    obtain ⟨rest, hrest⟩ := h.unsent_eq_cons hinv.account hn hmem
    have htk := h.taken_eq
    rw [hrest] at htk
    have hsent : passes (s.sent ++ [.pass id x]) = passes s.sent ++ [.pass s.turn x] := by
      simp [hturn]
    refine ⟨?_, ?_⟩
    · rw [hsent, htk]
      exact ⟨rest, by simp⟩
    · have hlink := h.linked
      simp only [Gate.pendingPasses, hrest, List.cons_append, List.map_cons] at hlink
      have hun : (passes (s.taken.map p.classify)).drop (passes (s.sent ++ [.pass id x])).length
          = rest := by
        have hsplit : passes s.sent ++ .pass s.turn x :: rest =
            (passes s.sent ++ [.pass s.turn x]) ++ rest := by simp
        rw [hsent, htk, hsplit, List.drop_left]
      simp only [Gate.pendingPasses, Gate.unsentPasses, hun]
      exact hlink.tail
  | notify hw => exact ⟨h.sentPrefix, h.linked⟩

/-- An input without a number changes nothing. -/
lemma InOrder.push_marker (h : InOrder p next s) {a : α} (ha : p.classify a = .marker) :
    InOrder p next (s.push a) := by
  refine ⟨h.sentPrefix, ?_⟩
  simpa [Gate.pendingPasses, Gate.unsentPasses, Gate.push, ha] using h.linked

/-- An input with the number that comes next. -/
lemma InOrder.push_pass (h : InOrder p next s) {a : α} {x : β}
    (ha : p.classify a = .pass next x) : InOrder p (next + 1) (s.push a) := by
  refine ⟨h.sentPrefix, ?_⟩
  have happ := h.linked.append_some
  simpa [Gate.pendingPasses, Gate.unsentPasses, Gate.push, ha] using happ

/-- A message that somebody else sends leaves the order. -/
lemma InOrder.emit (h : InOrder p next s) (m : Option β) : InOrder p next (s.emit m) :=
  ⟨h.sentPrefix, h.linked⟩

/-- So does a message that is taken from the output. -/
lemma InOrder.pop (h : InOrder p next s) (rest : List (Option β)) :
    InOrder p next (s.pop rest) :=
  ⟨h.sentPrefix, h.linked⟩

/-- So does a notification from outside. -/
lemma InOrder.wakeAll (h : InOrder p next s) : InOrder p next s.wakeAll :=
  ⟨h.sentPrefix, h.linked⟩

/-- The counter may be set when nothing numbered is pending; or to its own value, when the numbers
pending are a whole number of turns. -/
lemma InOrder.setTurn (h : InOrder p next s) {id : UInt8}
    (hquiet : s.pendingPasses p = [] ∨
      (id = s.turn ∧ 256 ∣ (s.pendingPasses p).length)) :
    InOrder p id (s.setTurn id) := by
  refine ⟨h.sentPrefix, ?_⟩
  change Linked (· + 1) (some id) ((s.pendingPasses p).map Item.id?) id
  rcases hquiet with hnil | ⟨rfl, hdvd⟩
  · simp [hnil]
  · have hend := h.linked.end_eq fun o ho => by
      simp only [Gate.pendingPasses, Gate.unsentPasses, List.map_append, List.map_drop,
        List.mem_append] at ho
      rcases ho with ho | ho
      · exact isSome_of_mem_passes (List.mem_of_mem_drop ho)
      · exact isSome_of_mem_passes ho
    rw [UInt8.iterate_add_one, List.length_map] at hend
    have hturns : UInt8.ofNat (s.pendingPasses p).length = 0 := by
      rw [← UInt8.toNat_inj, UInt8.toNat_ofNat']
      simpa using Nat.mod_eq_zero_of_dvd hdvd
    rw [hturns, UInt8.add_zero] at hend
    exact hend ▸ h.linked

/-! ## Progress -/

/-- A blocked thread waits for an item, for the mutex or for its turn, or it has returned. -/
lemma phase_of_step_eq_none (hroom : HasRoom p.capacity s.output) (h : step p s w = none) :
    (s.workers w = .idle ∧ s.input = []) ∨ (∃ id x, s.workers w = .lock id x ∧ s.locked = true) ∨
      (∃ id x, s.workers w = .asleep id x) ∨ s.workers w = .done := by
  unfold step at h
  cases hw : s.workers w with
  | idle =>
    cases hin : s.input with
    | nil => exact .inl ⟨rfl, rfl⟩
    | cons a rest => simp [hw, hin] at h
  | bypass => simp [hw, hroom] at h
  | lock id x =>
    cases hl : s.locked with
    | true => exact .inr (.inl ⟨id, x, rfl, rfl⟩)
    | false =>
      by_cases hturn : s.turn = id <;> simp [hw, hl, hturn] at h
  | asleep id x => exact .inr (.inr (.inl ⟨id, x, rfl⟩))
  | enter id x => simp [hw, hroom] at h
  | notify => simp [hw] at h
  | done => exact .inr (.inr (.inr rfl))

/-- **Progress.** If the output channel accepts a message, no thread has returned and something
is in hand or in the input channel, then some thread can move.

**Proof sketch.** If all threads were blocked, the mutex would be free, since its holder can
send. So every thread would wait for an item or be asleep. With an item in hand, the first
unsent one has the turn as its number; its thread would be asleep in its turn, and another one
about to wake it. With nothing in hand all threads wait for an item, and one is in the input. -/
theorem progress (h : InOrder p next s) (hinv : Inv p s) (haw : Awake s) (hpos : 0 < n)
    (hroom : HasRoom p.capacity s.output) (hrun : ∀ w, s.workers w ≠ .done)
    (hwork : s.held ≠ [] ∨ s.input ≠ []) : ∃ w, (step p s w).isSome = true := by
  by_contra hblocked
  push Not at hblocked
  have hnone : ∀ w, step p s w = none := fun w => by simpa using hblocked w
  have hfree : s.locked = false := by
    by_contra hlock
    obtain ⟨w, id, x, hw⟩ := hinv.mutex.holder (by simpa using hlock)
    rcases phase_of_step_eq_none hroom (hnone w) with ⟨hp, _⟩ | ⟨_, _, hp, _⟩ | ⟨_, _, hp⟩ | hp <;>
      simp [hw] at hp
  have hphase : ∀ w, (s.workers w = .idle ∧ s.input = []) ∨ ∃ id x, s.workers w = .asleep id x := by
    intro w
    rcases phase_of_step_eq_none hroom (hnone w) with hp | ⟨_, _, _, hl⟩ | hp | hp
    · exact .inl hp
    · simp [hfree] at hl
    · exact .inr hp
    · exact absurd hp (hrun w)
  -- whatever is in hand is numbered, so the first unsent item exists and is its thread's turn
  have hheld : s.held = [] := by
    by_contra hne
    obtain ⟨it, hit⟩ := List.exists_mem_of_ne_nil _ hne
    have hpass : ∀ it ∈ s.held, ∃ w id x, s.workers w = .asleep id x ∧ it = .pass id x := by
      intro it hit
      obtain ⟨w, hw⟩ := mem_itemsOf.mp hit
      rcases hphase w with ⟨hp, _⟩ | ⟨id, x, hp⟩
      · simp [hp, Phase.item] at hw
      · exact ⟨w, id, x, hp, by simpa [hp, Phase.item] using hw.symm⟩
    obtain ⟨w, id, x, _, rfl⟩ := hpass it hit
    have hun : Item.pass id x ∈ s.unsentPasses p :=
      (h.passes_held_perm hinv.account).mem_iff.mp (mem_passes.mpr ⟨hit, _, _, rfl⟩)
    cases hcons : s.unsentPasses p with
    | nil => simp [hcons] at hun
    | cons first rest =>
      have hfirst : first ∈ passes s.held :=
        (h.passes_held_perm hinv.account).mem_iff.mpr (by simp [hcons])
      obtain ⟨w₀, id₀, x₀, hw₀, rfl⟩ := hpass first (mem_passes.mp hfirst).1
      have hlink := h.linked
      rw [Gate.pendingPasses, hcons] at hlink
      have hid : id₀ = s.turn := hlink.1 s.turn rfl
      obtain ⟨w₁, hw₁⟩ := haw w₀ id₀ x₀ hw₀ hid.symm
      rcases hphase w₁ with ⟨hp, _⟩ | ⟨_, _, hp⟩ <;> simp [hw₁] at hp
  have hidle : s.workers ⟨0, hpos⟩ = .idle ∧ s.input = [] := by
    rcases hphase ⟨0, hpos⟩ with hp | ⟨id, x, hp⟩
    · exact hp
    · have hin : Item.pass id x ∈ s.held := mem_itemsOf.mpr ⟨_, by rw [hp]; rfl⟩
      simp [hheld] at hin
  rcases hwork with hw | hw
  · exact hw hheld
  · exact hw hidle.2

/-! ## All messages -/

/-- The items taken and not yet sent, in the order in which they were taken. -/
def Gate.unsent (p : Params α β) (s : Gate n α β) : List (Item β) :=
  (s.taken.map p.classify).drop s.sent.length

/-- The items on their way through the pool or still in the input channel. -/
def Gate.pending (p : Params α β) (s : Gate n α β) : List (Item β) :=
  s.unsent p ++ s.input.map p.classify

/-- All items were sent in the order in which they were taken; those in hand are all markers, or
all numbered. The numbers may be ahead of the turn (then no thread finds its turn), but never so
far that they wrap around to it. -/
structure Ordered (p : Params α β) (next : UInt8) (s : Gate n α β) : Prop where
  sentPrefix : s.sent <+: s.taken.map p.classify
  linked : Linked (· + 1) none ((s.pending p).map Item.id?) next
  uniform : (∀ it ∈ s.unsent p, it.isPass = true) ∨ (∀ it ∈ s.unsent p, it = .marker)
  lag : ∀ id x rest, s.unsent p = .pass id x :: rest →
    (id - s.turn).toNat + (s.unsent p).length ≤ 256

/-- The condition under which a thread may take the next input: it takes a marker while no
numbered item is in hand, and a numbered item while no marker is in hand and the numbers in hand
do not reach around to the turn. -/
def Apart (p : Params α β) (s : Gate n α β) (w : Fin n) : Prop :=
  match s.workers w, s.input with
  | .idle, a :: _ =>
    match p.classify a with
    | .pass id _ => (∀ it ∈ s.held, it.isPass = true) ∧ s.held.length ≤ (id - s.turn).toNat
    | .marker => ∀ it ∈ s.held, it.isPass = false
  | _, _ => True

/-- Whether a step of a worker keeps markers apart can be decided. -/
instance (p : Params α β) (s : Gate n α β) (w : Fin n) : Decidable (Apart p s w) := by
  unfold Apart
  split
  · split <;> infer_instance
  · infer_instance

/-- What the condition says of a step that takes an input. -/
lemma Apart.of_take {a : α} {rest : List α} (h : Apart p s w) (hw : s.workers w = .idle)
    (hin : s.input = a :: rest) :
    match p.classify a with
    | .pass id _ => (∀ it ∈ s.held, it.isPass = true) ∧ s.held.length ≤ (id - s.turn).toNat
    | .marker => ∀ it ∈ s.held, it = .marker := by
  simp only [Apart, hw, hin] at h
  cases ha : p.classify a with
  | pass id x =>
    rw [ha] at h
    exact h
  | marker =>
    rw [ha] at h
    intro it hit
    have hm := h it hit
    cases it with
    | pass id x => simp at hm
    | marker => rfl

namespace Ordered

/-- At the start nothing has been taken or sent. -/
lemma init (p : Params α β) (turn next : UInt8) : Ordered p next (Gate.init n α β turn) where
  sentPrefix := by simp [Gate.init]
  linked := by simp [Gate.init, Gate.pending, Gate.unsent]
  uniform := by simp [Gate.init, Gate.unsent]
  lag := by simp [Gate.init, Gate.unsent]

/-- What was taken is what was sent and then what is held. -/
lemma taken_eq (h : Ordered p next s) : s.taken.map p.classify = s.sent ++ s.unsent p := by
  have ht := List.prefix_iff_eq_take.mp h.sentPrefix
  conv_lhs => rw [← List.take_append_drop s.sent.length (s.taken.map p.classify)]
  rw [← ht, Gate.unsent]

/-- The items in hand are the unsent ones. -/
lemma held_perm (h : Ordered p next s) (hacc : Account p s) : s.held.Perm (s.unsent p) := by
  have hcomm : (s.sent ++ s.held).Perm _ := List.perm_append_comm.trans hacc
  rw [h.taken_eq] at hcomm
  exact (List.perm_append_left_iff _).mp hcomm

/-- In a run of numbered items in hand, the `j`-th number is the first one plus `j`. -/
lemma num_eq (h : Ordered p next s) {id₀ : UInt8} {x₀ : β} {rest : List (Item β)}
    (hcons : s.unsent p = .pass id₀ x₀ :: rest)
    (hpass : ∀ it ∈ s.unsent p, it.isPass = true) {j : ℕ} {x : UInt8}
    (hj : j ≤ (s.unsent p).length) (hget : ((s.pending p).map Item.id?)[j]? = some (some x)) :
    x = id₀ + UInt8.ofNat j := by
  have hlink := h.linked
  have hpend : (s.pending p).map Item.id? =
      some id₀ :: (rest.map Item.id? ++ (s.input.map p.classify).map Item.id?) := by
    simp [Gate.pending, hcons]
  rw [hpend] at hlink hget
  have hnum := hlink.start.getElem_eq (j := j) (fun o ho => ?_) hget
  · rw [hnum, UInt8.iterate_add_one]
  · have hmem : o ∈ (s.unsent p).map Item.id? := by
      have hle : j ≤ (some id₀ :: rest.map Item.id?).length := by
        simpa [hcons] using hj
      rw [← List.cons_append, List.take_append_of_le_length hle] at ho
      simpa [hcons] using List.mem_of_mem_take ho
    obtain ⟨it, hit, rfl⟩ := List.mem_map.mp hmem
    obtain ⟨id', x', rfl⟩ := isPass_iff.mp (hpass it hit)
    rfl

/-- The first unsent item is sent. -/
lemma send_first (h : Ordered p next s) {it : Item β} {rest : List (Item β)}
    (hcons : s.unsent p = it :: rest) :
    s.sent ++ [it] <+: s.taken.map p.classify ∧
      (s.taken.map p.classify).drop (s.sent ++ [it]).length = rest := by
  have htk : s.taken.map p.classify = (s.sent ++ [it]) ++ rest := by
    rw [h.taken_eq, hcons]
    simp
  rw [htk]
  exact ⟨List.prefix_append _ _, List.drop_left⟩

/-- The numbers in hand do not reach around to the turn after another one has been taken, if they
did not reach up to it before. -/
lemma lag_receive (h : Ordered p next s) {a : α} {rest : List α} {id₀ id : UInt8} {x₀ x : β}
    {more : List (Item β)} (hin : s.input = a :: rest) (hold : s.unsent p = .pass id₀ x₀ :: more)
    (ha : p.classify a = .pass id x) (hall : ∀ it ∈ s.unsent p, it.isPass = true)
    (hle : (s.unsent p).length ≤ (id - s.turn).toNat) :
    (id₀ - s.turn).toNat + ((s.unsent p).length + 1) ≤ 256 := by
  have hlag := h.lag _ _ _ hold
  have hnum := h.num_eq hold hall (j := (s.unsent p).length) (x := id) le_rfl (by
    rw [Gate.pending, List.map_append, List.getElem?_append_right (by simp)]
    simp [hin, ha])
  by_contra hlt
  -- the new number would be the turn itself, with items in hand
  have hwrap : id - s.turn = 0 := by
    have hsum : (id₀ - s.turn).toNat + (s.unsent p).length = 256 := by omega
    rw [hnum, ← UInt8.toNat_inj]
    simp only [UInt8.toNat_sub, UInt8.toNat_add, UInt8.toNat_ofNat', UInt8.toNat_zero] at hsum ⊢
    have := id₀.toNat_lt
    have := s.turn.toNat_lt
    omega
  rw [hwrap, UInt8.toNat_zero, hold] at hle
  simp at hle

/-- A thread takes an item as `Turnstile.Apart` allows. -/
lemma receive (h : Ordered p next s) (hinv : Inv p s) (hapart : Apart p s w) {a : α}
    {rest : List α} (hw : s.workers w = .idle) (hin : s.input = a :: rest) :
    Ordered p next { s with
      input := rest
      taken := s.taken ++ [a]
      workers := update s.workers w (Phase.ofItem (p.classify a)) } := by
  have hperm := h.held_perm hinv.account
  have hle : s.sent.length ≤ (s.taken.map p.classify).length := h.sentPrefix.length_le
  have hun : (Gate.unsent p { s with
      input := rest
      taken := s.taken ++ [a]
      workers := update s.workers w (Phase.ofItem (p.classify a)) }) =
      s.unsent p ++ [p.classify a] := by
    simp [Gate.unsent, List.drop_append_of_le_length hle]
  have hlink := h.linked
  simp only [Gate.pending, hin, List.map_cons] at hlink
  have hcond := hapart.of_take hw hin
  refine ⟨?_, ?_, ?_, ?_⟩
  · simpa using h.sentPrefix.trans (List.prefix_append _ _)
  · simpa [Gate.pending, hun] using hlink
  · rw [hun]
    cases ha : p.classify a with
    | pass id x =>
      rw [ha] at hcond
      refine .inl fun it hit => ?_
      rcases List.mem_append.mp hit with hit | hit
      · exact hcond.1 it (hperm.mem_iff.mpr hit)
      · simp only [List.mem_singleton] at hit
        rw [hit]
        rfl
    | marker =>
      rw [ha] at hcond
      refine .inr fun it hit => ?_
      rcases List.mem_append.mp hit with hit | hit
      · exact hcond it (hperm.mem_iff.mpr hit)
      · simpa using hit
  · intro id₀ x₀ rest' hcons
    rw [hun] at hcons ⊢
    change (id₀ - s.turn).toNat + _ ≤ 256
    rw [List.length_append, List.length_singleton]
    cases hold : s.unsent p with
    | nil =>
      have := (id₀ - s.turn).toNat_lt
      simp only [List.length_nil]
      omega
    | cons first more =>
      rw [hold, List.cons_append, List.cons.injEq] at hcons
      obtain ⟨rfl, -⟩ := hcons
      have hmem : Item.pass id₀ x₀ ∈ s.held := hperm.mem_iff.mpr (by simp [hold])
      cases ha : p.classify a with
      | marker =>
        rw [ha] at hcond
        exact absurd (hcond _ hmem) (by simp)
      | pass id x =>
        rw [ha] at hcond
        rw [← hold]
        exact h.lag_receive hin hold ha (fun it hit => hcond.1 it (hperm.mem_iff.mpr hit))
          (hperm.length_eq ▸ hcond.2)

/-- A marker leaves. All items in hand are markers, and it stands for the first of them. -/
lemma bypass (h : Ordered p next s) (hinv : Inv p s) (hw : s.workers w = .bypass) :
    Ordered p next { s with
      output := s.output ++ [none]
      sent := s.sent ++ [.marker]
      workers := update s.workers w (if p.stops then .done else .idle) } := by
  have hmem : Item.marker ∈ s.unsent p :=
    (h.held_perm hinv.account).mem_iff.mp (mem_itemsOf.mpr ⟨w, by rw [hw]; rfl⟩)
  have hall : ∀ it ∈ s.unsent p, it = .marker := by
    rcases h.uniform with hp | hm
    · simpa using hp _ hmem
    · exact hm
  cases hcons : s.unsent p with
  | nil => simp [hcons] at hmem
  | cons first rest =>
    obtain rfl : first = .marker := hall first (by simp [hcons])
    obtain ⟨hpre, hun⟩ := h.send_first hcons
    have hrest : ∀ it ∈ rest, it = .marker := fun it hit => hall it (by simp [hcons, hit])
    have hlink := h.linked
    simp only [Gate.pending, hcons, List.cons_append, List.map_cons] at hlink
    refine ⟨hpre, ?_, ?_, ?_⟩
    · simp only [Gate.pending, Gate.unsent, hun]
      exact hlink.tail
    · simp only [Gate.unsent, hun]
      exact .inr hrest
    · intro id x more hmore
      simp only [Gate.unsent, hun] at hmore
      exact absurd (hrest (.pass id x) (by simp [hmore])) (by simp)

/-- A numbered item leaves in its turn. The numbers in hand are consecutive and do not reach
around, so it is the first of them. -/
lemma send (h : Ordered p next s) (hinv : Inv p s) {x : β} (hw : s.workers w = .enter s.turn x) :
    Ordered p next { s with
      output := s.output ++ [some x]
      sent := s.sent ++ [.pass s.turn x]
      turn := s.turn + 1
      locked := false
      workers := update s.workers w .notify } := by
  have hmem : Item.pass s.turn x ∈ s.unsent p :=
    (h.held_perm hinv.account).mem_iff.mp (mem_itemsOf.mpr ⟨w, by rw [hw]; rfl⟩)
  have hall : ∀ it ∈ s.unsent p, it.isPass = true := by
    rcases h.uniform with hp | hm
    · exact hp
    · simpa using hm _ hmem
  cases hcons : s.unsent p with
  | nil => simp [hcons] at hmem
  | cons first rest =>
    obtain ⟨id₀, x₀, rfl⟩ := isPass_iff.mp (hall first (by simp [hcons]))
    have hlag := h.lag _ _ _ hcons
    obtain ⟨j, hj, hget⟩ := List.getElem_of_mem hmem
    have hnum := h.num_eq hcons hall (j := j) (x := s.turn) hj.le (by
      rw [Gate.pending, List.map_append, List.getElem?_append_left (by simpa using hj),
        List.getElem?_map, List.getElem?_eq_getElem hj, hget]
      rfl)
    obtain ⟨rfl, rfl⟩ := UInt8.eq_of_add_ofNat_eq (t := s.turn) (by omega) hnum.symm
    simp only [hcons, List.getElem_cons_zero, Item.pass.injEq, true_and] at hget
    subst hget
    obtain ⟨hpre, hun⟩ := h.send_first hcons
    have hlink := h.linked
    simp only [Gate.pending, hcons, List.cons_append, List.map_cons] at hlink
    refine ⟨hpre, ?_, ?_, ?_⟩
    · simp only [Gate.pending, Gate.unsent, hun]
      exact hlink.tail.forget
    · simp only [Gate.unsent, hun]
      exact .inl fun it hit => hall it (by simp [hcons, hit])
    · intro id₁ x₁ more hmore
      simp only [Gate.unsent, hun] at hmore ⊢
      subst hmore
      have hid : id₁ = s.turn + 1 := hlink.2.1 _ rfl
      rw [hid, UInt8.sub_self, UInt8.toNat_zero]
      simp only [hcons, List.length_cons] at hlag
      simp only [List.length_cons]
      omega

/-- **Markers keep their place.** If items are taken only as `Turnstile.Apart` allows, all
messages leave in the order in which the items came.

**Proof sketch.** Taking an item keeps the items in hand uniform by the condition, and the numbers
in hand within one turn of the counter. Both markers and numbered items are the first of those in
hand when they leave. -/
theorem step (h : Ordered p next s) (hinv : Inv p s) (hapart : Apart p s w)
    (hs : Turnstile.step p s w = some s') : Ordered p next s' := by
  cases step_iff.mp hs with
  | receive hw hin => exact h.receive hinv hapart hw hin
  | bypass hw hroom => exact h.bypass hinv hw
  | enter hw hfree hturn => exact ⟨h.sentPrefix, h.linked, h.uniform, h.lag⟩
  | sleep hw hfree hturn => exact ⟨h.sentPrefix, h.linked, h.uniform, h.lag⟩
  | @send id x hw hroom =>
    obtain rfl := (hinv.mutex.enter_turn w id x hw).2
    exact h.send hinv hw
  | notify hw => exact ⟨h.sentPrefix, h.linked, h.uniform, h.lag⟩

/-- An input without a number frees the number that comes next. -/
lemma push_marker (h : Ordered p next s) {a : α} (ha : p.classify a = .marker) (next' : UInt8) :
    Ordered p next' (s.push a) := by
  refine ⟨h.sentPrefix, ?_, h.uniform, h.lag⟩
  have happ := h.linked.append_none next'
  simpa [Gate.pending, Gate.unsent, Gate.push, ha] using happ

/-- An input with the number that comes next. -/
lemma push_pass (h : Ordered p next s) {a : α} {x : β} (ha : p.classify a = .pass next x) :
    Ordered p (next + 1) (s.push a) := by
  refine ⟨h.sentPrefix, ?_, h.uniform, h.lag⟩
  have happ := h.linked.append_some
  simpa [Gate.pending, Gate.unsent, Gate.push, ha] using happ

/-- A message that is taken from the output leaves the order. -/
lemma pop (h : Ordered p next s) (rest : List (Option β)) : Ordered p next (s.pop rest) :=
  ⟨h.sentPrefix, h.linked, h.uniform, h.lag⟩

/-- So does a notification from outside. -/
lemma wakeAll (h : Ordered p next s) : Ordered p next s.wakeAll :=
  ⟨h.sentPrefix, h.linked, h.uniform, h.lag⟩

/-- The counter may be set when nothing numbered is pending. -/
lemma setTurn (h : Ordered p next s) (id next' : UInt8)
    (hquiet : ∀ it ∈ s.pending p, it = .marker) : Ordered p next' (s.setTurn id) := by
  refine ⟨h.sentPrefix, ?_, h.uniform, ?_⟩
  · refine Linked.of_gaps fun o ho => ?_
    obtain ⟨it, hit, rfl⟩ := List.mem_map.mp ho
    rw [hquiet it hit]
    rfl
  · intro id₀ x₀ rest hcons
    change s.unsent p = .pass id₀ x₀ :: rest at hcons
    exact absurd (hquiet (.pass id₀ x₀) (by simp [Gate.pending, hcons])) (by simp)

end Ordered

/-! ## Numbered items only -/

/-- A thread makes no new items: what is in hand or in the input channel after a step was there
before. -/
lemma mem_of_step (hs : step p s w = some s') {it : Item β}
    (hit : it ∈ s'.held ++ s'.input.map p.classify) : it ∈ s.held ++ s.input.map p.classify := by
  -- one thread has changed its phase
  have hupdate : ∀ {f : Fin n → Phase β} {ph : Phase β}, it ∈ itemsOf (update f w ph) →
      ph.item = some it ∨ it ∈ itemsOf f := by
    intro f ph hmem
    obtain ⟨w', hw'⟩ := mem_itemsOf.mp hmem
    by_cases hne : w' = w
    · subst hne
      rw [update_self] at hw'
      exact .inl hw'
    · rw [update_of_ne hne] at hw'
      exact .inr (mem_itemsOf.mpr ⟨w', hw'⟩)
  rw [List.mem_append, held_def] at hit ⊢
  cases step_iff.mp hs with
  | @receive a rest hw hin =>
    rcases hit with hit | hit
    · rcases hupdate hit with hnew | hold
      · rw [Phase.item_ofItem, Option.some.injEq] at hnew
        exact .inr (by simp [hin, hnew])
      · exact .inl hold
    · exact .inr (by rw [hin, List.map_cons]; exact List.mem_cons_of_mem _ hit)
  | bypass hw hroom =>
    refine hit.imp_left fun hit => (hupdate hit).resolve_left fun hnew => ?_
    cases hstops : p.stops <;> simp [hstops, Phase.item] at hnew
  | @enter id x hw hfree hturn | @sleep id x hw hfree hturn =>
    refine hit.imp_left fun hit => (hupdate hit).elim (fun hnew => ?_) fun hold => hold
    exact mem_itemsOf.mpr ⟨w, by rw [hw, ← hnew]; rfl⟩
  | send hw hroom =>
    refine hit.imp_left fun hit => (hupdate hit).resolve_left fun hnew => ?_
    simp [Phase.item] at hnew
  | notify hw =>
    refine hit.imp_left fun hit => ?_
    rwa [itemsOf_wake hw] at hit

/-- The numbers pending are consecutive from the turn on. -/
lemma InOrder.num_eq (h : InOrder p next s) {j : ℕ} {x : UInt8}
    (hget : ((s.pendingPasses p).map Item.id?)[j]? = some (some x)) :
    x = s.turn + UInt8.ofNat j := by
  have hnum := h.linked.getElem_eq (fun o ho => ?_) hget
  · rw [hnum, UInt8.iterate_add_one]
  · have hmem := List.mem_of_mem_take ho
    simp only [Gate.pendingPasses, Gate.unsentPasses, List.map_append, List.map_drop,
      List.mem_append] at hmem
    rcases hmem with hmem | hmem
    · exact isSome_of_mem_passes (List.mem_of_mem_drop hmem)
    · exact isSome_of_mem_passes hmem

/-- **Without markers the threads may take every item.** -/
theorem InOrder.apart (h : InOrder p next s) (hacc : Account p s) (hn : n < 256)
    (hall : ∀ it ∈ s.held ++ s.input.map p.classify, it.isPass = true) (w : Fin n) :
    Apart p s w := by
  have hheld : ∀ it ∈ s.held, it.isPass = true := fun it hit => hall it (List.mem_append_left _ hit)
  unfold Apart
  split
  · rename_i a rest hw hin
    obtain ⟨id, x, hclass⟩ := isPass_iff.mp (hall (p.classify a) (by simp [hin]))
    simp only [hclass]
    refine ⟨hheld, ?_⟩
    have hperm := h.passes_held_perm hacc
    rw [passes, List.filter_eq_self.mpr hheld] at hperm
    have hlt := h.length_unsent_lt hacc hn
    have hget : ((s.pendingPasses p).map Item.id?)[(s.unsentPasses p).length]? =
        some (some id) := by
      rw [Gate.pendingPasses, List.map_append, List.getElem?_append_right (by simp)]
      simp [hin, hclass]
    rw [h.num_eq hget, hperm.length_eq, UInt8.add_comm, UInt8.add_sub_cancel, UInt8.toNat_ofNat']
    omega
  · trivial

end Turnstile
