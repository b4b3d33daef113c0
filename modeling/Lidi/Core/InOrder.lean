import Lidi.Core.Window

set_option relaxedAutoImplicit false
set_option autoImplicit false

/-!
# Batches of a stream in order

A stream sends all packets of one block, then all packets of the next one, and so on; every block
has `size` packets. It arrives in batches, and a window sees a batch as a whole: while a batch is
taken in, no block is released and the window does not move.

A batch that reaches beyond the window loses packets. That does no harm if it reaches so little
beyond it that the block in which it ends can still get the packets it needs.

## Main definitions

* `InOrder` — packets that are the next ones of a stream.
* `Window.Fits` — no batch reaches too far, by the lengths of the batches.
* `Window.InStep` — the state of a window that has released every block it could.

## Main results

* `Window.InStep.step` — a batch that fits.
* `Window.exists_processes_of_fits` — batches that fit.
-/

/-- The packets are those at places `pos`, `pos + 1` and so on of a stream of blocks of `size`
packets, the first of them being block `first`. -/
def InOrder {P : Type*} (first size pos : ℕ) (packets : List (ℕ × P)) : Prop :=
  packets.map Prod.fst = (List.range' pos packets.length).map fun i => first + i / size

/-- How many of the first `pos` packets of the stream belong to the `j`-th block. -/
def countAt (size pos j : ℕ) : ℕ :=
  min size (pos - j * size)

section CountAt

variable {size pos j : ℕ}

/-- A block before the position has all its packets. -/
lemma countAt_of_lt (h : j < pos / size) : countAt size pos j = size := by
  have hdiv := Nat.div_mul_le_self pos size
  have hmul := Nat.mul_le_mul_right size (show j + 1 ≤ pos / size from h)
  rw [Nat.add_mul] at hmul
  rw [countAt]
  omega

/-- The block at the position has what is left of it. -/
lemma countAt_self (hsize : 0 < size) : countAt size pos (pos / size) = pos % size := by
  have hdiv := Nat.div_add_mod' pos size
  have hmod := Nat.mod_lt pos hsize
  rw [countAt]
  omega

/-- A block after the position has no packets. -/
lemma countAt_of_gt (hsize : 0 < size) (h : pos / size < j) : countAt size pos j = 0 := by
  have hlt := Nat.lt_mul_of_div_lt h hsize
  rw [countAt]
  omega

end CountAt

namespace InOrder

variable {P : Type*} {first size pos : ℕ} {a : ℕ × P} {packets batch rest : List (ℕ × P)}

/-- The first arrival is the one at the position. -/
lemma cons_iff : InOrder first size pos (a :: rest) ↔
    a.1 = first + pos / size ∧ InOrder first size (pos + 1) rest := by
  simp [InOrder, List.range'_succ]

/-- The stream goes on after a batch. -/
lemma append_iff : InOrder first size pos (batch ++ rest) ↔
    InOrder first size pos batch ∧ InOrder first size (pos + batch.length) rest := by
  induction batch generalizing pos with
  | nil => simp [InOrder]
  | cons a batch ih =>
    rw [List.cons_append, cons_iff, cons_iff, ih, List.length_cons, and_assoc,
      show pos + 1 + batch.length = pos + (batch.length + 1) by omega]

/-- The block of a packet of the stream. -/
lemma exists_of_mem (h : InOrder first size pos packets) (ha : a ∈ packets) :
    ∃ i, pos ≤ i ∧ i < pos + packets.length ∧ a.1 = first + i / size := by
  have hmem := List.mem_map_of_mem (f := Prod.fst) ha
  rw [h] at hmem
  obtain ⟨i, hi, heq⟩ := List.mem_map.mp hmem
  obtain ⟨hle, hlt⟩ := List.mem_range'_1.mp hi
  exact ⟨i, hle, hlt, heq.symm⟩

/-- How many packets of a block arrive. -/
lemma length_packetsOf (hsize : 0 < size) (h : InOrder first size pos packets) (j : ℕ) :
    (packetsOf packets (first + j)).length + countAt size pos j =
      countAt size (pos + packets.length) j := by
  induction packets generalizing pos with
  | nil => simp
  | cons a rest ih =>
    obtain ⟨ha, hrest⟩ := cons_iff.mp h
    have hnext := ih hrest
    rw [packetsOf_cons, List.length_append, List.length_cons,
      show pos + (rest.length + 1) = pos + 1 + rest.length by omega, ← hnext]
    -- One packet is added to the block of the current place.
    have hstep : (packetsOf [a] (first + j)).length + countAt size pos j =
        countAt size (pos + 1) j := by
      have hlt := (Nat.div_lt_iff_lt_mul hsize (x := pos) (y := j))
      have hle := (Nat.le_div_iff_mul_le hsize (x := j) (y := pos))
      have hlt' := (Nat.div_lt_iff_lt_mul hsize (x := pos) (y := j + 1))
      rw [Nat.add_mul] at hlt'
      by_cases hj : a.1 = first + j
      · rw [← hj, packetsOf_singleton_self, List.length_singleton]
        have hj' : pos / size = j := by omega
        simp only [countAt]
        omega
      · rw [packetsOf_singleton_of_ne hj, List.length_nil]
        have hj' : pos / size ≠ j := by omega
        simp only [countAt]
        omega
    omega

end InOrder

namespace Window

variable {P : Type*} {width size need first pos lost : ℕ} {w : Window P}

/-- The current block, when `pos` packets have arrived and the first `lost` ones of the last block
have been dropped. -/
def currentAt (size need pos lost : ℕ) : ℕ :=
  pos / size + if need ≤ pos % size - lost then 1 else 0

/-- How many packets of the last block have been dropped, after a batch of `k` more packets: those
beyond the window if the block is a new one. -/
def lostAfter (width size need pos lost k : ℕ) : ℕ :=
  if (pos + k) / size = pos / size then lost
  else pos + k - (currentAt size need pos lost + width) * size

/-- Batches of these lengths can be handled: none of them reaches so far beyond the window that the
first block there could not get the packets it needs. -/
def Fits (width size need : ℕ) : ℕ → ℕ → List ℕ → Prop
  | _, _, [] => True
  | pos, lost, k :: ks => 0 < need ∧
    pos + k ≤ (currentAt size need pos lost + width) * size + (size - need) ∧
    Fits width size need (pos + k) (lostAfter width size need pos lost k) ks

/-- Whether the batches fit can be decided. -/
instance : ∀ (pos lost : ℕ) (ks : List ℕ), Decidable (Fits width size need pos lost ks)
  | _, _, [] => isTrue trivial
  | pos, lost, k :: ks =>
    have := instDecidableFits (pos + k) (lostAfter width size need pos lost k) ks
    inferInstanceAs (Decidable (_ ∧ _ ∧ _))

/-- The window has released every block it could, after the first `pos` packets of the stream, and
has dropped the first `lost` ones of the last block. -/
structure InStep (size need first pos lost : ℕ) (w : Window P) : Prop where
  next_eq : w.next = first + currentAt size need pos lost
  lost_le : lost ≤ pos % size ∧ lost ≤ size - need
  length_slots : ∀ j, currentAt size need pos lost ≤ j →
    (w.slots (first + j)).length = if j = pos / size then pos % size - lost else 0

/-! ## How many packets a slot holds -/

/-- How many packets of the `j`-th block there are in its slot after a batch of `k` packets. -/
def stored (width size need pos lost k j : ℕ) : ℕ :=
  (if j = pos / size then pos % size - lost else 0) +
    if j < currentAt size need pos lost + width then
      countAt size (pos + k) j - countAt size pos j
    else 0

section Stored

variable {k j : ℕ}

/-- The batch ends in the first block beyond the window, or before it. -/
lemma div_le_of_fits (hneed : 0 < need) (hle : need ≤ size)
    (hfit : pos + k ≤ (currentAt size need pos lost + width) * size + (size - need)) :
    (pos + k) / size ≤ currentAt size need pos lost + width := by
  have hlt : pos + k < (currentAt size need pos lost + width + 1) * size := by
    rw [Nat.add_mul _ 1]
    omega
  have := (Nat.div_lt_iff_lt_mul (show 0 < size by omega)).mpr hlt
  omega

/-- How many packets of the last block have been dropped. -/
lemma lostAfter_eq (hneed : 0 < need) (hle : need ≤ size)
    (hfit : pos + k ≤ (currentAt size need pos lost + width) * size + (size - need)) :
    lostAfter width size need pos lost k =
      if (pos + k) / size = pos / size then lost
      else if (pos + k) / size < currentAt size need pos lost + width then 0
      else (pos + k) % size := by
  have hend := div_le_of_fits hneed hle hfit
  have hq := Nat.div_add_mod' (pos + k) size
  have hr := Nat.mod_lt (pos + k) (show 0 < size by omega)
  rw [lostAfter]
  split
  · rfl
  · by_cases hlt : (pos + k) / size < currentAt size need pos lost + width
    · rw [if_pos hlt]
      have hmul := Nat.mul_le_mul_right size (show (pos + k) / size + 1 ≤ _ from hlt)
      rw [Nat.add_mul _ 1] at hmul
      omega
    · rw [if_neg hlt]
      have heq : (pos + k) / size = currentAt size need pos lost + width := by omega
      rw [heq] at hq
      omega

/-- The current block is the last one or the one after it. -/
lemma currentAt_cases (size need pos lost : ℕ) :
    currentAt size need pos lost = pos / size ∧ pos % size - lost < need ∨
      currentAt size need pos lost = pos / size + 1 ∧ need ≤ pos % size - lost := by
  unfold currentAt
  split <;> omega

/-- Within one block the place in the block moves on. -/
lemma mod_add_of_div_eq (h : (pos + k) / size = pos / size) :
    (pos + k) % size = pos % size + k := by
  have hpos := Nat.div_add_mod' pos size
  have hq := Nat.div_add_mod' (pos + k) size
  rw [h] at hq
  omega

/-- What is dropped of the last block is not too much. -/
lemma lostAfter_le (hneed : 0 < need) (hle : need ≤ size)
    (hlost : lost ≤ pos % size ∧ lost ≤ size - need)
    (hfit : pos + k ≤ (currentAt size need pos lost + width) * size + (size - need)) :
    lostAfter width size need pos lost k ≤ (pos + k) % size ∧
      lostAfter width size need pos lost k ≤ size - need := by
  have hend := div_le_of_fits hneed hle hfit
  have hq := Nat.div_add_mod' (pos + k) size
  rw [lostAfter_eq hneed hle hfit]
  split
  · rename_i hsame
    have := mod_add_of_div_eq hsame
    omega
  · split
    · omega
    · have heq : (pos + k) / size = currentAt size need pos lost + width := by omega
      rw [heq] at hq
      omega

/-- The slot of the block in which the batch ends, and those after it. -/
lemma stored_of_le (hneed : 0 < need) (hle : need ≤ size) (hwidth : 0 < width)
    (hlost : lost ≤ pos % size)
    (hfit : pos + k ≤ (currentAt size need pos lost + width) * size + (size - need))
    (hcur : currentAt size need pos lost ≤ j) (hj : (pos + k) / size ≤ j) :
    stored width size need pos lost k j =
      if j = (pos + k) / size then (pos + k) % size - lostAfter width size need pos lost k
      else 0 := by
  have hsize : 0 < size := by omega
  have hend := div_le_of_fits hneed hle hfit
  have hmono : pos / size ≤ (pos + k) / size := Nat.div_le_div_right (by omega)
  rw [stored, lostAfter_eq hneed hle hfit]
  by_cases hlast : j = (pos + k) / size
  · subst hlast
    rw [if_pos rfl, countAt_self hsize]
    by_cases hsame : (pos + k) / size = pos / size
    · have hmod := mod_add_of_div_eq hsame
      have hcovered : (pos + k) / size < currentAt size need pos lost + width := by
        rcases currentAt_cases size need pos lost with h | h <;> omega
      rw [if_pos hcovered, if_pos hsame, if_pos hsame, hsame, countAt_self hsize]
      omega
    · rw [if_neg hsame, if_neg hsame, countAt_of_gt hsize (by omega)]
      split <;> omega
  · rw [if_neg (by omega), if_neg hlast, countAt_of_gt hsize (by omega)]
    simp

/-- The slots of the blocks that have arrived to the end. -/
lemma need_le_stored (hneed : 0 < need) (hle : need ≤ size)
    (hlost : lost ≤ pos % size ∧ lost ≤ size - need)
    (hfit : pos + k ≤ (currentAt size need pos lost + width) * size + (size - need))
    (hcur : currentAt size need pos lost ≤ j) (hj : j < (pos + k) / size) :
    need ≤ stored width size need pos lost k j := by
  have hsize : 0 < size := by omega
  have hend := div_le_of_fits hneed hle hfit
  have hmod := Nat.mod_lt pos hsize
  rw [stored, if_pos (show j < _ + width by omega), countAt_of_lt hj]
  by_cases hfirst : j = pos / size
  · rw [if_pos hfirst, hfirst, countAt_self hsize]
    omega
  · have hgt : pos / size < j := by
      rcases currentAt_cases size need pos lost with h | h <;> omega
    rw [if_neg hfirst, countAt_of_gt hsize hgt]
    omega

end Stored

/-! ## Batches that fit -/

namespace InStep

variable {batch : List (ℕ × P)}

/-- At the start nothing has arrived. -/
lemma init (hneed : 0 < need) : InStep size need first 0 0 (Window.init P first) where
  next_eq := by
    have hzero : ¬ need = 0 := by omega
    simp [currentAt, Window.init, hzero]
  lost_le := ⟨Nat.zero_le _, Nat.zero_le _⟩
  length_slots j _ := by simp [Window.init]

/-- The slots after a batch. -/
lemma length_foldl_put (h : InStep size need first pos lost w) (hsize : 0 < size)
    (hin : InOrder first size pos batch) {j : ℕ} (hj : currentAt size need pos lost ≤ j) :
    ((batch.foldl (put width) w).slots (first + j)).length =
      stored width size need pos lost batch.length j := by
  have hcount := hin.length_packetsOf hsize j
  have hcovers : w.Covers width (first + j) ↔ j < currentAt size need pos lost + width := by
    rw [Covers, h.next_eq]
    omega
  rw [slots_foldl_put, List.length_append, h.length_slots j hj, stored]
  by_cases hc : j < currentAt size need pos lost + width
  · rw [if_pos (hcovers.mpr hc), if_pos hc]
    omega
  · rw [if_neg (mt hcovers.mp hc), if_neg hc]
    rfl

/-- The current block of a window that is in step only moves forward. -/
lemma currentAt_le {k : ℕ} (hneed : 0 < need) (hle : need ≤ size)
    (hfit : pos + k ≤ (currentAt size need pos lost + width) * size + (size - need)) :
    currentAt size need pos lost ≤
      currentAt size need (pos + k) (lostAfter width size need pos lost k) := by
  have hmono : pos / size ≤ (pos + k) / size := Nat.div_le_div_right (by omega)
  have hcur := currentAt_cases size need pos lost
  have hcur' := currentAt_cases size need (pos + k) (lostAfter width size need pos lost k)
  by_cases hsame : (pos + k) / size = pos / size
  · have hmod := mod_add_of_div_eq hsame
    rw [lostAfter_eq hneed hle hfit, if_pos hsame] at hcur' ⊢
    omega
  · omega

/-- **The step lemma.** -/
theorem step (h : InStep size need first pos lost w) (hneed : 0 < need) (hle : need ≤ size)
    (hwidth : 0 < width) (hin : InOrder first size pos batch)
    (hfit : pos + batch.length ≤
      (currentAt size need pos lost + width) * size + (size - need)) :
    ∃ out w', Settles need (batch.foldl (put width) w) out w' ∧
      InStep size need first (pos + batch.length)
        (lostAfter width size need pos lost batch.length) w' := by
  have hlen : ∀ j, currentAt size need pos lost ≤ j →
      ((batch.foldl (put width) w).slots (first + j)).length =
        stored width size need pos lost batch.length j :=
    fun j => h.length_foldl_put (by omega) hin
  have hmono := currentAt_le hneed hle hfit
  set k := batch.length
  set lost' := lostAfter width size need pos lost k with hlost'
  have hcur' := currentAt_cases size need (pos + k) lost'
  -- The first block that lacks packets.
  have hlast : stored width size need pos lost k (currentAt size need (pos + k) lost') < need := by
    rw [stored_of_le hneed hle hwidth h.lost_le.1 hfit hmono (by omega)]
    split <;> omega
  obtain ⟨out, w', hs⟩ : ∃ out w', Settles need (batch.foldl (put width) w) out w' := by
    refine exists_settles (n := first + currentAt size need (pos + k) lost') ?_ ?_
    · rw [next_foldl_put, h.next_eq]
      omega
    · rwa [hlen _ hmono]
  have hspec := hs.spec
  have hge := hspec.le
  rw [next_foldl_put, h.next_eq] at hge
  have hnext : w'.next = first + currentAt size need (pos + k) lost' := by
    obtain ⟨j, hj⟩ : ∃ j, w'.next = first + j := ⟨w'.next - first, by omega⟩
    have hinc := hspec.incomplete
    rw [hj, hlen j (by omega)] at hinc
    rcases Nat.lt_trichotomy j (currentAt size need (pos + k) lost') with hlt | heq | hgt
    · by_cases hfull : j < (pos + k) / size
      · have := need_le_stored hneed hle h.lost_le hfit (show _ ≤ j by omega) hfull
        omega
      · rw [stored_of_le hneed hle hwidth h.lost_le.1 hfit (by omega) (by omega),
          if_pos (by omega)] at hinc
        omega
    · rw [hj, heq]
    · have hcomplete := hspec.complete (first + currentAt size need (pos + k) lost')
        (by rw [next_foldl_put, h.next_eq]; omega) (by omega)
      rw [hlen _ hmono] at hcomplete
      omega
  refine ⟨out, w', hs, hnext, lostAfter_le hneed hle h.lost_le hfit, fun j hj => ?_⟩
  rw [hspec.slots_eq _ (by omega), hlen j (by omega),
    stored_of_le hneed hle hwidth h.lost_le.1 hfit (by omega) (by omega)]

/-- A packet of a batch that fits is close to the window. -/
lemma close (h : InStep size need first pos lost w) (hneed : 0 < need) (hle : need ≤ size)
    (hwidth : 0 < width) (hin : InOrder first size pos batch)
    (hfit : pos + batch.length ≤ (currentAt size need pos lost + width) * size + (size - need))
    {a : ℕ × P} (ha : a ∈ batch) : w.Close width a := by
  obtain ⟨i, hpos, hlt, hai⟩ := hin.exists_of_mem ha
  have hend := div_le_of_fits hneed hle hfit
  have hfirst : pos / size ≤ i / size := Nat.div_le_div_right hpos
  have hlast : i / size ≤ (pos + batch.length) / size := Nat.div_le_div_right (by omega)
  have hcur := currentAt_cases size need pos lost
  rw [Close, h.next_eq, hai]
  omega

end InStep

/-- **Batches that fit** are handled, and the window stays in step with the stream. -/
theorem exists_processes_of_fits (hle : need ≤ size) (hwidth : 0 < width)
    {batches : List (List (ℕ × P))} (h : InStep size need first pos lost w)
    (hin : InOrder first size pos batches.flatten)
    (hfits : Fits width size need pos lost (batches.map List.length)) :
    ∃ out w' lost', Processes width need (Close width) w batches out w' ∧
      InStep size need first (pos + batches.flatten.length) lost' w' := by
  induction batches generalizing pos lost w with
  | nil => exact ⟨[], w, lost, .nil, h⟩
  | cons batch batches ih =>
    obtain ⟨hneed, hfit, hfits⟩ := hfits
    rw [List.flatten_cons, InOrder.append_iff] at hin
    obtain ⟨out, u, hs, hu⟩ := h.step hneed hle hwidth hin.1 hfit
    obtain ⟨out', w', lost', hp, hw'⟩ := ih hu hin.2 hfits
    have hend : pos + (batch :: batches).flatten.length =
        pos + batch.length + batches.flatten.length := by
      rw [List.flatten_cons, List.length_append]
      omega
    rw [hend]
    exact ⟨out ++ out', w', lost', .cons (fun a => h.close hneed hle hwidth hin.1 hfit) hs hp, hw'⟩

end Window
