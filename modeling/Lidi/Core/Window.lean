import Mathlib.Data.List.Forall2
import Mathlib.Logic.Function.Basic
import Mathlib.Tactic.Common

set_option relaxedAutoImplicit false
set_option autoImplicit false

/-!
# Reordering windows

Packets carry the number of the block they belong to and arrive in any order. A *window* collects
the packets of the current block and of the `width - 1` blocks after it, and drops all others. As
soon as the current block has as many packets as are needed, it is released, and the window moves
on.

Numbers are natural numbers here: they never wrap around.

## Main definitions

* `packetsOf` — the packets of one block among those that have arrived.
* `Window` — the packets collected so far, and the number of the current block.
* `Window.put`, `Window.release` — a packet arrives; the current block is released.
* `Window.Settles` — all complete blocks are released, in order.
* `Window.Processes` — how a window handles batches of packets that meet a condition.

## Main results

* `Window.Settles.spec` — what is released, and what is left.
* `Window.Processes.released` — what is released while batches arrive.
* `Window.exists_settles` — with a bound on the numbers that have arrived, a window settles.
* `Window.tolerates_reordering` — if no packet is overtaken by a packet of a block that is `width`
  or more blocks ahead, and enough packets of every block arrive, every block is released.
-/

open Function

/-- The packets of block `n`, in the order of arrival. -/
def packetsOf {P : Type*} (arrivals : List (ℕ × P)) (n : ℕ) : List P :=
  (arrivals.filter (·.1 = n)).map Prod.snd

section PacketsOf

variable {P : Type*} (as bs : List (ℕ × P)) (a : ℕ × P) (n : ℕ)

/-- No arrivals have no packets. -/
@[simp]
lemma packetsOf_nil : packetsOf ([] : List (ℕ × P)) n = [] := rfl

/-- The packets of two lists of arrivals. -/
@[simp]
lemma packetsOf_append : packetsOf (as ++ bs) n = packetsOf as n ++ packetsOf bs n := by
  simp [packetsOf]

/-- The packets of a first arrival and of the rest. -/
lemma packetsOf_cons : packetsOf (a :: as) n = packetsOf [a] n ++ packetsOf as n :=
  packetsOf_append [a] as n

/-- An arrival is a packet of its own block. -/
@[simp]
lemma packetsOf_singleton_self : packetsOf [a] a.1 = [a.2] := by
  simp [packetsOf]

variable {a n}

/-- It is no packet of another block. -/
lemma packetsOf_singleton_of_ne (h : a.1 ≠ n) : packetsOf [a] n = [] := by
  simp [packetsOf, h]

variable {as}

/-- There are packets of a block only if one has arrived. -/
lemma packetsOf_eq_nil (h : ∀ a ∈ as, a.1 ≠ n) : packetsOf as n = [] := by
  rw [packetsOf, List.map_eq_nil_iff, List.filter_eq_nil_iff]
  simpa using h

/-- A block with packets has had an arrival. -/
lemma exists_mem_of_packetsOf_pos (h : 0 < (packetsOf as n).length) : ∃ a ∈ as, a.1 = n := by
  by_contra hno
  rw [packetsOf_eq_nil fun a ha han => hno ⟨a, ha, han⟩] at h
  simp at h

end PacketsOf

/-- A reordering window: the number of the current block, and the packets collected for each
block. -/
structure Window (P : Type*) where
  next : ℕ
  slots : ℕ → List P

namespace Window

variable {P : Type*} {width need : ℕ} {w w' : Window P}

/-- An empty window that starts at block `n`. -/
def init (P : Type*) (n : ℕ) : Window P where
  next := n
  slots := fun _ => []

/-- The window collects packets of block `n`. -/
def Covers (width : ℕ) (w : Window P) (n : ℕ) : Prop :=
  w.next ≤ n ∧ n < w.next + width

/-- Whether a window covers a block can be decided. -/
instance (n : ℕ) : Decidable (w.Covers width n) := by
  unfold Covers
  infer_instance

/-- A packet arrives. -/
def put (width : ℕ) (w : Window P) (a : ℕ × P) : Window P :=
  if w.Covers width a.1 then { w with slots := update w.slots a.1 (w.slots a.1 ++ [a.2]) } else w

/-- The current block is released. -/
def release (w : Window P) : Window P where
  next := w.next + 1
  slots := update w.slots w.next []

/-- Blocks are released as long as the current one has the packets it needs. -/
inductive Settles (need : ℕ) : Window P → List (ℕ × List P) → Window P → Prop
  | done {w : Window P} (h : (w.slots w.next).length < need) : Settles need w [] w
  | release {w w' : Window P} {out : List (ℕ × List P)} (h : need ≤ (w.slots w.next).length)
      (hs : Settles need w.release out w') :
      Settles need w ((w.next, w.slots w.next) :: out) w'

/-- Batches arrive, and every packet meets a condition on the window before its batch; `out` is what
is released. -/
inductive Processes (width need : ℕ) (ok : Window P → ℕ × P → Prop) :
    Window P → List (List (ℕ × P)) → List (ℕ × List P) → Window P → Prop
  | nil {w : Window P} : Processes width need ok w [] [] w
  | cons {w u w' : Window P} {batch : List (ℕ × P)} {batches : List (List (ℕ × P))}
      {out out' : List (ℕ × List P)} (hok : ∀ a ∈ batch, ok w a)
      (hs : Settles need (batch.foldl (put width) w) out u)
      (h : Processes width need ok u batches out' w') :
      Processes width need ok w (batch :: batches) (out ++ out') w'

/-! ## Packets arriving -/

section Put

variable (width) (w) (a : ℕ × P) (batch : List (ℕ × P))

/-- A packet does not move the window. -/
@[simp]
lemma next_put : (w.put width a).next = w.next := by
  simp only [put]
  split <;> rfl

/-- Nor does a batch of packets. -/
@[simp]
lemma next_foldl_put : (batch.foldl (put width) w).next = w.next := by
  induction batch generalizing w with
  | nil => rfl
  | cons a batch ih => rw [List.foldl_cons, ih, next_put]

/-- What one packet adds to the slots. -/
lemma slots_put (n : ℕ) : (w.put width a).slots n =
    w.slots n ++ if w.Covers width n then packetsOf [a] n else [] := by
  by_cases han : a.1 = n
  · subst han
    by_cases hc : w.Covers width a.1 <;> simp [put, hc]
  · rw [packetsOf_singleton_of_ne han, ite_self, List.append_nil, put]
    split
    · exact update_of_ne (Ne.symm han) _ _
    · rfl

/-- What a batch adds to the slots. -/
lemma slots_foldl_put (n : ℕ) : (batch.foldl (put width) w).slots n =
    w.slots n ++ if w.Covers width n then packetsOf batch n else [] := by
  induction batch generalizing w with
  | nil => simp
  | cons a batch ih =>
    have hcovers : (w.put width a).Covers width n ↔ w.Covers width n := by
      simp only [Covers, next_put]
    rw [List.foldl_cons, ih, slots_put, packetsOf_cons batch a n]
    by_cases hc : w.Covers width n
    · rw [if_pos hc, if_pos (hcovers.mpr hc), if_pos hc, List.append_assoc]
    · rw [if_neg hc, if_neg (mt hcovers.mp hc), if_neg hc, List.append_nil, List.append_nil]

end Put

/-! ## Blocks released -/

/-- What is released by a window that settles: the blocks from the current one up to the first one
that lacks packets. -/
structure Settled (need : ℕ) (w : Window P) (out : List (ℕ × List P)) (w' : Window P) : Prop where
  le : w.next ≤ w'.next
  complete : ∀ n, w.next ≤ n → n < w'.next → need ≤ (w.slots n).length
  incomplete : (w.slots w'.next).length < need
  out_eq : out = (List.range' w.next (w'.next - w.next)).map fun n => (n, w.slots n)
  slots_eq : ∀ n, w'.next ≤ n → w'.slots n = w.slots n

/-- **What is released, and what is left.** -/
theorem Settles.spec {out : List (ℕ × List P)} (h : Settles need w out w') :
    Settled need w out w' := by
  induction h with
  | done h =>
    refine ⟨Nat.le_refl _, fun n hn hn' => ?_, h, by simp, fun _ _ => rfl⟩
    omega
  | @release w w' out h _ ih =>
    have hslots : ∀ n, w.next + 1 ≤ n → w.release.slots n = w.slots n := by
      intro n hn
      have hne : n ≠ w.next := by omega
      exact update_of_ne hne _ _
    have hle : w.next + 1 ≤ w'.next := ih.le
    refine ⟨by omega, fun n hn hn' => ?_, ?_, ?_, fun n hn => ?_⟩
    · rcases Nat.eq_or_lt_of_le hn with rfl | hlt
      · exact h
      · rw [← hslots n hlt]
        exact ih.complete n hlt hn'
    · rw [← hslots _ hle]
      exact ih.incomplete
    · have hsplit : w'.next - w.next = w'.next - (w.next + 1) + 1 := by omega
      rw [hsplit, List.range'_succ, List.map_cons, ih.out_eq]
      congr 1
      refine List.map_congr_left fun n hn => ?_
      have hn : w.next + 1 ≤ n := (List.mem_range'_1.mp hn).1
      show (n, w.release.slots n) = (n, w.slots n)
      rw [hslots n hn]
    · rw [ih.slots_eq n hn, hslots n (by omega)]

/-- **A window settles**, as soon as there is a block that lacks packets. -/
theorem exists_settles {n : ℕ} (hle : w.next ≤ n) (h : (w.slots n).length < need) :
    ∃ out w', Settles need w out w' := by
  induction hd : n - w.next generalizing w with
  | zero =>
    obtain rfl : n = w.next := by omega
    exact ⟨[], w, .done h⟩
  | succ d ih =>
    by_cases hcur : (w.slots w.next).length < need
    · exact ⟨[], w, .done hcur⟩
    · have hne : n ≠ w.next := by omega
      have hn : (w.release.slots n).length < need := by
        show (update w.slots w.next [] n).length < need
        rwa [update_of_ne hne]
      have hle' : w.release.next ≤ n := by
        show w.next + 1 ≤ n
        omega
      obtain ⟨out, w', hs⟩ := ih hle' hn (by show n - (w.next + 1) = d; omega)
      exact ⟨_, w', .release (by omega) hs⟩

/-- What is released while batches arrive: consecutive blocks, each with the packets it needs, and
only packets that were there before or have arrived. -/
structure Released (need : ℕ) (w : Window P) (arrivals : List (ℕ × P)) (out : List (ℕ × List P))
    (w' : Window P) : Prop where
  le : w.next ≤ w'.next
  numbers : out.map Prod.fst = List.range' w.next (w'.next - w.next)
  complete : ∀ b ∈ out, need ≤ b.2.length
  sublist : ∀ b ∈ out, (b.2).Sublist (w.slots b.1 ++ packetsOf arrivals b.1)

/-- **What is released.** -/
theorem Processes.released {ok : Window P → ℕ × P → Prop} {batches : List (List (ℕ × P))}
    {out : List (ℕ × List P)} (h : Processes width need ok w batches out w') :
    Released need w batches.flatten out w' := by
  induction h with
  | @nil w => exact ⟨Nat.le_refl _, by simp, by simp, by simp⟩
  | @cons w u w' batch batches out out' _ hs _ ih =>
    have hspec := hs.spec
    have hle : w.next ≤ u.next := by simpa using hspec.le
    have hle' := ih.le
    have hput : ∀ n, ((batch.foldl (put width) w).slots n).Sublist
        (w.slots n ++ packetsOf batch n) := by
      intro n
      rw [slots_foldl_put]
      refine (List.Sublist.refl _).append ?_
      split
      · exact List.Sublist.refl _
      · exact List.nil_sublist _
    refine ⟨by omega, ?_, fun b hb => ?_, fun b hb => ?_⟩
    · rw [List.map_append, ih.numbers, hspec.out_eq, List.map_map, next_foldl_put,
        show w'.next - w.next = (u.next - w.next) + (w'.next - u.next) by omega,
        ← List.range'_append_1, show w.next + (u.next - w.next) = u.next by omega]
      exact congrArg (· ++ _) (List.map_id _)
    · rcases List.mem_append.mp hb with hb | hb
      · rw [hspec.out_eq] at hb
        obtain ⟨n, hn, rfl⟩ := List.mem_map.mp hb
        have hn := List.mem_range'_1.mp hn
        have := hspec.le
        exact hspec.complete n hn.1 (by omega)
      · exact ih.complete b hb
    · rw [List.flatten_cons, packetsOf_append, ← List.append_assoc]
      rcases List.mem_append.mp hb with hb | hb
      · rw [hspec.out_eq] at hb
        obtain ⟨n, -, rfl⟩ := List.mem_map.mp hb
        exact (hput n).trans (List.sublist_append_left _ _)
      · have hnext : u.next ≤ b.1 := by
          have hmem := List.mem_map_of_mem (f := Prod.fst) hb
          rw [ih.numbers] at hmem
          exact (List.mem_range'_1.mp hmem).1
        have hsub := ih.sublist b hb
        rw [hspec.slots_eq b.1 hnext] at hsub
        exact hsub.trans ((hput b.1).append (List.Sublist.refl _))

/-! ## Tolerance of reordering -/

/-- The packet is less than `width` blocks ahead of the current block and at most `width` blocks
behind it. -/
def Near (width : ℕ) (w : Window P) (a : ℕ × P) : Prop :=
  a.1 < w.next + width ∧ w.next ≤ a.1 + width

/-- The packet is less than `2 * width` blocks ahead of the current block and at most `width` blocks
behind it. -/
def Close (width : ℕ) (w : Window P) (a : ℕ × P) : Prop :=
  a.1 < w.next + 2 * width ∧ w.next ≤ a.1 + width

/-- What is near the window is close to it. -/
lemma Near.close {a : ℕ × P} (h : w.Near width a) : w.Close width a :=
  ⟨by have := h.1; omega, h.2⟩

/-- The invariant of a window that has lost nothing: all packets of the current block and the later
ones are in their slots, and the blocks before are complete. -/
structure Tracks (width need first : ℕ) (arrived : List (ℕ × P)) (w : Window P) : Prop where
  first_le : first ≤ w.next
  near : ∀ a ∈ arrived, a.1 < w.next + width
  slots_eq : ∀ n, w.next ≤ n → w.slots n = packetsOf arrived n
  complete : ∀ n, first ≤ n → n < w.next → need ≤ (packetsOf arrived n).length
  incomplete : (packetsOf arrived w.next).length < need

namespace Tracks

variable {first last : ℕ} {arrived rest : List (ℕ × P)} {a : ℕ × P}

/-- At the start nothing has arrived. -/
lemma init (hneed : 0 < need) : Tracks width need first [] (Window.init P first) where
  first_le := Nat.le_refl _
  near := by simp
  slots_eq := by simp [Window.init]
  complete n hn hn' := absurd (Nat.lt_of_le_of_lt hn hn') (Nat.lt_irrefl _)
  incomplete := hneed

/-- The next packet is near: otherwise it would have overtaken a packet of the current block, which
lacks packets, or would have been overtaken by one of the block before it. -/
lemma near_next (h : Tracks width need first arrived w) (hneed : 0 < need) (hwidth : 0 < width)
    (hrange : ∀ b ∈ arrived ++ a :: rest, first ≤ b.1 ∧ b.1 ≤ last)
    (hall : ∀ n, first ≤ n → n ≤ last → need ≤ (packetsOf (arrived ++ a :: rest) n).length)
    (horder : (arrived ++ a :: rest).Pairwise fun b c => b.1 < c.1 + width) :
    w.Near width a := by
  have ha := hrange a (by simp)
  rw [List.pairwise_append, List.pairwise_cons] at horder
  obtain ⟨-, ⟨hlater, -⟩, hearlier⟩ := horder
  constructor
  · by_contra hfar
    have hcur := hall w.next h.first_le (by omega)
    rw [packetsOf_append, packetsOf_cons, packetsOf_singleton_of_ne (by omega), List.nil_append,
      List.length_append] at hcur
    have hinc := h.incomplete
    obtain ⟨b, hb, hbn⟩ : ∃ b ∈ rest, b.1 = w.next := exists_mem_of_packetsOf_pos (by omega)
    have := hlater b hb
    omega
  · by_contra hfar
    have hprev := h.complete (w.next - 1) (by omega) (by omega)
    obtain ⟨b, hb, hbn⟩ : ∃ b ∈ arrived, b.1 = w.next - 1 :=
      exists_mem_of_packetsOf_pos (by omega)
    have := hearlier b hb a List.mem_cons_self
    omega

/-- **The step lemma.** A near packet is put into its slot, or its block is already complete. -/
lemma step (h : Tracks width need first arrived w) (hneed : 0 < need) (hnear : w.Near width a) :
    ∃ out w', Settles need (w.put width a) out w' ∧
      Tracks width need first (arrived ++ [a]) w' := by
  have hput : ∀ n, w.next ≤ n → (w.put width a).slots n = packetsOf (arrived ++ [a]) n := by
    intro n hn
    rw [slots_put, h.slots_eq n hn, packetsOf_append]
    by_cases hc : w.Covers width n
    · rw [if_pos hc]
    · have hne : a.1 ≠ n := by
        rintro rfl
        exact hc ⟨hn, hnear.1⟩
      rw [if_neg hc, packetsOf_singleton_of_ne hne]
  have hfar : ∀ b ∈ arrived ++ [a], b.1 < w.next + width := by
    intro b hb
    rcases List.mem_append.mp hb with hb | hb
    · exact h.near b hb
    · rw [List.mem_singleton.mp hb]
      exact hnear.1
  have hempty : packetsOf (arrived ++ [a]) (w.next + width) = [] :=
    packetsOf_eq_nil fun b hb => Nat.ne_of_lt (hfar b hb)
  obtain ⟨out, w', hs⟩ : ∃ out w', Settles need (w.put width a) out w' := by
    refine exists_settles (n := w.next + width) (by simp) ?_
    rw [hput _ (by omega), hempty]
    exact hneed
  have hspec := hs.spec
  have hle : w.next ≤ w'.next := by simpa using hspec.le
  have hfirst := h.first_le
  refine ⟨out, w', hs, by omega, fun b hb => ?_, fun n hn => ?_, fun n hn hn' => ?_, ?_⟩
  · have := hfar b hb
    omega
  · rw [hspec.slots_eq n hn, hput n (by omega)]
  · by_cases hlt : n < w.next
    · rw [packetsOf_append, List.length_append]
      have := h.complete n hn hlt
      omega
    · rw [← hput n (by omega)]
      exact hspec.complete n (by simpa using hlt) hn'
  · rw [← hput _ hle]
    exact hspec.incomplete

/-- The packets that are still to come are handled one by one. -/
lemma exists_processes (hneed : 0 < need) (hwidth : 0 < width)
    (h : Tracks width need first arrived w)
    (hrange : ∀ b ∈ arrived ++ rest, first ≤ b.1 ∧ b.1 ≤ last)
    (hall : ∀ n, first ≤ n → n ≤ last → need ≤ (packetsOf (arrived ++ rest) n).length)
    (horder : (arrived ++ rest).Pairwise fun b c => b.1 < c.1 + width) :
    ∃ out w', Processes width need (Near width) w (rest.map ([·])) out w' ∧
      Tracks width need first (arrived ++ rest) w' := by
  induction rest generalizing arrived w with
  | nil => exact ⟨[], w, .nil, by simpa using h⟩
  | cons a rest ih =>
    have hnear := h.near_next hneed hwidth hrange hall horder
    obtain ⟨out, u, hs, hu⟩ := h.step hneed hnear
    have hsplit : arrived ++ a :: rest = (arrived ++ [a]) ++ rest := by simp
    rw [hsplit] at hrange hall horder ⊢
    obtain ⟨out', w', hp, hw'⟩ := ih hu hrange hall horder
    exact ⟨out ++ out', w', .cons (by simpa using hnear) hs hp, hw'⟩

/-- When all packets have arrived, all blocks have been released. -/
lemma next_eq (h : Tracks width need first arrived w) (hneed : 0 < need)
    (hrange : ∀ b ∈ arrived, first ≤ b.1 ∧ b.1 ≤ last)
    (hall : ∀ n, first ≤ n → n ≤ last → need ≤ (packetsOf arrived n).length) :
    w.next - first = last + 1 - first := by
  have hfirst := h.first_le
  have hge : first ≤ last → last < w.next := by
    intro hle
    by_contra hlt
    have h₁ := hall w.next hfirst (by omega)
    have h₂ := h.incomplete
    omega
  -- Only blocks of which packets have arrived are released.
  have hle : first < w.next → w.next ≤ last + 1 := by
    intro hlt
    by_contra hgt
    have hprev := h.complete (w.next - 1) (by omega) (by omega)
    obtain ⟨b, hb, hbn⟩ : ∃ b ∈ arrived, b.1 = w.next - 1 :=
      exists_mem_of_packetsOf_pos (by omega)
    have := hrange b hb
    omega
  omega

end Tracks

/-- **A window tolerates reordering**, with the packets arriving one by one.

**Proof sketch.** Every packet is near the window when it arrives, so nothing is lost and no slot is
needed beyond the window. -/
theorem tolerates_reordering (hneed : 0 < need) (hwidth : 0 < width) {first last : ℕ}
    {arrivals : List (ℕ × P)} (hrange : ∀ a ∈ arrivals, first ≤ a.1 ∧ a.1 ≤ last)
    (hall : ∀ n, first ≤ n → n ≤ last → need ≤ (packetsOf arrivals n).length)
    (horder : arrivals.Pairwise fun a b => a.1 < b.1 + width) :
    ∃ out w', Processes width need (Near width) (init P first) (arrivals.map ([·])) out w' ∧
      out.map Prod.fst = List.range' first (last + 1 - first) ∧
      ∀ b ∈ out, need ≤ b.2.length ∧ (b.2).Sublist (packetsOf arrivals b.1) := by
  obtain ⟨out, w', hp, htracks⟩ :=
    Tracks.exists_processes hneed hwidth (.init hneed) hrange hall horder
  have hreleased := hp.released
  have hflatten : (arrivals.map ([·])).flatten = arrivals := by
    rw [← List.flatMap_def, List.flatMap_singleton']
  refine ⟨out, w', hp, ?_, fun b hb => ⟨hreleased.complete b hb, ?_⟩⟩
  · rw [hreleased.numbers, ← htracks.next_eq hneed hrange hall]
    rfl
  · have hsub := hreleased.sublist b hb
    rw [hflatten] at hsub
    exact hsub

end Window
