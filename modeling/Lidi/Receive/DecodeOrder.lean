import Lidi.Receive.Decode

set_option relaxedAutoImplicit false
set_option autoImplicit false

/-!
# Blocks that fail to decode, and loss markers

A decoding thread whose block fails to decode sends `None` at once and leaves `block_to_dispatch`
as it is. Two things follow.

* The turn never reaches the blocks after the failed one, until 256 blocks have failed and the
  numbers have wrapped around. So the threads do not get stuck exactly if every block that decodes
  comes after a number of failed blocks that is a multiple of 256.
* A marker may be sent before a block that was emitted earlier, or after a block that was emitted
  later. Markers keep their place if no thread takes an item of one kind while there are items of
  the other kind in hand.

## Main definitions

* `Receive.blockRun` — blocks with consecutive numbers.
* `Receive.NeverBlocks`, `Receive.EvenFailures` — the two sides of the first statement.
* `Receive.KeepsApart` — the condition of the second one.

## Main results

* `Receive.neverBlocks_iff` — when the decoding threads get stuck.
* `Receive.markers_keep_place` — when markers keep their place.
-/

namespace Lidi.Receive

open Turnstile

variable {n : ℕ} {Packet : Type*} {decode : UInt8 → List Packet → Option (List UInt8)}
  {s : Decoding n Packet}

/-! ## Progress after a failed block -/

/-- Blocks with consecutive numbers from `turn` on. -/
def blockRun (turn : UInt8) (packets : List (List Packet)) : List (Reassembled Packet) :=
  packets.mapIdx fun j ps => .block (turn + UInt8.ofNat j) ps

/-- The emissions are those of the given list, in order. -/
def Follows (items : List (Reassembled Packet)) (s : Decoding n Packet) :
    Decoding.Label n Packet → Prop
  | .emit r => s.emitted ++ [r] <+: items
  | .decode _ | .dispatch => True

/-- Whether an emission follows the list can be decided. -/
instance [DecidableEq Packet] (items : List (Reassembled Packet)) (s : Decoding n Packet)
    (a : Decoding.Label n Packet) : Decidable (Follows items s a) :=
  match a with
  | .emit r => inferInstanceAs (Decidable (s.emitted ++ [r] <+: items))
  | .decode _ | .dispatch => inferInstanceAs (Decidable True)

/-- Whenever a block is queued for decoding or in the hands of a decoding thread, some decoding
thread can take a step. -/
def NeverBlocks (decode : UInt8 → List Packet → Option (List UInt8)) (n : ℕ) (turn : UInt8)
    (packets : List (List Packet)) : Prop :=
  ∀ s : Decoding n Packet,
    LTS.ReachVia (Decoding.step decode) (Follows (blockRun turn packets))
      (Decoding.init n Packet turn) s →
    s.gate.input ≠ [] ∨ s.gate.held ≠ [] → ∃ w, (Decoding.step decode s (.decode w)).isSome = true

/-- The number of items that are not passed on as a block. -/
def failures (decode : UInt8 → List Packet → Option (List UInt8))
    (items : List (Reassembled Packet)) : ℕ :=
  items.countP fun r => !(decodeItem decode r).isPass

/-- Every block that decodes comes after a multiple of 256 of blocks that do not. -/
def EvenFailures (decode : UInt8 → List Packet → Option (List UInt8))
    (items : List (Reassembled Packet)) : Prop :=
  ∀ (j : ℕ) (hj : j < items.length), (decodeItem decode items[j]).isPass = true →
    256 ∣ failures decode (items.take j)

/-- Whether the failures are even can be decided. -/
instance (items : List (Reassembled Packet)) : Decidable (EvenFailures decode items) :=
  inferInstanceAs (Decidable (∀ j, ∀ _ : j < items.length, _))

section Progress

variable {items : List (Reassembled Packet)} {turn : UInt8} {packets : List (List Packet)}

/-- There is one block for each list of packets. -/
@[simp]
lemma length_blockRun (turn : UInt8) (packets : List (List Packet)) :
    (blockRun turn packets).length = packets.length := by
  simp [blockRun]

/-- A block of the run that decodes has its position as its number. -/
lemma decodeItem_blockRun {j : ℕ} (hj : j < (blockRun turn packets).length)
    (hpass : (decodeItem decode (blockRun turn packets)[j]).isPass = true) :
    ∃ x, decodeItem decode (blockRun turn packets)[j] = .pass (turn + UInt8.ofNat j) x := by
  simp only [blockRun, List.getElem_mapIdx] at hpass ⊢
  exact decodeItem_block hpass

/-- The items split into those that are passed on and the failed ones. -/
lemma passes_add_failures (decode : UInt8 → List Packet → Option (List UInt8))
    (l : List (Reassembled Packet)) :
    (passes (l.map (decodeItem decode))).length + failures decode l = l.length := by
  induction l with
  | nil => rfl
  | cons r l ih =>
    cases hr : decodeItem decode r <;> simp [failures, hr] at ih ⊢ <;> omega

/-- After a multiple of 256 of failures the position and the number of blocks passed on agree. -/
lemma ofNat_eq_of_even {l : List (Reassembled Packet)} (h : 256 ∣ failures decode l) :
    UInt8.ofNat l.length = UInt8.ofNat (passes (l.map (decodeItem decode))).length := by
  have hsum := passes_add_failures decode l
  rw [← UInt8.toNat_inj, UInt8.toNat_ofNat', UInt8.toNat_ofNat']
  omega

/-- **With even failures the blocks stay in order.** The number that comes next at the turnstile
is given by the number of blocks passed on. -/
lemma inOrder_of_even (heven : EvenFailures decode (blockRun turn packets)) (hn : n < 256)
    (h : LTS.ReachVia (Decoding.step decode) (Follows (blockRun turn packets))
      (Decoding.init n Packet turn) s) :
    s.Inv decode ∧ Awake s.gate ∧ InOrder (decoding decode)
      (turn + UInt8.ofNat (passes (s.emitted.map (decodeItem decode))).length) s.gate := by
  refine h.invariant (P := fun s => s.Inv decode ∧ Awake s.gate ∧ InOrder (decoding decode)
    (turn + UInt8.ofNat (passes (s.emitted.map (decodeItem decode))).length) s.gate)
    ⟨.init _ _, by simp [Awake, Decoding.init, Gate.init],
      by simpa [Decoding.init] using InOrder.init (decoding decode) turn⟩ ?_
  rintro s a s' - ⟨hinv, hawake, hord⟩ hok hs
  refine ⟨hinv.step hs, Decoding.awake_step hawake hs, ?_⟩
  cases Decoding.step_iff.mp hs with
  | emit r =>
    have hpre : s.emitted ++ [r] <+: blockRun turn packets := hok
    have hlen : s.emitted.length < (blockRun turn packets).length := by
      have := hpre.length_le
      simp only [List.length_append, List.length_singleton] at this
      omega
    have hget : (blockRun turn packets)[s.emitted.length] = r := by
      obtain ⟨rest, hrest⟩ := hpre
      simp [← hrest]
    have htake : (blockRun turn packets).take s.emitted.length = s.emitted := by
      obtain ⟨rest, hrest⟩ := hpre
      simp [← hrest]
    cases hr : decodeItem decode r with
    | marker =>
      have hpush := hord.push_marker (a := r) hr
      simpa [Decoding.emit, hr] using hpush
    | pass id x =>
      have hpass : (decodeItem decode (blockRun turn packets)[s.emitted.length]).isPass = true := by
        rw [hget, hr]
        rfl
      have hdvd := heven _ hlen hpass
      rw [htake] at hdvd
      obtain ⟨y, hy⟩ := decodeItem_blockRun hlen hpass
      rw [hget, hr, Item.pass.injEq] at hy
      have hid : id = turn + UInt8.ofNat (passes (s.emitted.map (decodeItem decode))).length := by
        rw [← ofNat_eq_of_even hdvd]
        exact hy.1
      rw [hid] at hr
      have hpush := hord.push_pass (a := r) hr
      have hnext : turn + UInt8.ofNat (passes ((s.emitted ++ [r]).map (decodeItem decode))).length
          = turn + UInt8.ofNat (passes (s.emitted.map (decodeItem decode))).length + 1 := by
        simp [hr, UInt8.add_assoc]
      change InOrder (decoding decode)
        (turn + UInt8.ofNat (passes ((s.emitted ++ [r]).map (decodeItem decode))).length) _
      rw [hnext]
      exact hpush
  | decode hgate => exact hord.step hinv.gate hn hgate
  | dispatch hout => exact hord.pop _

/-- What the threads can do, they can do in the whole. -/
lemma reach_of_gate {ok : Decoding n Packet → Decoding.Label n Packet → Prop}
    {gate : Gate n (Reassembled Packet) Block} {ws : List (Fin n)} (hok : ∀ s w, ok s (.decode w))
    (h : LTS.run (Turnstile.step (decoding decode)) s.gate ws = some gate) :
    LTS.ReachVia (Decoding.step decode) ok s { s with gate := gate } :=
  (LTS.reach_of_run h).simulate (fun gate => { s with gate := gate }) fun _ w _ _ _ hs =>
    .tail .refl (hok _ w) (Decoding.step_iff.mpr (.decode hs))

/-- The next item may be emitted. -/
lemma follows_getElem {j : ℕ} (hj : j < items.length) (hemitted : s.emitted = items.take j) :
    Follows items s (.emit items[j]) := by
  change s.emitted ++ [items[j]] <+: items
  rw [hemitted, ← List.take_succ_eq_append_getElem hj]
  exact List.take_prefix _ _

/-- One thread alone can take the pool through the first items, as long as their failures are
even. -/
lemma exists_resting (w : Fin n) (j : ℕ) (hj : j ≤ (blockRun turn packets).length)
    (heven : ∀ (i : ℕ) (hi : i < j), (decodeItem decode (blockRun turn packets)[i]).isPass = true →
      256 ∣ failures decode ((blockRun turn packets).take i)) :
    ∃ s : Decoding n Packet, LTS.ReachVia (Decoding.step decode) (Follows (blockRun turn packets))
      (Decoding.init n Packet turn) s ∧ s.emitted = (blockRun turn packets).take j ∧
      s.gate.Resting ∧
      s.gate.turn = turn + UInt8.ofNat (passes (s.emitted.map (decodeItem decode))).length := by
  induction j with
  | zero => exact ⟨_, .refl, rfl, .init turn, by simp [Decoding.init, Gate.init]⟩
  | succ j ih =>
    obtain ⟨s, hreach, hemitted, hrest, hturn⟩ := ih (by omega) fun i hi => heven i (by omega)
    have hjlt : j < (blockRun turn packets).length := hj
    have hemit := hreach.tail (follows_getElem hjlt hemitted) (Decoding.step_iff.mpr (.emit _))
    have htake : (s.emit (blockRun turn packets)[j]).emitted =
        (blockRun turn packets).take (j + 1) := by
      rw [List.take_succ_eq_append_getElem hjlt, ← hemitted]
      rfl
    have hroom : HasRoom (decoding decode).capacity s.gate.output := by simp [HasRoom, decoding]
    have hlen : s.emitted.length = j := by
      rw [hemitted, List.length_take]
      omega
    cases hr : decodeItem decode (blockRun turn packets)[j] with
    | marker =>
      obtain ⟨gate, hrun, hrest', hturn'⟩ := hrest.marker (p := decoding decode) hr rfl hroom w
      have hthread : LTS.ReachVia (Decoding.step decode) (Follows (blockRun turn packets)) _ _ :=
        reach_of_gate (s := s.emit _) (fun _ _ => trivial) hrun
      refine ⟨_, hemit.trans hthread, htake, hrest', ?_⟩
      simp [Decoding.emit, hturn', hturn, hr]
    | pass id x =>
      have hpass : (decodeItem decode (blockRun turn packets)[j]).isPass = true := by
        rw [hr]
        rfl
      obtain ⟨y, hy⟩ := decodeItem_blockRun hjlt hpass
      rw [hr, Item.pass.injEq] at hy
      have hid : id = s.gate.turn := by
        have hdvd := heven j (by omega) hpass
        rw [← hemitted] at hdvd
        rw [hturn, ← ofNat_eq_of_even hdvd, hlen]
        exact hy.1
      rw [hid] at hr
      obtain ⟨gate, hrun, hrest', hturn'⟩ := hrest.pass (p := decoding decode) hr hroom w
      have hthread : LTS.ReachVia (Decoding.step decode) (Follows (blockRun turn packets)) _ _ :=
        reach_of_gate (s := s.emit _) (fun _ _ => trivial) hrun
      refine ⟨_, hemit.trans hthread, htake, hrest', ?_⟩
      simp [Decoding.emit, hturn', hturn, hr, UInt8.add_assoc]

/-- **When a block that fails to decode blocks the receiver.** For every number of decoding
threads, every first number and every sequence of blocks with consecutive numbers: the threads
never get stuck if and only if every block that decodes comes after a multiple of 256 of blocks
that do not.

**Proof sketch.** If the failures are even, the numbers of the blocks passed on are consecutive
modulo 256, and the turnstile makes progress. If not, take the first block that decodes after
failures that are not even. One thread alone works up to it and falls asleep with it; nothing is
left to do for the others. -/
theorem neverBlocks_iff (crate : Crate Packet) (raptorq : RaptorQ) (turn : UInt8)
    (packets : List (List Packet)) (hpos : 0 < n) (hn : n < 256) :
    NeverBlocks (raptorq.decode crate) n turn packets ↔
      EvenFailures (raptorq.decode crate) (blockRun turn packets) := by
  constructor
  · intro hnever j
    induction j using Nat.strong_induction_on with
    | _ j ih =>
    intro hj hpass
    by_contra hodd
    obtain ⟨s, hreach, hemitted, hrest, hturn⟩ :=
      exists_resting ⟨0, hpos⟩ j hj.le fun i hi hp => ih i hi (by omega) hp
    obtain ⟨x, hr⟩ := decodeItem_blockRun hj hpass
    have hne : s.gate.turn ≠ turn + UInt8.ofNat j := by
      intro heq
      rw [hturn, UInt8.add_right_inj, ← UInt8.toNat_inj, UInt8.toNat_ofNat', UInt8.toNat_ofNat']
        at heq
      have hsum := passes_add_failures (raptorq.decode crate) s.emitted
      have hlen : s.emitted.length = j := by
        rw [hemitted, List.length_take]
        omega
      rw [← hemitted] at hodd
      omega
    obtain ⟨gate, hrun, hheld, hstuck⟩ :=
      hrest.strand (p := decoding (raptorq.decode crate)) hr hne ⟨0, hpos⟩
    have hemit := hreach.tail (follows_getElem hj hemitted) (Decoding.step_iff.mpr (.emit _))
    have hstranded := hemit.trans (reach_of_gate (s := s.emit _) (fun _ _ => trivial) hrun)
    obtain ⟨w, hw⟩ := hnever _ hstranded (.inr hheld)
    simp [Decoding.step, hstuck w] at hw
  · intro heven s hreach hwork
    obtain ⟨hinv, hawake, hord⟩ := inOrder_of_even heven hn hreach
    obtain ⟨w, hw⟩ := Turnstile.progress hord hinv.gate hawake hpos (by simp [HasRoom, decoding])
      hinv.running (by tauto)
    exact ⟨w, by simpa [Decoding.step] using hw⟩

/-- Three blocks of which the last one does not decode: nothing gets stuck. -/
theorem neverBlocks_last_fails :
    NeverBlocks (RaptorQ.single.decode Crate.single) 2 255 [[(255, [1])], [(0, [2])], []] :=
  (neverBlocks_iff Crate.single RaptorQ.single 255 [[(255, [1])], [(0, [2])], []] (by decide)
    (by decide)).mpr (by decide +kernel)

/-- **A block that fails to decode blocks the receiver.** Of two blocks the first one does not
decode; the thread that takes the second one falls asleep, and the other one has nothing to do. -/
theorem failed_block_blocks :
    ¬ NeverBlocks (RaptorQ.single.decode Crate.single) 2 0 [[], [(1, [1])]] := by
  intro hnever
  have hrun : (LTS.runVia (Decoding.step (RaptorQ.single.decode Crate.single))
      (Follows (blockRun 0 [[], [(1, [1])]])) (Decoding.init 2 _ 0)
      [.emit (.block 0 []), .decode 0, .decode 0, .emit (.block 1 [(1, [1])]), .decode 0,
        .decode 0]).map (fun s => (s.gate.held.isEmpty,
          (List.finRange 2).all fun w =>
            (Decoding.step (RaptorQ.single.decode Crate.single) s (.decode w)).isNone)) =
      some (false, true) := by
    decide +kernel
  obtain ⟨s, hs, heq⟩ := Option.map_eq_some_iff.mp hrun
  simp only [Prod.mk.injEq, List.isEmpty_eq_false_iff, List.all_eq_true, List.mem_finRange,
    forall_const] at heq
  obtain ⟨w, hw⟩ := hnever s (LTS.reachVia_of_runVia hs) (.inr heq.1)
  have hnone := heq.2 w
  simp only [Option.isNone_iff_eq_none] at hnone
  simp [hnone] at hw

end Progress

/-! ## The place of the loss markers -/

/-- What the dispatch worker should receive for an item: the block, or `None` for a loss marker
and for a block that does not decode. -/
def outcome (decode : UInt8 → List Packet → Option (List UInt8)) :
    Reassembled Packet → Option Block
  | .error => none
  | .block id packets => (decode id packets).map .deserialize

/-- The message of an item is what the dispatch worker gets for it. -/
lemma msg_decodeItem (r : Reassembled Packet) : (decodeItem decode r).msg = outcome decode r := by
  cases r with
  | error => rfl
  | block id packets =>
    simp only [decodeItem, outcome]
    cases decode id packets <;> rfl

/-- The same, for functions. -/
lemma msg_classify : Item.msg ∘ (decoding decode).classify = outcome decode := by
  funext r
  exact msg_decodeItem r

/-- The number of the last block. -/
def lastId (items : List (Reassembled Packet)) : Option UInt8 :=
  (items.filterMap Reassembled.id?).getLast?

/-- The blocks are emitted under consecutive numbers. -/
def Consecutive (s : Decoding n Packet) : Decoding.Label n Packet → Prop
  | .emit (.block id _) => ∀ k ∈ lastId s.emitted, id = k + 1
  | _ => True

/-- Whether an emission has the next number can be decided. -/
instance (s : Decoding n Packet) (a : Decoding.Label n Packet) : Decidable (Consecutive s a) := by
  unfold Consecutive
  split
  · apply Option.decidableForallMem
  · infer_instance

/-- A decoding thread takes a loss marker, or a block that does not decode, only while no block
that decodes is in hand. It takes a block that decodes only while nothing of the other kind is in
hand and the numbers in hand do not reach around to the turn. -/
def KeepsApart (decode : UInt8 → List Packet → Option (List UInt8)) (s : Decoding n Packet) :
    Decoding.Label n Packet → Prop
  | .decode w => Apart (decoding decode) s.gate w
  | _ => True

/-- Whether a step keeps markers apart can be decided. -/
instance (s : Decoding n Packet) (a : Decoding.Label n Packet) :
    Decidable (KeepsApart decode s a) := by
  unfold KeepsApart
  split <;> infer_instance

section Markers

variable {turn next : UInt8}

/-- A block is the last one after it is emitted. -/
lemma lastId_append_block (items : List (Reassembled Packet)) (id : UInt8) (ps : List Packet) :
    lastId (items ++ [.block id ps]) = some id := by
  simp [lastId, Reassembled.id?]

/-- A loss marker has no number. -/
lemma lastId_append_error (items : List (Reassembled Packet)) :
    lastId (items ++ [.error]) = lastId items := by
  simp [lastId, Reassembled.id?]

/-- Some number follows on the last block. -/
lemma exists_next (items : List (Reassembled Packet)) :
    ∃ next : UInt8, ∀ k ∈ lastId items, next = k + 1 := by
  cases lastId items with
  | none => exact ⟨0, by simp⟩
  | some k => exact ⟨k + 1, by simp⟩

/-- The next block is put on `to_decode`. -/
lemma ordered_push_block {gate : Gate n (Reassembled Packet) Block}
    (h : Ordered (decoding decode) next gate) (packets : List Packet) :
    Ordered (decoding decode) (next + 1) (gate.push (.block next packets)) := by
  cases hr : decodeItem decode (.block next packets) with
  | marker => exact h.push_marker (a := .block next packets) hr (next + 1)
  | pass id x =>
    have hpass : (decodeItem decode (.block next packets)).isPass = true := by
      rw [hr]
      rfl
    obtain ⟨y, hy⟩ := decodeItem_block hpass
    exact h.push_pass (a := .block next packets) hy

/-- **What the dispatch worker has received or is about to receive**, when the items are in order:
the beginning of the outcomes of what was emitted. -/
theorem Decoding.Inv.received_isPrefix (h : s.Inv decode)
    (hord : Ordered (decoding decode) next s.gate) :
    s.received ++ s.gate.output <+: s.emitted.map (outcome decode) := by
  have hsent := hord.sentPrefix.map Item.msg
  rw [h.received_eq, List.map_map, msg_classify] at hsent
  rw [h.emitted_eq, List.map_append]
  exact hsent.trans (List.prefix_append _ _)

/-- The items in the threads and channels are in order, for every number that may come next. -/
lemma ordered_of_apart (h : LTS.ReachVia (Decoding.step decode)
    (fun s a => Consecutive s a ∧ KeepsApart decode s a) (Decoding.init n Packet turn) s) :
    s.Inv decode ∧ ∀ next, (∀ k ∈ lastId s.emitted, next = k + 1) →
      Ordered (decoding decode) next s.gate := by
  refine h.invariant (P := fun s => s.Inv decode ∧ ∀ next, (∀ k ∈ lastId s.emitted, next = k + 1) →
    Ordered (decoding decode) next s.gate)
    ⟨.init _ _, fun next _ => Ordered.init (decoding decode) turn next⟩ ?_
  rintro s a s' - ⟨hinv, hord⟩ ⟨hcons, hapart⟩ hs
  refine ⟨hinv.step hs, fun next hnext => ?_⟩
  cases Decoding.step_iff.mp hs with
  | emit r =>
    cases r with
    | error =>
      change ∀ k ∈ lastId (s.emitted ++ [.error]), next = k + 1 at hnext
      rw [lastId_append_error] at hnext
      exact (hord next hnext).push_marker rfl next
    | block id ps =>
      change ∀ k ∈ lastId (s.emitted ++ [.block id ps]), next = k + 1 at hnext
      rw [lastId_append_block] at hnext
      obtain rfl : next = id + 1 := hnext id rfl
      exact ordered_push_block (hord id hcons) ps
  | decode hgate => exact (hord next hnext).step hinv.gate hapart hgate
  | dispatch hout => exact (hord next hnext).pop _

/-- **When loss markers keep their place.** For every number of decoding threads and every run in
which blocks are emitted under consecutive numbers and items are taken apart: what the dispatch
worker has received is the beginning of what was emitted. -/
theorem markers_keep_place (crate : Crate Packet) (raptorq : RaptorQ)
    (h : LTS.ReachVia (Decoding.step (raptorq.decode crate))
      (fun s a => Consecutive s a ∧ KeepsApart (raptorq.decode crate) s a)
      (Decoding.init n Packet turn) s) :
    s.received <+: s.emitted.map (outcome (raptorq.decode crate)) := by
  obtain ⟨hinv, hord⟩ := ordered_of_apart h
  obtain ⟨next, hnext⟩ := exists_next s.emitted
  exact (List.prefix_append _ _).trans (hinv.received_isPrefix (hord next hnext))

/-- A block, a loss marker and a block, each taken when the one before has been passed on. -/
def apartRun : List (Decoding.Label 2 (UInt8 × List UInt8)) :=
  [.emit (.block 255 [(255, [1])]), .emit .error, .emit (.block 0 [(0, [2])]),
    .decode 0, .decode 0, .decode 0, .decode 1, .decode 1, .decode 0, .decode 1, .decode 1,
    .decode 1, .dispatch, .dispatch, .dispatch]

/-- A loss marker between two blocks, with two threads. -/
theorem markers_keep_place_apart : ∃ s : Decoding 2 (UInt8 × List UInt8),
    s.received = [some ⟨[1]⟩, none, some ⟨[2]⟩] ∧
    s.received <+: s.emitted.map (outcome (RaptorQ.single.decode Crate.single)) := by
  have hrun : (LTS.runVia (Decoding.step (RaptorQ.single.decode Crate.single))
      (fun s a => Consecutive s a ∧ KeepsApart (RaptorQ.single.decode Crate.single) s a)
      (Decoding.init 2 _ 255) apartRun).map (·.received) =
      some [some ⟨[1]⟩, none, some ⟨[2]⟩] := by
    decide +kernel
  obtain ⟨s, hs, hreceived⟩ := Option.map_eq_some_iff.mp hrun
  exact ⟨s, hreceived, markers_keep_place Crate.single RaptorQ.single (LTS.reachVia_of_runVia hs)⟩

/-- **A loss marker can overtake a block.** Two threads take a block and the block after it, which
does not decode; the marker of the second one is received first. -/
theorem marker_overtakes : ∃ s : Decoding 2 (UInt8 × List UInt8),
    LTS.ReachVia (Decoding.step (RaptorQ.single.decode Crate.single)) Consecutive
      (Decoding.init 2 _ 0) s ∧
    ¬ s.received <+: s.emitted.map (outcome (RaptorQ.single.decode Crate.single)) := by
  have hrun : (LTS.runVia (Decoding.step (RaptorQ.single.decode Crate.single)) Consecutive
      (Decoding.init 2 _ 0) [.emit (.block 0 [(0, [1])]), .emit (.block 1 []), .decode 0,
        .decode 1, .decode 1, .dispatch]).map (fun s => (s.received,
          s.emitted.map (outcome (RaptorQ.single.decode Crate.single)))) =
      some ([none], [some ⟨[1]⟩, none]) := by
    decide +kernel
  obtain ⟨s, hs, heq⟩ := Option.map_eq_some_iff.mp hrun
  simp only [Prod.mk.injEq] at heq
  refine ⟨s, LTS.reachVia_of_runVia hs, ?_⟩
  rw [heq.1, heq.2]
  decide

end Markers

end Lidi.Receive
