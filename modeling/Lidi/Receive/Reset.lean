import Lidi.Receive.DecodeOrder
import Lidi.Receive.Reblock

set_option relaxedAutoImplicit false
set_option autoImplicit false

/-!
# Blocks in flight at a reset

On a reset the reblock worker overwrites `block_to_dispatch`, whatever the decoding threads have in
hand. A thread that waits for a number of the old sequence may then wait for ever. Nothing goes
wrong if no block is in flight when the number is written, or if the same number is written and
the blocks in flight are a whole turn of the counter.

## Main definitions

* `Receive.AllDecode` — the emitted blocks decode.
* `Receive.QuietReset` — the condition on the write to `block_to_dispatch`.

## Main results

* `Receive.reset_keeps_order` — under the condition, blocks reach the dispatch worker in the order
  in which they were emitted, and the decoding threads do not get stuck.
* `Receive.reset_strands_block` — a run without it.
-/

namespace Lidi.Receive

open Turnstile

variable {n : ℕ} {Packet : Type*} {crate : Crate Packet} {raptorq : RaptorQ} {s : Core n Packet}

/-- The blocks that are emitted decode. -/
def AllDecode (crate : Crate Packet) (raptorq : RaptorQ) (s : Core n Packet) : Core.Label n → Prop
  | .reblock =>
    match s.reblock.phase with
    | .loop => ∀ r ∈ (s.reblock.emission raptorq.minNbPackets.toNat).2,
        (decodeItem (raptorq.decode crate) r).isPass = true
    | _ => True
  | _ => True

/-- Whether the blocks that are emitted decode can be decided. -/
instance (a : Core.Label n) : Decidable (AllDecode crate raptorq s a) := by
  unfold AllDecode
  split
  · split <;> infer_instance
  · infer_instance

/-- The blocks queued for decoding or in the hands of a decoding thread. -/
def inFlight (crate : Crate Packet) (raptorq : RaptorQ) (s : Core n Packet) : List (Item Block) :=
  passes (s.decoding.gate.held ++
    s.decoding.gate.input.map (decodeItem (raptorq.decode crate)))

/-- The reblock worker writes `block_to_dispatch` only while no block is in flight; or it writes
the value that is there, and the number of blocks in flight is a multiple of 256. -/
def QuietReset (crate : Crate Packet) (raptorq : RaptorQ) (s : Core n Packet) :
    Core.Label n → Prop
  | .reblock =>
    match s.reblock.phase with
    | .publish _ => inFlight crate raptorq s = [] ∨
        (s.reblock.curId = s.decoding.gate.turn ∧ 256 ∣ (inFlight crate raptorq s).length)
    | _ => True
  | _ => True

/-- Whether a reset is quiet can be decided. -/
instance (a : Core.Label n) : Decidable (QuietReset crate raptorq s a) := by
  unfold QuietReset
  split
  · split <;> infer_instance
  · infer_instance

/-- The phases in which the number of the current block is the one that comes next at the
turnstile. -/
def InStep (r : Reblock Packet) : Prop :=
  (∃ datagrams, r.phase = .wake datagrams) ∨ r.phase = .loop ∨ (r.phase = .recv ∧ r.reset = false)

/-- The invariant: the blocks are in order at the turnstile, and the next one will be too. -/
structure ResetInv (crate : Crate Packet) (raptorq : RaptorQ) (s : Core n Packet) : Prop where
  decoding : s.decoding.Inv (raptorq.decode crate)
  awake : Awake s.decoding.gate
  order : ∃ next, InOrder (Receive.decoding (raptorq.decode crate)) next s.decoding.gate ∧
    (InStep s.reblock → next = s.reblock.curId)

namespace ResetInv

/-- The invariant holds at the start. -/
lemma init : ResetInv crate raptorq (Core.init n Packet) where
  decoding := .init _ _
  awake := by simp [Awake, Core.init, Decoding.init, Gate.init]
  order := ⟨0, InOrder.init _ _, by simp [InStep, Core.init, Reblock.init]⟩

/-- The pending blocks of the turnstile are those in flight. -/
lemma pendingPasses_perm {next : UInt8} (h : s.decoding.Inv (raptorq.decode crate))
    (hord : InOrder (Receive.decoding (raptorq.decode crate)) next s.decoding.gate) :
    (s.decoding.gate.pendingPasses (Receive.decoding (raptorq.decode crate))).Perm
      (inFlight crate raptorq s) := by
  rw [inFlight, passes_append, Gate.pendingPasses]
  exact (hord.passes_held_perm h.gate.account).symm.append_right _

/-- **Every step keeps the invariant.** -/
theorem step {s' : Core n Packet} (h : ResetInv crate raptorq s) (hn : n < 256)
    {a : Core.Label n} (hdec : AllDecode crate raptorq s a) (hquiet : QuietReset crate raptorq s a)
    (hs : Core.step crate raptorq s a = some s') : ResetInv crate raptorq s' := by
  obtain ⟨hinv, hawake, next, hord, hnext⟩ := h
  cases Core.step_iff.mp hs with
  | datagrams ds hp =>
    refine ⟨hinv, hawake, next, hord, fun hstep => ?_⟩
    simp only [Reblock.onDatagrams] at hstep ⊢
    cases hr : s.reblock.reset with
    | true =>
      rw [hr, if_pos rfl] at hstep
      rcases s.reblock.phase_resync crate ds with hph | hph <;> simp [InStep, hph] at hstep
    | false =>
      have hcur : next = s.reblock.curId := hnext (.inr (.inr ⟨hp, hr⟩))
      rw [if_neg (by simp), (s.reblock.store_eq crate ds).1, hcur]
  | timeout hp =>
    simp only [Reblock.onTimeout]
    split
    · exact ⟨hinv.emit _, hawake, next, hord.push_marker rfl, by simp [InStep, hp]⟩
    · exact ⟨hinv, hawake, next, hord, by simp [InStep, hp]⟩
  | @publish ds hp hfree =>
    simp only [QuietReset, hp] at hquiet
    have hperm := pendingPasses_perm hinv hord
    refine ⟨hinv.setTurn hfree _, hawake.setTurn ?_, s.reblock.curId, hord.setTurn ?_,
      fun _ => rfl⟩
    · refine hquiet.imp (fun hnil w id x hw => ?_) And.left
      have hmem : Item.pass id x ∈ inFlight crate raptorq s := by
        rw [inFlight, mem_passes]
        exact ⟨List.mem_append_left _ (mem_itemsOf.mpr ⟨w, by rw [hw]; rfl⟩), _, _, rfl⟩
      simp [hnil] at hmem
    · rcases hquiet with hnil | ⟨heq, hdvd⟩
      · rw [hnil] at hperm
        exact .inl hperm.eq_nil
      · exact .inr ⟨heq, hperm.length_eq ▸ hdvd⟩
  | @wake ds hp =>
    have hcur : next = s.reblock.curId := hnext (.inl ⟨ds, hp⟩)
    refine ⟨hinv.wakeAll, Awake.wakeAll _, next, hord.wakeAll, fun _ => ?_⟩
    rw [(s.reblock.openWindow.store_eq crate ds).1, hcur]
    rfl
  | loop hp =>
    have hcur : next = s.reblock.curId := hnext (.inr (.inl hp))
    simp only [AllDecode, hp] at hdec
    -- an emitted block decodes and has the number that comes next
    have hpush : ∀ packets, (∀ r ∈ [Reassembled.block s.reblock.curId packets],
        (decodeItem (raptorq.decode crate) r).isPass = true) →
        InOrder (Receive.decoding (raptorq.decode crate)) (s.reblock.curId + 1)
          (s.decoding.gate.push (.block s.reblock.curId packets)) := by
      intro packets hpass
      obtain ⟨x, hx⟩ := decodeItem_block (hpass _ List.mem_cons_self)
      exact (hcur ▸ hord).push_pass (a := .block s.reblock.curId packets) hx
    generalize hres : s.reblock.emission raptorq.minNbPackets.toNat = res at hdec ⊢
    cases hres ▸ s.reblock.emission_eq raptorq.minNbPackets.toNat with
    | incomplete hlen => exact ⟨hinv, hawake, next, hord, fun _ => hcur⟩
    | complete hlen hopp => exact ⟨hinv.emit _, hawake, _, hpush _ hdec, fun _ => rfl⟩
    | tooFar hlen hopp => exact ⟨hinv.emit _, hawake, _, hpush _ hdec, by simp [InStep]⟩
  | tooFar hp =>
    exact ⟨hinv.emit _, hawake, next, hord.push_marker rfl, by simp [InStep, Reblock.onTooFar]⟩
  | decode hd =>
    have hinv' := hinv.step (Decoding.step_iff.mpr hd)
    cases hd with
    | decode hgate =>
      exact ⟨hinv', hawake.step hgate, next, hord.step hinv.gate hn hgate, hnext⟩
  | dispatch hd =>
    have hinv' := hinv.step (Decoding.step_iff.mpr hd)
    cases hd with
    | dispatch hout => exact ⟨hinv', hawake, next, hord.pop _, hnext⟩

end ResetInv

/-- **When a reset does no harm.** For every number of decoding threads and every run in which all
emitted blocks decode and every write to `block_to_dispatch` is quiet: the blocks sent to the
dispatch worker are the beginning of those emitted, in that order, across all resets; and while
something is queued for decoding or in the hands of a decoding thread, some decoding thread can
take a step. -/
theorem reset_keeps_order (crate : Crate Packet) (raptorq : RaptorQ) (hpos : 0 < n) (hn : n < 256)
    (h : LTS.ReachVia (Core.step crate raptorq)
      (fun s a => AllDecode crate raptorq s a ∧ QuietReset crate raptorq s a)
      (Core.init n Packet) s) :
    (s.decoding.received ++ s.decoding.gate.output).reduceOption <+:
        s.decoding.emitted.filterMap (outcome (raptorq.decode crate)) ∧
      (s.decoding.gate.input ≠ [] ∨ s.decoding.gate.held ≠ [] →
        ∃ w, (Core.step crate raptorq s (.decode w)).isSome = true) := by
  have hinv : ResetInv crate raptorq s :=
    h.invariant .init fun _ _ _ _ hinv hok hs => hinv.step hn hok.1 hok.2 hs
  obtain ⟨hdec, hawake, next, hord, -⟩ := hinv
  refine ⟨?_, fun hwork => ?_⟩
  · have hsent := hord.sentPrefix.filterMap Item.msg
    rw [filterMap_msg_passes, filterMap_msg_passes, List.filterMap_map, msg_classify] at hsent
    have hreceived : (s.decoding.received ++ s.decoding.gate.output).reduceOption =
        s.decoding.gate.sent.filterMap Item.msg := by
      rw [← hdec.received_eq, Pool.reduceOption_map]
    rw [hreceived, hdec.emitted_eq, List.filterMap_append]
    exact hsent.trans (List.prefix_append _ _)
  · obtain ⟨w, hw⟩ := Turnstile.progress hord hdec.gate hawake hpos (by simp [HasRoom, decoding])
      hdec.running (by tauto)
    exact ⟨w, by simpa [Core.step, Decoding.step] using hw⟩

/-- A block is passed on before a reset, and another one is emitted after it. -/
def quietResetRun : List (Core.Label 1) :=
  [.datagrams (datagramOf 0 [1]), .reblock, .reblock, .reblock, .reblock,
    .decode 0, .decode 0, .decode 0, .decode 0, .timeout,
    .datagrams (datagramOf 5 [2]), .reblock, .reblock, .reblock, .reblock, .decode 0]

/-- A reset between two blocks, with one thread. -/
theorem reset_keeps_order_quiet : ∃ s : Core 1 (UInt8 × List UInt8),
    s.decoding.emitted = [.block 0 [(0, [1])], .block 5 [(5, [2])]] ∧
    ((s.decoding.received ++ s.decoding.gate.output).reduceOption <+:
        s.decoding.emitted.filterMap (outcome (RaptorQ.single.decode Crate.single)) ∧
      (s.decoding.gate.input ≠ [] ∨ s.decoding.gate.held ≠ [] →
        ∃ w, (Core.step Crate.single RaptorQ.single s (.decode w)).isSome = true)) := by
  have hrun : (LTS.runVia (Core.step Crate.single RaptorQ.single)
      (fun s a => AllDecode Crate.single RaptorQ.single s a ∧
        QuietReset Crate.single RaptorQ.single s a) (Core.init 1 _) quietResetRun).map
      (·.decoding.emitted) = some [.block 0 [(0, [1])], .block 5 [(5, [2])]] := by
    decide +kernel
  obtain ⟨s, hs, hemitted⟩ := Option.map_eq_some_iff.mp hrun
  exact ⟨s, hemitted, reset_keeps_order Crate.single RaptorQ.single (by decide) (by decide)
    (LTS.reachVia_of_runVia hs)⟩

/-- **A reset can strand a block.** Block 0 is still queued for decoding when the worker resets to
block 5; the only decoding thread takes block 0 and falls asleep. -/
theorem reset_strands_block : ∃ s : Core 1 (UInt8 × List UInt8),
    LTS.ReachVia (Core.step Crate.single RaptorQ.single) (AllDecode Crate.single RaptorQ.single)
      (Core.init 1 _) s ∧
    (∃ x, Item.pass 0 x ∈ s.decoding.gate.held) ∧
    ∀ w, Core.step Crate.single RaptorQ.single s (.decode w) = none := by
  have hrun : (LTS.runVia (Core.step Crate.single RaptorQ.single)
      (AllDecode Crate.single RaptorQ.single) (Core.init 1 _)
      [.datagrams (datagramOf 0 [1]), .reblock, .reblock, .reblock, .reblock, .timeout,
        .datagrams (datagramOf 5 [2]), .reblock, .reblock, .reblock, .reblock,
        .decode 0, .decode 0]).map (fun s => (s.decoding.gate.held.map Item.id?,
          (List.finRange 1).all fun w =>
            (Core.step Crate.single RaptorQ.single s (.decode w)).isNone)) =
      some ([some 0], true) := by
    decide +kernel
  obtain ⟨s, hs, heq⟩ := Option.map_eq_some_iff.mp hrun
  simp only [Prod.mk.injEq, List.all_eq_true, List.mem_finRange, forall_const,
    Option.isNone_iff_eq_none] at heq
  refine ⟨s, LTS.reachVia_of_runVia hs, ?_, heq.2⟩
  have hmem : some 0 ∈ s.decoding.gate.held.map Item.id? := by
    rw [heq.1]
    exact List.mem_singleton.mpr rfl
  obtain ⟨it, hit, hid⟩ := List.mem_map.mp hmem
  cases it with
  | pass id x =>
    simp only [Item.id?_pass, Option.some.injEq] at hid
    exact ⟨x, hid ▸ hit⟩
  | marker => simp at hid

end Lidi.Receive
