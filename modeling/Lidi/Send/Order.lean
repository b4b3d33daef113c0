import Lidi.Send.Pipeline

set_option relaxedAutoImplicit false
set_option autoImplicit false

/-!
# Parallel encoding keeps the order of the blocks

The ordering worker numbers the blocks consecutively, and the encoding workers pass numbered
blocks on in order. What the udp worker sends is therefore a prefix of the encoded blocks, in the
order in which the blocks were put on `to_ordering`, and the pipeline never blocks with a block
inside.

## Main definitions

* `Send.number` — blocks with their numbers, as the ordering worker puts them on `to_encoding`.
* `Send.Pipeline.Inv` — the invariant.

## Main results

* `Send.Pipeline.Inv.step`, `Send.Pipeline.Inv.of_reach` — the invariant holds in every reachable
  state.
* `Send.Pipeline.Inv.sentPrefix` — what was sent is the beginning of what the ordering worker got.
* `Send.Pipeline.encoding_keeps_order` — safety and progress, for every number of threads.
-/

namespace Lidi.Send

open Turnstile

/-- The blocks with their numbers modulo 256. -/
def number (blocks : List Block) : List (Option (UInt8 × Block)) :=
  blocks.mapIdx fun i block => some (UInt8.ofNat i, block)

/-- The next block gets the next number. -/
@[simp]
lemma number_append_singleton (blocks : List Block) (block : Block) :
    number (blocks ++ [block]) = number blocks ++ [some (UInt8.ofNat blocks.length, block)] := by
  simp [number]

/-- Every block gets a number. -/
@[simp]
lemma length_number (blocks : List Block) : (number blocks).length = blocks.length := by
  simp [number]

/-- The packets of the blocks, each encoded under its number. -/
def encodeAll {Packet : Type*} (encode : UInt8 → List UInt8 → List Packet) (blocks : List Block) :
    List (List Packet) :=
  blocks.mapIdx fun i block => encode (UInt8.ofNat i) block.serialized

/-- A numbered block is not a marker. -/
lemma isSome_of_mem_number {blocks : List Block} {a : Option (UInt8 × Block)}
    (h : a ∈ number blocks) : a.isSome = true := by
  obtain ⟨i, hi, rfl⟩ := List.mem_mapIdx.mp h
  rfl

/-- The messages of the numbered blocks are their packets. -/
lemma filterMap_msg_number {Packet : Type*} (encode : UInt8 → List UInt8 → List Packet)
    (blocks : List Block) :
    ((number blocks).map (encodeItem encode)).filterMap Item.msg = encodeAll encode blocks := by
  induction blocks using List.reverseRecOn with
  | nil => rfl
  | append_singleton blocks block ih =>
    simp [encodeAll, encodeItem] at ih ⊢
    exact ih

namespace Ordering

/-- The stop marker that the ordering worker has received. -/
def stopMarker : Ordering → List (Option Block)
  | stop | returned => [none]
  | recv | forward _ => []

/-- The numbered block that the ordering worker is about to put on `to_encoding`. -/
def inHand (id : UInt8) : Ordering → List (Option (UInt8 × Block))
  | forward block => [some (id, block)]
  | recv | stop | returned => []

/-- A worker that waits has sent no marker. -/
@[simp] lemma stopMarker_recv : recv.stopMarker = [] := rfl

/-- Nor has one that holds a block. -/
@[simp] lemma stopMarker_forward (b : Block) : (forward b).stopMarker = [] := rfl

/-- A worker that stops has taken the marker. -/
@[simp] lemma stopMarker_stop : stop.stopMarker = [none] := rfl

/-- So has one that has returned. -/
@[simp] lemma stopMarker_returned : returned.stopMarker = [none] := rfl

/-- A worker that waits holds nothing. -/
@[simp] lemma inHand_recv (id : UInt8) : recv.inHand id = [] := rfl

/-- A worker that forwards holds a block with its number. -/
@[simp] lemma inHand_forward (id : UInt8) (b : Block) :
    (forward b).inHand id = [some (id, b)] := rfl

/-- A worker that stops holds no block. -/
@[simp] lemma inHand_stop (id : UInt8) : stop.inHand id = [] := rfl

/-- Nor does one that has returned. -/
@[simp] lemma inHand_returned (id : UInt8) : returned.inHand id = [] := rfl

end Ordering

namespace Pipeline

variable {n : ℕ} {Packet : Type*} {encode : UInt8 → List UInt8 → List Packet}
  {s s' : Pipeline n Packet}

/-- The invariant of the pipeline: the turnstile is in order, all blocks received by the ordering
worker are on their way under consecutive numbers, no stop marker gets to an encoding worker, and
every list of packets is sent or on `to_send`. -/
structure Inv (encode : UInt8 → List UInt8 → List Packet) (s : Pipeline n Packet) : Prop where
  gate : Turnstile.Inv (encoding n encode) s.gate
  awake : Awake s.gate
  inOrder : InOrder (encoding n encode) s.id s.gate
  running : ∀ w, s.gate.workers w ≠ .bypass ∧ s.gate.workers w ≠ .done
  put_eq : s.put = s.ordered.map some ++ s.ordering.stopMarker ++ s.toOrdering
  input_eq : s.gate.taken ++ s.gate.input ++ s.ordering.inHand s.id = number s.ordered
  id_eq : s.id = UInt8.ofNat (s.gate.taken ++ s.gate.input).length
  output_eq : s.gate.sent.filterMap Item.msg = s.sent ++ s.gate.output.reduceOption
  udp_eq : s.ordering ≠ .returned → s.udp = .recv ∧ none ∉ s.gate.output

/-- The invariant holds at the start. -/
lemma Inv.init (encode : UInt8 → List UInt8 → List Packet) : Inv encode (init n Packet) where
  gate := Turnstile.Inv.init _ _
  awake := by simp [Awake, Pipeline.init, Gate.init]
  inOrder := InOrder.init _ _
  running := by simp [Pipeline.init, Gate.init]
  put_eq := rfl
  input_eq := rfl
  id_eq := rfl
  output_eq := rfl
  udp_eq := by simp [Pipeline.init, Gate.init]

/-- The inputs of the encoding workers are numbered blocks. -/
lemma Inv.isSome_of_mem (h : Inv encode s) {a : Option (UInt8 × Block)}
    (ha : a ∈ s.gate.taken ∨ a ∈ s.gate.input) : a.isSome = true := by
  have hmem : a ∈ number s.ordered := by
    rw [← h.input_eq]
    simp only [List.mem_append]
    exact .inl ha
  exact isSome_of_mem_number hmem

/-- A step of an encoding worker keeps all workers away from the stop markers. -/
lemma Inv.running_encoding (h : Inv encode s) {w : Fin n}
    {gate : Gate n (Option (UInt8 × Block)) (List Packet)}
    (hs : Turnstile.step (encoding n encode) s.gate w = some gate) (w' : Fin n) :
    gate.workers w' ≠ .bypass ∧ gate.workers w' ≠ .done := by
  -- only the phase of `w` matters, and waking does not lead to the two phases
  have hupd : ∀ (f : Fin n → Phase (List Packet)) (ph : Phase (List Packet)),
      (∀ w', f w' ≠ .bypass ∧ f w' ≠ .done) → (ph ≠ .bypass ∧ ph ≠ .done) →
      Function.update f w ph w' ≠ .bypass ∧ Function.update f w ph w' ≠ .done := by
    intro f ph hf hph
    rcases eq_or_ne w' w with rfl | hne
    · simpa using hph
    · simpa [hne] using hf w'
  cases Turnstile.step_iff.mp hs with
  | @receive a rest hw hin =>
    refine hupd _ _ h.running ?_
    obtain ⟨⟨id, block⟩, rfl⟩ := Option.isSome_iff_exists.mp
      (h.isSome_of_mem (a := a) (.inr (by simp [hin])))
    simp [encoding, encodeItem, Phase.ofItem]
  | bypass hw hroom => exact absurd hw (h.running w).1
  | enter hw hfree hturn => exact hupd _ _ h.running (by simp)
  | sleep hw hfree hturn => exact hupd _ _ h.running (by simp)
  | send hw hroom => exact hupd _ _ h.running (by simp)
  | notify hw =>
    refine hupd (fun w'' => (s.gate.workers w'').wake) .idle (fun w'' => ?_) (by simp)
    have hrun := h.running w''
    cases hph : s.gate.workers w'' <;> simp_all [Phase.wake]

/-- **Every step keeps the invariant.** -/
theorem Inv.step (h : Inv encode s) (hn : n < 256) {a : Label n}
    (hs : step encode s a = some s') : Inv encode s' := by
  cases step_iff.mp hs with
  | put m hroom =>
    exact ⟨h.gate, h.awake, h.inOrder, h.running, by simp [h.put_eq], h.input_eq, h.id_eq,
      h.output_eq, h.udp_eq⟩
  | @order block rest ho hin =>
    refine ⟨h.gate, h.awake, h.inOrder, h.running, ?_, ?_, h.id_eq, h.output_eq,
      fun _ => h.udp_eq (by simp [ho])⟩
    · simp [h.put_eq, ho, hin]
    · have hnum := h.input_eq
      rw [ho, Ordering.inHand_recv, List.append_nil] at hnum
      simp [hnum, h.id_eq]
  | @takeStop rest ho hin =>
    refine ⟨h.gate, h.awake, h.inOrder, h.running, ?_, ?_, h.id_eq, h.output_eq,
      fun _ => h.udp_eq (by simp [ho])⟩
    · simp [h.put_eq, ho, hin]
    · have hnum := h.input_eq
      rw [ho] at hnum
      exact hnum
  | @forward block ho hroom =>
    have hnum := h.input_eq
    rw [ho, Ordering.inHand_forward] at hnum
    refine ⟨h.gate.push _, h.awake, h.inOrder.push_pass (x := encode s.id block.serialized) rfl,
      h.running, ?_, ?_, ?_, h.output_eq, fun _ => h.udp_eq (by simp [ho])⟩
    · simp [h.put_eq, ho]
    · simpa [Gate.push] using hnum
    · have hid := h.id_eq
      simp only [Gate.push, List.length_append, List.length_cons, List.length_nil] at hid ⊢
      rw [← Nat.add_assoc, UInt8.ofNat_add, ← hid]
      rfl
  | stop ho hroom =>
    have hnum := h.input_eq
    rw [ho] at hnum
    refine ⟨h.gate.emit _, h.awake, h.inOrder.emit _, h.running, ?_, hnum, h.id_eq, ?_,
      by simp⟩
    · simp [h.put_eq, ho]
    · simpa [Gate.emit, List.reduceOption_append] using h.output_eq
  | @encoding w gate hgate =>
    obtain ⟨hin, items, hsent, hout, hpass⟩ := channels_step hgate
    refine ⟨h.gate.step hgate, h.awake.step hgate, h.inOrder.step h.gate hn hgate,
      h.running_encoding hgate, h.put_eq, ?_, ?_, ?_, fun hr => ?_⟩
    · simpa [hin] using h.input_eq
    · simpa [hin] using h.id_eq
    · simp [hsent, hout, List.reduceOption_append, h.output_eq, Pool.reduceOption_map]
    · obtain ⟨hu, hnone⟩ := h.udp_eq hr
      refine ⟨hu, ?_⟩
      rw [hout, List.mem_append, not_or]
      exact ⟨hnone, hpass (h.running w).1⟩
  | @send packets rest hu hz hout =>
    refine ⟨h.gate.pop _, h.awake, h.inOrder.pop _, h.running, h.put_eq, h.input_eq, h.id_eq, ?_,
      fun hr => ?_⟩
    · simpa [Gate.pop, hout] using h.output_eq
    · obtain ⟨hu, hnone⟩ := h.udp_eq hr
      exact ⟨hu, by simpa [Gate.pop, hout] using hnone⟩
  | @drain rest hu hout =>
    refine ⟨h.gate.pop _, h.awake, h.inOrder.pop _, h.running, h.put_eq, h.input_eq, h.id_eq, ?_,
      fun hr => ?_⟩
    · simpa [Gate.pop, hout] using h.output_eq
    · exact absurd (h.udp_eq hr).2 (by simp [hout])
  | @count c rest hu hout =>
    refine ⟨h.gate.pop _, h.awake, h.inOrder.pop _, h.running, h.put_eq, h.input_eq, h.id_eq, ?_,
      fun hr => ?_⟩
    · simpa [Gate.pop, hout] using h.output_eq
    · exact absurd (h.udp_eq hr).2 (by simp [hout])
  | drained hu =>
    refine ⟨h.gate, h.awake, h.inOrder, h.running, h.put_eq, h.input_eq, h.id_eq, h.output_eq,
      fun hr => ?_⟩
    have hrecv := (h.udp_eq hr).1
    simp [hu] at hrecv

/-- The invariant holds in every reachable state. -/
theorem Inv.of_reach {ok : Pipeline n Packet → Label n → Prop} (hn : n < 256)
    (h : LTS.ReachVia (Pipeline.step encode) ok (Pipeline.init n Packet) s) : Inv encode s :=
  h.invariant (.init encode) fun _ _ _ _ hinv _ hs => hinv.step hn hs

/-- No marker is sent by an encoding worker, so its messages are those of the numbered blocks. -/
lemma Inv.passes_sent (h : Inv encode s) : passes s.gate.sent = s.gate.sent := by
  rw [passes, List.filter_eq_self]
  intro it hit
  have hmem := h.gate.account.mem_iff.mp (List.mem_append_right _ hit)
  obtain ⟨a, ha, rfl⟩ := List.mem_map.mp hmem
  obtain ⟨⟨id, block⟩, rfl⟩ := Option.isSome_iff_exists.mp (h.isSome_of_mem (.inl ha))
  rfl

/-- **Order.** What was sent and is still on `to_send` is the beginning of the encoded blocks. -/
lemma Inv.sentPrefix (h : Inv encode s) :
    s.sent ++ s.gate.output.reduceOption <+: encodeAll encode s.ordered := by
  have hpre := h.inOrder.sentPrefix
  rw [h.passes_sent] at hpre
  have htaken : passes (s.gate.taken.map (encoding n encode).classify) <+:
      (number s.ordered).map (encodeItem encode) := by
    have hall : passes (s.gate.taken.map (encoding n encode).classify) =
        s.gate.taken.map (encodeItem encode) := by
      refine List.filter_eq_self.mpr fun it hit => ?_
      obtain ⟨a, ha, rfl⟩ := List.mem_map.mp hit
      obtain ⟨⟨id, block⟩, rfl⟩ := Option.isSome_iff_exists.mp (h.isSome_of_mem (.inl ha))
      rfl
    rw [hall, ← h.input_eq, List.append_assoc]
    exact (List.prefix_append _ _).map _
  have hmsg := (hpre.trans htaken).filterMap Item.msg
  rwa [h.output_eq, filterMap_msg_number] at hmsg

/-- The blocks put on `to_ordering` begin with those the ordering worker has received. -/
lemma Inv.orderedPrefix (h : Inv encode s) : s.ordered <+: s.put.reduceOption := by
  rw [h.put_eq, List.reduceOption_append, List.reduceOption_append, Pool.reduceOption_map_some,
    List.append_assoc]
  exact List.prefix_append _ _

/-- The packets of more blocks start with those of the first ones. -/
lemma encodeAll_mono {blocks blocks' : List Block} (h : blocks <+: blocks') :
    encodeAll encode blocks <+: encodeAll encode blocks' := by
  obtain ⟨rest, rfl⟩ := h
  simp [encodeAll, List.mapIdx_append]

/-- There is one message for each block. -/
lemma length_encodeAll (blocks : List Block) :
    (encodeAll encode blocks).length = blocks.length := by
  simp [encodeAll]

/-- When the ordering worker and the encoding workers have nothing in hand and the channels
between them and the socket are empty, the packets of all ordered blocks have been sent. -/
lemma Inv.sent_eq (h : Inv encode s) (hheld : s.gate.held = []) (hin : s.gate.input = [])
    (hhand : s.ordering.inHand s.id = []) (hout : s.gate.output.reduceOption = []) :
    s.sent = encodeAll encode s.ordered := by
  have hpre := h.sentPrefix
  rw [hout, List.append_nil] at hpre
  refine hpre.eq_of_length ?_
  have hordered : s.ordered.length = s.gate.taken.length := by
    have hnum := congrArg List.length h.input_eq
    rw [hhand, hin, List.append_nil, List.append_nil, length_number] at hnum
    exact hnum.symm
  have htaken : s.gate.sent.length = s.gate.taken.length := by
    simpa [hheld] using h.gate.account.length_eq
  have hsent : s.gate.sent.length = s.sent.length := by
    have hall := length_filterMap_msg_passes s.gate.sent
    rw [h.passes_sent, h.output_eq, hout, List.append_nil] at hall
    exact hall.symm
  rw [length_encodeAll]
  omega

/-- **Progress.** While a block is on its way, and no stop marker has been put on `to_ordering`,
some worker can move.

**Proof sketch.** If the udp worker is blocked, `to_send` is empty; if the ordering worker is
blocked, it waits for a block or `to_encoding` is full. With work for the encoding workers one of
them can move; without, every block has been sent. -/
lemma Inv.progress (h : Inv encode s) (hpos : 0 < n) (hstop : none ∉ s.put)
    (hwork : s.sent.length < s.put.length) :
    ∃ a : Label n, a.isWorker = true ∧ (Pipeline.step encode s a).isSome = true := by
  by_contra hblocked
  push Not at hblocked
  have hnone : ∀ a : Label n, a.isWorker = true → Pipeline.step encode s a = none :=
    fun a ha => by simpa using hblocked a ha
  have hout : s.gate.output = [] := by
    have hb := hnone .udp rfl
    have hudp : s.udp = .recv := by
      refine (h.udp_eq fun ho => ?_).1
      simp [h.put_eq, ho] at hstop
    cases hout : s.gate.output with
    | nil => rfl
    | cons m rest => cases m <;> simp [Pipeline.step, hudp, hout] at hb
  have hroom : HasRoom (encoding n encode).capacity s.gate.output := by
    simpa [HasRoom, encoding, hout] using hpos
  have hquiet : s.gate.held = [] ∧ s.gate.input = [] := by
    by_contra hbusy
    obtain ⟨w, hw⟩ := Turnstile.progress h.inOrder h.gate h.awake hpos hroom
      (fun w => (h.running w).2) (by tauto)
    have hb := hnone (.encoding w) rfl
    simp only [Pipeline.step, Option.map_eq_none_iff] at hb
    simp [hb] at hw
  have hordering : s.ordering = .recv ∧ s.toOrdering = [] := by
    have hb := hnone .ordering rfl
    have hput := h.put_eq
    cases ho : s.ordering with
    | recv =>
      cases hin : s.toOrdering with
      | nil => exact ⟨rfl, rfl⟩
      | cons m rest => cases m <;> simp [Pipeline.step, ho, hin] at hb
    | forward block => simp [Pipeline.step, ho, HasRoom, hquiet.2, hpos] at hb
    | stop => simp [hput, ho] at hstop
    | returned => simp [hput, ho] at hstop
  have hsent := h.sent_eq hquiet.1 hquiet.2 (by rw [hordering.1]; rfl) (by rw [hout]; rfl)
  have hput : s.put.length = s.ordered.length := by
    rw [h.put_eq, hordering.1, hordering.2]
    simp
  rw [hsent, length_encodeAll] at hwork
  omega

/-- **Parallel encoding keeps the order of the blocks.** For every number of encoding workers and
every run in which no stop marker is put on `to_ordering`: the packets sent are those of a prefix
of the blocks put there, each block under its number and exactly once; and while a block has not
been sent, some worker can move. -/
theorem encoding_keeps_order (crate : Crate Packet) (raptorq : RaptorQ) (hpos : 0 < n)
    (hn : n < 256) (h : LTS.ReachVia (Pipeline.step (raptorq.encode crate))
      (fun _ a => a ≠ .put none) (init n Packet) s) :
    ∃ blocks : List Block, s.put = blocks.map some ∧
      s.sent <+: encodeAll (raptorq.encode crate) blocks ∧
      (s.sent.length < blocks.length →
        ∃ a : Label n, a.isWorker = true ∧
          (Pipeline.step (raptorq.encode crate) s a).isSome = true) := by
  have hinv := Inv.of_reach hn h
  have hput : ∃ blocks : List Block, s.put = blocks.map some := by
    refine h.invariant (P := fun t => ∃ blocks : List Block, t.put = blocks.map some) ⟨[], rfl⟩
      fun t a t' _ hblocks hok hs => ?_
    obtain ⟨blocks, hb⟩ := hblocks
    cases step_iff.mp hs with
    | put m hroom =>
      cases m with
      | none => exact absurd rfl hok
      | some block => exact ⟨blocks ++ [block], by simp [hb]⟩
    | _ => exact ⟨blocks, hb⟩
  obtain ⟨blocks, hb⟩ := hput
  have hreduce : s.put.reduceOption = blocks := by
    rw [hb, Pool.reduceOption_map_some]
  refine ⟨blocks, hb, ?_, fun hwork => ?_⟩
  · have hord := hinv.orderedPrefix
    rw [hreduce] at hord
    exact ((List.prefix_append _ _).trans hinv.sentPrefix).trans (encodeAll_mono hord)
  · exact hinv.progress hpos (by simp [hb]) (by simpa [hb] using hwork)

/-- Two encoding workers take a block each, and the second one gets ahead of the first. -/
def overtaking : List (Label 2) :=
  [.put (some ⟨[1]⟩), .put (some ⟨[2]⟩), .ordering, .ordering, .ordering, .ordering,
    .encoding 0, .encoding 1, .encoding 1]

/-- Two blocks, of which the second one is encoded first. -/
theorem encoding_keeps_order_overtaking : ∃ s : Pipeline 2 (UInt8 × List UInt8),
    LTS.run (Pipeline.step (RaptorQ.single.encode Crate.single)) (init 2 _) overtaking = some s ∧
    ∃ blocks : List Block, s.put = blocks.map some ∧
      s.sent <+: encodeAll (RaptorQ.single.encode Crate.single) blocks ∧
      (s.sent.length < blocks.length →
        ∃ a : Label 2, a.isWorker = true ∧
          (Pipeline.step (RaptorQ.single.encode Crate.single) s a).isSome = true) := by
  obtain ⟨s, hs⟩ : ∃ s, LTS.run (Pipeline.step (RaptorQ.single.encode Crate.single)) (init 2 _)
      overtaking = some s := ⟨_, rfl⟩
  exact ⟨s, hs, encoding_keeps_order Crate.single RaptorQ.single (by decide) (by decide)
    (LTS.reachVia_of_run hs (by simp [overtaking]))⟩

end Pipeline

end Lidi.Send
