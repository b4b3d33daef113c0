import Lidi.Protocol.Block

set_option relaxedAutoImplicit false
set_option autoImplicit false

/-!
# The blocks of a transfer

A transfer is a `Start` block, `Data` blocks and an `End` or an `Abort`, all with the number of
the client. Among the blocks of other transfers they are told by this number, except for the
heartbeats, which carry the number of the first client.

## Main definitions

* `Conveys` — a list of blocks that carries some bytes, from a `Start` to a block that ends it.
* `blocksOf` — the blocks of one transfer among others.

## Main results

* `isOf_unique` — a block is of one transfer only.
-/

namespace Lidi

/-- The blocks are `Data` blocks of the transfer `id` with the given bytes. -/
def DataBlocks (raptorq : RaptorQ) (id : ClientId) : List Block → List UInt8 → Prop
  | [], bytes => bytes = []
  | b :: bs, bytes => ∃ data rest, b.Carries raptorq .data id data ∧
      DataBlocks raptorq id bs rest ∧ bytes = data ++ rest

/-- The blocks are a `Start`, `Data` blocks and a block of the given type, which carry the given
bytes. -/
def Conveys (raptorq : RaptorQ) (id : ClientId) (type : BlockType) (blocks : List Block)
    (bytes : List UInt8) : Prop :=
  ∃ start body last data rest, blocks = start :: (body ++ [last]) ∧
    start.Carries raptorq .start id [] ∧ DataBlocks raptorq id body data ∧
    last.Carries raptorq type id rest ∧ bytes = data ++ rest

/-- The block is of the transfer `id`: it names it and is not a heartbeat. -/
def Block.IsOf (id : ClientId) (b : Block) : Prop :=
  b.clientId = some id ∧ ∀ type, b.blockType = .ok type → type ≠ .heartbeat

/-- Whether a block is of a transfer can be decided. -/
instance (id : ClientId) (b : Block) : Decidable (b.IsOf id) :=
  match h : b.blockType with
  | .ok type =>
    decidable_of_iff (b.clientId = some id ∧ type ≠ .heartbeat) (by simp [Block.IsOf, h])
  | .error _ => decidable_of_iff (b.clientId = some id) (by simp [Block.IsOf, h])

/-- The blocks of the transfer `id`. -/
def blocksOf (id : ClientId) (blocks : List Block) : List Block :=
  blocks.filter (·.IsOf id)

section BlocksOf

variable {raptorq : RaptorQ} {id id' : ClientId} {b : Block} {type : BlockType}
  {data bytes : List UInt8} {blocks blocks' : List Block}

/-- No blocks have none of a transfer. -/
@[simp]
lemma blocksOf_nil : blocksOf id [] = [] := rfl

/-- The blocks of a transfer among two lists. -/
@[simp]
lemma blocksOf_append :
    blocksOf id (blocks ++ blocks') = blocksOf id blocks ++ blocksOf id blocks' :=
  List.filter_append ..

/-- A block of a client, but for heartbeats, is of its transfer. -/
lemma isOf_of_carries (h : b.Carries raptorq type id data) (htype : type ≠ .heartbeat) :
    b.IsOf id := by
  refine ⟨h.clientId_eq, fun type' htype' => ?_⟩
  rw [h.blockType_eq, Except.ok.injEq] at htype'
  exact htype' ▸ htype

/-- A block is of one transfer only. -/
lemma isOf_unique (h : b.IsOf id) (h' : b.IsOf id') : id = id' := by
  have hid := h.1.symm.trans h'.1
  simpa using hid

/-- A block of the transfer is kept. -/
lemma blocksOf_singleton_self (h : b.IsOf id) : blocksOf id [b] = [b] := by
  simp [blocksOf, h]

/-- A block of another transfer is left out. -/
lemma blocksOf_singleton_of_not (h : ¬ b.IsOf id) : blocksOf id [b] = [] := by
  simp [blocksOf, h]

/-- A block does not matter to the other transfers. -/
lemma blocksOf_append_of_ne (h : b.IsOf id) (hne : id' ≠ id) :
    blocksOf id' (blocks ++ [b]) = blocksOf id' blocks := by
  have hnot : ¬ b.IsOf id' := fun h' => hne (isOf_unique h' h)
  rw [blocksOf_append, blocksOf_singleton_of_not hnot, List.append_nil]

/-- A block of the transfer is put after the others. -/
lemma blocksOf_append_self (h : b.IsOf id) :
    blocksOf id (blocks ++ [b]) = blocksOf id blocks ++ [b] := by
  rw [blocksOf_append, blocksOf_singleton_self h]

/-- A heartbeat is of no transfer. -/
lemma not_isOf_heartbeat (h : b.Carries raptorq .heartbeat id' data) : ¬ b.IsOf id :=
  fun hof => hof.2 _ h.blockType_eq rfl

/-- Each of the blocks carries a part of the data. -/
lemma DataBlocks.carries (h : DataBlocks raptorq id blocks bytes) :
    ∀ b ∈ blocks, ∃ data, b.Carries raptorq .data id data := by
  induction blocks generalizing bytes with
  | nil => simp
  | cons b blocks ih =>
    obtain ⟨data, rest, hb, hrest, -⟩ := h
    intro b' hb'
    rcases List.mem_cons.mp hb' with rfl | hb'
    · exact ⟨data, hb⟩
    · exact ih hrest b' hb'

/-- All the blocks of a transfer are well formed and of it. -/
lemma Conveys.carries (h : Conveys raptorq id type blocks bytes) (htype : type ≠ .heartbeat)
    (hb : b ∈ blocks) : ∃ type' data, b.Carries raptorq type' id data ∧ type' ≠ .heartbeat := by
  obtain ⟨start, body, last, data, rest, rfl, hstart, hbody, hlast, -⟩ := h
  rw [List.mem_cons, List.mem_append, List.mem_singleton] at hb
  rcases hb with rfl | hb | rfl
  · exact ⟨_, _, hstart, nofun⟩
  · obtain ⟨d, hb⟩ := hbody.carries b hb
    exact ⟨_, _, hb, nofun⟩
  · exact ⟨_, _, hlast, htype⟩

end BlocksOf

end Lidi
