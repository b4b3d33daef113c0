import Lidi.Core.Pool
import Lidi.Send.Server
import Mathlib.Data.List.ReduceOption

set_option relaxedAutoImplicit false
set_option autoImplicit false

/-!
# The transfers on `to_ordering`

The server workers interleave the blocks of their clients on `to_ordering`. Taken by client, what
has been put there is the beginning of the transfer of the client, and what its server worker
still holds is the rest.

## Main definitions

* `Send.Shares` — how the transfers are shared between the channel and the workers.
* `Send.Servers.Inv` — the invariant of the server workers.

## Main results

* `Send.Servers.Inv.step` — every step keeps the invariant.
* `Send.Shares.isPrefix` — the channel has a beginning of each transfer.
-/

namespace Lidi.Send

/-- All the blocks of a transfer are well formed and of it. -/
lemma carries_of_mem_transfer {raptorq : RaptorQ} {flush : Bool} {id : ClientId} {b : Block}
    {len : ℕ} {client : ClientSocket} (hmax : Block.maxDataLen raptorq = some len)
    (hpos : 0 < len) (h : b ∈ transfer raptorq flush id client) :
    ∃ type data, b.Carries raptorq type id data ∧ type ≠ .heartbeat := by
  obtain ⟨type, bytes, hconveys, ⟨-, rfl, -⟩ | ⟨-, rfl, -⟩⟩ :=
    transfer_conveys hmax hpos flush id client
  · exact hconveys.carries nofun h
  · exact hconveys.carries nofun h

/-- What a server worker still has to put on `to_ordering`, and for which transfer. -/
def Server.rest (raptorq : RaptorQ) : Server → Option (ClientId × List Block)
  | .client id blocks res => some (id, blocks ++ abortBlocks raptorq id res)
  | .abort id b => some (id, [b])
  | _ => none

/-- The client that a server worker has taken but not started. -/
def Server.waiting : Server → Option ClientSocket
  | .wait c => some c
  | _ => none

/-- The blocks on the channel and those held by the workers make up the transfers of the clients
that were started, which are numbered in this order. -/
structure Shares {m : ℕ} (raptorq : RaptorQ) (flush : Bool)
    (held : Fin m → Option (ClientId × List Block)) (started : List ClientSocket)
    (sent : List Block) : Prop where
  distinct : ∀ w w' id rest rest', held w = some (id, rest) → held w' = some (id, rest') → w = w'
  held_eq : ∀ w id rest, held w = some (id, rest) → ∃ c, started[id.toNat]? = some c ∧
    blocksOf id sent ++ rest = transfer raptorq flush id c
  done_eq : ∀ (id : ClientId) c, started[id.toNat]? = some c →
    (∀ w rest, held w ≠ some (id, rest)) → blocksOf id sent = transfer raptorq flush id c
  fresh : ∀ id : ClientId, started.length ≤ id.toNat → blocksOf id sent = []

namespace Shares

open Function

variable {m : ℕ} {raptorq : RaptorQ} {flush : Bool} {held : Fin m → Option (ClientId × List Block)}
  {started : List ClientSocket} {sent : List Block} {w : Fin m} {id : ClientId} {b : Block}
  {rest : List Block} {client : ClientSocket}

/-- At the start nothing has been sent. -/
lemma init : Shares raptorq flush (fun _ : Fin m => none) [] [] where
  distinct := by simp
  held_eq := by simp
  done_eq := by simp
  fresh := by simp

/-- **The channel has a beginning of each transfer.** -/
theorem isPrefix (h : Shares raptorq flush held started sent)
    (hc : started[id.toNat]? = some client) :
    blocksOf id sent <+: transfer raptorq flush id client := by
  by_cases hheld : ∃ w rest, held w = some (id, rest)
  · obtain ⟨w, rest, hw⟩ := hheld
    obtain ⟨c, hc', heq⟩ := h.held_eq w id rest hw
    obtain rfl : client = c := by simpa using hc.symm.trans hc'
    exact ⟨rest, heq⟩
  · simp only [not_exists] at hheld
    rw [h.done_eq id client hc hheld]

/-- What a worker holds is of a client that was started. -/
lemma lt_of_held (h : Shares raptorq flush held started sent) (hw : held w = some (id, rest)) :
    id.toNat < started.length := by
  obtain ⟨c, hc, -⟩ := h.held_eq w id rest hw
  exact (List.getElem?_eq_some_iff.mp hc).1

/-- What a worker holds is well formed and of the transfer it holds it for. -/
lemma carries_of_held {len : ℕ} (h : Shares raptorq flush held started sent)
    (hmax : Block.maxDataLen raptorq = some len) (hpos : 0 < len) (hw : held w = some (id, rest))
    (hb : b ∈ rest) : ∃ type data, b.Carries raptorq type id data ∧ type ≠ .heartbeat := by
  obtain ⟨c, -, heq⟩ := h.held_eq w id rest hw
  have hmem : b ∈ transfer raptorq flush id c := by
    rw [← heq]
    exact List.mem_append_right _ hb
  exact carries_of_mem_transfer hmax hpos hmem

/-- A worker starts the next client. -/
lemma start (h : Shares raptorq flush held started sent) (client : ClientSocket)
    (hw : held w = none) (hid : id.toNat = started.length) :
    Shares raptorq flush (update held w (some (id, transfer raptorq flush id client)))
      (started ++ [client]) sent := by
  have hnew : ∀ w' rest, held w' ≠ some (id, rest) := fun w' rest hw' => by
    have hlt := h.lt_of_held hw'
    omega
  refine ⟨?_, ?_, ?_, ?_⟩
  · intro w₁ w₂ id' r₁ r₂ h₁ h₂
    by_cases e₁ : w₁ = w <;> by_cases e₂ : w₂ = w
    · rw [e₁, e₂]
    · subst e₁
      rw [update_self, Option.some.injEq, Prod.mk.injEq] at h₁
      rw [update_of_ne e₂, ← h₁.1] at h₂
      exact absurd h₂ (hnew w₂ r₂)
    · subst e₂
      rw [update_self, Option.some.injEq, Prod.mk.injEq] at h₂
      rw [update_of_ne e₁, ← h₂.1] at h₁
      exact absurd h₁ (hnew w₁ r₁)
    · rw [update_of_ne e₁] at h₁
      rw [update_of_ne e₂] at h₂
      exact h.distinct w₁ w₂ id' r₁ r₂ h₁ h₂
  · intro w' id' rest hw'
    by_cases e : w' = w
    · subst e
      rw [update_self, Option.some.injEq, Prod.mk.injEq] at hw'
      obtain ⟨rfl, rfl⟩ := hw'
      refine ⟨client, by simp [hid], ?_⟩
      rw [h.fresh id hid.ge, List.nil_append]
    · rw [update_of_ne e] at hw'
      obtain ⟨c, hc, heq⟩ := h.held_eq w' id' rest hw'
      exact ⟨c, by rw [List.getElem?_append_left (h.lt_of_held hw'), hc], heq⟩
  · intro id' c hc hheld
    have hne : id' ≠ id := by
      rintro rfl
      exact hheld w _ (update_self ..)
    have hlt : id'.toNat < started.length := by
      have hlt := (List.getElem?_eq_some_iff.mp hc).1
      have hne' : id'.toNat ≠ id.toNat := fun e => hne (UInt32.toNat_inj.mp e)
      rw [List.length_append, List.length_singleton] at hlt
      omega
    rw [List.getElem?_append_left hlt] at hc
    refine h.done_eq id' c hc fun w' rest hw' => ?_
    by_cases e : w' = w
    · subst e
      rw [hw] at hw'
      cases hw'
    · exact hheld w' rest (by rw [update_of_ne e, hw'])
  · intro id' hle
    rw [List.length_append] at hle
    exact h.fresh id' (by omega)

/-- A worker puts its next block on the channel. -/
lemma send (h : Shares raptorq flush held started sent) (hw : held w = some (id, b :: rest))
    (hb : b.IsOf id) :
    Shares raptorq flush (update held w (some (id, rest))) started (sent ++ [b]) := by
  have hother : ∀ id', id' ≠ id → blocksOf id' (sent ++ [b]) = blocksOf id' sent := by
    intro id' hne
    have hnot : ¬ b.IsOf id' := fun hb' => hne (isOf_unique hb' hb)
    rw [blocksOf_append, blocksOf_singleton_of_not hnot, List.append_nil]
  have hsame : ∀ w' id' r, update held w (some (id, rest)) w' = some (id', r) →
      (w' = w ∧ id' = id ∧ r = rest) ∨ (w' ≠ w ∧ id' ≠ id ∧ held w' = some (id', r)) := by
    intro w' id' r hw'
    by_cases e : w' = w
    · subst e
      rw [update_self, Option.some.injEq, Prod.mk.injEq] at hw'
      exact .inl ⟨rfl, hw'.1.symm, hw'.2.symm⟩
    · rw [update_of_ne e] at hw'
      refine .inr ⟨e, ?_, hw'⟩
      rintro rfl
      exact e (h.distinct _ _ _ _ _ hw' hw)
  refine ⟨?_, ?_, ?_, ?_⟩
  · intro w₁ w₂ id' r₁ r₂ h₁ h₂
    rcases hsame w₁ id' r₁ h₁ with ⟨rfl, rfl, -⟩ | ⟨-, hne₁, h₁⟩ <;>
      rcases hsame w₂ _ r₂ h₂ with ⟨rfl, e₂, -⟩ | ⟨-, hne₂, h₂⟩
    · rfl
    · exact absurd rfl hne₂
    · exact absurd e₂ hne₁
    · exact h.distinct w₁ w₂ id' r₁ r₂ h₁ h₂
  · intro w' id' r hw'
    rcases hsame w' id' r hw' with ⟨rfl, rfl, rfl⟩ | ⟨-, hne, hw'⟩
    · obtain ⟨c, hc, heq⟩ := h.held_eq _ _ _ hw
      refine ⟨c, hc, ?_⟩
      rw [blocksOf_append, blocksOf_singleton_self hb, List.append_assoc, ← heq]
      rfl
    · rw [hother id' hne]
      exact h.held_eq w' id' r hw'
  · intro id' c hc hheld
    have hne : id' ≠ id := by
      rintro rfl
      exact hheld w rest (update_self ..)
    rw [hother id' hne]
    refine h.done_eq id' c hc fun w' r hw' => ?_
    by_cases e : w' = w
    · subst e
      rw [hw, Option.some.injEq, Prod.mk.injEq] at hw'
      exact hne hw'.1.symm
    · exact hheld w' r (by rw [update_of_ne e, hw'])
  · intro id' hle
    have hlt := h.lt_of_held hw
    have hne : id' ≠ id := by
      rintro rfl
      omega
    rw [hother id' hne]
    exact h.fresh id' hle

/-- A worker has nothing left of its transfer. -/
lemma finish (h : Shares raptorq flush held started sent) (hw : held w = some (id, [])) :
    Shares raptorq flush (update held w none) started sent := by
  have hother : ∀ w' id' r, update held w none w' = some (id', r) → held w' = some (id', r) := by
    intro w' id' r hw'
    by_cases e : w' = w
    · subst e
      simp at hw'
    · rwa [update_of_ne e] at hw'
  refine ⟨?_, ?_, ?_, h.fresh⟩
  · exact fun w₁ w₂ id' r₁ r₂ h₁ h₂ =>
      h.distinct w₁ w₂ id' r₁ r₂ (hother _ _ _ h₁) (hother _ _ _ h₂)
  · exact fun w' id' r hw' => h.held_eq w' id' r (hother w' id' r hw')
  · intro id' c hc hheld
    by_cases hid : id' = id
    · subst hid
      obtain ⟨c', hc', heq⟩ := h.held_eq _ _ _ hw
      obtain rfl : c = c' := by simpa using hc.symm.trans hc'
      rwa [List.append_nil] at heq
    · refine h.done_eq id' c hc fun w' r hw' => ?_
      by_cases e : w' = w
      · subst e
        rw [hw, Option.some.injEq, Prod.mk.injEq] at hw'
        exact hid hw'.1.symm
      · exact hheld w' r (by rw [update_of_ne e, hw'])

/-- A heartbeat is of no transfer. -/
lemma heartbeat (h : Shares raptorq flush held started sent) (hb : ∀ id, ¬ b.IsOf id) :
    Shares raptorq flush held started (sent ++ [b]) := by
  have hsame : ∀ id, blocksOf id (sent ++ [b]) = blocksOf id sent := fun id => by
    rw [blocksOf_append, blocksOf_singleton_of_not (hb id), List.append_nil]
  exact ⟨h.distinct, by simpa only [hsame] using h.held_eq, by simpa only [hsame] using h.done_eq,
    by simpa only [hsame] using h.fresh⟩

end Shares

namespace Servers

open Function

variable {m : ℕ} {cfg : Config} {room : Bool} {s s' : Servers m} {sent : List Block}
  {todo : List (Option ClientSocket)} {out : List (Option Block)} {len : ℕ}

/-- **The invariant of the server workers.** `sent` is what has been put on `to_ordering` without
the stop markers, and `todo` the calls that are made of `new_client` and `stop`. -/
structure Inv (cfg : Config) (todo : List (Option ClientSocket)) (s : Servers m)
    (sent : List Block) : Prop where
  counter_eq : s.clientIdCounter = UInt32.ofNat s.started.length
  clients : (s.started ++ (Pool.holding (fun w => (s.workers w).waiting) ++
    (s.toServer ++ s.todo).reduceOption)).Perm todo.reduceOption
  shares : Shares cfg.raptorq cfg.flush (fun w => (s.workers w).rest cfg.raptorq) s.started sent
  carries : ∀ b ∈ sent, ∃ type id data, b.Carries cfg.raptorq type id data

/-- The invariant holds at the start. -/
lemma Inv.init (cfg : Config) (todo : List (Option ClientSocket)) :
    Inv cfg todo (Servers.init m todo) [] where
  counter_eq := rfl
  clients := by
    have hnone : Pool.holding (fun _ : Fin m => Server.recv.waiting) = [] :=
      Pool.holding_eq_nil.mpr fun _ => rfl
    simp only [Servers.init, hnone, List.nil_append]
    exact List.Perm.refl _
  shares := .init
  carries := by simp

/-- What a worker holds after the client worker has returned is what it had left. -/
lemma rest_afterClient (cfg : Config) (id : ClientId) (res : Outcome Error Unit) :
    (∃ b, (afterClient cfg id res).rest cfg.raptorq = some (id, [b]) ∧
      abortBlocks cfg.raptorq id res = [b]) ∨
    ((afterClient cfg id res).rest cfg.raptorq = none ∧ abortBlocks cfg.raptorq id res = []) := by
  rcases res with (_ | e) | _
  · exact .inr ⟨rfl, rfl⟩
  · cases hnew : Block.new .abort cfg.raptorq id none with
    | error f =>
      cases f <;> exact .inr (by
        simp [afterClient, abortBlocks, hnew, Outcome.mapError, Except.toOption, Server.rest])
    | ok b =>
      exact .inl ⟨b, by
        simp [afterClient, abortBlocks, hnew, Outcome.mapError, Except.toOption, Server.rest]⟩
  · exact .inr ⟨rfl, rfl⟩

/-- A worker that has served a client does not wait to send one of its blocks. -/
lemma waiting_afterClient (cfg : Config) (id : ClientId) (res : Outcome Error Unit) :
    (afterClient cfg id res).waiting = none := by
  rcases afterClient_cases cfg id res with h | ⟨b, h⟩ | ⟨f, h⟩ <;> rw [h] <;> rfl

/-- A worker that starts waiting for a client, or stops. -/
lemma holding_waiting (f : Fin m → Server) (w : Fin m) (v : Server) :
    ((f w).waiting.toList ++ Pool.holding (fun w' => (update f w v w').waiting)).Perm
      (v.waiting.toList ++ Pool.holding (fun w' => (f w').waiting)) := by
  rw [Pool.phases_update Server.waiting]
  exact Pool.holding_update (fun w' => (f w').waiting) w v.waiting

/-- What is put on the channel is well formed. -/
lemma Inv.carries_snoc (h : Inv cfg todo s sent) {type : BlockType} {id : ClientId}
    {data : List UInt8} {b : Block} (hb : b.Carries cfg.raptorq type id data) :
    ∀ b' ∈ sent ++ [b], ∃ type id data, b'.Carries cfg.raptorq type id data := by
  intro b' hb'
  rcases List.mem_append.mp hb' with hb' | hb'
  · exact h.carries b' hb'
  · rw [List.mem_singleton.mp hb']
    exact ⟨type, id, data, hb⟩

/-- A worker goes on with the same client and the same blocks to send. -/
lemma Inv.move (h : Inv cfg todo s sent) {w : Fin m} {v : Server}
    (hwaiting : v.waiting = (s.workers w).waiting)
    (hrest : v.rest cfg.raptorq = (s.workers w).rest cfg.raptorq) :
    Inv cfg todo { s with workers := update s.workers w v } sent where
  counter_eq := h.counter_eq
  clients := by
    rw [Pool.phases_congr (g := Server.waiting) hwaiting]
    exact h.clients
  shares := by
    rw [Pool.phases_congr (g := Server.rest cfg.raptorq) hrest]
    exact h.shares
  carries := h.carries

/-- A worker puts the next block on the channel. -/
lemma Inv.send (h : Inv cfg todo s sent) (hmax : Block.maxDataLen cfg.raptorq = some len)
    (hpos : 0 < len) {w : Fin m} {v : Server} {id : ClientId} {b : Block} {rest : List Block}
    (hheld : (s.workers w).rest cfg.raptorq = some (id, b :: rest))
    (hwaiting : v.waiting = (s.workers w).waiting)
    (hrest : v.rest cfg.raptorq = some (id, rest) ∨ v.rest cfg.raptorq = none ∧ rest = []) :
    Inv cfg todo { s with workers := update s.workers w v } (sent ++ [b]) := by
  obtain ⟨type, data, hb, htype⟩ :=
    h.shares.carries_of_held hmax hpos hheld List.mem_cons_self
  have hsend := h.shares.send hheld (isOf_of_carries hb htype)
  refine ⟨h.counter_eq, ?_, ?_, h.carries_snoc hb⟩
  · rw [Pool.phases_congr (g := Server.waiting) hwaiting]
    exact h.clients
  · rw [Pool.phases_update (Server.rest cfg.raptorq)]
    rcases hrest with hrest | ⟨hrest, rfl⟩
    · rwa [hrest]
    · have hfinish := hsend.finish (update_self (f := fun w => (s.workers w).rest cfg.raptorq) ..)
      rwa [update_idem, ← hrest] at hfinish

/-- **Every step keeps the invariant**, if there are fewer than `2 ^ 32` clients. -/
theorem Inv.step (hmax : Block.maxDataLen cfg.raptorq = some len) (hpos : 0 < len)
    (hfew : todo.reduceOption.length < 2 ^ 32) (h : Inv cfg todo s sent) {a : Label m}
    (ht : Trans cfg room s a s' out) : Inv cfg todo s' (sent ++ out.reduceOption) := by
  have hinv := h
  obtain ⟨hcounter, hclients, hshares, hcarries⟩ := h
  cases ht with
  | @main c rest htodo hroom =>
    refine ⟨hcounter, ?_, by simpa using hshares, by simpa using hcarries⟩
    rw [htodo] at hclients
    simpa using hclients
  | @take w c rest hw hin =>
    refine ⟨hcounter, ?_, ?_, by simpa using hcarries⟩
    · have hhold := holding_waiting s.workers w (.wait c)
      rw [hw] at hhold
      rw [hin] at hclients
      refine List.Perm.trans ?_ hclients
      refine List.Perm.append_left _ ((hhold.append_right _).trans ?_)
      rw [List.cons_append, List.reduceOption_cons_of_some]
      exact List.perm_middle.symm
    · rw [Pool.phases_congr (g := Server.rest cfg.raptorq) (by simp [hw, Server.rest])]
      simpa using hshares
  | @takeStop w rest hw hin =>
    have htaken : Inv cfg todo { s with toServer := rest } sent :=
      ⟨hcounter, by simpa [hin] using hclients, hshares, hcarries⟩
    rw [List.reduceOption_nil, List.append_nil]
    apply htaken.move <;> simp [hw, Server.waiting, Server.rest]
  | @start w c permits hw hsem =>
    have hbound : s.started.length < 2 ^ 32 := by
      have hlen := hclients.length_eq
      rw [List.length_append] at hlen
      omega
    refine ⟨?_, ?_, ?_, by simpa using hcarries⟩
    · simp only [hcounter, List.length_append, List.length_singleton]
      rw [← UInt32.toNat_inj]
      simp
    · have hhold := holding_waiting s.workers w (.client s.clientIdCounter
        (Client.start cfg.raptorq cfg.flush s.clientIdCounter c).1
        (Client.start cfg.raptorq cfg.flush s.clientIdCounter c).2)
      rw [hw] at hhold
      refine List.Perm.trans ?_ hclients
      rw [List.append_assoc]
      exact (hhold.append_right _).append_left _
    · rw [Pool.phases_update (Server.rest cfg.raptorq), List.reduceOption_nil, List.append_nil]
      have hid : s.clientIdCounter.toNat = s.started.length := by
        rw [hcounter, UInt32.toNat_ofNat']
        exact Nat.mod_eq_of_lt hbound
      exact hshares.start c (by simp [hw, Server.rest]) hid
  | @send w id b blocks res hw hroom =>
    have hheld : (s.workers w).rest cfg.raptorq =
        some (id, b :: (blocks ++ abortBlocks cfg.raptorq id res)) := by
      rw [hw]
      rfl
    exact hinv.send hmax hpos hheld (by rw [hw]; rfl) (.inl rfl)
  | @finish w id res hw =>
    rw [List.reduceOption_nil, List.append_nil]
    have hwaiting : (afterClient cfg id res).waiting = (s.workers w).waiting := by
      rw [waiting_afterClient, hw]
      rfl
    have hheld : (s.workers w).rest cfg.raptorq = some (id, abortBlocks cfg.raptorq id res) := by
      rw [hw]
      rfl
    rcases rest_afterClient cfg id res with ⟨b, hrest, hblocks⟩ | ⟨hrest, hblocks⟩
    · have hmoved := hinv.move hwaiting (by rw [hrest, hheld, hblocks])
      exact ⟨hcounter, hmoved.clients, hmoved.shares, hcarries⟩
    · refine ⟨hcounter, ?_, ?_, hcarries⟩
      · rw [Pool.phases_congr (g := Server.waiting) hwaiting]
        exact hclients
      · rw [Pool.phases_update (Server.rest cfg.raptorq), hrest]
        rw [hblocks] at hheld
        exact hshares.finish hheld
  | @abort w id b hw hroom =>
    have hheld : (s.workers w).rest cfg.raptorq = some (id, [b]) := by
      rw [hw]
      rfl
    exact hinv.send hmax hpos hheld (by rw [hw]; rfl) (.inr ⟨rfl, rfl⟩)
  | @stop w left hw hroom =>
    rw [List.reduceOption_cons_of_none, List.reduceOption_nil, List.append_nil]
    apply hinv.move <;> simp [hw, Server.waiting, Server.rest]
  | @stopped w hw =>
    rw [List.reduceOption_nil, List.append_nil]
    apply hinv.move <;> simp [hw, Server.waiting, Server.rest]
  | @heartbeat b hcfg hroom hb =>
    obtain ⟨b', hb', hbeat⟩ := Block.new_carries hmax .heartbeat 0 none (by simp)
    obtain rfl : b = b' := by simpa using hb.symm.trans hb'
    exact ⟨hcounter, hclients, hshares.heartbeat fun id => not_isOf_heartbeat hbeat,
      hinv.carries_snoc hbeat⟩

end Servers

end Lidi.Send
