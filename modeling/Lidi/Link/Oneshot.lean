import Lidi.Link.Partial
import Lidi.Receive.Heard

set_option relaxedAutoImplicit false
set_option autoImplicit false

/-!
# Failures that are accounted for, and the exit code of a transfer

A transfer at the receiver fails only if its client has failed or synchronization has been lost.
`diode-oneshot-send` and `diode-oneshot-receive` pass one client through the link, from the standard
input to the standard output, and `client_end` ends the receiving process with an exit code.

## Main definitions

* `Link.Lossy.Accountable` — the failures are those of the clients.
* `Link.Oneshot.step` — the link with a receiver that exits.
* `Link.Oneshot.exitCode`, `Link.Oneshot.stdout` — the exit code and what has been written.

## Main results

* `Link.accountable` — no transfer fails without a cause.
* `Link.oneshot_exit` — what the exit code says.
-/

namespace Lidi

open Send Receive

/-- The `Abort` of a transfer is that of a client that fails. -/
lemma Send.failure_of_mem_transfer {raptorq : RaptorQ} {len : ℕ} {flush : Bool} {id : ClientId}
    {client : ClientSocket} {b : Block} (hmax : Block.maxDataLen raptorq = some len)
    (hpos : 0 < len) (hb : b ∈ transfer raptorq flush id client) (hout : b.outcome = some false) :
    client.failure ≠ none := by
  obtain ⟨type, bytes, hconveys, hcases⟩ := transfer_conveys hmax hpos flush id client
  rcases hcases with ⟨-, rfl, -⟩ | ⟨hfailure, -, -⟩
  · obtain ⟨-, body, last, heq, hbody, hlast⟩ := hconveys.script
    rw [heq, List.mem_append, List.mem_singleton] at hb
    rcases hb with hb | rfl
    · rw [hbody b hb] at hout
      cases hout
    · rw [hlast] at hout
      cases hout
  · exact hfailure

namespace Link

variable {m n d k : ℕ} {Packet : Type*} {crate : Crate Packet} {ends : Ends}
  {s s' : Lossy m n d k Packet} {todo : List (Option ClientSocket)} {len : ℕ}

namespace Lossy

/-- **The invariant of what has been received.** The blocks are of the stream, and those in the
queues have been received. -/
structure Heard (s : Lossy m n d k Packet) : Prop where
  mem_stream : ∀ b, some b ∈ s.core.decoding.received → b ∈ s.stream
  heard : s.demux.Heard s.core.decoding.received

/-- At the start nothing has been heard. -/
lemma Heard.init (m n d k : ℕ) (Packet : Type*) (todo : List (Option ClientSocket)) :
    (Lossy.init m n d k Packet todo).Heard where
  mem_stream b hb := by cases hb
  heard := .init _

/-- **Every step of the link keeps the invariant.** -/
theorem Heard.step (h : s.Heard) (hinv : Inv crate ends todo s) {a : Label m n d k}
    (ht : Trans crate ends s a s') : s'.Heard := by
  have hmoved : ∀ {a : Core.Label d} {core : Core d Packet}, a ≠ .dispatch →
      Core.Trans crate ends.receiver.raptorq s.core a core → (s.moved core).Heard := by
    intro a core ha hcore
    have hreceived : (s.moved core).core.decoding.received = s.core.decoding.received :=
      hcore.received_eq ha
    constructor
    · rw [hreceived]
      exact h.mem_stream
    · rw [hreceived]
      exact h.heard
  cases ht with
  | sender hsender =>
    have hpre := stream_isPrefix (n := n) (d := d) (k := k) hsender
    exact ⟨fun b hb => hpre.subset (h.mem_stream b hb), h.heard⟩
  | arrive ha hbatch hp => exact ⟨h.mem_stream, h.heard⟩
  | timeout hcore | reblock hcore | decode hcore => exact hmoved (by simp) hcore
  | @dispatch message rest core hrunning hout hcore =>
    have hnext := hinv.mem_stream hrunning hout
    have hdemux := Demux.received_of_receive hinv.valid ends.receiver message
    cases hcore with
    | dispatch hd =>
      cases hd with
      | dispatch hout' =>
        obtain ⟨rfl, rfl⟩ := List.cons.inj (hout.symm.trans hout')
        refine ⟨fun b hb => ?_, h.heard.receive hinv.valid hdemux⟩
        rcases List.mem_append.mp hb with hb | hb
        · exact h.mem_stream b hb
        · exact hnext b (List.mem_singleton.mp hb).symm
  | client hclient => exact ⟨h.mem_stream, h.heard.clientStep hclient⟩

/-- **The failures are accounted for.** If no loss marker has been received, then a transfer that
ended with failure is of a client that has failed. -/
def Accountable (s : Lossy m n d k Packet) : Prop :=
  none ∉ s.core.decoding.received →
    ∀ t ∈ s.demux.transfers, .clientEnd false ∈ t.calls →
      ∃ c, s.sender.servers.started[t.clientId.toNat]? = some c ∧ c.failure ≠ none

/-- The invariants give it: the `Abort` that has ended the transfer was received, so that it is of
the stream. -/
lemma Heard.accountable_of_inv (h : s.Heard) (hinv : Inv crate ends todo s)
    (hmax : Block.maxDataLen ends.sender.raptorq = some len) (hpos : 0 < len) : s.Accountable := by
  intro hmarker t ht hcall
  obtain ⟨c, hc⟩ := hinv.exists_started ht
  obtain ⟨body, last, htaken, -, hlast⟩ := (hinv.demux.ended ht hcall).taken_eq
  have hsent : last ∈ t.sent := List.mem_append_left _ (by simp [htaken])
  obtain ⟨hreceived, hof⟩ := h.heard hmarker t ht last hsent
  have hmem : last ∈ blocksOf t.clientId s.stream :=
    List.mem_filter.mpr ⟨h.mem_stream last hreceived, decide_eq_true hof⟩
  have hpre := hinv.servers.shares.isPrefix hc
  exact ⟨c, hc, failure_of_mem_transfer hmax hpos (hpre.subset hmem) hlast⟩

end Lossy

/-- All the invariants hold at any moment of a sound run. -/
lemma Lossy.inv_and_heard (hlaw : crate.Lawful ends.sender.raptorq)
    (hmax : Block.maxDataLen ends.sender.raptorq = some len) (hpos : 0 < len) (hn : n < 256)
    (hfew : todo.reduceOption.length < 2 ^ 32)
    (h : LTS.ReachVia (Lossy.step crate ends) (Lossy.Sound crate ends)
      (Lossy.init m n d k Packet todo) s) : Inv crate ends todo s ∧ s.Heard := by
  refine h.invariant (P := fun s => Inv crate ends todo s ∧ s.Heard)
    ⟨.init crate ends todo, .init m n d k Packet todo⟩ ?_
  rintro t a t' - ⟨ht, hheard⟩ hok hs
  have htrans := step_iff.mp hs
  exact ⟨ht.step hlaw hmax hpos hn hfew hok htrans, hheard.step ht htrans⟩

/-- **No transfer fails without a cause.** For any number of clients and of threads, every order of
their steps, and every loss, duplication and reordering of datagrams: if every step is sound, a
transfer is reported as failed only if its client has failed or the receiver has noticed a loss. -/
theorem accountable (hlaw : crate.Lawful ends.sender.raptorq)
    (hmax : Block.maxDataLen ends.sender.raptorq = some len) (hpos : 0 < len) (hn : n < 256)
    (hfew : todo.reduceOption.length < 2 ^ 32)
    (h : LTS.ReachVia (Lossy.step crate ends) (Lossy.Sound crate ends)
      (Lossy.init m n d k Packet todo) s) : s.Accountable := by
  obtain ⟨hinv, hheard⟩ := Lossy.inv_and_heard hlaw hmax hpos hn hfew h
  exact hheard.accountable_of_inv hinv hmax hpos

/-- A client whose first read fails. -/
def unreadable : ClientSocket :=
  ⟨[], some ⟨"connection reset"⟩, List.forall_mem_nil _⟩

/-- Its `Start` and its `Abort` are sent, received and written. -/
def failedRead : List (Lossy.Label 1 1 1 1) :=
  [.sender (.server .main), .sender (.server (.server 0)), .sender (.server (.server 0))] ++
    sendBlock ++ [.sender (.server (.server 0))] ++ sendBlock ++
    [.arrive (0, 0) none, .reblock, .reblock, .reblock, .reblock] ++ passBlock ++
    [.arrive (1, 0) none, .reblock, .reblock] ++ passBlock ++
    [.client 0 .ok, .client 0 .ok, .client 0 .ok, .client 0 .ok, .client 0 .ok]

/-- The failure of that client is reported, and no loss marker has been received. -/
theorem accountable_failedRead : ∃ s : Lossy 1 1 1 1 (UInt8 × List UInt8),
    none ∉ s.core.decoding.received ∧ s.Accountable ∧
    s.demux.transfers.map (fun t => (t.clientId, t.calls)) =
      [(0, [.clientNew true, .clientEnd false])] := by
  have hrun : (LTS.runVia (Lossy.step Crate.single smallest) (Lossy.Sound Crate.single smallest)
      (Lossy.init 1 1 1 1 _ [some unreadable]) failedRead).map (fun s =>
        (s.core.decoding.received.all Option.isSome,
          s.demux.transfers.map fun t => (t.clientId, t.calls))) =
      some (true, [(0, [.clientNew true, .clientEnd false])]) := by
    decide +kernel
  obtain ⟨s, hs, heq⟩ := Option.map_eq_some_iff.mp hrun
  obtain ⟨hall, htransfers⟩ := Prod.mk.inj heq
  have hmax : Block.maxDataLen RaptorQ.single = some 7 := by decide
  refine ⟨s, fun hmem => ?_, accountable Crate.single_lawful hmax (by decide) (by decide)
    (by decide) (LTS.reachVia_of_runVia hs), htransfers⟩
  exact absurd (List.all_eq_true.mp hall none hmem) (by simp)

/-! ## One client -/

namespace Oneshot

/-- The exit code of the process if the call is made: `client_end` is `process::exit`. -/
def callExit : Call → Option ℕ
  | .clientEnd true => some 0
  | .clientEnd false => some 1
  | _ => none

/-- The exit code of the receiver, if it has exited. -/
def exitCode (s : Demux k) : Option ℕ :=
  (s.transfers.flatMap Transfer.calls).findSome? callExit

/-- What has been written to the standard output, which is the client of every transfer. -/
def stdout (s : Demux k) : List UInt8 :=
  s.transfers.flatMap fun t => written t.calls

/-- The next step; `none` if the worker is blocked or its process has exited. -/
def step (crate : Crate Packet) (ends : Ends) (s : Lossy m n d k Packet) :
    Lossy.Label m n d k → Option (Lossy m n d k Packet)
  | .sender a => Lossy.step crate ends s (.sender a)
  | a => if (exitCode s.demux).isSome then none else Lossy.step crate ends s a

/-- Where the receiver has not exited, the steps are those of the link. -/
lemma lossy_of_step {a : Lossy.Label m n d k} (h : Oneshot.step crate ends s a = some s') :
    Lossy.step crate ends s a = some s' := by
  have hrunning : ∀ {res : Option (Lossy m n d k Packet)},
      (if (exitCode s.demux).isSome then none else res) = some s' → res = some s' := by
    intro res hres
    split at hres
    · cases hres
    · exact hres
  cases a with
  | sender a => exact h
  | arrive | timeout | reblock | decode | dispatch | client => exact hrunning h

/-- An exit code is that of a call. -/
lemma mem_calls_of_exitCode {s : Demux k} {t : Transfer} {code : ℕ} (hs : s.transfers = [t])
    (h : exitCode s = some code) :
    code = 0 ∧ .clientEnd true ∈ t.calls ∨ code = 1 ∧ .clientEnd false ∈ t.calls := by
  have hcalls : t.calls.findSome? callExit = some code := by simpa [exitCode, hs] using h
  obtain ⟨call, hmem, hcall⟩ := List.exists_of_findSome?_eq_some hcalls
  match call, hcall with
  | .clientEnd true, hcall => exact .inl ⟨(Option.some.inj hcall).symm, hmem⟩
  | .clientEnd false, hcall => exact .inr ⟨(Option.some.inj hcall).symm, hmem⟩

end Oneshot

/-- The only client that can have been started is that of the sender. -/
lemma Lossy.Inv.eq_of_started {client c : ClientSocket} {i : ℕ}
    (h : Lossy.Inv crate ends [some client, none] s)
    (hc : s.sender.servers.started[i]? = some c) : c = client ∧ i = 0 := by
  have hperm := h.servers.clients
  have hlen := hperm.length_eq
  rw [List.length_append] at hlen
  obtain ⟨hlt, -⟩ := List.getElem?_eq_some_iff.mp hc
  have hone : [some client, none].reduceOption = [client] := rfl
  rw [hone] at hperm hlen
  have hmem := hperm.subset (List.mem_append_left _ (List.mem_of_getElem? hc))
  rw [List.length_singleton] at hlen
  exact ⟨List.mem_singleton.mp hmem, by omega⟩

/-- There is at most one transfer. -/
lemma Lossy.Inv.transfers_cases {client : ClientSocket}
    (h : Lossy.Inv crate ends [some client, none] s) :
    s.demux.transfers = [] ∨ ∃ t, s.demux.transfers = [t] := by
  obtain ⟨pending, -, pos, hdelivered, -⟩ := h.informed
  have hzero : ∀ t ∈ s.demux.transfers, t.clientId = 0 := by
    intro t ht
    obtain ⟨c, hc⟩ := h.exists_started ht
    exact UInt32.toNat_inj.mp (h.eq_of_started hc).2
  have hunique := hdelivered.unique
  match htransfers : s.demux.transfers with
  | [] => exact .inl rfl
  | [t] => exact .inr ⟨t, rfl⟩
  | t :: t' :: rest =>
    rw [htransfers] at hzero hunique
    have hsame : t.clientId = t'.clientId := by
      rw [hzero t (by simp), hzero t' (by simp)]
    simp [hsame] at hunique

/-- **What the exit code says.** One client is passed from the standard input to the standard
output. Both programs have started up; where that fails, `main` returns early. At any moment of a
sound run, what has been written is a beginning of the input. The exit code 0 says that it is the
whole input, which could be read to its end; the exit code 1, that the input could not be read to
its end, or that the receiver has noticed a loss. -/
theorem oneshot_exit {client : ClientSocket} {s : Lossy 1 n d 1 Packet}
    (hlaw : crate.Lawful ends.sender.raptorq)
    (hmax : Block.maxDataLen ends.sender.raptorq = some len) (hpos : 0 < len) (hn : n < 256)
    (h : LTS.ReachVia (Oneshot.step crate ends) (Lossy.Sound crate ends)
      (Lossy.init 1 n d 1 Packet [some client, none]) s) :
    Oneshot.stdout s.demux <+: client.bytes ∧
    (Oneshot.exitCode s.demux = some 0 →
      client.failure = none ∧ Oneshot.stdout s.demux = client.bytes) ∧
    (Oneshot.exitCode s.demux = some 1 →
      client.failure ≠ none ∨ none ∈ s.core.decoding.received) := by
  have hfew : [some client, none].reduceOption.length < 2 ^ 32 := by
    show 1 < 2 ^ 32
    decide
  have hreach : LTS.ReachVia (Lossy.step crate ends) (Lossy.Sound crate ends)
      (Lossy.init 1 n d 1 Packet [some client, none]) s :=
    h.simulate id fun t a t' _ hok hs => .tail .refl hok (Oneshot.lossy_of_step hs)
  obtain ⟨hinv, hbegun⟩ := Lossy.inv_and_partial hlaw hmax hpos hn hfew hreach
  obtain ⟨-, hheard⟩ := Lossy.inv_and_heard hlaw hmax hpos hn hfew hreach
  obtain ⟨hwritten, -⟩ := hinv.truthful_of_partial hmax hpos hbegun
  have hintact := hinv.intact hmax hpos
  have haccountable := hheard.accountable_of_inv hinv hmax hpos
  rcases hinv.transfers_cases with hnil | ⟨t, hone⟩
  · simp [Oneshot.stdout, Oneshot.exitCode, hnil]
  have ht : t ∈ s.demux.transfers := by simp [hone]
  have hstdout : Oneshot.stdout s.demux = written t.calls := by simp [Oneshot.stdout, hone]
  rw [hstdout]
  refine ⟨?_, fun hexit => ?_, fun hexit => ?_⟩
  · obtain ⟨c, hc, hpre⟩ := hwritten t ht
    rwa [(hinv.eq_of_started hc).1] at hpre
  · rcases Oneshot.mem_calls_of_exitCode hone hexit with ⟨-, hcall⟩ | ⟨hcode, -⟩
    · obtain ⟨⟨c, hc, hread, hall⟩, -⟩ := hintact t ht hcall
      rw [(hinv.eq_of_started hc).1] at hread hall
      exact ⟨hread, hall⟩
    · cases hcode
  · rcases Oneshot.mem_calls_of_exitCode hone hexit with ⟨hcode, -⟩ | ⟨-, hcall⟩
    · cases hcode
    · by_cases hmarker : none ∈ s.core.decoding.received
      · exact .inr hmarker
      · obtain ⟨c, hc, hfailed⟩ := haccountable hmarker t ht hcall
        rw [(hinv.eq_of_started hc).1] at hfailed
        exact .inl hfailed

/-- The receiver of the client that cannot be read exits with 1. -/
theorem oneshot_exit_failedRead : ∃ s : Lossy 1 1 1 1 (UInt8 × List UInt8),
    Oneshot.exitCode s.demux = some 1 ∧
    (unreadable.failure ≠ none ∨ none ∈ s.core.decoding.received) := by
  have hrun : (LTS.runVia (Oneshot.step Crate.single smallest) (Lossy.Sound Crate.single smallest)
      (Lossy.init 1 1 1 1 _ [some unreadable, none]) failedRead).map
        (fun s => Oneshot.exitCode s.demux) = some (some 1) := by
    decide +kernel
  obtain ⟨s, hs, hcode⟩ := Option.map_eq_some_iff.mp hrun
  have hmax : Block.maxDataLen RaptorQ.single = some 7 := by decide
  obtain ⟨-, -, hfailed⟩ := oneshot_exit Crate.single_lawful hmax (by decide) (by decide)
    (LTS.reachVia_of_runVia hs)
  exact ⟨s, hcode, hfailed hcode⟩

end Link

end Lidi
