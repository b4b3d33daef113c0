import Lidi.Link.Progress

set_option relaxedAutoImplicit false
set_option autoImplicit false

/-!
# Every client is received once, with its own bytes

## Main definitions

* `Link.Complete` — how the transfer of a client ends at the receiver.

## Main results

* `Link.multiplexed_delivery` — every client is received exactly once, with its own bytes.
-/

namespace Lidi.Link

open Send Receive

/-- The transfer of a client as it is in the end: one call of `client_new`, writes and flushes,
and one call of `client_end`; with success and with the whole stream written if the stream has
ended, without success and with a part of it written if a read has failed. -/
def Complete (c : ClientSocket) (t : Transfer) : Prop :=
  ∃ io ok, t.calls = .clientNew true :: (io ++ [.clientEnd ok]) ∧
    (∀ call ∈ io, call.isIo = true) ∧
    match c.failure with
    | none => ok = true ∧ written t.calls = c.bytes
    | some _ => ok = false ∧ written t.calls <+: c.bytes

/-- A transfer that has ended with blocks of the transfer of its client is complete. -/
lemma complete_of_ended {raptorq : RaptorQ} {len : ℕ} {flush : Bool} {id : ClientId}
    {c : ClientSocket} {t : Transfer} {ok : Bool} (hmax : Block.maxDataLen raptorq = some len)
    (hpos : 0 < len) (h : Ended t ok) (htaken : t.taken <+: transfer raptorq flush id c) :
    Complete c t := by
  obtain ⟨io, hcalls, hio⟩ := h.calls_eq
  obtain ⟨body, last, hbody, -, hlast⟩ := h.taken_eq
  obtain ⟨type, bytes, hconveys, hcases⟩ := transfer_conveys hmax hpos flush id c
  have hwhole := hconveys.eq_of_isPrefix htaken (b := last) (by simp [hbody]) (by simp [hlast])
  obtain ⟨hpay, body', last', heq, -, hlast'⟩ := hconveys.script
  have hwritten : written t.calls = bytes := by rw [h.written_eq, hwhole, hpay]
  have hok : Client.outcome type = some ok := by
    rw [← hwhole, hbody] at heq
    have hlasts := (List.append_inj' heq rfl).2
    simp only [List.cons.injEq, and_true] at hlasts
    rw [← hlast', ← hlasts, hlast]
  refine ⟨io, ok, hcalls, hio, ?_⟩
  rcases hcases with ⟨hfail, rfl, rfl⟩ | ⟨hfail, rfl, hpre⟩
  · rw [hfail]
    simp only [Client.outcome, Option.some.injEq] at hok
    exact ⟨hok.symm, hwritten⟩
  · cases hf : c.failure with
    | none => exact absurd hf hfail
    | some e =>
      simp only [Client.outcome, Option.some.injEq] at hok
      exact ⟨hok.symm, hwritten ▸ hpre⟩

section Delivery

variable {m k len len' : ℕ} {sender : Send.Config} {receiver : Receive.Config}
  {clients : List ClientSocket} {s : Multiplex m k}

/-- **Multiplexed delivery.** At any moment, every transfer at the receiver is of a client that
was started, no two of them are of the same client, and what was written for it is a beginning of
the stream of this client. Apart from heartbeats the workers can only take finitely many steps,
and when they can take no more, all clients were started and for each of them there is a transfer,
which is complete.

**Proof sketch.** The channel has a beginning of the transfer of each client, and each queue has
got what was received of one transfer. When nothing moves any more, the channel is empty and the
transfers were put on it to their ends, so that the client workers have ended all of them. -/
theorem multiplexed_delivery (hmax : Block.maxDataLen sender.raptorq = some len) (hpos : 0 < len)
    (hmax' : Block.maxDataLen receiver.raptorq = some len') (hfew : clients.length < 2 ^ 32)
    (hm : 0 < m) (hk : 0 < k)
    (h : LTS.ReachVia (Multiplex.step sender receiver) (fun _ a => a.Faultless)
      (Multiplex.init m k clients) s) :
    (∀ t ∈ s.demux.transfers, ∃ c, s.servers.started[t.clientId.toNat]? = some c ∧
      written t.calls <+: c.bytes) ∧
    (s.demux.transfers.map Transfer.clientId).Nodup ∧
    LTS.Terminates (Multiplex.step sender receiver) Multiplex.Label.Productive s ∧
    (LTS.Stuck (Multiplex.step sender receiver) Multiplex.Label.Productive s →
      s.servers.started.Perm clients ∧ ∀ i c, s.servers.started[i]? = some c →
        ∃ t ∈ s.demux.transfers, t.clientId = UInt32.ofNat i ∧ Complete c t) := by
  have hinv := Multiplex.Inv.of_reach hmax hpos hmax' hfew h
  refine ⟨fun t ht => hinv.written_isPrefix hmax hpos ht, hinv.lossless.delivered.unique,
    Multiplex.terminates sender receiver s, fun hstuck => ?_⟩
  obtain ⟨hperm, hdone, hended⟩ := hinv.idle hmax hpos hmax' hm hk hstuck
  refine ⟨hperm, fun i c hc => ?_⟩
  have hid : (UInt32.ofNat i).toNat = i := by
    have hlt := (List.getElem?_eq_some_iff.mp hc).1
    rw [hperm.length_eq] at hlt
    rw [UInt32.toNat_ofNat']
    exact Nat.mod_eq_of_lt (hlt.trans hfew)
  have hblocks := hdone (UInt32.ofNat i) c (hid.symm ▸ hc)
  obtain ⟨type, bytes, hconveys, -⟩ :=
    transfer_conveys hmax hpos sender.flush (UInt32.ofNat i) c
  obtain ⟨-, body, last, heq, -⟩ := hconveys.script
  obtain ⟨t, ht, hclient⟩ := hinv.lossless.opened (UInt32.ofNat i) (by simp [hblocks, heq])
  obtain ⟨ok, hok⟩ := hended t ht
  have htaken : t.taken <+: t.sent := List.prefix_append _ _
  rw [hinv.lossless.full t ht, hclient, hblocks] at htaken
  exact ⟨t, ht, hclient, complete_of_ended hmax hpos hok htaken⟩

/-- A client whose stream ends after two reads, and one whose second read fails. -/
def twoClients : List ClientSocket :=
  [⟨[[1, 2], [3]], none, by simp⟩, ⟨[[4]], some ⟨"connection reset"⟩, by simp⟩]

/-- The blocks of both clients, interleaved with a heartbeat. -/
def interleavedRun : List (Multiplex.Label 2 2) :=
  [.server .main, .server (.server 0), .server .main, .server (.server 1),
    .server (.server 0), .server (.server 1), .server .heartbeat, .server (.server 1),
    .server (.server 0), .dispatch, .dispatch, .dispatch, .server (.server 0),
    .server (.server 1), .server (.server 1), .client 1 .ok, .client 0 .ok, .client 0 .ok,
    .client 1 .ok, .dispatch, .dispatch, .server (.server 0),
    .client 0 .ok, .client 0 .ok, .client 0 .ok, .client 1 .ok, .client 1 .ok, .client 1 .ok]

/-- Two clients whose blocks are interleaved. -/
theorem multiplexed_delivery_interleaved :
    let sender : Send.Config := ⟨RaptorQ.single, false, 1, true⟩
    let receiver : Receive.Config := ⟨RaptorQ.single, false, false⟩
    ∃ s : Multiplex 2 2,
      s.demux.transfers.map (fun t => (t.clientId, written t.calls)) = [(1, []), (0, [1, 2, 3])] ∧
      (∀ t ∈ s.demux.transfers, ∃ c, s.servers.started[t.clientId.toNat]? = some c ∧
        written t.calls <+: c.bytes) ∧
      (s.demux.transfers.map Transfer.clientId).Nodup ∧
      LTS.Terminates (Multiplex.step sender receiver) Multiplex.Label.Productive s ∧
      (LTS.Stuck (Multiplex.step sender receiver) Multiplex.Label.Productive s →
        s.servers.started.Perm twoClients ∧ ∀ i c, s.servers.started[i]? = some c →
          ∃ t ∈ s.demux.transfers, t.clientId = UInt32.ofNat i ∧ Complete c t) := by
  intro sender receiver
  have hrun : (LTS.run (Multiplex.step sender receiver) (Multiplex.init 2 2 twoClients)
      interleavedRun).map
      (fun s => s.demux.transfers.map fun t => (t.clientId, written t.calls)) =
      some [(1, []), (0, [1, 2, 3])] := by
    decide +kernel
  obtain ⟨s, hs, hwritten⟩ := Option.map_eq_some_iff.mp hrun
  have hlen : Block.maxDataLen RaptorQ.single = some 7 := by decide
  have hfaultless : ∀ a ∈ interleavedRun, a.Faultless := by
    simp [interleavedRun, Multiplex.Label.Faultless]
  exact ⟨s, hwritten, multiplexed_delivery hlen (by decide) hlen (by decide) (by decide)
    (by decide) (LTS.reachVia_of_run hs hfaultless)⟩

end Delivery

end Lidi.Link
