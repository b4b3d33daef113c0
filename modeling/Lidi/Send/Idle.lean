import Lidi.Send.Transfers

set_option relaxedAutoImplicit false
set_option autoImplicit false

/-!
# When the server workers have nothing to do

With a geometry that leaves room for data, and without calls of `stop`, no server worker ever
fails or returns, and no permit of the semaphore is lost. If none of them can take a step, then
every client has been served.

## Main definitions

* `Send.Servers.Healthy` — no worker has failed or returned, and the permits are all there.

## Main results

* `Send.Servers.Healthy.step` — every step keeps the workers healthy.
* `Send.Servers.Healthy.idle` — what holds when no server worker can take a step.
-/

namespace Lidi.Send

open Function

/-- A server worker that has neither failed nor returned, nor will. -/
def Server.Healthy : Server → Prop
  | .recv => True
  | .wait _ => True
  | .client _ _ res => res ≠ .error .panic
  | .abort _ _ => True
  | _ => False

/-- A server worker that has taken a permit of the semaphore. -/
def Server.permit : Server → Option Unit
  | .client _ _ _ => some ()
  | _ => none

namespace Servers

variable {m : ℕ} {cfg : Config} {room : Bool} {s s' : Servers m} {out : List (Option Block)}
  {len : ℕ}

/-- No worker has failed or returned or will be stopped, and no permit is lost. -/
structure Healthy (s : Servers m) : Prop where
  noStop : none ∉ s.toServer ++ s.todo
  workers : ∀ w, (s.workers w).Healthy
  permits : s.multiplexControl + (Pool.holding fun w => (s.workers w).permit).length = m

/-- At the start every worker is healthy. -/
lemma Healthy.init (clients : List ClientSocket) :
    Healthy (Servers.init m (clients.map some)) where
  noStop := by simp [Servers.init]
  workers := fun _ => trivial
  permits := by
    have hnone : Pool.holding (fun _ : Fin m => Server.recv.permit) = [] :=
      Pool.holding_eq_nil.mpr fun _ => rfl
    simp [Servers.init, hnone]

/-- After its client worker a server worker waits for a client, or sends an `Abort`. -/
lemma healthy_afterClient (hmax : Block.maxDataLen cfg.raptorq = some len) (id : ClientId)
    {res : Outcome Error Unit} (hres : res ≠ .error .panic) :
    (afterClient cfg id res).Healthy ∧ (afterClient cfg id res).permit = none ∧
      signals res = 1 := by
  rcases res with (_ | e) | _
  · exact absurd rfl hres
  · obtain ⟨b, hb, -⟩ := Block.new_carries hmax .abort id none (by simp)
    simp [afterClient, hb, Outcome.mapError, Server.Healthy, Server.permit, signals]
  · exact ⟨trivial, rfl, rfl⟩

/-- **Every step keeps the workers healthy.** -/
theorem Healthy.step (hmax : Block.maxDataLen cfg.raptorq = some len) (hpos : 0 < len)
    (h : s.Healthy) {a : Label m} (ht : Trans cfg room s a s' out) : s'.Healthy := by
  obtain ⟨hstop, hworkers, hpermits⟩ := h
  have hhealthy : ∀ (w : Fin m) (v : Server), v.Healthy → ∀ w', (update s.workers w v w').Healthy :=
    fun w v hv => (forall_update_iff s.workers fun _ v => v.Healthy).mpr
      ⟨hv, fun w' _ => hworkers w'⟩
  cases ht with
  | @main c rest htodo hroom => exact ⟨by simpa [htodo] using hstop, hworkers, hpermits⟩
  | @take w c rest hw hin =>
    have hupdate := Pool.length_phases_update (v := .wait c) (a := none) (b := none)
      (congrArg Server.permit hw) rfl
    refine ⟨?_, hhealthy w _ trivial, ?_⟩
    · simp only [hin, List.cons_append, List.mem_cons, not_or] at hstop
      exact hstop.2
    · simp only
      omega
  | @takeStop w rest hw hin => simp [hin] at hstop
  | @start w c permits hw hsem =>
    have hupdate := Pool.length_phases_update (v := .client s.clientIdCounter
      (Client.start cfg.raptorq cfg.flush s.clientIdCounter c).1
      (Client.start cfg.raptorq cfg.flush s.clientIdCounter c).2) (a := none) (b := some ())
      (congrArg Server.permit hw) rfl
    simp only [Option.toList_none, Option.toList_some, List.length_nil,
      List.length_singleton] at hupdate
    refine ⟨hstop, hhealthy w _ (Client.start_ne_panic hmax hpos _ _ _), ?_⟩
    simp only
    omega
  | @send w id b blocks res hw hroom =>
    have hupdate := Pool.length_phases_update (v := .client id blocks res) (a := some ())
      (b := some ()) (congrArg Server.permit hw) rfl
    have hres : res ≠ .error .panic := by simpa [hw, Server.Healthy] using hworkers w
    refine ⟨hstop, hhealthy w _ hres, ?_⟩
    simp only
    omega
  | @finish w id res hw =>
    have hres : res ≠ .error .panic := by simpa [hw, Server.Healthy] using hworkers w
    obtain ⟨hafter, hpermit, hsignals⟩ := healthy_afterClient hmax id hres
    have hupdate := Pool.length_phases_update (a := some ()) (congrArg Server.permit hw) hpermit
    simp only [Option.toList_none, Option.toList_some, List.length_nil,
      List.length_singleton] at hupdate
    refine ⟨hstop, hhealthy w _ hafter, ?_⟩
    simp only [hsignals]
    omega
  | @abort w id b hw hroom =>
    have hupdate := Pool.length_phases_update (v := .recv) (a := none) (b := none)
      (congrArg Server.permit hw) rfl
    refine ⟨hstop, hhealthy w _ trivial, ?_⟩
    simp only
    omega
  | @stop w left hw hroom => exact absurd (hworkers w) (by simp [hw, Server.Healthy])
  | @stopped w hw => exact absurd (hworkers w) (by simp [hw, Server.Healthy])
  | heartbeat hcfg hroom hb => exact ⟨hstop, hworkers, hpermits⟩

/-- **When no server worker can take a step**, none of them has a client, and there is no client
left. -/
theorem Healthy.idle (h : s.Healthy) (hm : 0 < m) (hmain : Servers.step cfg true s .main = none)
    (hserver : ∀ w, Servers.step cfg true s (.server w) = none) :
    (∀ w, s.workers w = .recv) ∧ s.toServer = [] ∧ s.todo = [] := by
  have hclient : ∀ w id blocks res, s.workers w ≠ .client id blocks res := by
    intro w id blocks res hw
    have hs := hserver w
    cases blocks <;> simp [Servers.step, hw] at hs
  have hpermits : s.multiplexControl = m := by
    have hnone : Pool.holding (fun w => (s.workers w).permit) = [] := by
      refine Pool.holding_eq_nil.mpr fun w => ?_
      cases hw : s.workers w with
      | client id blocks res => exact absurd hw (hclient w id blocks res)
      | _ => rfl
    simpa [hnone] using h.permits
  have hrecv : ∀ w, s.workers w = .recv := by
    intro w
    have hs := hserver w
    have hw' := h.workers w
    cases hw : s.workers w with
    | recv => rfl
    | wait c =>
      obtain ⟨n, hn⟩ := Nat.exists_eq_succ_of_ne_zero (hpermits.trans_ne hm.ne')
      simp [Servers.step, hw, hn] at hs
    | client id blocks res => exact absurd hw (hclient w id blocks res)
    | abort id b => simp [Servers.step, hw] at hs
    | stopping left => simp [hw, Server.Healthy] at hw'
    | returned => simp [hw, Server.Healthy] at hw'
    | failed f => simp [hw, Server.Healthy] at hw'
  have hin : s.toServer = [] := by
    have hs := hserver ⟨0, hm⟩
    cases hin : s.toServer with
    | nil => rfl
    | cons c rest => cases c <;> simp [Servers.step, hrecv, hin] at hs
  refine ⟨hrecv, hin, ?_⟩
  cases htodo : s.todo with
  | nil => rfl
  | cons c rest => simp [Servers.step, htodo, hin] at hmain

end Servers

end Lidi.Send
