import Lidi.Core.Outcome
import Lidi.Core.Reader
import Lidi.Protocol.RaptorQ
import Lidi.Receive.Reblock

set_option relaxedAutoImplicit false
set_option autoImplicit false

/-!
# The sockets of the link

The packets of a block are sent one datagram for each call of `sendmsg`, or several with each call
of `sendmmsg`. They are received one by one with `recvmsg`, or as many as there are, up to a number,
with `recvmmsg`.

## Main definitions

* `Socket.Outgoing` — a socket as the kernel sees it.
* `Socket.SendM.send`, `Socket.Receive.recv` — the functions of the source.

## Main results

* `Socket.send_batched` — sending in batches does what sending one by one does.
-/

namespace Lidi.Socket

/-- A socket from which datagrams are sent: whether the kernel takes the next ones, one answer for
each of them, and what it has put on the wire. If there are no more answers, it takes them all. -/
structure Outgoing where
  answers : List Bool
  wire : List (List UInt8)
  deriving DecidableEq

namespace Outgoing

/-- The kernel takes messages up to the first that it does not take, and tells how many. -/
def accept (socket : Outgoing) : List (List UInt8) → ℕ × Outgoing
  | [] => (0, socket)
  | datagram :: datagrams =>
    if socket.answers.headD true then
      let res := accept ⟨socket.answers.tail, socket.wire ++ [datagram]⟩ datagrams
      (res.1 + 1, res.2)
    else (0, { socket with answers := socket.answers.tail })

/-- `libc::sendmsg`: the length of the datagram, or -1. -/
def sendmsg (socket : Outgoing) (datagram : List UInt8) : ℤ × Outgoing :=
  let res := socket.accept [datagram]
  (if res.1 = 1 then datagram.length else -1, res.2)

/-- The number of messages that the kernel looks at in a call of `sendmmsg`. -/
def uioMaxiov : ℕ := 1024

/-- `libc::sendmmsg`: the number of datagrams that were sent, or -1 if the first one was not. -/
def sendmmsg (socket : Outgoing) (datagrams : List (List UInt8)) : ℤ × Outgoing :=
  let res := socket.accept (datagrams.take uioMaxiov)
  (if res.1 = 0 ∧ datagrams ≠ [] then -1 else res.1, res.2)

end Outgoing

/-- `SendM`, without the socket and the buffers of the calls. -/
inductive SendM
  | msg
  | mmsg (batchSize : ℕ)
  deriving DecidableEq

namespace SendM

/-- `SendM::new`. -/
def new : Option UInt32 → SendM
  | none | some 1 => msg
  | some batchSize => mmsg batchSize.toNat

/-- The datagrams are sent one by one. -/
def sendEach (socket : Outgoing) : List (List UInt8) → Outcome IoError Unit × Outgoing
  | [] => (.ok (), socket)
  | datagram :: datagrams =>
    let len := datagram.length
    let res := socket.sendmsg datagram
    let sent := res.1
    if sent = len then sendEach res.2 datagrams
    else (.error (.error ⟨s!"libc::sendmsg failed {sent} != {len}"⟩), res.2)

/-- The datagrams are sent in batches. `chunks_mut` panics if the batches are empty. The length of
a datagram is converted to 32 bits. -/
def sendBatches (batchSize : ℕ) (socket : Outgoing) (datagrams : List (List UInt8)) :
    Outcome IoError Unit × Outgoing :=
  if hsize : batchSize = 0 then (.error .panic, socket)
  else if hend : datagrams = [] then (.ok (), socket)
  else
    let chunk := datagrams.take batchSize
    if chunk.any (2 ^ 32 ≤ ·.length) then
      (.error (.error ⟨"datagram.len(): out of range integral type conversion attempted"⟩), socket)
    else
      let res := socket.sendmmsg chunk
      if res.1 = chunk.length then sendBatches batchSize res.2 (datagrams.drop batchSize)
      else (.error (.error ⟨"libc::sendmmsg"⟩), res.2)
termination_by datagrams.length
decreasing_by
  rw [List.length_drop]
  have hpos := List.length_pos_of_ne_nil hend
  omega

/-- `SendM::send`. -/
def send {Packet : Type*} (crate : Crate Packet) (packets : List Packet) (socket : Outgoing) :
    SendM → Outcome IoError Unit × Outgoing
  | msg => sendEach socket (packets.map crate.serialize)
  | mmsg batchSize => sendBatches batchSize socket (packets.map crate.serialize)

end SendM

section Send

variable {socket : Outgoing} {datagrams more : List (List UInt8)}

namespace Outgoing

/-- The kernel takes no more than it is given. -/
lemma accept_le (socket : Outgoing) (datagrams : List (List UInt8)) :
    (socket.accept datagrams).1 ≤ datagrams.length := by
  induction datagrams generalizing socket with
  | nil => exact le_rfl
  | cons d ds ih =>
    rw [accept]
    split
    · exact Nat.succ_le_succ (ih _)
    · exact Nat.zero_le _

/-- What is on the wire are the datagrams that were taken. -/
lemma wire_accept (socket : Outgoing) (datagrams : List (List UInt8)) :
    (socket.accept datagrams).2.wire =
      socket.wire ++ datagrams.take (socket.accept datagrams).1 := by
  induction datagrams generalizing socket with
  | nil => simp [accept]
  | cons d ds ih =>
    rw [accept]
    split
    · rw [ih, List.append_assoc]
      rfl
    · simp

/-- What is on the wire was there or has been given. -/
lemma mem_wire_accept {d : List UInt8} (h : d ∈ (socket.accept datagrams).2.wire) :
    d ∈ socket.wire ∨ d ∈ datagrams := by
  rw [wire_accept, List.mem_append] at h
  exact h.imp_right List.mem_of_mem_take

/-- Some datagrams are taken one by one, or those after them are not looked at. -/
lemma accept_append (socket : Outgoing) (datagrams more : List (List UInt8)) :
    socket.accept (datagrams ++ more) =
      if (socket.accept datagrams).1 = datagrams.length then
        (datagrams.length + ((socket.accept datagrams).2.accept more).1,
          ((socket.accept datagrams).2.accept more).2)
      else socket.accept datagrams := by
  induction datagrams generalizing socket with
  | nil => simp [accept]
  | cons d ds ih =>
    rw [List.cons_append, accept, accept]
    split
    · simp only [ih, List.length_cons, Nat.add_right_cancel_iff]
      split
      · refine Prod.ext ?_ rfl
        show _ + 1 = _
        omega
      · rfl
    · simp

/-- A socket that takes everything. -/
lemma accept_of_answers_nil (wire : List (List UInt8)) (datagrams : List (List UInt8)) :
    (Outgoing.mk [] wire).accept datagrams = (datagrams.length, ⟨[], wire ++ datagrams⟩) := by
  induction datagrams generalizing wire with
  | nil => simp [accept]
  | cons d ds ih => simp [accept, ih]

/-- A call of `sendmmsg` that the kernel looks at as a whole. -/
lemma sendmmsg_eq (h : datagrams.length ≤ uioMaxiov) :
    (socket.sendmmsg datagrams).2 = (socket.accept datagrams).2 ∧
      ((socket.sendmmsg datagrams).1 = datagrams.length ↔
        (socket.accept datagrams).1 = datagrams.length) := by
  rw [sendmmsg, List.take_of_length_le h]
  refine ⟨rfl, ?_⟩
  show (if _ then _ else _) = _ ↔ _
  split
  · rename_i hnone
    have hpos := List.length_pos_of_ne_nil hnone.2
    omega
  · omega

/-- A call of `sendmmsg` with more datagrams than the kernel looks at. -/
lemma sendmmsg_ne (h : uioMaxiov < datagrams.length) :
    (socket.sendmmsg datagrams).1 ≠ datagrams.length := by
  have hle := (accept_le socket (datagrams.take uioMaxiov)).trans (List.length_take_le _ _)
  show (if _ then _ else _) ≠ _
  split <;> omega

end Outgoing

/-- **What a call of `send` does**: the kernel takes the datagrams up to the first that it does not
take, and the call succeeds if there is none. -/
structure Sends (socket : Outgoing) (datagrams : List (List UInt8))
    (res : Outcome IoError Unit × Outgoing) : Prop where
  socket_eq : res.2 = (socket.accept datagrams).2
  ok_iff : res.1 = .ok () ↔ (socket.accept datagrams).1 = datagrams.length

namespace Sends

variable {res : Outcome IoError Unit × Outgoing}

/-- Some datagrams were taken, and then the others are sent. -/
lemma append (h : Sends (socket.accept datagrams).2 more res)
    (htaken : (socket.accept datagrams).1 = datagrams.length) :
    Sends socket (datagrams ++ more) res := by
  constructor
  · rw [h.socket_eq, Outgoing.accept_append, if_pos htaken]
  · rw [h.ok_iff, Outgoing.accept_append, if_pos htaken, List.length_append,
      Nat.add_right_inj]

/-- Not all datagrams were taken, and no others are sent. -/
lemma stop (htaken : (socket.accept datagrams).1 ≠ datagrams.length)
    (hsocket : res.2 = (socket.accept datagrams).2) (herror : res.1 ≠ .ok ()) :
    Sends socket (datagrams ++ more) res := by
  have hle := Outgoing.accept_le socket datagrams
  constructor
  · rw [hsocket, Outgoing.accept_append, if_neg htaken]
  · rw [Outgoing.accept_append, if_neg htaken, List.length_append]
    exact iff_of_false herror (by omega)

end Sends

namespace SendM

/-- **Sending one by one.** -/
lemma sendEach_sends (socket : Outgoing) (datagrams : List (List UInt8)) :
    Sends socket datagrams (sendEach socket datagrams) := by
  induction datagrams generalizing socket with
  | nil => exact ⟨rfl, by simp [sendEach, Outgoing.accept]⟩
  | cons d ds ih =>
    have hsent : (socket.sendmsg d).1 = d.length ↔ (socket.accept [d]).1 = [d].length := by
      rw [Outgoing.sendmsg, List.length_singleton]
      split <;> omega
    rw [sendEach]
    by_cases htaken : (socket.accept [d]).1 = [d].length
    · rw [if_pos (hsent.mpr htaken)]
      exact (ih (socket.sendmsg d).2).append htaken
    · rw [if_neg fun h => htaken (hsent.mp h)]
      exact .stop htaken rfl nofun

/-- **Sending in batches** of a size that the kernel allows. -/
lemma sendBatches_sends {batchSize : ℕ} (hpos : 0 < batchSize)
    (hmax : batchSize ≤ Outgoing.uioMaxiov) (socket : Outgoing) {datagrams : List (List UInt8)}
    (hlen : ∀ d ∈ datagrams, d.length < 2 ^ 32) :
    Sends socket datagrams (sendBatches batchSize socket datagrams) := by
  fun_induction sendBatches batchSize socket datagrams with
  | case1 => omega
  | case2 => exact ⟨rfl, by simp [Outgoing.accept]⟩
  | case3 socket datagrams hsize hend chunk hlarge =>
    obtain ⟨d, hd, hlarge⟩ := List.any_eq_true.mp hlarge
    have hsmall := hlen d (List.mem_of_mem_take hd)
    rw [decide_eq_true_iff] at hlarge
    omega
  | case4 socket datagrams hsize hend chunk hsmall res hsent ih =>
    have hchunk : chunk.length ≤ Outgoing.uioMaxiov := (List.length_take_le _ _).trans hmax
    obtain ⟨hsocket, hiff⟩ := @Outgoing.sendmmsg_eq socket _ hchunk
    have hrest : Sends (socket.accept chunk).2 (datagrams.drop batchSize)
        (sendBatches batchSize res.2 (datagrams.drop batchSize)) :=
      hsocket ▸ ih fun d hd => hlen d (List.mem_of_mem_drop hd)
    have hall := hrest.append (hiff.mp hsent)
    rwa [List.take_append_drop] at hall
  | case5 socket datagrams hsize hend chunk hsmall res hsent =>
    have hchunk : chunk.length ≤ Outgoing.uioMaxiov := (List.length_take_le _ _).trans hmax
    obtain ⟨hsocket, hiff⟩ := @Outgoing.sendmmsg_eq socket _ hchunk
    rw [← List.take_append_drop batchSize datagrams]
    exact .stop (fun htaken => hsent (hiff.mpr htaken)) hsocket nofun

/-- **What the udp worker does with the packets of a block**, for every batch size that the kernel
allows. -/
lemma send_sends {Packet : Type*} {crate : Crate Packet} {packets : List Packet}
    {batch : Option UInt32} (hbatch : ∀ size ∈ batch, 0 < size ∧ size.toNat ≤ Outgoing.uioMaxiov)
    (hlen : ∀ p ∈ packets, (crate.serialize p).length < 2 ^ 32) (socket : Outgoing) :
    Sends socket (packets.map crate.serialize) ((new batch).send crate packets socket) := by
  have hlen' : ∀ d ∈ packets.map crate.serialize, d.length < 2 ^ 32 := by simpa using hlen
  unfold new
  split
  · exact sendEach_sends socket _
  · exact sendEach_sends socket _
  · rename_i size _
    obtain ⟨hpos, hmax⟩ := hbatch size rfl
    exact sendBatches_sends (UInt32.lt_iff_toNat_lt.mp hpos) hmax socket hlen'

/-- Batches of any size. -/
lemma mem_wire_sendBatches {batchSize : ℕ} {d : List UInt8}
    (h : d ∈ (sendBatches batchSize socket datagrams).2.wire) :
    d ∈ socket.wire ∨ d ∈ datagrams := by
  fun_induction sendBatches batchSize socket datagrams with
  | case1 | case2 | case3 => exact .inl h
  | case4 socket datagrams hsize hend chunk hsmall res hsent ih =>
    rcases ih h with h | h
    · exact (Outgoing.mem_wire_accept h).imp_right fun h =>
        List.mem_of_mem_take (List.mem_of_mem_take h)
    · exact .inr (List.mem_of_mem_drop h)
  | case5 socket datagrams hsize hend chunk hsmall res hsent =>
    exact (Outgoing.mem_wire_accept h).imp_right fun h =>
      List.mem_of_mem_take (List.mem_of_mem_take h)

/-- What is on the wire after a call of `send` was there before, or is one of the packets, whatever
the size of the batches. -/
lemma mem_wire_send {Packet : Type*} {crate : Crate Packet} {packets : List Packet} {sendM : SendM}
    {d : List UInt8} (h : d ∈ (sendM.send crate packets socket).2.wire) :
    d ∈ socket.wire ∨ ∃ p ∈ packets, crate.serialize p = d := by
  rw [← List.mem_map]
  cases sendM with
  | msg =>
    change d ∈ (sendEach socket _).2.wire at h
    rw [(sendEach_sends socket _).socket_eq] at h
    exact Outgoing.mem_wire_accept h
  | mmsg batchSize => exact mem_wire_sendBatches h

/-- Any batch but 1 makes a sender of batches. -/
lemma new_of_ne_one {size : UInt32} (h : size ≠ 1) : new (some size) = mmsg size.toNat := by
  unfold new
  split
  · rename_i heq
    cases heq
  · rename_i heq
    exact absurd (Option.some.inj heq) h
  · rename_i heq
    cases heq
    rfl

/-- Two calls of `send` agree: the same datagrams are on the wire, and both succeed or neither. -/
def Agree (res res' : Outcome IoError Unit × Outgoing) : Prop :=
  res.2 = res'.2 ∧ (res.1 = .ok () ↔ res'.1 = .ok ())

/-- Batches that are larger than the kernel allows, or empty. -/
lemma not_agree {Packet : Type*} {crate : Crate Packet} {p : Packet}
    (hp : (crate.serialize p).length < 2 ^ 32) {size : UInt32}
    (hsize : size = 0 ∨ Outgoing.uioMaxiov < size.toNat) :
    ¬ Agree ((new (some size)).send crate (List.replicate (Outgoing.uioMaxiov + 1) p) ⟨[], []⟩)
      (msg.send crate (List.replicate (Outgoing.uioMaxiov + 1) p) ⟨[], []⟩) := by
  intro hagree
  let datagrams := (List.replicate (Outgoing.uioMaxiov + 1) p).map crate.serialize
  have hlength : datagrams.length = Outgoing.uioMaxiov + 1 := by simp [datagrams]
  have hplain :
      (msg.send crate (List.replicate (Outgoing.uioMaxiov + 1) p) ⟨[], []⟩).1 = .ok () := by
    refine (sendEach_sends _ datagrams).ok_iff.mpr ?_
    rw [Outgoing.accept_of_answers_nil]
  have hbatched := hagree.2.mpr hplain
  rcases hsize with rfl | hlarge
  · change (sendBatches 0 ⟨[], []⟩ datagrams).1 = _ at hbatched
    rw [sendBatches, dif_pos rfl] at hbatched
    cases hbatched
  · have hnew : new (some size) = mmsg size.toNat := new_of_ne_one fun hone =>
      absurd (hone ▸ hlarge) (by decide)
    rw [hnew] at hbatched
    change (sendBatches size.toNat ⟨[], []⟩ datagrams).1 = _ at hbatched
    have hchunk : datagrams.take size.toNat = datagrams := List.take_of_length_le (by omega)
    -- the kernel does not look at the last datagram of the batch
    have hsent : ((Outgoing.mk [] []).sendmmsg datagrams).1 ≠ datagrams.length :=
      Outgoing.sendmmsg_ne (by omega)
    have hsmall : datagrams.any (2 ^ 32 ≤ ·.length) = false := by
      simpa [datagrams] using hp
    rw [sendBatches, dif_neg (by omega), dif_neg (List.ne_nil_of_length_eq_add_one hlength)]
      at hbatched
    simp only [hchunk, hsmall, hsent] at hbatched
    cases hbatched

end SendM

/-- **Sending in batches does what sending one by one does**, for all packets and whatever the
kernel takes, exactly if the batches are neither empty nor larger than the kernel allows. Then what
is on the wire is a beginning of the datagrams, and all of them exactly if the call succeeds. -/
theorem send_batched {Packet : Type*} (crate : Crate Packet) {p : Packet}
    (hp : (crate.serialize p).length < 2 ^ 32) (batch : Option UInt32) :
    (∀ (packets : List Packet) (socket : Outgoing),
      (∀ p ∈ packets, (crate.serialize p).length < 2 ^ 32) →
      SendM.Agree ((SendM.new batch).send crate packets socket)
        (SendM.msg.send crate packets socket) ∧
      ∃ n ≤ packets.length, ((SendM.new batch).send crate packets socket).2.wire =
          socket.wire ++ (packets.map crate.serialize).take n ∧
        (((SendM.new batch).send crate packets socket).1 = .ok () ↔ n = packets.length)) ↔
      ∀ size ∈ batch, 0 < size ∧ size.toNat ≤ Outgoing.uioMaxiov := by
  constructor
  · intro hall size hsize
    obtain rfl : batch = some size := hsize
    by_contra hbad
    have hlen : ∀ p' ∈ List.replicate (Outgoing.uioMaxiov + 1) p,
        (crate.serialize p').length < 2 ^ 32 := by
      intro p' hp'
      rwa [List.eq_of_mem_replicate hp']
    refine SendM.not_agree hp ?_ (hall _ _ hlen).1
    by_cases hzero : size = 0
    · exact .inl hzero
    · refine .inr (not_le.mp fun hle => hbad ⟨?_, hle⟩)
      exact UInt32.pos_iff_ne_zero.mpr hzero
  · intro hbatch packets socket hlen
    have hsends := SendM.send_sends hbatch hlen socket
    have hplain : Sends socket (packets.map crate.serialize)
        (SendM.msg.send crate packets socket) := SendM.sendEach_sends socket _
    refine ⟨⟨hsends.socket_eq.trans hplain.socket_eq.symm, hsends.ok_iff.trans hplain.ok_iff.symm⟩,
      (socket.accept (packets.map crate.serialize)).1, ?_, ?_, ?_⟩
    · rw [← List.length_map crate.serialize]
      exact socket.accept_le _
    · rw [hsends.socket_eq, Outgoing.wire_accept]
    · rw [hsends.ok_iff, List.length_map]

/-- Three packets in batches of two; the kernel does not take the third one. -/
theorem send_batched_three :
    let packets : List (UInt8 × List UInt8) := [(0, [1]), (0, [2]), (0, [3])]
    let socket : Outgoing := ⟨[true, true, false], []⟩
    ((SendM.new (some 2)).send Crate.single packets socket).2.wire =
      [[0, 0, 0, 0, 1], [0, 0, 0, 0, 2]] ∧
    SendM.Agree ((SendM.new (some 2)).send Crate.single packets socket)
      (SendM.msg.send Crate.single packets socket) := by
  have hp : (Crate.single.serialize (0, [])).length < 2 ^ 32 := by decide
  have hsize : ∀ size ∈ some (2 : UInt32), 0 < size ∧ size.toNat ≤ Outgoing.uioMaxiov := by
    intro size hsize
    obtain rfl := Option.some.inj hsize
    decide
  have hall := (send_batched Crate.single hp (some 2)).mpr hsize
  refine ⟨by decide +kernel, (hall _ _ fun p hmem => ?_).1⟩
  simp only [List.mem_cons, List.not_mem_nil, or_false] at hmem
  rcases hmem with rfl | rfl | rfl <;> decide

end Send

/-- `udp::Receive`, without the socket and the buffers of the calls. -/
inductive Receive
  | msg (udpPacketSize : UInt16)
  | mmsg (udpPacketSize : UInt16) (batchSize : UInt32)
  deriving DecidableEq

namespace Receive

/-- `Receive::new`. -/
def new (udpPacketSize : UInt16) : Option UInt32 → Receive
  | none | some 1 => msg udpPacketSize
  | some batchSize => mmsg udpPacketSize batchSize

/-- Any batch but 1 makes a receiver of batches. -/
lemma new_of_ne_one (udpPacketSize : UInt16) {size : UInt32} (h : size ≠ 1) :
    new udpPacketSize (some size) = mmsg udpPacketSize size := by
  unfold new
  split
  · rename_i heq
    cases heq
  · rename_i heq
    exact absurd (Option.some.inj heq) h
  · rename_i heq
    cases heq
    rfl

/-- `Receive::recv`, with the datagrams that wait in the socket before and after; nothing while the
call blocks. What does not fit in a buffer is cut off. `recvmmsg` waits for one datagram and takes
the others that are there; if it is asked for none, it does not wait. -/
def recv (queue : List (List UInt8)) :
    Receive → Option (Lidi.Receive.Datagrams × List (List UInt8))
  | msg udpPacketSize =>
    match queue with
    | [] => none
    | datagram :: queue => some (.single (datagram.take udpPacketSize.toNat), queue)
  | mmsg udpPacketSize batchSize =>
    if batchSize ≠ 0 ∧ queue = [] then none
    else
      some (.multiple ((queue.take batchSize.toNat).map (·.take udpPacketSize.toNat)),
        queue.drop batchSize.toNat)

end Receive

end Lidi.Socket
