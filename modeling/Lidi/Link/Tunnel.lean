import Lidi.File.Accept
import Lidi.File.RoundTrip
import Lidi.Link.Partial
import Lidi.Link.Tolerance
import Lidi.Udp.Relay

set_option relaxedAutoImplicit false
set_option autoImplicit false

/-!
# Files and datagrams across the link

The programs that send files and relay datagrams are clients of the link: what they write to their
connection is the stream of a client, and the program at the other end reads what the link has
written of it. If the link fails, the connection is closed, and the program has read a beginning of
the stream.

## Main results

* `Link.file_whole` — a file that is accepted is the whole file that was sent.
* `Link.datagrams_isPrefix` — the datagrams that come out are the first of those that went in.
* `Link.files_delivered`, `Link.datagrams_delivered` — over a tolerable network files and datagrams
  get through.
-/

namespace Lidi

namespace File

variable {digest : List UInt8 → BitVec 128} {system : System} {sender receiver : Config}
  {files : String → Option (Except IoError OpenFile)} {filePath name outputDir : String}
  {file : OpenFile} {stored : Files} {diode : Reader UInt8 IoError} {n : ℕ}

/-- **A part of a file that is sent is not accepted**, and a file that is accepted is stored as it
was sent. -/
lemma receiveFile_of_isPrefix (h : Sendable files filePath name file outputDir stored)
    (hs : 0 < sender.bufferSize) (hr : 0 < receiver.bufferSize) (hend : diode.failure = none)
    (hpart : diode.bytes <+: (sendFileAux digest sender files filePath).2)
    (hok : (receiveFile digest system receiver diode outputDir stored).1 = .ok n) :
    diode.bytes = (sendFileAux digest sender files filePath).2 ∧
      receiveFile digest system receiver diode outputDir stored =
        (.ok file.content.bytes.length, Function.update stored (Path.join outputDir name)
          (some ⟨file.content.bytes, file.mode⟩)) := by
  by_cases hwhole : diode.bytes = (sendFileAux digest sender files filePath).2
  · have hgrants : system.Grants outputDir name := by
      obtain ⟨header, rest, hdiode, hlt, hgrants⟩ := grants_of_receiveFile hok
      have hheader := hwhole
      rw [sendFileAux_eq h.opened h.named hs h.readable, hdiode] at hheader
      obtain ⟨rfl, -⟩ := Header.serialize_append_inj hlt h.length_lt hheader
      exact hgrants
    have hsent := receiveFile_sent h hgrants hs hr hwhole
    rw [hsent, checkHash_eq_ok_iff] at hok
    refine ⟨hwhole, ?_⟩
    rw [hsent, Prod.mk.injEq, checkHash_eq_ok_iff]
    exact ⟨⟨rfl, hok.2⟩, rfl⟩
  · rw [sendFileAux_eq h.opened h.named hs h.readable] at hpart hwhole
    exact absurd hok (receiveFile_cut hr hend h.length_lt h.unchanged.symm hpart hwhole n)

end File

namespace Udp

variable {sender receiver : Config} {sendTo : Answers} {datagrams : List (List UInt8)}
  {diode : Reader UInt8 IoError}

/-- What `recv_from` keeps of the datagrams. -/
def received (config : Config) (datagrams : List (List UInt8)) : List (List UInt8) :=
  datagrams.map (·.take config.bufferSize.toNat)

/-- The sender writes a frame for each datagram, as far as its buffer holds it. -/
lemma sendUdpAux_received (config : Config) (datagrams : List (List UInt8)) :
    sendUdpAux config datagrams = (received config datagrams).flatMap frame := by
  induction datagrams with
  | nil => rfl
  | cons d ds ih =>
    rw [sendUdpAux, ih]
    rfl

/-- What is received fits in the buffer. -/
lemma length_le_of_mem_received {config : Config} {d : List UInt8}
    (h : d ∈ received config datagrams) :
    d.length ≤ config.bufferSize.toNat := by
  obtain ⟨d', -, rfl⟩ := List.mem_map.mp h
  exact List.length_take_le _ _

/-- From a part of the stream the first datagrams come out, and all from the whole stream if they
are taken. -/
lemma receiveUdp_of_isPrefix (sendTo : Answers) (hsize : sender.bufferSize ≤ receiver.bufferSize)
    (hpart : diode.bytes <+: sendUdpAux sender datagrams) :
    ∃ done e, done <+: received sender datagrams ∧
      receiveUdp receiver sendTo diode = (done, .error (.error e)) ∧
      (diode.bytes = sendUdpAux sender datagrams → Taken sendTo (received sender datagrams) →
        done = received sender datagrams) := by
  rw [sendUdpAux_received] at hpart ⊢
  have hfits : ∀ d ∈ received sender datagrams, d.length ≤ receiver.bufferSize.toNat :=
    fun d hd => (length_le_of_mem_received hd).trans (UInt64.le_iff_toNat_le.mp hsize)
  obtain ⟨done, rest, e, heq, -, hlt, hrec⟩ :=
    receiveUdp_take sendTo hfits diode.bytes.length (List.prefix_iff_eq_take.mp hpart)
  refine ⟨done, e, ⟨rest, heq.symm⟩, hrec, fun hwhole htaken => ?_⟩
  cases rest with
  | nil => rw [heq, List.append_nil]
  | cons d rest =>
    -- the frame of the next datagram would be within the stream
    have hnext : (received sender datagrams)[done.length]? = some d := by
      rw [heq, List.getElem?_append_right le_rfl, Nat.sub_self, List.getElem?_cons_zero]
    have hmore := hlt d rfl (htaken done.length d hnext)
    have hle : ((done ++ [d]).flatMap frame).length ≤
        ((received sender datagrams).flatMap frame).length := by
      rw [heq]
      simp
    rw [hwhole] at hmore
    omega

end Udp

namespace Link

open Send Receive File

variable {m n d k : ℕ} {Packet : Type*} {crate : Crate Packet} {ends : Ends} {len : ℕ}

/-! ## Over any network -/

section Safety

variable {s : Lossy m n d k Packet} {todo : List (Option ClientSocket)}

/-- In a sound run what is written of a transfer is a beginning of the stream of its client. -/
lemma Lossy.written_isPrefix_bytes (hlaw : crate.Lawful ends.sender.raptorq)
    (hmax : Block.maxDataLen ends.sender.raptorq = some len) (hpos : 0 < len) (hn : n < 256)
    (hfew : todo.reduceOption.length < 2 ^ 32)
    (h : LTS.ReachVia (Lossy.step crate ends) (Lossy.Sound crate ends)
      (Lossy.init m n d k Packet todo) s) {t : Transfer} {c : ClientSocket}
    (ht : t ∈ s.demux.transfers) (hc : s.sender.servers.started[t.clientId.toNat]? = some c) :
    written t.calls <+: c.bytes := by
  obtain ⟨hinv, hbegun⟩ := Lossy.inv_and_partial hlaw hmax hpos hn hfew h
  obtain ⟨c', hc', hwritten⟩ := (hinv.truthful_of_partial hmax hpos hbegun).written t ht
  obtain rfl : c = c' := Option.some.inj (hc.symm.trans hc')
  exact hwritten

/-- **A file that is accepted is the whole file that was sent**, however the run of the link has
gone, if every step was sound, and whatever the system of the receiver answers. `c` is the
connection of the program that sends the file, which may have been cut, and `diode` that of the
program that receives it. -/
theorem file_whole (hlaw : crate.Lawful ends.sender.raptorq)
    (hmax : Block.maxDataLen ends.sender.raptorq = some len) (hpos : 0 < len) (hn : n < 256)
    (hfew : todo.reduceOption.length < 2 ^ 32)
    (h : LTS.ReachVia (Lossy.step crate ends) (Lossy.Sound crate ends)
      (Lossy.init m n d k Packet todo) s)
    {digest : List UInt8 → BitVec 128} {system : File.System} {sender receiver : File.Config}
    {files : String → Option (Except IoError OpenFile)} {filePath name outputDir : String}
    {file : OpenFile} {stored : Files} {diode : Reader UInt8 IoError} {t : Transfer}
    {c : ClientSocket} {received : ℕ}
    (hfile : Sendable files filePath name file outputDir stored)
    (hs : 0 < sender.bufferSize) (hr : 0 < receiver.bufferSize) (ht : t ∈ s.demux.transfers)
    (hc : s.sender.servers.started[t.clientId.toNat]? = some c)
    (hsent : c.bytes <+: (sendFileAux digest sender files filePath).2)
    (hread : diode.bytes <+: written t.calls) (hend : diode.failure = none)
    (hok : (receiveFile digest system receiver diode outputDir stored).1 = .ok received) :
    c.bytes = (sendFileAux digest sender files filePath).2 ∧ written t.calls = c.bytes ∧
      receiveFile digest system receiver diode outputDir stored =
        (.ok file.content.bytes.length, Function.update stored (Path.join outputDir name)
          (some ⟨file.content.bytes, file.mode⟩)) := by
  have hwritten := Lossy.written_isPrefix_bytes hlaw hmax hpos hn hfew h ht hc
  obtain ⟨hwhole, hstored⟩ := receiveFile_of_isPrefix hfile hs hr hend
    ((hread.trans hwritten).trans hsent) hok
  rw [hwhole] at hread
  exact ⟨hsent.eq_of_length_le (hread.trans hwritten).length_le,
    hwritten.eq_of_length_le (hsent.trans hread).length_le, hstored⟩

/-- **The datagrams that come out are the first of those that went in**, each of them whole, however
the run of the link has gone, if every step was sound, and whichever of them the system of the
receiver takes. -/
theorem datagrams_isPrefix (hlaw : crate.Lawful ends.sender.raptorq)
    (hmax : Block.maxDataLen ends.sender.raptorq = some len) (hpos : 0 < len) (hn : n < 256)
    (hfew : todo.reduceOption.length < 2 ^ 32)
    (h : LTS.ReachVia (Lossy.step crate ends) (Lossy.Sound crate ends)
      (Lossy.init m n d k Packet todo) s)
    {sender receiver : Udp.Config} {sendTo : Udp.Answers} {datagrams : List (List UInt8)}
    {diode : Reader UInt8 IoError} {t : Transfer} {c : ClientSocket}
    (hsize : sender.bufferSize ≤ receiver.bufferSize)
    (ht : t ∈ s.demux.transfers)
    (hc : s.sender.servers.started[t.clientId.toNat]? = some c)
    (hsent : c.bytes <+: Udp.sendUdpAux sender datagrams)
    (hread : diode.bytes <+: written t.calls) :
    ∃ done e, done <+: Udp.received sender datagrams ∧
      Udp.receiveUdp receiver sendTo diode = (done, .error (.error e)) := by
  have hwritten := Lossy.written_isPrefix_bytes hlaw hmax hpos hn hfew h ht hc
  obtain ⟨done, e, hdone, hrec, -⟩ :=
    Udp.receiveUdp_of_isPrefix sendTo hsize ((hread.trans hwritten).trans hsent)
  exact ⟨done, e, hdone, hrec⟩

/-- The file `a` with one byte. -/
def oneByte (_ : String) : Option (Except IoError OpenFile) :=
  some (.ok ⟨.whole [97], 0o644, 1⟩)

/-- A connection with the bytes that are written for a file, not hashed. -/
def fileClient (files : String → Option (Except IoError OpenFile)) : ClientSocket :=
  .whole (sendFileAux (fun _ => 0) ⟨2, false⟩ files "a").2

/-- The file of one byte can be sent. -/
lemma sendable_oneByte : Sendable oneByte "a" "a" ⟨.whole [97], 0o644, 1⟩ "out" fun _ => none :=
  ⟨rfl, by decide +kernel, by decide, rfl, rfl, rfl⟩

/-- A client connects, and its blocks are sent. The first `n + 1` of them cross the link one after
the other. -/
def crossing (blocks n : ℕ) : List (Lossy.Label 1 1 1 1) :=
  [.sender (.server .main), .sender (.server (.server 0)), .sender (.server (.server 0))] ++
    (List.replicate blocks sendBlock).flatten ++ [.sender (.server (.server 0))] ++
    [.arrive (0, 0) none, .reblock, .reblock, .reblock, .reblock] ++ passBlock ++
    (List.range n).flatMap (fun i => [.arrive (i + 1, 0) none, .reblock, .reblock] ++ passBlock) ++
    List.replicate (n + 4) (.client 0 .ok)

/-- What has been written for the file in a run without losses. -/
lemma receiveFile_oneByte {diode : Reader UInt8 IoError}
    (h : diode.bytes = (fileClient oneByte).bytes) :
    (receiveFile (fun _ => 0) .generous ⟨1, false⟩ diode "out" fun _ => none).1 = .ok 1 := by
  rw [fileClient, Reader.bytes_whole] at h
  rw [receiveFile_sent sendable_oneByte (System.generous_grants "out" "a") (by decide)
    (by decide) h]
  rfl

/-- The file of one byte crosses the link. -/
theorem file_whole_oneByte : ∃ s : Lossy 1 1 1 1 (UInt8 × List UInt8),
    ∃ t ∈ s.demux.transfers,
      receiveFile (fun _ => 0) .generous ⟨1, false⟩ (.whole (written t.calls)) "out"
        (fun _ => none) =
          (.ok 1, Function.update (fun _ => none) "out/a" (some ⟨[97], 0o644⟩)) := by
  have hrun : (LTS.runVia (Lossy.step Crate.single smallest) (Lossy.Sound Crate.single smallest)
      (Lossy.init 1 1 1 1 _ [some (fileClient oneByte)]) (crossing 7 6)).map (fun s =>
        (s.demux.transfers.map (fun t => (t.clientId, written t.calls)),
          s.sender.servers.started.map Reader.bytes)) =
      some ([(0, (fileClient oneByte).bytes)], [(fileClient oneByte).bytes]) := by
    decide +kernel
  obtain ⟨s, hs, heq⟩ := Option.map_eq_some_iff.mp hrun
  obtain ⟨htransfers, hstarted⟩ := Prod.mk.inj heq
  obtain ⟨t, ht, htransfer⟩ := List.map_eq_singleton_iff.mp htransfers
  obtain ⟨c, hc, hbytes⟩ := List.map_eq_singleton_iff.mp hstarted
  obtain ⟨hid, hwritten⟩ := Prod.mk.inj htransfer
  have hmax : Block.maxDataLen RaptorQ.single = some 7 := by decide
  let diode : Reader UInt8 IoError := .whole (written t.calls)
  have hdiode : diode.bytes = written t.calls := Reader.bytes_whole _
  have hsent : c.bytes <+: (sendFileAux (fun _ => 0) ⟨2, false⟩ oneByte "a").2 := by
    rw [hbytes, fileClient, Reader.bytes_whole]
  obtain ⟨-, -, hstored⟩ := file_whole Crate.single_lawful hmax (by decide) (by decide) (by decide)
    (LTS.reachVia_of_runVia hs) sendable_oneByte (by decide) (by decide)
    (by rw [ht]; exact List.mem_singleton_self t) (by rw [hc, hid]; rfl) hsent
    (by rw [hdiode]) rfl (receiveFile_oneByte (hdiode.trans hwritten))
  exact ⟨s, t, by simp [ht], hstored⟩

/-- A relay that has written two datagrams. -/
def relayClient : ClientSocket :=
  .whole (Udp.sendUdpAux ⟨4⟩ [[1, 2], [3, 4]])

/-- The last block is lost, and with it a part of the second datagram. -/
theorem datagrams_isPrefix_cut : ∃ s : Lossy 1 1 1 1 (UInt8 × List UInt8),
    ∃ t ∈ s.demux.transfers, ∃ done e, done <+: [[1, 2], [3, 4]] ∧
      Udp.receiveUdp ⟨4⟩ .sent (.whole (written t.calls)) = (done, .error (.error e)) := by
  have hrun : (LTS.runVia (Lossy.step Crate.single smallest) (Lossy.Sound Crate.single smallest)
      (Lossy.init 1 1 1 1 _ [some relayClient]) (crossing 4 2)).map (fun s =>
        (s.demux.transfers.map (fun t => (t.clientId, (written t.calls).length)),
          s.sender.servers.started.map Reader.bytes)) =
      some ([(0, 14)], [relayClient.bytes]) := by
    decide +kernel
  obtain ⟨s, hs, heq⟩ := Option.map_eq_some_iff.mp hrun
  obtain ⟨htransfers, hstarted⟩ := Prod.mk.inj heq
  obtain ⟨t, ht, htransfer⟩ := List.map_eq_singleton_iff.mp htransfers
  obtain ⟨c, hc, hbytes⟩ := List.map_eq_singleton_iff.mp hstarted
  obtain ⟨hid, -⟩ := Prod.mk.inj htransfer
  have hmax : Block.maxDataLen RaptorQ.single = some 7 := by decide
  have hmem : t ∈ s.demux.transfers := by rw [ht]; exact List.mem_singleton_self t
  have hsent : c.bytes <+: Udp.sendUdpAux ⟨4⟩ [[1, 2], [3, 4]] := by
    rw [hbytes, relayClient, Reader.bytes_whole]
  exact ⟨s, t, hmem, datagrams_isPrefix Crate.single_lawful hmax (by decide) (by decide)
    (by decide) (LTS.reachVia_of_runVia hs) (UInt64.le_refl _) hmem (by rw [hc, hid]; rfl) hsent
    (by rw [Reader.bytes_whole])⟩

end Safety

/-! ## Over a tolerable network -/

section Delivery

variable {s : Tolerant m n d k Packet} {spared : ClientId → Prop} {clients : List ClientSocket}

/-- When the workers are at rest and enough packets have arrived, every stream that has ended is
written whole. -/
lemma Tolerant.exists_written_eq (hlaw : crate.Lawful ends.sender.raptorq)
    (hmax : Block.maxDataLen ends.sender.raptorq = some len) (hpos : 0 < len)
    (hmin : 0 < ends.receiver.raptorq.minNbPackets.toNat) (hfew : clients.length < 2 ^ 32)
    (hm : 0 < m) (hn : 0 < n ∧ n < 256) (hd : 0 < d ∧ d < 256) (hk : 0 < k)
    (h : LTS.ReachVia (Tolerant.step crate ends) (Tolerant.Benign crate ends spared)
      (Tolerant.init m n d k Packet clients) s)
    (hstuck : LTS.Stuck (Lossy.step crate ends) Lossy.Label.Productive s.link)
    (hsupplied : s.Supplied ends) {i : ℕ} {c : ClientSocket}
    (hc : s.link.sender.servers.started[i]? = some c) (hspared : spared (UInt32.ofNat i))
    (hend : c.failure = none) :
    ∃ t ∈ s.link.demux.transfers, t.clientId = UInt32.ofNat i ∧
      Receive.written t.calls = c.bytes := by
  have hinv := Tolerant.Inv.of_benign hlaw hmax hpos hmin hn.2 hd.2 hfew h
  have hchannel := Tolerant.channel_inv hlaw hmax hpos hmin hn.2 hd.2 hfew h
  have hdelivers := hinv.delivers hchannel hmax hpos hmin hfew hm hn.1 hd.1 hk
  obtain ⟨-, hcomplete⟩ := hdelivers.complete hstuck hsupplied
  obtain ⟨t, ht, hid, io, ok, -, -, hresult⟩ := hcomplete i c hc hspared
  rw [hend] at hresult
  exact ⟨t, ht, hid, hresult.2⟩

/-- **Over a tolerable network every file is received as it was sent.** When the workers are at rest
and enough packets have arrived, what has been written for the connection of a program that has sent
a file is accepted by the program that receives it, whatever its reads return, and the file that it
stores has the content and the mode of the one that was sent. The system of the receiver grants the
name, and if the receiver hashes, then so does the sender, with a buffer of the same size. -/
theorem files_delivered (hlaw : crate.Lawful ends.sender.raptorq)
    (hmax : Block.maxDataLen ends.sender.raptorq = some len) (hpos : 0 < len)
    (hmin : 0 < ends.receiver.raptorq.minNbPackets.toNat) (hfew : clients.length < 2 ^ 32)
    (hm : 0 < m) (hn : 0 < n ∧ n < 256) (hd : 0 < d ∧ d < 256) (hk : 0 < k)
    (h : LTS.ReachVia (Tolerant.step crate ends) (Tolerant.Benign crate ends spared)
      (Tolerant.init m n d k Packet clients) s)
    (hstuck : LTS.Stuck (Lossy.step crate ends) Lossy.Label.Productive s.link)
    (hsupplied : s.Supplied ends)
    {digest : List UInt8 → BitVec 128} {system : File.System} {sender receiver : File.Config}
    {files : String → Option (Except IoError OpenFile)} {filePath name outputDir : String}
    {file : OpenFile} {stored : Files} {i : ℕ} {c : ClientSocket}
    (hfile : Sendable files filePath name file outputDir stored)
    (hgrants : system.Grants outputDir name)
    (hs : 0 < sender.bufferSize) (hr : 0 < receiver.bufferSize)
    (hhash : receiver.hash = true → sender.hash = true ∧ sender.bufferSize = receiver.bufferSize)
    (hc : s.link.sender.servers.started[i]? = some c) (hspared : spared (UInt32.ofNat i))
    (hsent : c.bytes = (sendFileAux digest sender files filePath).2)
    (hend : c.failure = none) :
    ∃ t ∈ s.link.demux.transfers, t.clientId = UInt32.ofNat i ∧
      ∀ diode : Reader UInt8 IoError, diode.bytes = written t.calls →
        receiveFile digest system receiver diode outputDir stored =
          (.ok file.content.bytes.length, Function.update stored (Path.join outputDir name)
            (some ⟨file.content.bytes, file.mode⟩)) := by
  obtain ⟨t, ht, hid, hwritten⟩ := Tolerant.exists_written_eq hlaw hmax hpos hmin hfew hm hn hd hk
    h hstuck hsupplied hc hspared hend
  refine ⟨t, ht, hid, fun diode hdiode => ?_⟩
  rw [receiveFile_sent hfile hgrants hs hr (hdiode.trans (hwritten.trans hsent))]
  refine Prod.ext (checkHash_eq_ok_iff.mpr ⟨rfl, fun hon => ?_⟩) rfl
  obtain ⟨hson, hsize⟩ := hhash hon
  simp [footerOf, hson, hsize]

/-- The run without losses is gentle, and at its end all blocks have been emitted. -/
theorem files_delivered_oneByte : ∃ s : Tolerant 1 1 1 1 (UInt8 × List UInt8),
    ∃ t ∈ s.link.demux.transfers, t.clientId = 0 ∧ ∀ diode : Reader UInt8 IoError,
      diode.bytes = Receive.written t.calls →
      receiveFile (fun _ => 0) .generous ⟨1, false⟩ diode "out" (fun _ => none) =
        (.ok 1, Function.update (fun _ => none) "out/a" (some ⟨[97], 0o644⟩)) := by
  have hrun : (LTS.runVia (Tolerant.step Crate.single smallest)
      (Tolerant.Benign Crate.single smallest fun _ => True)
      (Tolerant.init 1 1 1 1 _ [fileClient oneByte]) (crossing 7 6)).map (fun s =>
        ((s.link.expected = s.link.stream.length : Bool),
          oneOfEach.all fun a => (Lossy.step Crate.single smallest s.link a).isNone,
          s.link.sender.servers.started.map fun c => (c.bytes, c.failure))) =
      some (true, true, [((fileClient oneByte).bytes, none)]) := by
    decide +kernel
  obtain ⟨s, hs, heq⟩ := Option.map_eq_some_iff.mp hrun
  simp only [Prod.mk.injEq, decide_eq_true_iff] at heq
  obtain ⟨hexpected, hall, hstarted⟩ := heq
  obtain ⟨c, hc, hclient⟩ := List.map_eq_singleton_iff.mp hstarted
  obtain ⟨hbytes, hend⟩ := Prod.mk.inj hclient
  have hmax : Block.maxDataLen RaptorQ.single = some 7 := by decide
  have hsent : c.bytes = (sendFileAux (fun _ => 0) ⟨2, false⟩ oneByte "a").2 :=
    hbytes.trans (Reader.bytes_whole _)
  have hfirst : s.link.sender.servers.started[0]? = some c := by rw [hc]; rfl
  exact ⟨s, files_delivered Crate.single_lawful hmax (by decide) (by decide) (by decide) (by decide)
    (by decide) (by decide) (by decide) (LTS.reachVia_of_runVia hs) (stuck_of_oneOfEach hall)
    (Tolerant.supplied_of_expected hexpected) sendable_oneByte (System.generous_grants "out" "a")
    (by decide) (by decide) (by simp) hfirst trivial hsent hend⟩

/-- **Over a tolerable network all datagrams come out**, in their order, when the workers are at
rest and enough packets have arrived, if the system of the receiver takes them. -/
theorem datagrams_delivered (hlaw : crate.Lawful ends.sender.raptorq)
    (hmax : Block.maxDataLen ends.sender.raptorq = some len) (hpos : 0 < len)
    (hmin : 0 < ends.receiver.raptorq.minNbPackets.toNat) (hfew : clients.length < 2 ^ 32)
    (hm : 0 < m) (hn : 0 < n ∧ n < 256) (hd : 0 < d ∧ d < 256) (hk : 0 < k)
    (h : LTS.ReachVia (Tolerant.step crate ends) (Tolerant.Benign crate ends spared)
      (Tolerant.init m n d k Packet clients) s)
    (hstuck : LTS.Stuck (Lossy.step crate ends) Lossy.Label.Productive s.link)
    (hsupplied : s.Supplied ends) {sender receiver : Udp.Config} {sendTo : Udp.Answers}
    {datagrams : List (List UInt8)} {i : ℕ} {c : ClientSocket}
    (hsize : sender.bufferSize ≤ receiver.bufferSize)
    (htaken : Udp.Taken sendTo (Udp.received sender datagrams))
    (hc : s.link.sender.servers.started[i]? = some c) (hspared : spared (UInt32.ofNat i))
    (hsent : c.bytes = Udp.sendUdpAux sender datagrams)
    (hend : c.failure = none) :
    ∃ t ∈ s.link.demux.transfers, t.clientId = UInt32.ofNat i ∧
      ∀ diode : Reader UInt8 IoError, diode.bytes = written t.calls →
        ∃ e, Udp.receiveUdp receiver sendTo diode =
          (Udp.received sender datagrams, .error (.error e)) := by
  obtain ⟨t, ht, hid, hwritten⟩ := Tolerant.exists_written_eq hlaw hmax hpos hmin hfew hm hn hd hk
    h hstuck hsupplied hc hspared hend
  refine ⟨t, ht, hid, fun diode hdiode => ?_⟩
  have hall := hdiode.trans (hwritten.trans hsent)
  have hpart : diode.bytes <+: Udp.sendUdpAux sender datagrams := by rw [hall]
  obtain ⟨done, e, -, hrec, hwhole⟩ := Udp.receiveUdp_of_isPrefix sendTo hsize hpart
  rw [hwhole hall htaken] at hrec
  exact ⟨e, hrec⟩

/-- Two datagrams of two bytes cross the link. -/
theorem datagrams_delivered_two : ∃ s : Tolerant 1 1 1 1 (UInt8 × List UInt8),
    ∃ t ∈ s.link.demux.transfers, t.clientId = 0 ∧ ∀ diode : Reader UInt8 IoError,
      diode.bytes = Receive.written t.calls →
      ∃ e, Udp.receiveUdp ⟨4⟩ .sent diode = ([[1, 2], [3, 4]], .error (.error e)) := by
  have hrun : (LTS.runVia (Tolerant.step Crate.single smallest)
      (Tolerant.Benign Crate.single smallest fun _ => True)
      (Tolerant.init 1 1 1 1 _ [relayClient]) (crossing 4 3)).map (fun s =>
        ((s.link.expected = s.link.stream.length : Bool),
          oneOfEach.all fun a => (Lossy.step Crate.single smallest s.link a).isNone,
          s.link.sender.servers.started.map fun c => (c.bytes, c.failure))) =
      some (true, true, [(relayClient.bytes, none)]) := by
    decide +kernel
  obtain ⟨s, hs, heq⟩ := Option.map_eq_some_iff.mp hrun
  simp only [Prod.mk.injEq, decide_eq_true_iff] at heq
  obtain ⟨hexpected, hall, hstarted⟩ := heq
  obtain ⟨c, hc, hclient⟩ := List.map_eq_singleton_iff.mp hstarted
  obtain ⟨hbytes, hend⟩ := Prod.mk.inj hclient
  have hmax : Block.maxDataLen RaptorQ.single = some 7 := by decide
  have hsent : c.bytes = Udp.sendUdpAux ⟨4⟩ [[1, 2], [3, 4]] :=
    hbytes.trans (Reader.bytes_whole _)
  have hfirst : s.link.sender.servers.started[0]? = some c := by rw [hc]; rfl
  exact ⟨s, datagrams_delivered Crate.single_lawful hmax (by decide) (by decide) (by decide)
    (by decide) (by decide) (by decide) (by decide) (LTS.reachVia_of_runVia hs)
    (stuck_of_oneOfEach hall) (Tolerant.supplied_of_expected hexpected) (UInt64.le_refl _)
    (Udp.taken_sent _) hfirst trivial hsent hend⟩

end Delivery

end Link

end Lidi
