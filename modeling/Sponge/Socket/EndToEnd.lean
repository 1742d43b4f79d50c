import Sponge.Adapter.UDP
import Sponge.Network.Prefix
import Sponge.Socket.Discipline

/-!
# `Socket.EndToEnd` — what the owner of one socket reads, the owner of the other has written

Two sockets run side by side, their rounds interleaved in any way. A round receives at most one datagram, and before
it sends any, so it does no harm that the rounds do not overlap here. The network may lose, repeat, delay and reorder
datagrams; what it delivers is a datagram that the adapter of the other socket has handed to its kernel, or nothing
that can be decoded (`Genuine`).

From the owner of one socket to that of the other the bytes go through an outbound stream, segments, datagrams, the
reassembler, and an inbound stream. `Carrier` takes them from segments to datagrams and back, `Channel` from stream to
stream, and the invariant of the socket from and to the owners.
-/

namespace Sponge

open Lib Util TCPConnection TCPSender TCPSpongeSocket

/-! ## Segments from datagrams -/

theorem Alike.sameData {seg seg' : TCPSegment} (h : Alike seg seg') : SameData seg seg' := by
  refine ⟨?_, ?_, ?_, h.payload⟩
  · rw [h.header]
  · rw [h.header]
  · rw [h.header]

theorem Carries.alike {s : TCPSender} {seg seg' : TCPSegment} (h : Carries s seg) (halike : Alike seg seg') :
    Carries s seg' := by
  obtain ⟨base, hsame, hbase⟩ := h
  have hdata := halike.sameData
  exact ⟨base, ⟨hdata.seqno.trans hsame.seqno, hdata.syn.trans hsame.syn, hdata.fin.trans hsame.fin,
    hdata.payload.trans hsame.payload⟩, hbase⟩

/-- One direction: `dst` follows `src`, and hears of an end only if `src` has sent it. -/
structure Heeds (src dst : Endpoint) : Prop where
  channel : Channel src dst
  ended   : dst.conn.receiver.reassembler.eofFlag = true ∨ dst.conn.receiver.streamOut.isEof = true →
    src.conn.sender.finFlag = true

namespace Heeds

variable {src dst : Endpoint}

theorem init (cfg cfg' : TCPConfig) (isn isn' : WrappingInt32) :
    Heeds (Endpoint.ofConfig cfg isn) (Endpoint.ofConfig cfg' isn') :=
  ⟨Channel.init .., fun h => by rcases h with h | h <;> cases h⟩

theorem src_step (h : Heeds src dst) (op : Op) : Heeds (src.step op) dst :=
  ⟨h.channel.src_step op, fun hend => (grows_step src.conn op).finFlag (h.ended hend)⟩

theorem dst_step (h : Heeds src dst) (op : Op)
    (hcarries : ∀ seg, op = .segmentReceived seg → Carries src.conn.sender seg) :
    Heeds src (dst.step op) := by
  have hwire := h.channel.wire
  refine ⟨⟨hwire, fun hnext => (h.channel.follows hnext).step hwire.sender hnext op hcarries⟩, ?_⟩
  obtain ⟨failed, hh⟩ := handled_step dst.conn op
  intro hend
  rcases (heard_receiverAfter dst.conn op).ended (hh.ended hend) with hold | ⟨⟨seg, hop, hfin⟩, -⟩
  · exact h.ended hold
  · -- only a data segment carries a FIN, and only after the sender has sent it
    rcases (hcarries seg hop).cases hwire.sender with ⟨-, -, hno, -⟩ | ⟨-, hno, -⟩ | ⟨i, hi⟩
    · rw [hfin] at hno
      cases hno
    · rw [hfin] at hno
      cases hno
    · exact (hi.fin hfin).2

theorem src_run (h : Heeds src dst) (ops : List Op) : Heeds (run Endpoint.step src ops) dst :=
  run_invariant ops (Heeds · dst) h fun _ op h => h.src_step op

theorem dst_run (h : Heeds src dst) {ops : List Op}
    (hcarries : ∀ seg, .segmentReceived seg ∈ ops → Carries src.conn.sender seg) :
    Heeds src (run Endpoint.step dst ops) := by
  induction ops generalizing dst with
  | nil => exact h
  | cons op ops ih =>
      refine ih (h.dst_step op ?_) fun seg hseg => hcarries seg (List.mem_cons_of_mem _ hseg)
      rintro seg rfl
      exact hcarries seg List.mem_cons_self

end Heeds

/-! ## Two threads -/

variable {α : Type} [Carrier α]

/-- What arrives in the round, if it can be decoded, was sent by `peer`. The kernel keeps to the manual. -/
structure Genuine (peer : Thread α) (r : Round) : Prop where
  documented : r.Documented α
  sent       : ∀ seg, Carrier.decodes α (Carrier.arrived α r.net) seg →
    Carrier.arrived α r.net ∈ Carrier.sent peer.socket.datagramAdapter

/-- The connection of a thread, with the history of its streams. -/
def Thread.endpoint (cfg : TCPConfig) (isn : WrappingInt32) (t : Thread α) : Endpoint := t.socket.endpoint cfg isn

section Advance

variable {src dst : Thread α} {cfg cfg' : TCPConfig} {isn isn' : WrappingInt32} {r : Round}

/-- What is decoded from a datagram of `src` is a segment of its connection. -/
theorem carries_of_genuine (hsrc : src.Inv True cfg isn) (hwire : WireInv (src.endpoint cfg isn)) (hr : Genuine src r)
    {seg : TCPSegment} (hseg : Carrier.decodes α (Carrier.arrived α r.net) seg) :
    Carries (src.endpoint cfg isn).conn.sender seg := by
  obtain ⟨r₀, before, hI⟩ := hsrc.socket
  obtain ⟨seg₀, hout, hencodes⟩ := hI.sent trivial _ (hr.sent seg hseg)
  have halike := Carrier.codec seg₀ _ seg (hI.fits seg₀ hout) hencodes hseg
  refine Carries.alike (hwire.out seg₀ ?_) halike
  rw [hI.tcp] at hout
  exact hout

/-- **A round of one thread** keeps the two connections in step. -/
theorem heeds_advance (hsrc : src.Inv True cfg isn) (hdst : dst.Inv True cfg' isn') (hr : Genuine src r)
    (h : Heeds (src.endpoint cfg isn) (dst.endpoint cfg' isn'))
    (h' : Heeds (dst.endpoint cfg' isn') (src.endpoint cfg isn)) :
    Heeds (src.endpoint cfg isn) ((dst.advance r).endpoint cfg' isn') ∧
      Heeds ((dst.advance r).endpoint cfg' isn') (src.endpoint cfg isn) := by
  obtain ⟨new, hops, hnew⟩ := (hdst.advance fun _ => hr.documented).2
  have hrun : (dst.advance r).endpoint cfg' isn' = run Endpoint.step (dst.endpoint cfg' isn') new := by
    show run Endpoint.step _ (dst.advance r).socket.ops = _
    rw [hops, run_append]
    rfl
  rw [hrun]
  refine ⟨h.dst_run ?_, h'.src_run new⟩
  intro seg hseg
  exact carries_of_genuine hsrc h.channel.wire hr (hnew trivial seg hseg)

end Advance

structure Pair (α : Type) where
  a : Thread α
  b : Thread α

namespace Pair

/-- A round of one of the two threads. -/
inductive Event where
  | atA (r : Round)
  | atB (r : Round)

def step (p : Pair α) : Event → Pair α
  | .atA r => { p with a := p.a.advance r }
  | .atB r => { p with b := p.b.advance r }

/-- The network forges no datagram. -/
def NoForgery (p : Pair α) : Event → Prop
  | .atA r => Genuine p.b r
  | .atB r => Genuine p.a r

/-- What the two threads keep together. -/
structure Joined (cfgA cfgB : TCPConfig) (isnA isnB : WrappingInt32) (p : Pair α) : Prop where
  a  : p.a.Inv True cfgA isnA
  b  : p.b.Inv True cfgB isnB
  ab : Heeds (p.a.endpoint cfgA isnA) (p.b.endpoint cfgB isnB)
  ba : Heeds (p.b.endpoint cfgB isnB) (p.a.endpoint cfgA isnA)

theorem Joined.step {cfgA cfgB : TCPConfig} {isnA isnB : WrappingInt32} {p : Pair α} (h : Joined cfgA cfgB isnA isnB p)
    {ev : Event} (hev : NoForgery p ev) : Joined cfgA cfgB isnA isnB (p.step ev) := by
  cases ev with
  | atA r =>
      obtain ⟨hba, hab⟩ := heeds_advance h.b h.a hev h.ba h.ab
      exact ⟨(h.a.advance fun _ => hev.documented).1, h.b, hab, hba⟩
  | atB r =>
      obtain ⟨hab, hba⟩ := heeds_advance h.a h.b hev h.ab h.ba
      exact ⟨h.a, (h.b.advance fun _ => hev.documented).1, hab, hba⟩

end Pair

/-! ## From owner to owner -/

/-- What the owner has written to the socket, as far as the thread has read it. -/
def Thread.fromOwner (t : Thread α) : List UInt8 := t.socket.threadData.received

/-- What the kernel has taken for the owner. -/
def Thread.toOwner (t : Thread α) : List UInt8 := t.socket.threadData.calls.flatMap WritevCall.taken

/-- One direction, at any time. -/
theorem toOwner_isPrefix {src dst : Thread α} {cfg cfg' : TCPConfig} {isn isn' : WrappingInt32}
    (hsrc : src.Inv True cfg isn) (hdst : dst.Inv True cfg' isn')
    (h : Heeds (src.endpoint cfg isn) (dst.endpoint cfg' isn')) (hlen : src.fromOwner.length + 2 ≤ 2 ^ 32) :
    dst.toOwner <+: src.fromOwner := by
  obtain ⟨r, before, hI⟩ := hsrc.socket
  obtain ⟨r', before', hI'⟩ := hdst.socket
  have haccepted : (src.endpoint cfg isn).accepted = src.fromOwner := hI.accepted
  calc dst.toOwner
      = (dst.endpoint cfg' isn').taken := (hI'.taken trivial).symm
    _ <+: (dst.endpoint cfg' isn').delivered := List.prefix_append _ _
    _ <+: (src.endpoint cfg isn).accepted := h.channel.delivered_isPrefix (by rw [haccepted]; exact hlen)
    _ = src.fromOwner := haccepted

/-- The owner of `dst` is told of an end only if the owner of `src` has ended its stream, or there was an error. -/
theorem told_of_ended {src dst : Thread α} {cfg cfg' : TCPConfig} {isn isn' : WrappingInt32}
    (hsrc : src.Inv True cfg isn) (hdst : dst.Inv True cfg' isn')
    (h : Heeds (src.endpoint cfg isn) (dst.endpoint cfg' isn')) (htold : dst.socket.inboundShutdown = true) :
    src.socket.outboundShutdown = true ∨ dst.socket.tcp.inboundStream.error = true := by
  obtain ⟨r, before, hI⟩ := hsrc.socket
  obtain ⟨r', before', hI'⟩ := hdst.socket
  refine (hI'.told htold).imp ?_ id
  intro hend
  rw [hI'.tcp] at hend
  have hfin : (src.endpoint cfg isn).conn.sender.finFlag = true := h.ended (Or.inr hend)
  have hclosed := (Endpoint.finalInv_run cfg isn src.socket.ops hI.discipline).closed
    (h.channel.wire.sender.ended hfin)
  by_contra hopen
  exact hI.unended (by simpa using hopen) hclosed

/-- **What an owner reads, the other one has written.** One socket connects and the other listens, their rounds are
    interleaved in any way, and the network loses, repeats and reorders datagrams but forges none. As long as the
    sequence numbers last, what an owner was given at any time is the beginning of what the other one has written. And
    an owner is told of the end of the stream only if the other one has ended it or the connection was reset. -/
theorem reads_what_was_written (cfgA cfgB : TCPConfig) (configA configB : FdAdapterConfig) (isnA isnB : WrappingInt32)
    (a b : α) (nowA nowB : Nat) (ha : Carrier.sent a = []) (hb : Carrier.sent b = []) {client : Thread α}
    (hclient : connect cfgA configA isnA a nowA = .ok client) (events : List Pair.Event)
    (hgenuine : Guarded Pair.step Pair.NoForgery ⟨client, listenAndAccept cfgB configB isnB b nowB⟩ events) :
    let p := run Pair.step ⟨client, listenAndAccept cfgB configB isnB b nowB⟩ events
    (p.a.fromOwner.length + 2 ≤ 2 ^ 32 → p.b.toOwner <+: p.a.fromOwner) ∧
    (p.b.fromOwner.length + 2 ≤ 2 ^ 32 → p.a.toOwner <+: p.b.fromOwner) ∧
    (p.b.socket.inboundShutdown = true →
      p.a.socket.outboundShutdown = true ∨ p.b.socket.tcp.inboundStream.error = true) ∧
    (p.a.socket.inboundShutdown = true →
      p.b.socket.outboundShutdown = true ∨ p.a.socket.tcp.inboundStream.error = true) := by
  intro p
  obtain rfl := Except.ok.inj ((connect_eq cfgA configA isnA a nowA).symm.trans hclient)
  have hstart : Pair.Joined cfgA cfgB isnA isnB
      ⟨connecting cfgA configA isnA a nowA, listenAndAccept cfgB configB isnB b nowB⟩ := by
    have hnew := Heeds.init cfgA cfgB isnA isnB
    have hnew' := Heeds.init cfgB cfgA isnB isnA
    exact ⟨inv_connecting cfgA configA isnA nowA fun _ => ha, inv_listenAndAccept cfgB configB isnB nowB fun _ => hb,
      hnew.src_step .connect, hnew'.dst_step .connect fun _ hop => nomatch hop⟩
  have h : Pair.Joined cfgA cfgB isnA isnB p :=
    hgenuine.invariant (Pair.Joined cfgA cfgB isnA isnB) hstart fun _ _ hjoined hev => hjoined.step hev
  exact ⟨toOwner_isPrefix h.a h.b h.ab, toOwner_isPrefix h.b h.a h.ba, told_of_ended h.a h.b h.ab,
    told_of_ended h.b h.a h.ba⟩

/-! A short session over UDP, with a kernel that takes what it is given. -/

/-- A round in which everything is ready: a datagram arrives, and the owner may write something, or end its stream if
    that is empty. -/
def busy (sourceAddress : Address) (dgram : Buffer) (data : Option Buffer) : Round where
  poll   := fun _ => { ret := 1, revents := fun i => { pollin := i == 0 || data.isSome, pollout := true } }
  net    :=
    { recvfrom := fun _ => { ret := Int64.ofNat dgram.length, errno := 0, data := dgram, sourceAddress }
      sendmsg  := fun _ iovecs => { ret := Int64.ofNat (gathered iovecs).length, errno := 0 } }
  read   := fun _ => { ret := Int64.ofNat (data.getD []).length, errno := 0, data := data.getD [] }
  writev := fun _ iovecs => { ret := Int64.ofNat (gathered iovecs).length, errno := 0 }

theorem documented_busy (sourceAddress : Address) {dgram : Buffer} (hlen : dgram.length ≤ 65535)
    (data : Option Buffer) : (busy sourceAddress dgram data).Documented TCPOverUDPSocketAdapter := by
  have hret : (Int64.ofNat dgram.length).toInt = dgram.length := Int64.toInt_ofNat_of_lt (by omega)
  refine ⟨⟨Or.inr ⟨?_, ?_⟩, fun _ => hret⟩, ?_⟩
  · show 0 ≤ (Int64.ofNat dgram.length).toInt
    omega
  · show (Int64.ofNat dgram.length).toInt ≤ (65536 : Nat)
    omega
  · intro k iovecs hsize
    have hwritten : (Int64.ofNat (gathered iovecs).length).toInt = (gathered iovecs).length :=
      Int64.toInt_ofNat_of_lt (by omega)
    refine Or.inr ⟨?_, ?_⟩
    · show 0 ≤ (Int64.ofNat (gathered iovecs).length).toInt
      omega
    · show (Int64.ofNat (gathered iovecs).length).toInt ≤ (gathered iovecs).length
      omega

/-- Nothing can be decoded from an empty datagram. -/
theorem genuine_busy_nil (peer : Thread TCPOverUDPSocketAdapter) (sourceAddress : Address) (data : Option Buffer) :
    Genuine peer (busy sourceAddress [] data) := by
  refine ⟨documented_busy sourceAddress (Nat.zero_le _) data, ?_⟩
  intro seg hseg
  have hnone : TCPOverUDPSocketAdapter.carried [] = none := by decide +kernel
  exact nomatch hnone.symm.trans hseg

theorem genuine_busy {peer : Thread TCPOverUDPSocketAdapter} {dgram : Buffer} (hlen : dgram.length ≤ 65535)
    (hsent : dgram ∈ Carrier.sent peer.socket.datagramAdapter) (sourceAddress : Address) (data : Option Buffer) :
    Genuine peer (busy sourceAddress dgram data) :=
  ⟨documented_busy sourceAddress hlen data, fun _ _ => hsent⟩

/-- The addresses of the client and the server. -/
def clientAddress : Address := ⟨0x0a000001, 5000⟩
def serverAddress : Address := ⟨0x0a000002, 80⟩

/-- A client that connects and a server that listens. -/
def pairUDP : Pair TCPOverUDPSocketAdapter :=
  ⟨connecting {} { source := clientAddress, destination := serverAddress } (.ofRaw 0) {} 0,
    listenAndAccept {} { source := serverAddress } (.ofRaw 100) {} 0⟩

/-- The datagrams of the client's SYN, of the server's answer, and of a byte from the client's owner. -/
def synDatagram : Buffer := [19, 136, 0, 80, 0, 0, 0, 0, 0, 0, 0, 0, 80, 2, 0, 0, 156, 37, 0, 0]
def synAckDatagram : Buffer := [0, 80, 19, 136, 0, 0, 0, 100, 0, 0, 0, 1, 80, 18, 250, 0, 161, 175, 0, 0]
def byteDatagram : Buffer := [19, 136, 0, 80, 0, 0, 0, 1, 0, 0, 0, 101, 80, 16, 250, 0, 154, 176, 0, 0, 7]

/-- The handshake, a byte that the owner of the client writes, and the same byte for the owner of the server. -/
def sessionUDP : List Pair.Event :=
  [.atA (busy serverAddress [] none),
    .atB (busy clientAddress synDatagram none),
    .atB (busy clientAddress [] none),
    .atA (busy serverAddress synAckDatagram none),
    .atA (busy serverAddress [] none),
    .atA (busy serverAddress [] (some [7])),
    .atB (busy clientAddress byteDatagram none),
    .atB (busy clientAddress [] none),
    .atB (busy clientAddress [] none)]

theorem noForgery_sessionUDP : Guarded Pair.step Pair.NoForgery pairUDP sessionUDP :=
  ⟨genuine_busy_nil .., genuine_busy (by decide) (by decide +kernel) .., genuine_busy_nil ..,
    genuine_busy (by decide) (by decide +kernel) .., genuine_busy_nil .., genuine_busy_nil ..,
    genuine_busy (by decide) (by decide +kernel) .., genuine_busy_nil .., genuine_busy_nil .., trivial⟩

theorem reads_what_was_written_udp :
    (run Pair.step pairUDP sessionUDP).a.fromOwner = [7] ∧ (run Pair.step pairUDP sessionUDP).b.toOwner = [7] ∧
      (run Pair.step pairUDP sessionUDP).b.toOwner <+: (run Pair.step pairUDP sessionUDP).a.fromOwner := by
  have hwritten : (run Pair.step pairUDP sessionUDP).a.fromOwner = [7] := by decide +kernel
  refine ⟨hwritten, by decide +kernel, ?_⟩
  refine (reads_what_was_written {} {} { source := clientAddress, destination := serverAddress }
    { source := serverAddress } (.ofRaw 0) (.ofRaw 100) ({} : TCPOverUDPSocketAdapter) {} 0 0 rfl rfl
    (connect_eq ..) sessionUDP noForgery_sessionUDP).1 ?_
  have hlen : (run Pair.step pairUDP sessionUDP).a.fromOwner.length = 1 := by rw [hwritten]; rfl
  exact hlen ▸ (by decide)

end Sponge
