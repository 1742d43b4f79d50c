import Sponge.Adapter
import Sponge.Wire.Accept

/-!
# `Adapter.UDP` — segments in UDP datagrams

A datagram is received with the address that it came from. A connected adapter looks at this address only, not at the
ports in the segment; a listening one takes the address of the first SYN without RST for its peer. A segment that fits
into a datagram survives the way from one such adapter to another (`survives_udp`), and an adapter that listens locks
onto the sender of the first such SYN (`udp_locks_onto_peer`).
-/

namespace Sponge

open Lib Util

/-- The address that a datagram came from, and what is in it. -/
def NetAnswers.source (net : NetAnswers) : Address := (net.recvfrom 65536).sourceAddress
def NetAnswers.payload (net : NetAnswers) : Buffer := (net.recvfrom 65536).data

/-- A datagram has arrived, and it is not larger than `UDPSocket::recv` allows. -/
structure NetAnswers.Delivers (net : NetAnswers) : Prop where
  ret  : (net.recvfrom 65536).ret.toInt = net.payload.length
  size : net.payload.length ≤ 65536

/-- The kernel takes the datagrams that it is given, each as a whole. It need not take one that does not fit into a
    packet of 65535 bytes together with the headers of UDP and of IP. -/
def NetAnswers.Sends (net : NetAnswers) : Prop :=
  ∀ k iovecs, (gathered iovecs).length ≤ 65507 → (net.sendmsg k iovecs).ret.toInt = (gathered iovecs).length

/-! ## The socket -/

/-- A UDP socket, with the datagrams that were handed to the kernel so far. -/
structure UDPSocket extends FDWrapper where
  sent : List (Address × Buffer) := []

namespace UDPSocket

/-- Receive a datagram and the address of its sender. -/
def recv (answer : Nat → RecvResult) (mtu : Nat) : EStateM Failure UDPSocket (Address × Buffer) := do
  let r := answer mtu
  let recvLen ← FDWrapper.call "recvfrom" r.toSysResult
  if recvLen.toInt > mtu then
    throw (.runtimeError "recvfrom (oversized datagram)")
  modify fun sock => { sock with toFDWrapper := sock.registerRead }
  if recvLen.toInt < 0 then
    throw .lengthError
  return (r.sourceAddress, filled r.data recvLen.toInt.toNat)

/-- Send a datagram to an address. -/
def sendto (answer : Nat → List Iovec → SysResult) (destination : Address) (payload : BufferViewList) :
    EStateM Failure UDPSocket Unit := do
  let r := answer (← get).sent.length payload.asIovecs
  modify fun sock => { sock with sent := sock.sent ++ [(destination, payload.bytes)] }
  let bytesSent ← FDWrapper.call "sendmsg" r
  if bytesSent.toUInt64.toNat != payload.size then
    throw (.runtimeError "datagram payload too big for sendmsg()")
  modify fun sock => { sock with toFDWrapper := sock.registerWrite }

/-- **Receiving**, whatever the kernel answers: one more read is counted, and nothing is sent. -/
theorem recv_ends (answer : Nat → RecvResult) (mtu : Nat) (sock : UDPSocket) :
    Ends (recv answer mtu sock)
      (fun d sock' => sock' = { sock with toFDWrapper := sock.registerRead } ∧ d.1 = (answer mtu).sourceAddress ∧
        (answer mtu).toReadResult.Yields d.2)
      (fun _ sock' => sock'.sent = sock.sent) := by
  unfold recv
  refine ((FDWrapper.call_ends "recvfrom" _ sock).mono (fun _ _ h => h) fun _ _ h => congrArg sent h).bind ?_
  rintro recvLen _ ⟨rfl, hret⟩
  dsimp only
  split
  · exact rfl
  · show Ends ((if _ then _ else _ : EStateM Failure UDPSocket _) _) _ _
    split
    · exact rfl
    · next hneg => exact ⟨rfl, rfl, recvLen, hret, Int.not_lt.mp hneg, rfl⟩

theorem recv_throws (answer : Nat → RecvResult) (mtu : Nat) (sock : UDPSocket) :
    Ends (recv answer mtu sock) (fun _ _ => True) (fun e _ => e.ofCall = true) := by
  unfold recv
  refine (FDWrapper.call_throws "recvfrom" _ sock).bind ?_
  rintro recvLen sock' -
  dsimp only
  split
  · exact (by decide : (Failure.runtimeError "recvfrom (oversized datagram)").ofCall = true)
  · show Ends ((if _ then _ else _ : EStateM Failure UDPSocket _) _) _ _
    split
    · exact rfl
    · exact trivial

theorem recv_of_delivers {net : NetAnswers} (h : net.Delivers) (sock : UDPSocket) :
    recv net.recvfrom 65536 sock = .ok (net.source, net.payload) { sock with toFDWrapper := sock.registerRead } := by
  have hret := h.ret
  have hsize := h.size
  have hcall := FDWrapper.call_of_nonneg (r := (net.recvfrom 65536).toSysResult) (by omega) (by omega) "recvfrom" sock
  have hlen : (net.recvfrom 65536).ret.toInt.toNat = (net.recvfrom 65536).data.length := by
    rw [hret]
    rfl
  show EStateM.bind (FDWrapper.call "recvfrom" _) _ sock = _
  unfold EStateM.bind
  rw [hcall]
  dsimp only
  rw [if_neg (by omega), if_neg (by omega), hlen, filled_length]
  rfl

/-- **Sending**, whatever the kernel answers: the datagram was handed over. -/
theorem sendto_ends (answer : Nat → List Iovec → SysResult) (destination : Address) (payload : BufferViewList)
    (sock : UDPSocket) :
    Ends (sendto answer destination payload sock)
      (fun _ sock' => sock' =
        { sock with toFDWrapper := sock.registerWrite, sent := sock.sent ++ [(destination, payload.bytes)] })
      (fun _ sock' => sock' = { sock with sent := sock.sent ++ [(destination, payload.bytes)] }) := by
  refine (FDWrapper.call_ends "sendmsg" (answer sock.sent.length payload.asIovecs)
    { sock with sent := sock.sent ++ [(destination, payload.bytes)] }).bind ?_
  rintro bytesSent _ ⟨rfl, -⟩
  dsimp only
  split
  · exact rfl
  · exact rfl

theorem sendto_throws (answer : Nat → List Iovec → SysResult) (destination : Address) (payload : BufferViewList)
    (sock : UDPSocket) :
    Ends (sendto answer destination payload sock) (fun _ _ => True) (fun e _ => e.ofCall = true) := by
  refine (FDWrapper.call_throws "sendmsg" (answer sock.sent.length payload.asIovecs)
    { sock with sent := sock.sent ++ [(destination, payload.bytes)] }).bind ?_
  rintro bytesSent sock' -
  dsimp only
  split
  · exact (by decide : (Failure.runtimeError "datagram payload too big for sendmsg()").ofCall = true)
  · exact trivial

theorem sendto_of_sends {net : NetAnswers} (h : net.Sends) (destination : Address) {payload : BufferViewList}
    (hsize : payload.size ≤ 65507) (sock : UDPSocket) :
    sendto net.sendmsg destination payload sock = .ok ()
      { sock with toFDWrapper := sock.registerWrite, sent := sock.sent ++ [(destination, payload.bytes)] } := by
  have hlen : (gathered payload.asIovecs).length = payload.size := by
    rw [gathered_asIovecs, BufferViewList.length_bytes]
  have hret : (net.sendmsg sock.sent.length payload.asIovecs).ret.toInt = payload.size := by
    rw [h _ _ (hlen.trans_le hsize), hlen]
  have hcall := FDWrapper.call_of_nonneg (r := net.sendmsg sock.sent.length payload.asIovecs) (by omega) (by omega)
    "sendmsg" { sock with sent := sock.sent ++ [(destination, payload.bytes)] }
  have hsent : (net.sendmsg sock.sent.length payload.asIovecs).ret.toUInt64.toNat = payload.size := by
    rw [toNat_toUInt64 (by omega), hret]
    rfl
  show EStateM.bind (FDWrapper.call "sendmsg" _) _ _ = _
  unfold EStateM.bind
  rw [hcall]
  dsimp only
  rw [hsent, bne_self_eq_false, if_neg Bool.false_ne_true]
  rfl

end UDPSocket

/-! ## The adapter -/

structure TCPOverUDPSocketAdapter where
  config    : FdAdapterConfig := {}
  listening : Bool := false
  sock      : UDPSocket := {}

namespace TCPOverUDPSocketAdapter

/-- Work on the socket of the adapter. -/
def onSock {β : Type} (m : EStateM Failure UDPSocket β) : EStateM Failure TCPOverUDPSocketAdapter β :=
  zoom sock (fun sock a => { a with sock }) m

/-- What becomes of a payload that was received from `source`. -/
def accept (source : Address) (payload : Buffer) (a : TCPOverUDPSocketAdapter) :
    Except Exn (Option TCPSegment × TCPOverUDPSocketAdapter) := do
  -- is it for us?
  if !a.listening && source != a.config.destination then return (none, a)
  -- is the payload a valid segment?
  let (result, seg) ← TCPSegment.parse {} payload 0
  if result != .noError then return (none, a)
  -- should we target this source in all future replies?
  if a.listening then
    if seg.header.syn && !seg.header.rst then
      return (some seg, { a with config := { a.config with destination := source }, listening := false })
    else return (none, a)
  return (some seg, a)

/-- The next segment, if what arrives is one and belongs to the connection. -/
def read (net : NetAnswers) : EStateM Failure TCPOverUDPSocketAdapter (Option TCPSegment) := do
  let (source, payload) ← onSock (UDPSocket.recv net.recvfrom 65536)
  let (seg, a) ← throwing ((← get).accept source payload)
  set a
  return seg

/-- Send a segment as the payload of a datagram. -/
def write (net : NetAnswers) (seg : TCPSegment) : EStateM Failure TCPOverUDPSocketAdapter Unit := do
  let config := (← get).config
  let payload ← throwing ((config.addressed seg).serialize 0)
  onSock (UDPSocket.sendto net.sendmsg config.destination payload.views)

instance : FdAdapter TCPOverUDPSocketAdapter where
  fd           := fun a => a.sock.toFDWrapper
  config       := config
  setConfig    := fun config a => { a with config }
  setListening := fun l a => { a with listening := l }
  tick         := fun _ a => a
  read         := read
  write        := write

/-! ## What is read -/

/-- The segment in a payload, if it parses. -/
def carried (payload : Buffer) : Option TCPSegment :=
  match TCPSegment.parse {} payload 0 with
  | .ok (.noError, seg) => some seg
  | _                   => none

/-- The segment in a payload, if it opens a connection. -/
def opening (payload : Buffer) : Option TCPSegment :=
  (carried payload).filter fun seg => seg.header.syn && !seg.header.rst

variable {a : TCPOverUDPSocketAdapter} {net : NetAnswers} {payload : Buffer} {seg : TCPSegment}

theorem carried_eq_some_iff : carried payload = some seg ↔ TCPSegment.parse {} payload 0 = .ok (.noError, seg) := by
  unfold carried
  split
  · next seg' hparse =>
      rw [hparse, Option.some.injEq, Except.ok.injEq, Prod.mk.injEq, and_iff_right rfl]
  · next hother =>
      refine iff_of_false (fun h => nomatch h) ?_
      intro hparse
      exact hother seg hparse

/-- What a connected adapter takes: what comes from its peer and parses. -/
theorem accept_of_connected (h : a.listening = false) (source : Address) (payload : Buffer) :
    a.accept source payload = .ok (if source = a.config.destination then carried payload else none, a) := by
  obtain ⟨r, out, hparse, -⟩ := TCPSegment.parse_outcome {} payload 0
  by_cases hsource : source = a.config.destination
  · rw [if_pos hsource]
    cases r with
    | noError =>
        rw [carried_eq_some_iff.mpr hparse]
        simp [accept, h, hsource, hparse, bind, Except.bind, pure, Except.pure]
    | _ =>
        simp [accept, carried, h, hsource, hparse, bind, Except.bind, pure, Except.pure]
  · rw [if_neg hsource]
    simp [accept, h, hsource, pure, Except.pure]

/-- A listening adapter takes what opens a connection, and its sender becomes the peer. -/
theorem accept_of_listening (h : a.listening = true) (source : Address) (payload : Buffer) :
    a.accept source payload = .ok (match opening payload with
      | some seg => (some seg, { a with config := { a.config with destination := source }, listening := false })
      | none     => (none, a)) := by
  obtain ⟨r, out, hparse, -⟩ := TCPSegment.parse_outcome {} payload 0
  cases r with
  | noError =>
      rw [opening, carried_eq_some_iff.mpr hparse, Option.filter_some]
      cases hopens : out.header.syn && !out.header.rst with
      | true => simp [accept, h, hparse, hopens, bind, Except.bind, pure, Except.pure]
      | false => simp [accept, h, hparse, hopens, bind, Except.bind, pure, Except.pure]
  | _ => simp [accept, opening, carried, h, hparse, bind, Except.bind, pure, Except.pure]

/-- The adapter after one more read was counted. -/
def counted (a : TCPOverUDPSocketAdapter) : TCPOverUDPSocketAdapter :=
  { a with sock := { a.sock with toFDWrapper := a.sock.registerRead } }

/-- What a datagram that has arrived makes the adapter do. -/
theorem read_of_delivers (h : net.Delivers) {a' : TCPOverUDPSocketAdapter} {out : Option TCPSegment}
    (haccept : a.counted.accept net.source net.payload = .ok (out, a')) : read net a = .ok out a' := by
  have hrecv : onSock (UDPSocket.recv net.recvfrom 65536) a = .ok (net.source, net.payload) a.counted := by
    rw [onSock, zoom, UDPSocket.recv_of_delivers h]
    rfl
  show EStateM.bind (onSock (UDPSocket.recv net.recvfrom 65536)) _ a = _
  unfold EStateM.bind
  rw [hrecv]
  show EStateM.bind (throwing (a.counted.accept net.source net.payload)) _ a.counted = _
  rw [haccept]
  rfl

/-- A connected adapter returns what comes from its peer. -/
theorem reads_connected {nets : List NetAnswers} (hdelivers : ∀ net ∈ nets, net.Delivers)
    {a : TCPOverUDPSocketAdapter} (hlisten : a.listening = false) :
    ∃ a', FdAdapter.reads nets a =
        .ok (nets.map fun net => if net.source = a.config.destination then carried net.payload else none) a' ∧
      a'.config = a.config ∧ a'.listening = false := by
  induction nets generalizing a with
  | nil => exact ⟨a, rfl, rfl, hlisten⟩
  | cons net nets ih =>
      have hread := read_of_delivers (hdelivers net List.mem_cons_self)
        (accept_of_connected (a := a.counted) hlisten net.source net.payload)
      obtain ⟨a', hreads, hconfig, hlisten'⟩ :=
        ih (fun net' hmem => hdelivers net' (List.mem_cons_of_mem _ hmem)) (a := a.counted) hlisten
      exact ⟨a', FdAdapter.reads_cons hread hreads, hconfig, hlisten'⟩

/-- **A listening adapter locks onto the sender of the first SYN** that comes without RST. Until then it returns
    nothing; after that it returns what comes from this address and parses, and nothing else, whatever else arrives. -/
theorem udp_locks_onto_peer (a : TCPOverUDPSocketAdapter) (hlisten : a.listening = true)
    (waiting later : List NetAnswers) (syn : NetAnswers) (seg : TCPSegment)
    (hdelivers : ∀ net ∈ waiting ++ syn :: later, net.Delivers)
    (hwaiting : ∀ net ∈ waiting, opening net.payload = none) (hsyn : opening syn.payload = some seg) :
    ∃ a', FdAdapter.reads (waiting ++ syn :: later) a = .ok (waiting.map (fun _ => none) ++ some seg ::
        later.map fun net => if net.source = syn.source then carried net.payload else none) a' ∧
      a'.config = { a.config with destination := syn.source } ∧ a'.listening = false := by
  induction waiting generalizing a with
  | nil =>
      have haccept := accept_of_listening (a := a.counted) hlisten syn.source syn.payload
      rw [hsyn] at haccept
      have hread := read_of_delivers (hdelivers syn List.mem_cons_self) haccept
      obtain ⟨a', hreads, hconfig, hlisten'⟩ := reads_connected
        (fun net hmem => hdelivers net (List.mem_cons_of_mem _ hmem))
        (a := { a.counted with config := { a.config with destination := syn.source }, listening := false }) rfl
      exact ⟨a', FdAdapter.reads_cons hread hreads, hconfig, hlisten'⟩
  | cons net waiting ih =>
      have haccept := accept_of_listening (a := a.counted) hlisten net.source net.payload
      rw [hwaiting net List.mem_cons_self] at haccept
      have hread := read_of_delivers (hdelivers net List.mem_cons_self) haccept
      obtain ⟨a', hreads, hconfig, hlisten'⟩ := ih a.counted hlisten
        (fun net' hmem => hdelivers net' (List.mem_cons_of_mem _ hmem))
        (fun net' hmem => hwaiting net' (List.mem_cons_of_mem _ hmem))
      exact ⟨a', FdAdapter.reads_cons hread hreads, hconfig, hlisten'⟩

/-! ## What is written -/

/-- The bytes of a segment in a datagram from this adapter. -/
def wireBytes (config : FdAdapterConfig) (seg : TCPSegment) : Buffer :=
  (config.addressed seg).headerBytes 0 ++ seg.payload

theorem serialize_addressed (config : FdAdapterConfig) (hdoff : 5 ≤ seg.header.doff.toNat) :
    (config.addressed seg).serialize 0 = .ok [(config.addressed seg).headerBytes 0, seg.payload] := by
  have hdoff' : 5 ≤ (config.addressed seg).header.doff.toNat := hdoff
  exact TCPSegment.serialize_eq hdoff'

theorem bytes_views_addressed (config : FdAdapterConfig) (seg : TCPSegment) :
    (BufferList.views [(config.addressed seg).headerBytes 0, seg.payload]).bytes = wireBytes config seg := by
  rw [BufferList.bytes_views, BufferList.concatenate, List.flatten_cons, List.flatten_singleton]
  rfl

/-- The segment that the bytes are parsed into. -/
theorem carried_wireBytes (config : FdAdapterConfig) (h : FitsDatagram seg) :
    carried (wireBytes config seg) = some ((config.addressed seg).withChecksum 0) := by
  have hsize := h.size
  have hdoff : 5 ≤ (config.addressed seg).header.doff.toNat := h.doff_ge
  have hlen : 4 * (config.addressed seg).header.doff.toNat + (config.addressed seg).payload.length ≤ 65535 :=
    show 4 * seg.header.doff.toNat + seg.payload.length ≤ 65535 by omega
  exact carried_eq_some_iff.mpr (TCPSegment.parse_bytes (by decide) hdoff h.doff_le hlen {})

/-- **Writing**, whatever the kernel answers: the bytes of the segment are handed over, and what the adapter goes by
    when it reads is not touched. -/
theorem write_ends (net : NetAnswers) (a : TCPOverUDPSocketAdapter) (hdoff : 5 ≤ seg.header.doff.toNat) :
    Ends (write net seg a)
      (fun _ a' => a'.sock.sent = a.sock.sent ++ [(a.config.destination, wireBytes a.config seg)] ∧
        a'.config = a.config ∧ a'.listening = a.listening)
      (fun _ a' => a'.sock.sent = a.sock.sent ++ [(a.config.destination, wireBytes a.config seg)] ∧
        a'.config = a.config ∧ a'.listening = a.listening) := by
  show Ends (EStateM.bind (throwing ((a.config.addressed seg).serialize 0)) _ a) _ _
  rw [serialize_addressed a.config hdoff]
  show Ends (onSock (UDPSocket.sendto net.sendmsg a.config.destination _) a) _ _
  refine (Ends.zoom (fun sock a => { a with sock }) a (UDPSocket.sendto_ends _ _ _ a.sock)).mono ?_ ?_
  · rintro _ _ ⟨sock, rfl, rfl⟩
    rw [bytes_views_addressed]
    exact ⟨rfl, rfl, rfl⟩
  · rintro _ _ ⟨sock, rfl, rfl⟩
    rw [bytes_views_addressed]
    exact ⟨rfl, rfl, rfl⟩

/-- The adapter after a segment was sent. -/
theorem write_of_sends {net : NetAnswers} (h : net.Sends) (a : TCPOverUDPSocketAdapter) (hfits : FitsDatagram seg) :
    ∃ a', write net seg a = .ok () a' ∧
      a'.sock.sent = a.sock.sent ++ [(a.config.destination, wireBytes a.config seg)] := by
  have hbytes := bytes_views_addressed a.config seg
  have hsize : (BufferList.views [(a.config.addressed seg).headerBytes 0, seg.payload]).size ≤ 65507 := by
    have hdoff : 5 ≤ (a.config.addressed seg).header.doff.toNat := hfits.doff_ge
    have hheader : ((a.config.addressed seg).headerBytes 0).length = 4 * seg.header.doff.toNat :=
      TCPSegment.length_headerBytes hdoff
    have hle := hfits.size
    rw [← BufferViewList.length_bytes, hbytes, wireBytes, List.length_append, hheader]
    omega
  have hsend := UDPSocket.sendto_of_sends h a.config.destination hsize a.sock
  rw [hbytes] at hsend
  have hwrite : write net seg a = onSock (UDPSocket.sendto net.sendmsg a.config.destination
      (BufferList.views [(a.config.addressed seg).headerBytes 0, seg.payload])) a := by
    show EStateM.bind (throwing ((a.config.addressed seg).serialize 0)) _ a = _
    rw [serialize_addressed a.config hfits.doff_ge]
    rfl
  rw [onSock, zoom, hsend] at hwrite
  exact ⟨_, hwrite, rfl⟩

/-- **A segment survives the way over UDP** if it fits into a datagram and the kernel takes it. What one adapter has
    written is read by the other, once the kernel delivers it, with its payload and its header, up to the ports, which
    are those of the first adapter, and the checksum: if the other is connected to where the datagram comes from, or if
    it listens and the segment is a SYN without RST. Then it is connected. -/
theorem survives_udp (a b : TCPOverUDPSocketAdapter) (seg : TCPSegment) (net : NetAnswers) (hfits : FitsDatagram seg)
    (hsends : net.Sends) :
    ∃ a' bytes, write net seg a = .ok () a' ∧ a'.sock.sent = a.sock.sent ++ [(a.config.destination, bytes)] ∧
      ∀ net' : NetAnswers, net'.Delivers → net'.payload = bytes →
        (b.listening = false ∧ b.config.destination = net'.source ∨
          b.listening = true ∧ seg.header.syn = true ∧ seg.header.rst = false) →
        ∃ out b', read net' b = .ok (some out) b' ∧ Alike seg out ∧ out.header.sport = a.config.source.port ∧
          out.header.dport = a.config.destination.port ∧ b'.config.destination = net'.source ∧
          b'.listening = false := by
  obtain ⟨a', hwrite, hsent⟩ := write_of_sends hsends a hfits
  refine ⟨a', _, hwrite, hsent, ?_⟩
  intro net' hdelivers hpayload hb
  have hcarried := carried_wireBytes a.config hfits
  rcases hb with ⟨hlisten, hpeer⟩ | ⟨hlisten, hsyn, hrst⟩
  · have haccept := accept_of_connected (a := b.counted) hlisten net'.source net'.payload
    have hsource : net'.source = b.counted.config.destination := hpeer.symm
    rw [if_pos hsource, hpayload, hcarried, ← hpayload] at haccept
    exact ⟨_, _, read_of_delivers hdelivers haccept, ⟨rfl, rfl⟩, rfl, rfl, hpeer, hlisten⟩
  · have hopening : opening net'.payload = some ((a.config.addressed seg).withChecksum 0) := by
      rw [opening, hpayload, hcarried, Option.filter_some, if_pos]
      show (seg.header.syn && !seg.header.rst) = true
      rw [hsyn, hrst]
      rfl
    have haccept := accept_of_listening (a := b.counted) hlisten net'.source net'.payload
    rw [hopening] at haccept
    exact ⟨_, _, read_of_delivers hdelivers haccept, ⟨rfl, rfl⟩, rfl, rfl, rfl, rfl⟩

/-- The kernel delivers these bytes from this address, and takes every datagram. -/
def answering (source : Address) (bytes : Buffer) : NetAnswers where
  recvfrom := fun _ => { ret := Int64.ofNat bytes.length, errno := 0, data := bytes, sourceAddress := source }
  sendmsg  := fun _ iovecs => ⟨Int64.ofNat (gathered iovecs).length, 0⟩

theorem delivers_answering (source : Address) {bytes : Buffer} (h : bytes.length ≤ 65536) :
    (answering source bytes).Delivers :=
  ⟨Int64.toInt_ofNat_of_lt (by omega), h⟩

theorem sends_answering (source : Address) (bytes : Buffer) : (answering source bytes).Sends :=
  fun _ _ h => Int64.toInt_ofNat_of_lt (by omega)

/-- The client at `10.0.0.1:5000` of a server on port 80, and a SYN. -/
def client : TCPOverUDPSocketAdapter :=
  { config := { source := ⟨0x0a000001, 5000⟩, destination := ⟨0x0a000002, 80⟩ } }

def synSegment : TCPSegment := { header := { syn := true }, payload := [1, 2] }

theorem fits_synSegment : FitsDatagram synSegment := ⟨by decide, by decide, by decide⟩

theorem length_synBytes : (wireBytes client.config synSegment).length ≤ 65536 := by decide +kernel

/-- A SYN with two bytes of data, to a server that listens. -/
theorem survives_udp_syn :
    ∃ a' bytes out b', write (answering {} []) synSegment client = .ok () a' ∧
      a'.sock.sent = [(⟨0x0a000002, 80⟩, bytes)] ∧
      read (answering ⟨0x0a000001, 5000⟩ bytes) { listening := true } = .ok (some out) b' ∧
      Alike synSegment out ∧ b'.config.destination = ⟨0x0a000001, 5000⟩ := by
  obtain ⟨a', bytes, hwrite, hsent, hread⟩ :=
    survives_udp client { listening := true } synSegment (answering {} []) fits_synSegment (sends_answering _ _)
  have hbytes : bytes = wireBytes client.config synSegment := by
    obtain ⟨a'', hwrite', hsent'⟩ := write_of_sends (sends_answering {} []) client fits_synSegment
    rw [hwrite] at hwrite'
    obtain rfl : a' = a'' := (EStateM.Result.ok.inj hwrite').2
    rw [hsent] at hsent'
    exact (Prod.mk.inj (List.cons.inj hsent').1).2
  have hlength : bytes.length ≤ 65536 := hbytes ▸ length_synBytes
  obtain ⟨out, b', hout, halike, -, -, hpeer, -⟩ := hread (answering ⟨0x0a000001, 5000⟩ bytes)
    (delivers_answering _ hlength) rfl (Or.inr ⟨rfl, rfl, rfl⟩)
  exact ⟨a', bytes, out, b', hwrite, hsent, hout, halike, hpeer⟩

/-- The SYN arrives from port 5000 of a host. -/
def synFrom (host : UInt32) : NetAnswers := answering ⟨host, 5000⟩ (wireBytes client.config synSegment)

theorem delivers_synFrom (host : UInt32) : (synFrom host).Delivers := delivers_answering _ length_synBytes

/-- Something that is not a segment, a SYN, the same SYN from another host, and once more the first. -/
theorem udp_locks_onto_peer_two_hosts :
    ∃ seg a', FdAdapter.reads
        ([answering ⟨0x0a000009, 9⟩ [1]] ++ synFrom 0x0a000001 :: [synFrom 0x0a000003, synFrom 0x0a000001])
        ({ listening := true } : TCPOverUDPSocketAdapter) = .ok [none, some seg, none, some seg] a' ∧
      a'.config.destination = ⟨0x0a000001, 5000⟩ := by
  have hcarried (host : UInt32) : carried (synFrom host).payload = _ := carried_wireBytes client.config fits_synSegment
  have hopening :
      opening (synFrom 0x0a000001).payload = some ((client.config.addressed synSegment).withChecksum 0) := by
    rw [opening, hcarried]
    rfl
  have hdelivers : ∀ net ∈ [answering ⟨0x0a000009, 9⟩ [1]] ++ synFrom 0x0a000001 ::
      [synFrom 0x0a000003, synFrom 0x0a000001], net.Delivers := by
    intro net hnet
    simp only [List.mem_append, List.mem_cons, List.not_mem_nil, or_false] at hnet
    rcases hnet with rfl | rfl | rfl | rfl
    · exact delivers_answering _ (by decide)
    · exact delivers_synFrom _
    · exact delivers_synFrom _
    · exact delivers_synFrom _
  have hwaiting : ∀ net ∈ [answering ⟨0x0a000009, 9⟩ [1]], opening net.payload = none := by
    intro net hnet
    rw [List.mem_singleton] at hnet
    subst hnet
    exact (by decide +kernel : opening [1] = none)
  obtain ⟨a', hreads, hconfig, -⟩ := udp_locks_onto_peer { listening := true } rfl [answering ⟨0x0a000009, 9⟩ [1]]
    [synFrom 0x0a000003, synFrom 0x0a000001] (synFrom 0x0a000001) _ hdelivers hwaiting hopening
  have hlater : [synFrom 0x0a000003, synFrom 0x0a000001].map (fun net =>
      if net.source = (synFrom 0x0a000001).source then carried net.payload else none) =
      [none, some ((client.config.addressed synSegment).withChecksum 0)] := by
    rw [List.map_cons, List.map_singleton, if_neg (by decide), if_pos rfl, hcarried]
  refine ⟨_, a', hreads.trans (congrArg (fun later => EStateM.Result.ok (none :: _ :: later) a') hlater), ?_⟩
  rw [hconfig]
  rfl

/-! ## The adapter as a carrier -/

/-- A segment that is returned was in the payload, and nothing is sent. -/
theorem accept_ok {source : Address} {out : Option TCPSegment} {a' : TCPOverUDPSocketAdapter}
    (h : a.accept source payload = .ok (out, a')) :
    a'.sock = a.sock ∧ ∀ seg, out = some seg → carried payload = some seg := by
  cases hlisten : a.listening with
  | false =>
      rw [accept_of_connected hlisten] at h
      obtain ⟨rfl, rfl⟩ := Prod.mk.inj (Except.ok.inj h)
      refine ⟨rfl, ?_⟩
      intro seg hseg
      split at hseg
      · exact hseg
      · cases hseg
  | true =>
      rw [accept_of_listening hlisten] at h
      cases hopening : opening payload with
      | none =>
          rw [hopening] at h
          obtain ⟨rfl, rfl⟩ := Prod.mk.inj (Except.ok.inj h)
          exact ⟨rfl, fun _ hseg => nomatch hseg⟩
      | some first =>
          rw [hopening] at h
          obtain ⟨rfl, rfl⟩ := Prod.mk.inj (Except.ok.inj h)
          refine ⟨rfl, ?_⟩
          intro seg hseg
          rw [← hseg]
          exact (Option.filter_eq_some_iff.mp hopening).1

/-- **Reading**, whatever the kernel answers. -/
theorem read_ends (net : NetAnswers) (a : TCPOverUDPSocketAdapter) :
    Ends (read net a)
      (fun r a' => a'.sock = a.counted.sock ∧
        ∀ seg, r = some seg → ∃ bytes, (net.recvfrom 65536).toReadResult.Yields bytes ∧ carried bytes = some seg)
      (fun _ a' => a'.sock.sent = a.sock.sent) := by
  have hrecv := Ends.zoom (fun sock (a : TCPOverUDPSocketAdapter) => { a with sock }) a
    (UDPSocket.recv_ends net.recvfrom 65536 a.sock)
  refine (hrecv.mono (fun _ _ h => h) ?_).bind ?_
  · rintro _ _ ⟨sock, rfl, hsent⟩
    exact hsent
  · rintro ⟨source, payload⟩ _ ⟨sock, rfl, rfl, -, hyields⟩
    show Ends (EStateM.bind (throwing (a.counted.accept source payload)) _ a.counted) _ _
    cases haccept : a.counted.accept source payload with
    | error e => exact rfl
    | ok r =>
        obtain ⟨hsock, hcarried⟩ := accept_ok haccept
        exact ⟨hsock, fun seg hseg => ⟨payload, hyields, hcarried seg hseg⟩⟩

/-- What is in a datagram does not make the adapter throw. -/
theorem accept_total (a : TCPOverUDPSocketAdapter) (source : Address) (payload : Buffer) :
    ∃ out a', a.accept source payload = .ok (out, a') := by
  cases hlisten : a.listening with
  | false => exact ⟨_, _, accept_of_connected hlisten source payload⟩
  | true => exact ⟨_, _, accept_of_listening hlisten source payload⟩

theorem read_throws (net : NetAnswers) (a : TCPOverUDPSocketAdapter) :
    Ends (read net a) (fun _ _ => True) (fun e _ => e.ofCall = true) := by
  have hrecv := Ends.zoom_throws (fun sock (a : TCPOverUDPSocketAdapter) => { a with sock }) a
    (UDPSocket.recv_throws net.recvfrom 65536 a.sock)
  refine hrecv.bind ?_
  rintro ⟨source, payload⟩ a' -
  obtain ⟨out, a'', haccept⟩ := a'.accept_total source payload
  show Ends (EStateM.bind (throwing (a'.accept source payload)) _ a') _ _
  rw [haccept]
  exact trivial

theorem write_throws (net : NetAnswers) (a : TCPOverUDPSocketAdapter) (hdoff : 5 ≤ seg.header.doff.toNat) :
    Ends (write net seg a) (fun _ _ => True) (fun e _ => e.ofCall = true) := by
  show Ends (EStateM.bind (throwing ((a.config.addressed seg).serialize 0)) _ a) _ _
  rw [serialize_addressed a.config hdoff]
  show Ends (onSock (UDPSocket.sendto net.sendmsg a.config.destination _) a) _ _
  exact Ends.zoom_throws (fun sock a => { a with sock }) a (UDPSocket.sendto_throws _ _ _ a.sock)

instance : Carrier TCPOverUDPSocketAdapter where
  sent        := fun a => a.sock.sent.map Prod.snd
  arrived     := NetAnswers.payload
  encodes     := fun seg b => ∃ config, b = wireBytes config seg
  decodes     := fun b seg => carried b = some seg
  documented  := fun net => (net.recvfrom 65536).toReadResult.Documented 65536
  read_ends   := by
    intro net a hnet
    refine (read_ends net a).mono ?_ ?_
    · rintro r a' ⟨hsock, hseg⟩
      refine ⟨by rw [hsock]; rfl, ?_⟩
      intro seg hr
      obtain ⟨bytes, hyields, hcarried⟩ := hseg seg hr
      obtain rfl := hnet.data_eq (by decide) hyields
      exact hcarried
    · rintro _ a' hsent
      rw [hsent]
  write_ends  := by
    intro net seg a _ hfits
    refine (write_ends net a hfits.doff_ge).mono ?_ ?_
    · rintro _ a' ⟨hsent, -, -⟩
      exact ⟨[wireBytes a.config seg], by rw [hsent, List.map_append]; rfl, fun b hb =>
        ⟨a.config, List.mem_singleton.mp hb⟩⟩
    · rintro _ a' ⟨hsent, -, -⟩
      exact ⟨[wireBytes a.config seg], by rw [hsent, List.map_append]; rfl, fun b hb =>
        ⟨a.config, List.mem_singleton.mp hb⟩⟩
  codec       := by
    rintro seg b seg' hfits ⟨config, rfl⟩ hdecodes
    rw [carried_wireBytes config hfits] at hdecodes
    obtain rfl := Option.some.inj hdecodes
    exact ⟨rfl, rfl⟩
  sent_setConfig    := fun _ _ => rfl
  sent_setListening := fun _ _ => rfl
  sent_tick         := fun _ _ => rfl
  counts_read       := by
    intro net a
    refine (read_ends net a).mono ?_ fun _ _ _ => trivial
    rintro r a' ⟨hsock, -⟩
    show a'.sock.readCount ≠ a.sock.readCount
    rw [hsock]
    exact a.sock.readCount_registerRead_ne
  read_throws       := read_throws
  write_throws      := fun net _ a hfits => write_throws net a hfits.doff_ge

end TCPOverUDPSocketAdapter

end Sponge
