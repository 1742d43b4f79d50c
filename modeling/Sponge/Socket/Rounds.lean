import Sponge.Connection.Final
import Sponge.Socket

/-!
# `Socket.Rounds` — what the rules of a socket keep

The connection of a socket is at any time what the recorded operations have made of a new one, and these operations
keep to what the connection expects of its owner: nothing is written after the end of the outbound stream
(`Inv.discipline`). The interest of a rule may be out of date when the rule is served, since a datagram may have come
in between. The rule that reads from the owner relies on one thing that stays true, that the outbound stream has not
been ended (`Relies`).

With `D` the kernel keeps to the manual. Then the bytes that it took for the owner are those that were read from the
inbound stream, every datagram that was sent is the encoding of a segment of the connection, and every segment that was
received comes from the datagram that has arrived.
-/

namespace Sponge

open Lib Util TCPConnection TCPSender

/-! ## Segments fit into datagrams -/

theorem FitsDatagram.stamp {seg : TCPSegment} (h : FitsDatagram seg) (r : TCPReceiver) (rst : Bool) :
    FitsDatagram (stamp r rst seg) := by
  unfold TCPConnection.stamp
  cases r.ackno <;> cases rst <;> exact ⟨h.doff_ge, h.doff_le, h.size⟩

theorem FitsDatagram.of_default {seg : TCPSegment} (hdoff : seg.header.doff = 5)
    (hsize : seg.payload.length ≤ TCPConfig.maxPayloadSize) : FitsDatagram seg := by
  have hmax : TCPConfig.maxPayloadSize = 1452 := rfl
  have hfive : (5 : UInt8).toNat = 5 := rfl
  constructor
  · rw [hdoff, hfive]
  · rw [hdoff, hfive]
    omega
  · rw [hdoff, hfive]
    omega

theorem fits_of_firstSent {accepted : List UInt8} {s : TCPSender} (h : SenderInv accepted s) {seg : TCPSegment}
    (hseg : seg ∈ s.firstSent) : FitsDatagram seg := by
  cases hsyn : s.synFlag with
  | false =>
      rw [h.fresh hsyn] at hseg
      cases hseg
  | true =>
      obtain ⟨rest, hrest, hdata⟩ := h.opened hsyn
      rw [hrest] at hseg
      rcases List.mem_cons.mp hseg with rfl | hmem
      · exact FitsDatagram.of_default rfl (Nat.zero_le _)
      · have hd := hdata seg hmem
        exact FitsDatagram.of_default (by rw [hd.header]) hd.bound

/-- The endpoint sends only segments that fit into datagrams. -/
structure Sendable (e : Endpoint) : Prop where
  sender : SenderInv e.accepted e.conn.sender
  fits   : ∀ seg ∈ e.conn.segmentsOut, FitsDatagram seg

theorem Sendable.step {e : Endpoint} (h : Sendable e) (op : Op) : Sendable (e.step op) := by
  obtain ⟨failed, hh⟩ := handled_step e.conn op
  refine ⟨Endpoint.senderInv_step op h.sender, ?_⟩
  intro seg hseg
  rcases hh.out seg hseg with hold | ⟨base, rst, rfl, hmem | rfl⟩
  · exact h.fits seg hold
  · have hsent := (Endpoint.senderInv_after op h.sender).pending base hmem
    exact (fits_of_firstSent (Endpoint.senderInv_after op h.sender) hsent).stamp _ rst
  · exact (FitsDatagram.of_default rfl (Nat.zero_le _)).stamp _ rst

theorem sendable_run (cfg : TCPConfig) (isn : WrappingInt32) (ops : List Op) :
    Sendable (run Endpoint.step (Endpoint.ofConfig cfg isn) ops) :=
  run_invariant ops Sendable ⟨SenderInv.init .., fun _ h => nomatch h⟩ fun _ op h => h.step op

/-! ## The invariant -/

/-- The inbound stream is over: it has ended, or there is an error on it. -/
def InboundOver (c : TCPConnection) : Prop := c.inboundStream.isEof = true ∨ c.inboundStream.error = true

theorem InboundOver.step {c : TCPConnection} (h : InboundOver c) (op : Op) : InboundOver (c.step op) := by
  obtain ⟨failed, hh⟩ := handled_step c op
  have hheard := heard_receiverAfter c op
  refine h.imp (fun hend => hh.streamOut_isEof.trans (hheard.stays hend)) fun herror => ?_
  have herror' : (c.receiverAfter op).streamOut.error = true := hheard.error.trans herror
  exact hh.streamOut_error.trans (by rw [herror', Bool.or_true])

/-- What the manual promises of the calls that are made in a round. -/
structure Round.Documented (α : Type) [Carrier α] (r : Round) : Prop where
  net    : Carrier.documented α r.net
  writev : ∀ k iovecs, (gathered iovecs).length ≤ 65536 → (r.writev k iovecs).Documented (gathered iovecs).length

namespace TCPSpongeSocket

/-- **Where an exception comes from.** In round `r` a call of the adapter, of the socket to the owner or of the owner's
    socket was given the answers of that round and has thrown `e`, and the socket is as it was left then; or `poll` has
    reported an error. -/
inductive Thrown {α : Type} [FdAdapter α] (r : Round) (e : Failure) (s : TCPSpongeSocket α) : Prop where
  | adapterRead : Threw (FdAdapter.read r.net) e s.datagramAdapter → Thrown r e s
  | adapterWrite (seg : TCPSegment) : seg ∈ s.segmentsOut →
      Threw (FdAdapter.write r.net seg) e s.datagramAdapter → Thrown r e s
  | ownerRead : Threw (FDWrapper.read r.read s.tcp.remainingOutboundCapacity) e s.threadData → Thrown r e s
  | ownerWrite : Threw (FDWrapper.write r.writev (BufferViewList.ofString
      (s.tcp.inboundStream.peekOutput (min 65536 s.tcp.inboundStream.bufferSize))) false) e s.threadData → Thrown r e s
  | inboundShutdown : Threw (FDWrapper.shutdown .wr r.shutdown) e s.threadData → Thrown r e s
  | ownerShutdown : Threw (FDWrapper.shutdown .rdwr r.ownerShutdown) e s.toFDWrapper → Thrown r e s
  | poll : e = EventLoop.pollError → EventLoop.Reported r.poll → Thrown r e s

variable {α : Type} [Carrier α]

/-- Such an exception is about a system call, `poll` included. -/
theorem Thrown.ofCall {r : Round} {e : Failure} {s : TCPSpongeSocket α} (h : Thrown r e s)
    (hfits : ∀ seg ∈ s.tcp.segmentsOut, FitsDatagram seg) : e.ofCall = true ∨ e = EventLoop.pollError := by
  cases h with
  | adapterRead hthrew => exact Or.inl (hthrew.of_ends (Carrier.read_throws r.net))
  | adapterWrite seg hseg hthrew =>
      have hseg' := hfits seg (List.mem_of_mem_drop hseg)
      exact Or.inl (hthrew.of_ends fun a => Carrier.write_throws r.net seg a hseg')
  | ownerRead hthrew => exact Or.inl (hthrew.of_ends (FDWrapper.read_throws r.read _))
  | ownerWrite hthrew => exact Or.inl (hthrew.of_ends (FDWrapper.write_throws r.writev _ false))
  | inboundShutdown hthrew => exact Or.inl (hthrew.of_ends (FDWrapper.shutdown_throws .wr r.shutdown))
  | ownerShutdown hthrew => exact Or.inl (hthrew.of_ends (FDWrapper.shutdown_throws .rdwr r.ownerShutdown))
  | poll he _ => exact Or.inr he

/-- So it is none of those by which the event loop and the socket accuse themselves. -/
theorem Thrown.innocent {r : Round} {e : Failure} {s : TCPSpongeSocket α} (h : Thrown r e s)
    (hfits : ∀ seg ∈ s.tcp.segmentsOut, FitsDatagram seg) : e ≠ Rule.busyWait ∧ e ≠ acceptedLess := by
  constructor
  · rintro rfl
    exact absurd (h.ofCall hfits) (by decide)
  · rintro rfl
    exact absurd (h.ofCall hfits) (by decide)

/-- The connection with the history of its streams, from the operations that were called. -/
def endpoint (cfg : TCPConfig) (isn : WrappingInt32) (s : TCPSpongeSocket α) : Endpoint :=
  run Endpoint.step (Endpoint.ofConfig cfg isn) s.ops

/-- What holds during round `r`, before which the operations were `before`. -/
structure Inv (D : Prop) (cfg : TCPConfig) (isn : WrappingInt32) (r : Round) (before : List Op)
    (s : TCPSpongeSocket α) : Prop where
  tcp        : s.tcp = (s.endpoint cfg isn).conn
  accepted   : (s.endpoint cfg isn).accepted = s.threadData.received
  unended    : s.outboundShutdown = false → .endInputStream ∉ s.ops
  discipline : NoWriteAfterEnd s.ops
  popped     : s.popped ≤ s.tcp.segmentsOut.length
  told       : s.inboundShutdown = true → InboundOver s.tcp
  unclosed   : s.threadData.closed = false
  taken      : D → (s.endpoint cfg isn).taken = s.threadData.calls.flatMap WritevCall.taken
  sent       : D → ∀ b ∈ Carrier.sent s.datagramAdapter, ∃ seg ∈ s.tcp.segmentsOut, Carrier.encodes α seg b
  round      : s.round = r
  new        : ∃ new, s.ops = before ++ new ∧
    (D → ∀ seg, .segmentReceived seg ∈ new → Carrier.decodes α (Carrier.arrived α r.net) seg)

/-- What a rule relies on when it is served: if it is to be told of its end, the outbound stream is still open. -/
def Relies (rule : Rule (TCPSpongeSocket α)) (s : TCPSpongeSocket α) : Prop :=
  rule.cancel = pure () ∨ s.outboundShutdown = false

variable {D : Prop} {cfg : TCPConfig} {isn : WrappingInt32} {r : Round} {before : List Op} {s : TCPSpongeSocket α}

/-- **An operation of the connection**, together with what it does to the socket of the owner. -/
theorem Inv.perform (h : Inv D cfg isn r before s) (op : Op) (threadData : FDWrapper) (ended : Bool)
    (hended : ended = false → s.outboundShutdown = false ∧ op ≠ .endInputStream)
    (hwrite : op.isWrite = true → s.outboundShutdown = false)
    (hunclosed : threadData.closed = false)
    (haccepted : ((s.endpoint cfg isn).step op).accepted = threadData.received)
    (htaken : D → ((s.endpoint cfg isn).step op).taken = threadData.calls.flatMap WritevCall.taken)
    (harrived : D → ∀ seg, op = .segmentReceived seg → Carrier.decodes α (Carrier.arrived α r.net) seg) :
    Inv D cfg isn r before
      { s with threadData, tcp := s.tcp.step op, ops := s.ops ++ [op], outboundShutdown := ended } := by
  have hendpoint : run Endpoint.step (Endpoint.ofConfig cfg isn) (s.ops ++ [op]) = (s.endpoint cfg isn).step op :=
    run_append ..
  obtain ⟨failed, hh⟩ := handled_step s.tcp op
  constructor
  case tcp =>
    show s.tcp.step op = (run Endpoint.step (Endpoint.ofConfig cfg isn) (s.ops ++ [op])).conn
    rw [hendpoint, h.tcp]
    rfl
  case accepted =>
    show (run Endpoint.step (Endpoint.ofConfig cfg isn) (s.ops ++ [op])).accepted = _
    rw [hendpoint, haccepted]
  case unended =>
    intro hopen
    obtain ⟨hopen, hop⟩ := hended hopen
    rw [List.mem_append, not_or, List.mem_singleton]
    exact ⟨h.unended hopen, hop.symm⟩
  case discipline =>
    refine List.pairwise_append.mpr ⟨h.discipline, List.pairwise_singleton _ _, ?_⟩
    rintro a ha b hb rfl
    obtain rfl := List.mem_singleton.mp hb
    by_contra hop
    exact h.unended (hwrite (by simpa using hop)) ha
  case popped => exact h.popped.trans hh.kept.length_le
  case told => exact fun htold => (h.told htold).step op
  case unclosed => exact hunclosed
  case taken =>
    intro hD
    show (run Endpoint.step (Endpoint.ofConfig cfg isn) (s.ops ++ [op])).taken = _
    rw [hendpoint, htaken hD]
  case sent =>
    intro hD b hb
    obtain ⟨seg, hseg, hencodes⟩ := h.sent hD b hb
    exact ⟨seg, hh.kept.subset hseg, hencodes⟩
  case round => exact h.round
  case new =>
    obtain ⟨new, hops, hnew⟩ := h.new
    refine ⟨new ++ [op], by rw [hops, List.append_assoc], ?_⟩
    intro hD seg hseg
    rcases List.mem_append.mp hseg with hold | hlast
    · exact hnew hD seg hold
    · exact harrived hD seg (List.mem_singleton.mp hlast).symm

/-- Of the segments only those are sent that fit into datagrams. -/
theorem Inv.fits (h : Inv D cfg isn r before s) : ∀ seg ∈ s.tcp.segmentsOut, FitsDatagram seg := by
  rw [h.tcp]
  exact (sendable_run cfg isn s.ops).fits

/-! ## The callbacks -/

/-- What a call of the adapter's `read` does. -/
theorem read_spec (hdoc : D → Carrier.documented α r.net) (a : α) :
    Ends (FdAdapter.read r.net a)
      (fun seg a' => (FdAdapter.fd a').readCount ≠ (FdAdapter.fd a).readCount ∧
        (D → Carrier.sent a' = Carrier.sent a ∧
          ∀ seg', seg = some seg' → Carrier.decodes α (Carrier.arrived α r.net) seg'))
      (fun e a' => Threw (FdAdapter.read r.net) e a' ∧ (D → Carrier.sent a' = Carrier.sent a)) := by
  have hcount := Carrier.counts_read r.net a
  have hread (hD : D) := Carrier.read_ends r.net a (hdoc hD)
  cases hres : FdAdapter.read r.net a with
  | ok seg a' =>
      rw [hres] at hcount hread
      exact ⟨hcount, hread⟩
  | error e a' =>
      rw [hres] at hread
      exact ⟨⟨a, hres⟩, hread⟩

omit [Carrier α] in
theorem noteFullyAcked_frame (s : TCPSpongeSocket α) :
    s.noteFullyAcked = { s with fullyAcked := s.noteFullyAcked.fullyAcked } := by
  unfold noteFullyAcked
  split <;> rfl

theorem Inv.noteFullyAcked (h : Inv D cfg isn r before s) : Inv D cfg isn r before s.noteFullyAcked := by
  rw [noteFullyAcked_frame]
  exact { h with }

/-- **Rule 1.** -/
theorem receiveDatagram_ends (hdoc : D → r.Documented α) (h : Inv D cfg isn r before s) :
    Ends (receiveDatagram s)
      (fun _ s' => Inv D cfg isn r before s' ∧ s'.outboundShutdown = s.outboundShutdown ∧
        (FdAdapter.fd s'.datagramAdapter).readCount ≠ (FdAdapter.fd s.datagramAdapter).readCount)
      (fun e s' => Inv D cfg isn r before s' ∧ Thrown r e s') := by
  have hread := Ends.zoom (fun datagramAdapter (s : TCPSpongeSocket α) => { s with datagramAdapter }) s
    (read_spec (fun hD => (hdoc hD).net) s.datagramAdapter)
  -- the adapter has read, and has not sent anything
  have hafter {a : α} (hsent : D → Carrier.sent a = Carrier.sent s.datagramAdapter) :
      Inv D cfg isn r before { s with datagramAdapter := a } :=
    { h with sent := fun hD => (hsent hD).symm ▸ h.sent hD }
  show Ends ((onAdapter (FdAdapter.read s.round.net) >>= _) s) _ _
  rw [h.round]
  refine (hread.mono (fun _ _ h => h) ?_).bind ?_
  · rintro e _ ⟨a, rfl, hthrew, hsent⟩
    exact ⟨hafter hsent, .adapterRead hthrew⟩
  · rintro seg _ ⟨a, rfl, hcount, hsent⟩
    have hI := hafter fun hD => (hsent hD).1
    cases seg with
    | none =>
        refine ⟨hI.noteFullyAcked, ?_, ?_⟩
        · rw [noteFullyAcked_frame]
        · rw [noteFullyAcked_frame]
          exact hcount
    | some seg =>
        have hperform := hI.perform (.segmentReceived seg) s.threadData s.outboundShutdown
          (fun hopen => ⟨hopen, fun hop => nomatch hop⟩) (fun hop => nomatch hop) h.unclosed h.accepted h.taken ?_
        · refine ⟨hperform.noteFullyAcked, ?_, ?_⟩
          · rw [noteFullyAcked_frame]
          · rw [noteFullyAcked_frame]
            exact hcount
        · intro hD seg' hop
          exact (hsent hD).2 seg' (congrArg some (Op.segmentReceived.inj hop))

/-- The end of the outbound stream, which may be reported twice: at the end of what the owner writes, and when the rule
    is cancelled. -/
theorem endOutbound_ends (h : Inv D cfg isn r before s) :
    Ends (endOutbound s) (fun _ s' => Inv D cfg isn r before s' ∧ s'.threadData = s.threadData)
      (fun e s' => Inv D cfg isn r before s' ∧ Thrown r e s') :=
  ⟨h.perform .endInputStream s.threadData true (fun hend => nomatch hend) (fun hop => nomatch hop) h.unclosed h.accepted
    h.taken (fun _ _ hop => nomatch hop), rfl⟩

/-- No more is read from the owner than the outbound stream has room for. -/
theorem write_all {c : TCPConnection} {data : List UInt8} (hlen : data.length ≤ c.remainingOutboundCapacity) :
    (c.write data).2 = data.length := by
  show c.sender.stream.writeLen data.length = data.length
  rw [ByteStream.writeLen_eq_min]
  exact Nat.min_eq_left hlen

/-- **Rule 2.** The check after the write never fails. -/
theorem readOutbound_ends (h : Inv D cfg isn r before s) (hopen : s.outboundShutdown = false) :
    Ends (readOutbound s)
      (fun _ s' => Inv D cfg isn r before s' ∧ s'.threadData.readCount ≠ s.threadData.readCount)
      (fun e s' => Inv D cfg isn r before s' ∧ Thrown r e s') := by
  have hread := Ends.zoom (fun threadData (s : TCPSpongeSocket α) => { s with threadData }) s
    ((FDWrapper.read_ends r.read s.tcp.remainingOutboundCapacity s.threadData).and_self)
  show Ends ((onThreadData (FDWrapper.read s.round.read s.tcp.remainingOutboundCapacity) >>= _) s) _ _
  rw [h.round]
  refine (hread.mono (fun _ _ h => h) ?_).bind ?_
  · rintro e _ ⟨fd, rfl, rfl, hres⟩
    exact ⟨h, .ownerRead ⟨_, hres⟩⟩
  · rintro data _ ⟨fd, rfl, ⟨hlen, -, rfl⟩, -⟩
    have hall := write_all hlen
    have hwritten : Inv D cfg isn r before { s with
        threadData := { s.threadData.registerRead with
          eof := s.threadData.eof || (decide (0 < s.tcp.remainingOutboundCapacity) && data.isEmpty)
          received := s.threadData.received ++ data }
        tcp := s.tcp.step (.write data)
        ops := s.ops ++ [.write data]
        outboundShutdown := s.outboundShutdown } := by
      refine h.perform (.write data) _ _ (fun _ => ⟨hopen, fun hop => nomatch hop⟩) (fun _ => hopen) h.unclosed ?_
        h.taken fun _ _ hop => nomatch hop
      show (s.endpoint cfg isn).accepted ++ data.take ((s.endpoint cfg isn).conn.write data).2 =
        s.threadData.received ++ data
      rw [← h.tcp, hall, List.take_length, h.accepted]
    show Ends ((if (s.tcp.write data).2 != data.length then _ else _ : EStateM Failure (TCPSpongeSocket α) Unit) _) _ _
    rw [hall, bne_self_eq_false, if_neg Bool.false_ne_true]
    show Ends ((if _ then _ else _ : EStateM Failure (TCPSpongeSocket α) Unit) _) _ _
    split
    · refine (endOutbound_ends hwritten).mono ?_ (fun _ _ h => h)
      rintro _ s' ⟨hI, hfd⟩
      rw [hfd]
      exact ⟨hI, s.threadData.readCount_registerRead_ne⟩
    · exact ⟨hwritten, s.threadData.readCount_registerRead_ne⟩

/-- Removing what was written is reading it from the inbound stream. -/
theorem setInbound_popOutput {c : TCPConnection} {n : Nat} (h : n ≤ c.inboundStream.buf.length) :
    c.setInbound (c.inboundStream.popOutput n) = c.step (.readInbound n) := by
  have hread : (c.inboundStream.read n).2 = c.inboundStream.popOutput n := by
    simp only [ByteStream.read, if_neg (Nat.not_lt.mpr h)]
  rw [← hread]
  rfl

/-- The state after `n` bytes were handed to the kernel and removed from the inbound stream. -/
theorem Inv.handedOver (h : Inv D cfg isn r before s) {c : WritevCall} {n : Nat} (count : UInt32)
    (hn : n ≤ s.tcp.inboundStream.buf.length) (htaken : D → c.taken = s.tcp.inboundStream.buf.take n) :
    Inv D cfg isn r before { s with
      threadData := { s.threadData with writeCount := count, calls := s.threadData.calls ++ [c] }
      tcp := s.tcp.setInbound (s.tcp.inboundStream.popOutput n)
      ops := s.ops ++ [.readInbound n] } := by
  have hperform := h.perform (.readInbound n)
    { s.threadData with writeCount := count, calls := s.threadData.calls ++ [c] } s.outboundShutdown
    (fun hopen => ⟨hopen, fun hop => nomatch hop⟩) (fun hop => nomatch hop) h.unclosed h.accepted ?_
    (fun _ _ hop => nomatch hop)
  · rwa [setInbound_popOutput hn]
  · intro hD
    show (s.endpoint cfg isn).taken ++ ((s.endpoint cfg isn).conn.readInbound n).1 =
      (s.threadData.calls ++ [c]).flatMap WritevCall.taken
    rw [List.flatMap_append, List.flatMap_singleton, h.taken hD, htaken hD, ← h.tcp]
    exact congrArg _ (ByteStream.read_fst _ _)

/-- A write to the owner that failed has taken nothing. -/
theorem Inv.notHandedOver (h : Inv D cfg isn r before s) {c : WritevCall} (count : UInt32)
    (htaken : D → c.taken = []) :
    Inv D cfg isn r before { s with
      threadData := { s.threadData with writeCount := count, calls := s.threadData.calls ++ [c] } } := by
  refine { h with taken := ?_ }
  intro hD
  show _ = (s.threadData.calls ++ [c]).flatMap WritevCall.taken
  rw [List.flatMap_append, List.flatMap_singleton, htaken hD, List.append_nil]
  exact h.taken hD

/-- The owner is told of the end only once there is one. -/
theorem endInbound_ends (h : Inv D cfg isn r before s) (hend : InboundOver s.tcp) :
    Ends (endInbound r.shutdown s)
      (fun _ s' => Inv D cfg isn r before s' ∧ s'.threadData.writeCount = s.threadData.writeCount + 1)
      (fun e s' => Inv D cfg isn r before s' ∧ Thrown r e s') := by
  have hshutdown := Ends.zoom (fun threadData (s : TCPSpongeSocket α) => { s with threadData }) s
    (FDWrapper.shutdown_wr_ends r.shutdown s.threadData).and_self
  refine (hshutdown.mono (fun _ _ h => h) ?_).bind ?_
  · rintro e _ ⟨fd, rfl, rfl, hres⟩
    exact ⟨h, .inboundShutdown ⟨_, hres⟩⟩
  · rintro _ _ ⟨fd, rfl, rfl, -⟩
    exact ⟨{ h with told := fun _ => hend }, rfl⟩

/-- **Rule 3.** -/
theorem writeInbound_ends (hdoc : D → r.Documented α) (h : Inv D cfg isn r before s) :
    Ends (writeInbound s)
      (fun _ s' => Inv D cfg isn r before s' ∧ s'.threadData.writeCount ≠ s.threadData.writeCount)
      (fun e s' => Inv D cfg isn r before s' ∧ Thrown r e s') := by
  have hfront := FDWrapper.write_front_ends (D := D) (by decide : 65536 < 2 ^ 31) (fun hD => (hdoc hD).writev)
    s.tcp.inboundStream.buf s.threadData
  have hwrite := Ends.zoom (fun threadData (s : TCPSpongeSocket α) => { s with threadData }) s hfront.and_self
  show Ends ((onThreadData (FDWrapper.write s.round.writev (BufferViewList.ofString
    (s.tcp.inboundStream.buf.take (min 65536 s.tcp.inboundStream.buf.length))) false) >>= _) s) _ _
  rw [h.round]
  refine (hwrite.mono (fun _ _ h => h) ?_).bind ?_
  · rintro e _ ⟨fd, rfl, ⟨c, count, rfl, htaken⟩, hres⟩
    exact ⟨h.notHandedOver count htaken, .ownerWrite ⟨_, hres⟩⟩
  · rintro n _ ⟨fd, rfl, ⟨hn, c, rfl, htaken⟩, -⟩
    have hI := h.handedOver (s.threadData.writeCount + 1) hn htaken
    show Ends ((if _ then _ else _ : EStateM Failure (TCPSpongeSocket α) Unit) _) _ _
    split
    · next hend =>
        rw [Bool.or_eq_true, ByteStream.eof_iff] at hend
        refine (endInbound_ends hI (hend.imp And.left id)).mono ?_ (fun _ _ h => h)
        rintro _ s' ⟨hI', hcount⟩
        refine ⟨hI', ?_⟩
        rw [hcount]
        simp [add_assoc]
    · exact ⟨hI, by simp⟩

/-- What a call of the adapter's `write` does with a segment that fits. -/
theorem write_spec (hdoc : D → Carrier.documented α r.net) {seg : TCPSegment} (hfits : FitsDatagram seg) (a : α) :
    Ends (FdAdapter.write r.net seg a)
      (fun _ a' => D → ∃ new, Carrier.sent a' = Carrier.sent a ++ new ∧ ∀ b ∈ new, Carrier.encodes α seg b)
      (fun e a' => Threw (FdAdapter.write r.net seg) e a' ∧
        (D → ∃ new, Carrier.sent a' = Carrier.sent a ++ new ∧ ∀ b ∈ new, Carrier.encodes α seg b)) := by
  have hwrite (hD : D) := Carrier.write_ends r.net seg a (hdoc hD) hfits
  cases hres : FdAdapter.write r.net seg a with
  | ok u a' =>
      rw [hres] at hwrite
      exact hwrite
  | error e a' =>
      rw [hres] at hwrite
      exact ⟨⟨a, hres⟩, hwrite⟩

/-- The loop of rule 4: it ends with nothing left to send. -/
theorem writeSegments_ends (hdoc : D → r.Documented α) (segs : List TCPSegment) (h : Inv D cfg isn r before s)
    (hsegs : s.segmentsOut = segs) :
    Ends (writeSegments segs s)
      (fun _ s' => Inv D cfg isn r before s' ∧ s'.segmentsOut = [])
      (fun e s' => Inv D cfg isn r before s' ∧ Thrown r e s') := by
  induction segs generalizing s with
  | nil => exact ⟨h, hsegs⟩
  | cons seg rest ih =>
      have hwaits : seg ∈ s.segmentsOut := by
        rw [hsegs]
        exact List.mem_cons_self
      have hmem : seg ∈ s.tcp.segmentsOut := List.mem_of_mem_drop hwaits
      have hafter {a : α} (hsent : D → ∃ new, Carrier.sent a = Carrier.sent s.datagramAdapter ++ new ∧
          ∀ b ∈ new, Carrier.encodes α seg b) : Inv D cfg isn r before { s with datagramAdapter := a } := by
        refine { h with sent := ?_ }
        intro hD b hb
        obtain ⟨new, heq, hnew⟩ := hsent hD
        rw [heq] at hb
        rcases List.mem_append.mp hb with hold | hlast
        · exact h.sent hD b hold
        · exact ⟨seg, hmem, hnew b hlast⟩
      have hwrite := Ends.zoom (fun datagramAdapter (s : TCPSpongeSocket α) => { s with datagramAdapter }) s
        (write_spec (fun hD => (hdoc hD).net) (h.fits seg hmem) s.datagramAdapter)
      show Ends ((onAdapter (FdAdapter.write s.round.net seg) >>= _) s) _ _
      rw [h.round]
      refine (hwrite.mono (fun _ _ h => h) ?_).bind ?_
      · rintro e _ ⟨a, rfl, hthrew, hsent⟩
        exact ⟨hafter hsent, .adapterWrite seg hwaits hthrew⟩
      · rintro _ _ ⟨a, rfl, hsent⟩
        have hI := hafter hsent
        have hlt : s.popped < s.tcp.segmentsOut.length := by
          have hlen := congrArg List.length hsegs
          rw [segmentsOut, List.length_drop, List.length_cons] at hlen
          omega
        refine ih { hI with popped := hlt } ?_
        show s.tcp.segmentsOut.drop (s.popped + 1) = rest
        rw [← List.tail_drop]
        exact congrArg List.tail hsegs

/-- **Rule 4.** -/
theorem sendDatagrams_ends (hdoc : D → r.Documented α) (h : Inv D cfg isn r before s) :
    Ends (sendDatagrams s) (fun _ s' => Inv D cfg isn r before s' ∧ s'.segmentsOut = [])
      (fun e s' => Inv D cfg isn r before s' ∧ Thrown r e s') :=
  writeSegments_ends hdoc s.segmentsOut h rfl

/-! ## The rules -/

omit [Carrier α] in
/-- The rule for the bytes of the owner does something when it is cancelled. -/
theorem cancel_ownerIn_ne (s : TCPSpongeSocket α) : (ownerIn : Rule (TCPSpongeSocket α)).cancel ≠ pure () := by
  intro h
  have hops : (s.ops ++ [Op.endInputStream]).length = s.ops.length := by
    have hrun := congrFun h s
    injection hrun with _ hstate
    exact congrArg (fun s => s.ops.length) hstate
  simp at hops

/-- Nothing is asked of a rule only because it is there, or because it is there no more. -/
def Anything (_ : Rule (TCPSpongeSocket α)) (_ : TCPSpongeSocket α) : Prop := True

omit [Carrier α] in
/-- A rule that is not told of its end gets in nobody's way, and nobody in its. -/
theorem apart_of_pure {I : TCPSpongeSocket α → Prop} {rule later : Rule (TCPSpongeSocket α)}
    (h : later.cancel = pure ()) : EventLoop.Apart I Anything Relies rule later where
  served   := ⟨fun _ _ _ _ _ => trivial, fun _ _ _ _ _ => Or.inl h⟩
  before   := fun _ _ _ _ _ => trivial
  canceled := ⟨fun _ _ _ _ _ => trivial, fun _ _ _ _ _ => Or.inl h⟩
  cancels  := by
    refine ⟨fun _ _ _ _ _ => trivial, ?_⟩
    rintro s s' - hrelies hrun
    rw [h] at hrun
    injection hrun with _ hstate
    exact hstate ▸ hrelies

/-- A datagram does not end the outbound stream. -/
theorem apart_datagramIn_ownerIn (hdoc : D → r.Documented α) :
    EventLoop.Apart (Inv D cfg isn r before) Anything Relies (datagramIn : Rule (TCPSpongeSocket α)) ownerIn := by
  refine ⟨⟨fun _ _ _ _ _ => trivial, ?_⟩, fun _ _ _ _ _ => trivial, ⟨fun _ _ _ _ _ => trivial, ?_⟩,
    fun _ _ _ _ _ => trivial, fun _ _ _ _ _ => Or.inl rfl⟩
  · intro s s' hI hrelies hrun
    have hends := (receiveDatagram_ends hdoc hI).of_ok hrun
    exact hrelies.imp id fun hopen => hends.2.1.trans hopen
  · rintro s s' - hrelies hrun
    injection hrun with _ hstate
    exact hstate ▸ hrelies

/-- **The rules of a socket keep its invariant**, and what they throw comes from a call in this round. -/
theorem keeps_rules (hdoc : D → r.Documented α) :
    EventLoop.Keeps (Inv (α := α) D cfg isn r before) Anything Relies Anything
      (fun e s => Inv D cfg isn r before s ∧ Thrown r e s) rules where
  interest := by
    intro rule hrule s _ _ _ hinterest
    simp only [rules, List.mem_cons, List.not_mem_nil, or_false] at hrule
    rcases hrule with rfl | rfl | rfl | rfl
    · exact Or.inl rfl
    · simp only [ownerIn, Bool.and_eq_true, Bool.not_eq_true'] at hinterest
      exact Or.inr hinterest.1.2
    · exact Or.inl rfl
    · exact Or.inl rfl
  callback := by
    intro rule hrule s hI _ hrelies
    simp only [rules, List.mem_cons, List.not_mem_nil, or_false] at hrule
    rcases hrule with rfl | rfl | rfl | rfl
    · exact (receiveDatagram_ends hdoc hI).mono (fun _ _ h => ⟨h.1, trivial, Or.inl h.2.2⟩) fun _ _ h => h
    · rcases hrelies with hpure | hopen
      · exact absurd hpure (cancel_ownerIn_ne s)
      · exact (readOutbound_ends hI hopen).mono (fun _ _ h => ⟨h.1, trivial, Or.inl h.2⟩) fun _ _ h => h
    · exact (writeInbound_ends hdoc hI).mono (fun _ _ h => ⟨h.1, trivial, Or.inl h.2⟩) fun _ _ h => h
    · refine (sendDatagrams_ends hdoc hI).mono (fun _ s' h => ⟨h.1, trivial, Or.inr ?_⟩) fun _ _ h => h
      simp only [datagramOut, h.2, List.isEmpty_nil, Bool.not_true]
  cancel := by
    intro rule hrule s hI
    simp only [rules, List.mem_cons, List.not_mem_nil, or_false] at hrule
    rcases hrule with rfl | rfl | rfl | rfl
    · exact ⟨hI, trivial⟩
    · exact (endOutbound_ends hI).mono (fun _ _ h => ⟨h.1, trivial⟩) fun _ _ h => h
    · exact ⟨hI, trivial⟩
    · exact ⟨hI, trivial⟩
  gone := fun _ _ _ _ => ⟨fun _ _ _ _ _ => trivial, fun _ _ _ _ _ => trivial⟩
  apart := by
    refine List.pairwise_cons.mpr ⟨?_, List.pairwise_cons.mpr ⟨?_, List.pairwise_pair.mpr (apart_of_pure rfl)⟩⟩
    · intro later hlater
      simp only [List.mem_cons, List.not_mem_nil, or_false] at hlater
      rcases hlater with rfl | rfl | rfl
      · exact apart_datagramIn_ownerIn hdoc
      · exact apart_of_pure rfl
      · exact apart_of_pure rfl
    · intro later hlater
      simp only [List.mem_cons, List.not_mem_nil, or_false] at hlater
      rcases hlater with rfl | rfl
      · exact apart_of_pure rfl
      · exact apart_of_pure rfl

/-! ## A round -/

/-- A new round begins. -/
theorem Inv.begin {r' : Round} (h : Inv D cfg isn r before s) : Inv D cfg isn r' s.ops { s with round := r' } :=
  { h with
    round := rfl
    new   := ⟨[], (List.append_nil _).symm, fun _ _ hmem => nomatch hmem⟩ }

/-- **A round of the loop** keeps the invariant and at most loses rules. -/
theorem tcpRound_ends {r' : Round} (hdoc : D → r'.Documented α) (h : Inv D cfg isn r before s)
    {loop : EventLoop (TCPSpongeSocket α)} (hloop : loop.rules.Sublist rules) (baseTime : Nat) :
    Ends (tcpRound r' loop baseTime s)
      (fun out s' => Inv D cfg isn r' s.ops s' ∧ out.2.1.rules.Sublist rules)
      (fun e s' => Inv D cfg isn r' s.ops s' ∧ Thrown r' e s') := by
  have hkeeps : EventLoop.Keeps (Inv D cfg isn r' s.ops) Anything Relies Anything
      (fun e s' => Inv D cfg isn r' s.ops s' ∧ Thrown r' e s') loop.rules := (keeps_rules hdoc).sublist hloop
  show Ends ((EventLoop.waitNextEvent r'.poll loop >>= _) { s with round := r' }) _ _
  have hwait := EventLoop.waitNextEvent_keeps r'.poll hkeeps h.begin fun _ _ => trivial
  refine (hwait.mono (fun _ _ h => h) ?_).bind ?_
  · rintro e s' (hthrown | ⟨hI, he, hreported⟩)
    · exact hthrown
    · exact ⟨hI, .poll he hreported⟩
  rintro ⟨ret, loop'⟩ s' ⟨hI, hsub, -, -⟩
  have hsub' := hsub.trans hloop
  show Ends ((if _ then _ else _ : EStateM Failure (TCPSpongeSocket α) _) s') _ _
  split
  · exact ⟨hI, hsub'⟩
  · show Ends ((if s'.tcp.active then _ else _ : EStateM Failure (TCPSpongeSocket α) _) s') _ _
    split
    · have hticked := hI.perform (.tick (usub 64 r'.timestamp baseTime)) s'.threadData s'.outboundShutdown
        (fun hopen => ⟨hopen, fun hop => nomatch hop⟩) (fun hop => nomatch hop) hI.unclosed hI.accepted hI.taken
        (fun _ _ hop => nomatch hop)
      refine ⟨{ hticked with sent := ?_ }, hsub'⟩
      intro hD b hb
      rw [Carrier.sent_tick] at hb
      exact hticked.sent hD b hb
    · exact ⟨hI, hsub'⟩

end TCPSpongeSocket

/-! ## Threads -/

namespace Thread

open TCPSpongeSocket

variable {α : Type} [Carrier α]

/-- What holds of a thread after any number of rounds. -/
structure Inv (D : Prop) (cfg : TCPConfig) (isn : WrappingInt32) (t : Thread α) : Prop where
  socket : ∃ r before, TCPSpongeSocket.Inv D cfg isn r before t.socket
  rules  : t.loop.rules.Sublist rules

/-- The operations that a round adds; the segments among them come from the datagram that has arrived. -/
def Extends (D : Prop) (r : Round) (t t' : Thread α) : Prop :=
  ∃ new, t'.socket.ops = t.socket.ops ++ new ∧
    (D → ∀ seg, .segmentReceived seg ∈ new → Carrier.decodes α (Carrier.arrived α r.net) seg)

variable {D : Prop} {cfg : TCPConfig} {isn : WrappingInt32} {t : Thread α}

theorem Extends.refl (D : Prop) (r : Round) (t : Thread α) : Extends D r t t :=
  ⟨[], (List.append_nil _).symm, fun _ _ h => nomatch h⟩

/-- Leaving a loop does not touch what the thread works on. -/
theorem Inv.leave (h : Inv D cfg isn t) (r : Round) :
    Inv D cfg isn (t.leave r) ∧ (t.leave r).socket.ops = t.socket.ops := by
  obtain ⟨r₀, before, hI⟩ := h.socket
  have hsocket (fd : FDWrapper) : ∃ r before,
      TCPSpongeSocket.Inv D cfg isn r before { t.socket with toFDWrapper := fd } :=
    ⟨r₀, before, { hI with }⟩
  unfold Thread.leave
  cases hstage : t.stage with
  | connecting | listening => exact ⟨⟨h.socket, h.rules⟩, rfl⟩
  | main =>
      dsimp only
      cases FDWrapper.shutdown .rdwr r.ownerShutdown t.socket.toFDWrapper with
      | ok u fd => exact ⟨⟨hsocket fd, h.rules⟩, rfl⟩
      | error e fd => exact ⟨⟨hsocket fd, h.rules⟩, rfl⟩
  | done | failed e => exact ⟨h, rfl⟩

/-- What is thrown on the way out. -/
theorem thrown_of_leave (r : Round) (hrunning : ∀ e, t.stage ≠ .failed e) {e : Failure}
    (hfailed : (t.leave r).stage = .failed e) : Thrown r e (t.leave r).socket := by
  unfold Thread.leave at hfailed ⊢
  cases hstage : t.stage with
  | connecting | listening =>
      rw [hstage] at hfailed
      cases hfailed
  | main =>
      rw [hstage] at hfailed
      dsimp only at hfailed ⊢
      cases hshutdown : FDWrapper.shutdown .rdwr r.ownerShutdown t.socket.toFDWrapper with
      | ok u fd =>
          rw [hshutdown] at hfailed
          cases hfailed
      | error e' fd =>
          rw [hshutdown] at hfailed
          obtain rfl := Stage.failed.inj hfailed
          exact .ownerShutdown ⟨_, hshutdown⟩
  | done =>
      rw [hstage] at hfailed
      exact absurd (hstage.symm.trans hfailed) (fun h => nomatch h)
  | failed e' => exact absurd hstage (hrunning e')

/-- **A round of a thread.** -/
theorem Inv.advance (h : Inv D cfg isn t) {r : Round} (hdoc : D → r.Documented α) :
    Inv D cfg isn (t.advance r) ∧ Extends D r t (t.advance r) := by
  obtain ⟨r₀, before, hI⟩ := h.socket
  have hround := tcpRound_ends hdoc hI h.rules t.baseTime
  unfold Thread.advance
  split
  · cases hres : tcpRound r t.loop t.baseTime t.socket with
      | ok out socket =>
          obtain ⟨finished, loop, baseTime⟩ := out
          rw [hres] at hround
          have hnext : Inv D cfg isn { t with socket, loop, baseTime } := ⟨⟨r, _, hround.1⟩, hround.2⟩
          cases finished with
          | false => exact ⟨hnext, hround.1.new⟩
          | true =>
              obtain ⟨hleft, hops⟩ := hnext.leave r
              refine ⟨hleft, ?_⟩
              rw [Extends, hops]
              exact hround.1.new
      | error e socket =>
          rw [hres] at hround
          exact ⟨⟨⟨r, _, hround.1⟩, h.rules⟩, hround.1.new⟩
  · obtain ⟨hleft, hops⟩ := h.leave r
    refine ⟨hleft, ?_⟩
    rw [Extends, hops]
    exact Extends.refl D r t

/-- **A thread that fails in a round** does so by an exception from a call in this round. -/
theorem Inv.thrown (h : Inv D cfg isn t) {r : Round} (hdoc : D → r.Documented α) (hrunning : ∀ e, t.stage ≠ .failed e)
    {e : Failure} (hfailed : (t.advance r).stage = .failed e) : Thrown r e (t.advance r).socket := by
  obtain ⟨r₀, before, hI⟩ := h.socket
  have hround := tcpRound_ends hdoc hI h.rules t.baseTime
  unfold Thread.advance at hfailed ⊢
  split at hfailed
  · next hcontinues =>
      rw [if_pos hcontinues]
      cases hres : tcpRound r t.loop t.baseTime t.socket with
      | ok out socket =>
          obtain ⟨finished, loop, baseTime⟩ := out
          rw [hres] at hfailed
          cases finished with
          | false => exact absurd hfailed (hrunning e)
          | true => exact thrown_of_leave (t := { t with socket, loop, baseTime }) r hrunning hfailed
      | error e' socket =>
          rw [hres] at hround hfailed
          obtain rfl := Stage.failed.inj hfailed
          exact hround.2
  · next hcontinues =>
      rw [if_neg hcontinues]
      exact thrown_of_leave r hrunning hfailed

end Thread

end Sponge
