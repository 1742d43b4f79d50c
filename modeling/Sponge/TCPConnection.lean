import Sponge.TCPState

/-!
# `TCPConnection` — a complete endpoint

A connection drives a sender and a receiver: it hands arriving segments to both, stamps the receiver's
acknowledgment and window on everything that goes out (`sendseg`), and decides when it is over
(`cleanShutdown`).

`segmentsOut` is the outbound queue. The owner takes segments out of it; no function of the connection looks
at it, so here it simply keeps everything that was ever put in.
-/

namespace Sponge

open Lib

structure TCPConnection where
  cfg                          : TCPConfig
  receiver                     : TCPReceiver
  sender                       : TCPSender
  segmentsOut                  : List TCPSegment
  lingerAfterStreamsFinish     : Bool
  timeSinceLastSegmentReceived : Nat
  active                       : Bool
  rstSet                       : Bool
  finAckSent                   : Bool
  closedByApp                  : Bool
  synSet                       : Bool
  recFinSeqno                  : Option WrappingInt32
deriving DecidableEq

namespace TCPConnection

/-- A new connection from a configuration; `randomIsn` is used where no ISN is fixed. -/
def ofConfig (cfg : TCPConfig) (randomIsn : WrappingInt32) : TCPConnection :=
  { cfg
    receiver := TCPReceiver.ofCapacity cfg.recvCapacity
    sender := TCPSender.ofConfig cfg.sendCapacity cfg.rtTimeout (cfg.fixedIsn.getD randomIsn)
    segmentsOut := []
    lingerAfterStreamsFinish := true
    timeSinceLastSegmentReceived := 0
    active := true
    rstSet := false
    finAckSent := false
    closedByApp := false
    synSet := false
    recFinSeqno := none }

/-! ## Accessors -/

def inboundStream (c : TCPConnection) : ByteStream := c.receiver.streamOut
def remainingOutboundCapacity (c : TCPConnection) : Nat := c.sender.stream.remainingCapacity
def bytesInFlight (c : TCPConnection) : Nat := c.sender.bytesInFlight
def unassembledBytes (c : TCPConnection) : Nat := c.receiver.unassembledBytes

def state (c : TCPConnection) : TCPState :=
  TCPState.ofParts c.sender c.receiver c.active c.lingerAfterStreamsFinish

/-! ## Sending and shutting down -/

/-- The end of both streams: no lingering if the inbound one ended first, and no longer active once
    everything is received, sent and acknowledged and the time to linger is over. -/
def cleanShutdown (c : TCPConnection) : TCPConnection :=
  let c :=
    if c.receiver.streamOut.inputEnded && !c.sender.stream.eof then
      { c with lingerAfterStreamsFinish := false }
    else c
  if c.receiver.unassembledBytes = 0 ∧ c.receiver.streamOut.inputEnded ∧
      c.sender.stream.inputEnded ∧ c.sender.segmentsOut.isEmpty ∧ c.sender.bytesInFlight = 0 ∧
      (c.timeSinceLastSegmentReceived ≥ 10 * c.cfg.rtTimeout.toNat ∨
        c.lingerAfterStreamsFinish = false) then
    { c with active := false }
  else c

/-- The header fields a segment gets on its way out. -/
def stamp (receiver : TCPReceiver) (rstSet : Bool) (seg : TCPSegment) : TCPSegment :=
  let seg :=
    match receiver.ackno with
    | none => seg
    | some ackno =>
      { seg with
        header := { seg.header with ackno, ack := true, win := UInt16.ofNat receiver.windowSize } }
  if rstSet then { seg with header := { seg.header with rst := true } } else seg

/-- The acknowledgment that goes out lies past the FIN that was received, compared as raw values. -/
def acksFin (receiver : TCPReceiver) (recFinSeqno : Option WrappingInt32) : Bool :=
  match receiver.ackno, recFinSeqno with
  | some ackno, some fin => decide (ackno.rawValue > fin.rawValue)
  | _, _                 => false

/-- The body of the loop of `sendseg`, for a segment already taken from the sender's queue. -/
def sendOne (c : TCPConnection) (seg : TCPSegment) : TCPConnection :=
  -- the stamp is made before an error is set, which does not change it
  let out := stamp c.receiver c.rstSet seg
  let c :=
    { c with
      synSet := c.synSet || seg.header.syn
      finAckSent := c.finAckSent || acksFin c.receiver c.recFinSeqno }
  let c :=
    if c.rstSet then
      { c with receiver := c.receiver.setError, sender := c.sender.setError, active := false }
    else c
  { c with segmentsOut := c.segmentsOut ++ [out] }

/-- The loop of `sendseg`, over the segments in the sender's queue. -/
def sendLoop : List TCPSegment → TCPConnection → TCPConnection
  | [],          c => c
  | seg :: rest, c => sendLoop rest (sendOne { c with sender := { c.sender with segmentsOut := rest } } seg)

/-- Send everything the sender has queued, or an empty segment if there is nothing. -/
def sendseg (c : TCPConnection) : TCPConnection :=
  let queue := if c.sender.segmentsOut.isEmpty then [{}] else c.sender.segmentsOut
  (sendLoop queue c).cleanShutdown

/-! ## The interface of the writer -/

/-- Initiate a connection by sending a SYN segment. -/
def connect (c : TCPConnection) : TCPConnection :=
  sendseg { c with sender := c.sender.fillWindow }

/-- Write data to the outbound stream, send it if possible, and return how many bytes were accepted. -/
def write (c : TCPConnection) (data : List UInt8) : TCPConnection × Nat :=
  (sendseg { c with sender := (c.sender.write data).fillWindow }, (c.sender.stream.write data).2)

/-- Shut down the outbound stream. -/
def endInputStream (c : TCPConnection) : TCPConnection :=
  sendseg { c with sender := c.sender.endInput.fillWindow, closedByApp := true }

/-! ## The interface of the network and the clock -/

/-- A segment with RST ends the connection. -/
def resetReceived (c : TCPConnection) : TCPConnection :=
  { c with receiver := c.receiver.setError, sender := c.sender.setError, rstSet := true, active := false }

/-- The part of `segment_received` before the segment is looked at in earnest: the first SYN opens the
    passive side. -/
def openPassive (c : TCPConnection) (seg : TCPSegment) : TCPConnection :=
  let c :=
    if c.synSet = false ∧ seg.header.syn = true then
      { c with synSet := true, sender := c.sender.fillWindow }
    else c
  { c with timeSinceLastSegmentReceived := 0 }

/-- The part of `segment_received` that hands the segment to the receiver and, if it acknowledges, to the
    sender. -/
def absorb (c : TCPConnection) (seg : TCPSegment) : TCPConnection :=
  let c := { c with receiver := c.receiver.segmentReceived seg }
  if seg.header.ack then
    -- this may be the last acknowledgment of a passive close
    cleanShutdown { c with sender := c.sender.ackReceived seg.header.ackno seg.header.win }
  else c

/-- The last part of `segment_received`: the reply, unless a FIN has been acknowledged already and this is
    not another one. -/
def reply (c : TCPConnection) (seg : TCPSegment) : TCPConnection :=
  if c.finAckSent = true ∧ seg.header.fin = false then c
  else
    let c := if seg.header.fin then { c with recFinSeqno := some seg.header.seqno } else c
    let c := if seg.lengthInSequenceSpace > 0 then c.sendseg else c
    c.cleanShutdown

/-- A new segment has been received from the network. -/
def segmentReceived (c : TCPConnection) (seg : TCPSegment) : TCPConnection :=
  if c.active = false then c
  -- before the first SYN, sent or received, nothing is let in
  else if c.synSet = false ∧ seg.header.syn = false then c
  else
    let c := c.openPassive seg
    if seg.header.rst then
      -- this test comes too late to be true: the SYN flag is set by now
      if c.synSet = false ∧ seg.header.ack = false then c else c.resetReceived
    else (c.absorb seg).reply seg

/-- The part of `tick` that lets the time pass, here and in the sender. -/
def elapse (c : TCPConnection) (msSinceLastTick : Nat) : TCPConnection :=
  { c with
    timeSinceLastSegmentReceived := uadd 64 c.timeSinceLastSegmentReceived msSinceLastTick
    sender := c.sender.tick msSinceLastTick }

/-- The part of `tick` that gives up after too many retransmissions. -/
def resetIfStuck (c : TCPConnection) : TCPConnection :=
  if c.sender.consecutiveRetransmission > TCPConfig.maxRetxAttempts then sendseg { c with rstSet := true }
  else c

/-- Time passes. -/
def tick (c : TCPConnection) (msSinceLastTick : Nat) : TCPConnection :=
  if c.active = false then c
  else
    let c := (c.elapse msSinceLastTick).resetIfStuck.cleanShutdown
    -- a reset or a clean end leaves nothing to retransmit
    if c.active = false then c
    else if c.sender.segmentsOut.isEmpty then c
    else c.sendseg

/-- The destructor: a connection that is still active tells the peer with RST. -/
def destroy (c : TCPConnection) : TCPConnection :=
  if c.active then sendseg { c with rstSet := true } else c

/-- The owner reads from the inbound stream. -/
def readInbound (c : TCPConnection) (len : Nat) : List UInt8 × TCPConnection :=
  let r := c.receiver.reassembler
  ((r.output.read len).1,
    { c with receiver := { c.receiver with reassembler := { r with output := (r.output.read len).2 } } })

end TCPConnection

end Sponge
