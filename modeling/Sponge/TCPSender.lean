import Sponge.TCPSegment
import Sponge.ByteStream

/-!
# `TCPSender` — the sending half of a TCP endpoint

The sender cuts its outgoing byte stream into segments (`fillWindow`), keeps the unacknowledged ones in
`outSegments`, drops them as acknowledgments arrive (`ackReceived`) and retransmits the oldest one when its
timer expires (`tick`).

Acknowledgment numbers are compared as raw 32-bit values, the free window is a difference of 32-bit numbers
that may borrow, and the loop of `fill_window` has an exit in its middle that skips the restoring of a zero
window; all three are kept as they are.

`log` is a history variable: which segments were sent for the first time, sent again and acknowledged, in
order. No function reads it.
-/

namespace Sponge

open Lib

/-! ## The retransmission timer -/

structure RETimer where
  rto       : Nat
  time      : Nat
  isRunning : Bool
deriving DecidableEq

namespace RETimer

/-- The timer is constructed running. -/
def ofTimeout (initialRetransTimeout : Nat) : RETimer :=
  { rto := initialRetransTimeout, time := 0, isRunning := true }

def passTime (t : RETimer) (passedTime : Nat) : RETimer :=
  if t.isRunning = false then t
  else
    let time := uadd 32 t.time passedTime
    if time ≥ t.rto then { t with isRunning := false, time := 0 } else { t with time }

def doubleRTO (t : RETimer) : RETimer := { t with rto := t.rto * 2 % 2 ^ 32 }
def resetTime (t : RETimer) : RETimer := { t with time := 0 }
def resetRTO (t : RETimer) (initialRetransTimeout : Nat) : RETimer := { t with rto := initialRetransTimeout }
def start (t : RETimer) : RETimer := { t with isRunning := true }

end RETimer

/-! ## The sender -/

/-- What the history variable records. -/
inductive SendEvent where
  | sent (seg : TCPSegment)
  | resent (seg : TCPSegment)
  | acked (seg : TCPSegment)
deriving DecidableEq

structure TCPSender where
  isn                          : WrappingInt32
  segmentsOut                  : List TCPSegment
  initialRetransmissionTimeout : Nat
  stream                       : ByteStream
  nextSeqno                    : Nat
  outSegments                  : List TCPSegment
  bytesInFlight                : Nat
  ackGot                       : WrappingInt32
  trueWindowSize               : UInt16
  consecutiveRetransmission    : Nat
  finFlag                      : Bool
  synFlag                      : Bool
  timer                        : RETimer
  log                          : List SendEvent
deriving DecidableEq

namespace TCPSender

/-- A fresh sender; `isn` is the configured or the random initial sequence number. -/
def ofConfig (capacity : Nat) (retxTimeout : UInt16) (isn : WrappingInt32) : TCPSender :=
  { isn
    segmentsOut := []
    initialRetransmissionTimeout := retxTimeout.toNat
    stream := ByteStream.ofCapacity capacity
    nextSeqno := 0
    outSegments := []
    bytesInFlight := 0
    ackGot := isn
    trueWindowSize := 0
    consecutiveRetransmission := 0
    finFlag := false
    synFlag := false
    timer := RETimer.ofTimeout retxTimeout.toNat
    log := [] }

/-! ## The outgoing stream, as the owner uses it -/

def write (s : TCPSender) (data : List UInt8) : TCPSender := { s with stream := (s.stream.write data).1 }
def endInput (s : TCPSender) : TCPSender := { s with stream := s.stream.endInput }
def setError (s : TCPSender) : TCPSender := { s with stream := s.stream.setError }

/-! ## Queueing a segment -/

def nextSeqno32 (s : TCPSender) : WrappingInt32 := wrap s.nextSeqno s.isn

/-- Queue a new segment for transmission and remember it as outstanding. -/
def sendSegment (s : TCPSender) (seg : TCPSegment) : TCPSender :=
  { s with
    segmentsOut := s.segmentsOut ++ [seg]
    outSegments := s.outSegments ++ [seg]
    nextSeqno := s.nextSeqno + seg.lengthInSequenceSpace
    bytesInFlight := s.bytesInFlight + seg.lengthInSequenceSpace
    timer := if s.timer.isRunning = false then s.timer.resetTime.start else s.timer
    log := s.log ++ [.sent seg] }

/-! ## `fill_window` -/

/-- The free space in the window: `_true_window_size - (next - _ackGot)`, in 32-bit arithmetic. -/
def remain (s : TCPSender) : Nat :=
  usub 32 s.trueWindowSize.toNat (usub 32 s.nextSeqno32.rawValue s.ackGot.rawValue)

/-- The body of the loop up to the test for an empty segment: read a payload that fits, and set FIN if the
    stream is finished and there is room left for it. -/
def takeSegment (s : TCPSender) (remain : Nat) : TCPSender × TCPSegment :=
  let dataLen := min remain TCPConfig.maxPayloadSize
  let data := (s.stream.read dataLen).1
  let stream := (s.stream.read dataLen).2
  let seg : TCPSegment := { header := { seqno := s.nextSeqno32 }, payload := data }
  if stream.eof ∧ remain ≥ seg.lengthInSequenceSpace + 1 then
    ({ s with stream, finFlag := true }, { seg with header := { seg.header with fin := true } })
  else ({ s with stream }, seg)

/-- The cases of `takeSegment`, with the stream after the read spelled out. -/
theorem takeSegment_cases (s : TCPSender) (remain : Nat) :
    let stream := (s.stream.read (min remain TCPConfig.maxPayloadSize)).2
    let data := s.stream.buf.take (min remain TCPConfig.maxPayloadSize)
    (stream.eof = true ∧ data.length + 1 ≤ remain ∧
      s.takeSegment remain = ({ s with stream, finFlag := true },
        { header := { seqno := s.nextSeqno32, fin := true }, payload := data })) ∨
    (¬ (stream.eof = true ∧ data.length + 1 ≤ remain) ∧
      s.takeSegment remain = ({ s with stream },
        { header := { seqno := s.nextSeqno32 }, payload := data })) := by
  simp only [takeSegment, ByteStream.read_fst, TCPSegment.lengthInSequenceSpace, Bool.false_eq_true,
    if_false, Nat.add_zero, ge_iff_le]
  split
  · next h => exact Or.inl ⟨h.1, h.2, rfl⟩
  · next h => exact Or.inr ⟨h, rfl⟩

/-- Every round either takes bytes from the stream or sets FIN, unless its segment is empty. -/
theorem takeSegment_measure {s : TCPSender} {remain : Nat} (hfin : s.finFlag = false)
    (hne : (s.takeSegment remain).2.lengthInSequenceSpace ≠ 0) :
    (s.takeSegment remain).1.stream.buf.length + (if (s.takeSegment remain).1.finFlag then 0 else 1) <
      s.stream.buf.length + (if s.finFlag then 0 else 1) := by
  rcases takeSegment_cases s remain with ⟨-, -, heq⟩ | ⟨-, heq⟩
  · rw [heq, hfin]
    simp only [ByteStream.read_buf, List.length_drop, if_true, Bool.false_eq_true, if_false]
    omega
  · rw [heq] at hne ⊢
    simp only [TCPSegment.lengthInSequenceSpace, List.length_take, Bool.false_eq_true, if_false] at hne
    simp only [ByteStream.read_buf, List.length_drop, hfin, Bool.false_eq_true, if_false]
    omega

/-- The loop of `fill_window`. The flag tells whether it was left by the `return` in its middle. -/
def fillLoop (s : TCPSender) : TCPSender × Bool :=
  if s.remain ≠ 0 ∧ s.finFlag = false then
    if (s.takeSegment s.remain).2.lengthInSequenceSpace = 0 then
      ((s.takeSegment s.remain).1, true)
    else fillLoop ((s.takeSegment s.remain).1.sendSegment (s.takeSegment s.remain).2)
  else (s, false)
termination_by s.stream.buf.length + (if s.finFlag then 0 else 1)
decreasing_by
  rename_i h hlen
  exact takeSegment_measure h.2 hlen

/-- Create and send segments to fill as much of the window as possible. A zero window counts as one, and
    is restored only if the loop runs to its end. -/
def fillWindow (s : TCPSender) : TCPSender :=
  if s.finFlag then s
  else if s.synFlag = false then
    sendSegment { s with synFlag := true } { header := { seqno := s.nextSeqno32, syn := true } }
  else
    let zeroFlag := s.trueWindowSize == 0
    let s := if zeroFlag then { s with trueWindowSize := 1 } else s
    let (s, returned) := s.fillLoop
    -- the `return` in the loop leaves a zero window at one
    if zeroFlag && !returned then { s with trueWindowSize := 0 } else s

/-! ## `ack_received` -/

/-- The acknowledgment number is beyond everything sent, compared as raw 32-bit values. -/
def ackBeyond (s : TCPSender) (ackno : WrappingInt32) : Bool :=
  decide (ackno.rawValue > s.nextSeqno32.rawValue)

/-- The acknowledgment number is greater than the recorded one, compared as raw 32-bit values. -/
def ackNew (s : TCPSender) (ackno : WrappingInt32) : Bool :=
  decide (ackno.rawValue > s.ackGot.rawValue)

/-- The segment ends at or before the acknowledgment number. The sum is a 64-bit one and does not wrap. -/
def fullyAcked (ackno : WrappingInt32) (seg : TCPSegment) : Bool :=
  decide (seg.header.seqno.rawValue + seg.lengthInSequenceSpace ≤ ackno.rawValue)

/-- The loop that drops acknowledged segments from the front of the queue. -/
def popLoop (ackno : WrappingInt32) : List TCPSegment → TCPSender → TCPSender
  | [],          s => s
  | seg :: rest, s =>
    if fullyAcked ackno seg then
      -- the queue is popped while it is walked, so `rest` is what remains of it
      popLoop ackno rest { s with
        bytesInFlight := usub 64 s.bytesInFlight seg.lengthInSequenceSpace
        outSegments := rest
        log := s.log ++ [.acked seg] }
    else s

/-- The reaction to a new acknowledgment number. -/
def recordAck (s : TCPSender) (ackno : WrappingInt32) : TCPSender :=
  if s.ackNew ackno then
    let timer := s.timer.resetTime.resetRTO s.initialRetransmissionTimeout
    { s with
      ackGot := ackno
      timer := if s.outSegments.isEmpty then timer else timer.start
      consecutiveRetransmission := 0 }
  else s

/-- A new acknowledgment was received. -/
def ackReceived (s : TCPSender) (ackno : WrappingInt32) (windowSize : UInt16) : TCPSender :=
  if s.ackBeyond ackno then s
  else
    let s := popLoop ackno s.outSegments s
    let s := s.recordAck ackno
    -- the window is taken from every acknowledgment, an old one included
    fillWindow { s with trueWindowSize := windowSize }

/-! ## `tick` -/

/-- The front segment goes out again; outside a zero window this counts and doubles the timeout. -/
def retransmit (s : TCPSender) (seg : TCPSegment) : TCPSender :=
  let s : TCPSender := { s with segmentsOut := s.segmentsOut ++ [seg], log := s.log ++ [.resent seg] }
  let s : TCPSender :=
    -- `_next_seqno == 1`: only the SYN is out, before any window was advertised
    if s.trueWindowSize ≠ 0 ∨ s.nextSeqno = 1 then
      { s with
        consecutiveRetransmission := (s.consecutiveRetransmission + 1) % 2 ^ 16
        timer := s.timer.doubleRTO }
    else s
  { s with timer := s.timer.resetTime.start }

/-- Time passes; the argument is converted to a 32-bit number for the timer. -/
def tick (s : TCPSender) (msSinceLastTick : Nat) : TCPSender :=
  let s := { s with timer := s.timer.passTime (msSinceLastTick % 2 ^ 32) }
  match s.outSegments with
  | []       => s
  | seg :: _ => if s.timer.isRunning = false then s.retransmit seg else s

end TCPSender

end Sponge
