import Sponge.TCPSegment
import Sponge.StreamReassembler

/-!
# `TCPReceiver` — the receiving half of a TCP endpoint

Segments are turned into pushes of the reassembler: the 32-bit sequence number is unwrapped around the
number of bytes written so far, and the stream index is one less than the absolute sequence number (the SYN
has number zero). `ackno` and `windowSize` are what the endpoint advertises to its peer.
-/

namespace Sponge

open Lib

structure TCPReceiver where
  reassembler : StreamReassembler
  capacity    : Nat
  isn         : WrappingInt32
  isnSet      : Bool
deriving DecidableEq

namespace TCPReceiver

def ofCapacity (capacity : Nat) : TCPReceiver :=
  { reassembler := StreamReassembler.ofCapacity capacity, capacity, isn := .ofRaw 0, isnSet := false }

def streamOut (r : TCPReceiver) : ByteStream := r.reassembler.output
def unassembledBytes (r : TCPReceiver) : Nat := r.reassembler.unassembledBytes

/-- The second half of `segment_received`: locate the payload in the stream and push it. -/
def deliver (r : TCPReceiver) (seqno : WrappingInt32) (payload : List UInt8) (fin : Bool) : TCPReceiver :=
  -- one less than the next absolute sequence number, which counts the SYN
  let checkpoint := r.streamOut.bytesWritten
  let absSeqno := unwrap seqno r.isn checkpoint
  -- borrows for a segment without SYN that is numbered like the SYN
  let streamIndex := usub 64 absSeqno 1
  { r with reassembler := r.reassembler.pushSubstring payload streamIndex fin }

/-- Handle an inbound segment: every SYN sets the ISN, and before the first one nothing is accepted. -/
def segmentReceived (r : TCPReceiver) (seg : TCPSegment) : TCPReceiver :=
  if seg.header.syn then
    deliver { r with isn := seg.header.seqno, isnSet := true } (seg.header.seqno.add 1) seg.payload
      seg.header.fin
  else if r.isnSet = false then r
  else deliver r seg.header.seqno seg.payload seg.header.fin

/-- Signal an error on the stream the receiver writes to. -/
def setError (r : TCPReceiver) : TCPReceiver :=
  { r with reassembler := { r.reassembler with output := r.reassembler.output.setError } }

/-- The acknowledgment number to send to the peer; a received FIN counts for one. -/
def ackno (r : TCPReceiver) : Option WrappingInt32 :=
  if r.isnSet = false then none
  else if r.streamOut.inputEnded then some ((wrap (r.streamOut.bytesWritten + 1) r.isn).add 1)
  else some (wrap (r.streamOut.bytesWritten + 1) r.isn)

/-- The window size to send to the peer. -/
def windowSize (r : TCPReceiver) : Nat :=
  usub 64 r.capacity (usub 64 r.streamOut.bytesWritten r.streamOut.bytesRead)

/-- The absolute acknowledgment number: the SYN, the bytes written, and the FIN once the stream ended. -/
def ackOffset (r : TCPReceiver) : Nat :=
  r.streamOut.bytesWritten + 1 + (if r.streamOut.inputEnded then 1 else 0)

theorem ackno_eq (r : TCPReceiver) :
    r.ackno = if r.isnSet then some (wrap r.ackOffset r.isn) else none := by
  unfold ackno ackOffset
  cases r.isnSet <;> cases r.streamOut.inputEnded <;> simp [wrap_add]

end TCPReceiver

end Sponge
