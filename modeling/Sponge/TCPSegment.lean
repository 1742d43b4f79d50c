import Sponge.WrappingIntegers

/-!
# `TCPSegment` — TCP headers and segments

The header has all the fields of the wire format, with the defaults of the source. Ports, window, checksum
and urgent pointer are 16-bit numbers; the sequence and acknowledgment numbers are `WrappingInt32`.
-/

namespace Sponge

structure TCPHeader where
  sport : UInt16 := 0
  dport : UInt16 := 0
  seqno : WrappingInt32 := .ofRaw 0
  ackno : WrappingInt32 := .ofRaw 0
  doff  : UInt8 := 5
  urg   : Bool := false
  ack   : Bool := false
  psh   : Bool := false
  rst   : Bool := false
  syn   : Bool := false
  fin   : Bool := false
  win   : UInt16 := 0
  cksum : UInt16 := 0
  uptr  : UInt16 := 0
deriving DecidableEq

structure TCPSegment where
  header  : TCPHeader := {}
  payload : List UInt8 := []
deriving DecidableEq

namespace TCPSegment

/-- Payload length plus one if SYN is set, plus one if FIN is set. -/
def lengthInSequenceSpace (seg : TCPSegment) : Nat :=
  seg.payload.length + (if seg.header.syn then 1 else 0) + (if seg.header.fin then 1 else 0)

end TCPSegment

/-- Config for TCP sender and receiver. -/
structure TCPConfig where
  rtTimeout       : UInt16 := 1000
  recvCapacity    : Nat := 64000
  sendCapacity    : Nat := 64000
  fixedIsn        : Option WrappingInt32 := none
  recvCapacity_lt : recvCapacity < 2 ^ 64 := by decide
  sendCapacity_lt : sendCapacity < 2 ^ 64 := by decide
deriving DecidableEq

namespace TCPConfig

def maxPayloadSize : Nat := 1452
def maxRetxAttempts : Nat := 8

end TCPConfig

end Sponge
