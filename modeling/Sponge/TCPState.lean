import Sponge.TCPSender
import Sponge.TCPReceiver

/-!
# `TCPState` — the official names of the states of a connection

The state of an endpoint is summarised by its two halves, the active flag and the linger flag. The source
keeps the summaries as texts; here they are enumerations with those texts. Different summaries have different
texts (`text_injective`), so comparing the summaries is comparing the texts.
-/

namespace Sponge

inductive TCPReceiverStateSummary where
  | error | listen | synRecv | finRecv
deriving DecidableEq

inductive TCPSenderStateSummary where
  | error | closed | synSent | synAcked | finSent | finAcked
deriving DecidableEq

def TCPReceiverStateSummary.text : TCPReceiverStateSummary → String
  | .error   => "error (connection was reset)"
  | .listen  => "waiting for SYN: ackno is empty"
  | .synRecv => "SYN received (ackno exists), and input to stream hasn't ended"
  | .finRecv => "input to stream has ended"

def TCPSenderStateSummary.text : TCPSenderStateSummary → String
  | .error    => "error (connection was reset)"
  | .closed   => "waiting for stream to begin (no SYN sent)"
  | .synSent  => "stream started but nothing acknowledged"
  | .synAcked => "stream ongoing"
  | .finSent  => "stream finished (FIN sent) but not fully acknowledged"
  | .finAcked => "stream finished and fully acknowledged"

theorem TCPReceiverStateSummary.text_injective : Function.Injective TCPReceiverStateSummary.text := by
  intro a b h
  cases a <;> cases b <;> first | rfl | exact absurd h (by decide)

theorem TCPSenderStateSummary.text_injective : Function.Injective TCPSenderStateSummary.text := by
  intro a b h
  cases a <;> cases b <;> first | rfl | exact absurd h (by decide)

structure TCPState where
  sender                   : TCPSenderStateSummary
  receiver                 : TCPReceiverStateSummary
  active                   : Bool := true
  lingerAfterStreamsFinish : Bool := true
deriving DecidableEq

namespace TCPState

/-- Official state names from the TCP specification. -/
inductive State where
  | listen | synRcvd | synSent | established | closeWait | lastAck | finWait1 | finWait2 | closing
  | timeWait | closed | reset
deriving DecidableEq

/-- The summary that corresponds to one of the official state names. -/
def ofState : State → TCPState
  | .listen      => { receiver := .listen, sender := .closed }
  | .synRcvd     => { receiver := .synRecv, sender := .synSent }
  | .synSent     => { receiver := .listen, sender := .synSent }
  | .established => { receiver := .synRecv, sender := .synAcked }
  | .closeWait   => { receiver := .finRecv, sender := .synAcked, lingerAfterStreamsFinish := false }
  | .lastAck     => { receiver := .finRecv, sender := .finSent, lingerAfterStreamsFinish := false }
  | .closing     => { receiver := .finRecv, sender := .finSent }
  | .finWait1    => { receiver := .synRecv, sender := .finSent }
  | .finWait2    => { receiver := .synRecv, sender := .finAcked }
  | .timeWait    => { receiver := .finRecv, sender := .finAcked }
  | .reset       => { receiver := .error, sender := .error, lingerAfterStreamsFinish := false,
                      active := false }
  | .closed      => { receiver := .finRecv, sender := .finAcked, lingerAfterStreamsFinish := false,
                      active := false }

/-- Summarize the state of a receiver. -/
def receiverSummary (receiver : TCPReceiver) : TCPReceiverStateSummary :=
  if receiver.streamOut.error then .error
  else if receiver.ackno.isSome = false then .listen
  else if receiver.streamOut.inputEnded then .finRecv
  else .synRecv

/-- Summarize the state of a sender. -/
def senderSummary (sender : TCPSender) : TCPSenderStateSummary :=
  if sender.stream.error then .error
  else if sender.nextSeqno = 0 then .closed
  -- everything sent is in flight, so not even the SYN is acknowledged
  else if sender.nextSeqno = sender.bytesInFlight then .synSent
  else if sender.stream.eof = false then .synAcked
  -- the SYN and the FIN take two numbers beside the bytes
  else if sender.nextSeqno < sender.stream.bytesWritten + 2 then .synAcked
  else if sender.bytesInFlight ≠ 0 then .finSent
  else .finAcked

/-- The summary of an endpoint; the linger flag of an inactive one does not count. -/
def ofParts (sender : TCPSender) (receiver : TCPReceiver) (active linger : Bool) : TCPState :=
  { sender := senderSummary sender
    receiver := receiverSummary receiver
    active
    lingerAfterStreamsFinish := if active then linger else false }

end TCPState

end Sponge
