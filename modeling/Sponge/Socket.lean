import Sponge.Adapter
import Sponge.Connection.Endpoint
import Sponge.Util.EventLoop

/-!
# `Socket` — a connection with a thread of its own

A `TCPSpongeSocket` has a connection, an adapter for datagrams, and a stream socket to its owner. Its thread waits for
events in a loop with four rules: datagrams come in, bytes come from the owner, bytes go to the owner, and segments go
out. What the kernel answers during one round of the loop, with the time and the flag by which the owner aborts the
thread, is a `Round`; it is part of the state, since the rules live longer than a round. `advance` is one round of a
thread, through the loop of `connect` or `listen_and_accept` and then that of `_tcp_main`.

`TCPConnection` keeps every segment that it ever sent in its queue, so the socket counts those that were taken out
(`popped`). It also records the operations of the connection that were called (`ops`); no function looks at them.
-/

namespace Sponge

open Lib Util TCPConnection

/-- The state in words. -/
def TCPState.name (state : TCPState) : String :=
  "sender=`" ++ state.sender.text ++ "`, receiver=`" ++ state.receiver.text ++ "`, active=" ++
    (if state.active then "1" else "0") ++ ", linger_after_streams_finish=" ++
    (if state.lingerAfterStreamsFinish then "1" else "0")

/-- The connection with another inbound stream. -/
def TCPConnection.setInbound (c : TCPConnection) (output : ByteStream) : TCPConnection :=
  { c with receiver := { c.receiver with reassembler := { c.receiver.reassembler with output } } }

/-- What the world answers during one round of the loop. -/
structure Round where
  poll          : List PollFd → PollResult := fun _ => { ret := 0 }
  net           : NetAnswers := {}
  read          : Nat → ReadResult := fun _ => { ret := -1, errno := 11 }
  writev        : Kernel := fun _ _ => { ret := -1, errno := 11 }
  shutdown      : SysResult := { ret := 0, errno := 0 }
  ownerShutdown : SysResult := { ret := 0, errno := 0 }
  abort         : Bool := false
  timestamp     : Nat := 0

/-- The socket of the owner, and what the thread works on. -/
structure TCPSpongeSocket (α : Type) extends FDWrapper where
  threadData       : FDWrapper := {}
  datagramAdapter  : α
  tcp              : TCPConnection
  popped           : Nat := 0
  inboundShutdown  : Bool := false
  outboundShutdown : Bool := false
  fullyAcked       : Bool := false
  round            : Round := {}
  ops              : List Op := []

namespace TCPSpongeSocket

variable {α : Type} [FdAdapter α]

/-- The segments that wait to be sent. -/
def segmentsOut (s : TCPSpongeSocket α) : List TCPSegment := s.tcp.segmentsOut.drop s.popped

/-- Work on the adapter. -/
def onAdapter {β : Type} (m : EStateM Failure α β) : EStateM Failure (TCPSpongeSocket α) β :=
  zoom datagramAdapter (fun datagramAdapter s => { s with datagramAdapter }) m

/-- Work on the socket to the owner. -/
def onThreadData {β : Type} (m : EStateM Failure FDWrapper β) : EStateM Failure (TCPSpongeSocket α) β :=
  zoom threadData (fun threadData s => { s with threadData }) m

/-- Call an operation of the connection. -/
def perform (op : Op) : EStateM Failure (TCPSpongeSocket α) Unit :=
  modify fun s => { s with tcp := s.tcp.step op, ops := s.ops ++ [op] }

/-- Remove bytes from the inbound stream. -/
def popInbound (len : Nat) : EStateM Failure (TCPSpongeSocket α) Unit :=
  modify fun s => { s with
    tcp := s.tcp.setInbound (s.tcp.inboundStream.popOutput len), ops := s.ops ++ [.readInbound len] }

/-! ## The callbacks -/

/-- Note when everything has been acknowledged, for the debugging output. -/
def noteFullyAcked (s : TCPSpongeSocket α) : TCPSpongeSocket α :=
  if s.threadData.eof && s.tcp.bytesInFlight == 0 && !s.fullyAcked then { s with fullyAcked := true } else s

/-- Rule 1: read a datagram and give the segment in it to the connection. -/
def receiveDatagram : EStateM Failure (TCPSpongeSocket α) Unit := do
  let seg ← onAdapter (FdAdapter.read (← get).round.net)
  match seg with
  | some seg => perform (.segmentReceived seg)
  | none     => pure ()
  modify noteFullyAcked

/-- The end of the outbound stream. -/
def endOutbound : EStateM Failure (TCPSpongeSocket α) Unit := do
  perform .endInputStream
  modify ({ · with outboundShutdown := true })

/-- What is thrown if the connection takes less from the owner than it said it would. -/
def acceptedLess : Failure := .runtimeError "TCPConnection::write() accepted less than advertised length"

/-- Rule 2: read from the owner into the outbound stream. -/
def readOutbound : EStateM Failure (TCPSpongeSocket α) Unit := do
  let s ← get
  let data ← onThreadData (FDWrapper.read s.round.read s.tcp.remainingOutboundCapacity)
  let amountWritten := ((← get).tcp.write data).2
  perform (.write data)
  if amountWritten != data.length then
    throw acceptedLess
  if (← get).threadData.eof then
    endOutbound

/-- The end of the inbound stream. -/
def endInbound (r : SysResult) : EStateM Failure (TCPSpongeSocket α) Unit := do
  onThreadData (FDWrapper.shutdown .wr r)
  modify ({ · with inboundShutdown := true })

/-- Rule 3: write from the inbound stream to the owner, and remove what was really written. -/
def writeInbound : EStateM Failure (TCPSpongeSocket α) Unit := do
  let s ← get
  let inbound := s.tcp.inboundStream
  let buffer := inbound.peekOutput (min 65536 inbound.bufferSize)
  let bytesWritten ← onThreadData (FDWrapper.write s.round.writev (BufferViewList.ofString buffer) false)
  popInbound bytesWritten
  let inbound := (← get).tcp.inboundStream
  if inbound.eof || inbound.error then
    endInbound s.round.shutdown

/-- The loop of rule 4, over the segments that wait. -/
def writeSegments : List TCPSegment → EStateM Failure (TCPSpongeSocket α) Unit
  | []          => pure ()
  | seg :: rest => do
    onAdapter (FdAdapter.write (← get).round.net seg)
    modify fun s => { s with popped := s.popped + 1 }
    writeSegments rest

/-- Rule 4: send the segments of the connection as datagrams. -/
def sendDatagrams : EStateM Failure (TCPSpongeSocket α) Unit := do
  writeSegments (← get).segmentsOut

/-! ## The rules -/

def datagramIn : Rule (TCPSpongeSocket α) where
  fd        := fun s => FdAdapter.fd s.datagramAdapter
  direction := .input
  callback  := receiveDatagram
  interest  := fun s => s.tcp.active

def ownerIn : Rule (TCPSpongeSocket α) where
  fd        := threadData
  direction := .input
  callback  := readOutbound
  interest  := fun s => s.tcp.active && !s.outboundShutdown && decide (0 < s.tcp.remainingOutboundCapacity)
  cancel    := endOutbound

def ownerOut : Rule (TCPSpongeSocket α) where
  fd        := threadData
  direction := .output
  callback  := writeInbound
  interest  := fun s => !s.tcp.inboundStream.bufferEmpty ||
    ((s.tcp.inboundStream.eof || s.tcp.inboundStream.error) && !s.inboundShutdown)

def datagramOut : Rule (TCPSpongeSocket α) where
  fd        := fun s => FdAdapter.fd s.datagramAdapter
  direction := .output
  callback  := sendDatagrams
  interest  := fun s => !s.segmentsOut.isEmpty

def rules : List (Rule (TCPSpongeSocket α)) := [datagramIn, ownerIn, ownerOut, datagramOut]

/-- The loop with the rules that `_initialize_TCP` adds. -/
def eventloop : EventLoop (TCPSpongeSocket α) :=
  EventLoop.addRule (EventLoop.addRule (EventLoop.addRule (EventLoop.addRule {} datagramIn) ownerIn) ownerOut)
    datagramOut

theorem rules_eventloop : (eventloop (α := α)).rules = rules := rfl

/-- A socket with a new connection. -/
def initializeTCP (config : TCPConfig) (randomIsn : WrappingInt32) (datagramAdapter : α) : TCPSpongeSocket α where
  tcp             := TCPConnection.ofConfig config randomIsn
  datagramAdapter := datagramAdapter

/-- The body of the loop: whether the loop is left, the rules that are left, and the time of the last tick. -/
def tcpRound (r : Round) (loop : EventLoop (TCPSpongeSocket α)) (baseTime : Nat) :
    EStateM Failure (TCPSpongeSocket α) (Bool × EventLoop (TCPSpongeSocket α) × Nat) := do
  modify ({ · with round := r })
  let (ret, loop) ← EventLoop.waitNextEvent r.poll loop
  if ret == .exit || r.abort then
    return (true, loop, baseTime)
  if (← get).tcp.active then
    perform (.tick (usub 64 r.timestamp baseTime))
    modify fun s => { s with datagramAdapter := FdAdapter.tick (usub 64 r.timestamp baseTime) s.datagramAdapter }
    return (false, loop, r.timestamp)
  else
    return (false, loop, baseTime)

end TCPSpongeSocket

/-! ## Threads -/

/-- Where the thread is: in the loop of `connect`, of `listen_and_accept` or of `_tcp_main`, or at an end. -/
inductive Stage where
  | connecting | listening | main | done
  | failed (e : Failure)
deriving DecidableEq

structure Thread (α : Type) where
  socket   : TCPSpongeSocket α
  loop     : EventLoop (TCPSpongeSocket α)
  baseTime : Nat
  stage    : Stage

namespace Thread

open TCPSpongeSocket

variable {α : Type} [FdAdapter α]

/-- The condition of the loop. -/
def continues (t : Thread α) : Bool :=
  let state := t.socket.tcp.state
  match t.stage with
  | .connecting       => state == TCPState.ofState .synSent
  | .listening        => state == TCPState.ofState .listen || state == TCPState.ofState .synRcvd ||
      state == TCPState.ofState .synSent
  | .main             => true
  | .done | .failed _ => false

/-- What comes after the loop. A connection that is still active has a destructor that puts a RST into its queue, but
    the queue is destroyed with it, and nobody sends it. -/
def leave (t : Thread α) (r : Round) : Thread α :=
  match t.stage with
  | .connecting | .listening => { t with stage := .main, baseTime := r.timestamp }
  | .main                    =>
      match FDWrapper.shutdown .rdwr r.ownerShutdown t.socket.toFDWrapper with
      | .ok _ fd    => { t with socket := { t.socket with toFDWrapper := fd }, stage := .done }
      | .error e fd => { t with socket := { t.socket with toFDWrapper := fd }, stage := .failed e }
  | .done | .failed _        => t

/-- One round of the loop that the thread is in, or the way out of it. -/
def advance (t : Thread α) (r : Round) : Thread α :=
  if t.continues then
    match tcpRound r t.loop t.baseTime t.socket with
    | .ok (false, loop, baseTime) socket => { t with socket, loop, baseTime }
    | .ok (true, loop, baseTime) socket  => leave { t with socket, loop, baseTime } r
    | .error e socket                    => { t with socket, stage := .failed e }
  else
    t.leave r

end Thread

namespace TCPSpongeSocket

variable {α : Type} [FdAdapter α]

/-- Connect: what is done before the loop. -/
def connect (cTcp : TCPConfig) (cAd : FdAdapterConfig) (randomIsn : WrappingInt32) (datagramAdapter : α)
    (timestamp : Nat) : Except Failure (Thread α) :=
  match perform .connect (initializeTCP cTcp randomIsn (FdAdapter.setConfig cAd datagramAdapter)) with
  | .error e _ => .error e
  | .ok _ s    =>
      if s.tcp.state != TCPState.ofState .synSent then
        .error (.runtimeError ("After TCPConnection::connect(), state was " ++ s.tcp.state.name ++ " but expected " ++
          (TCPState.ofState .synSent).name))
      else
        .ok { socket := s, loop := eventloop, baseTime := timestamp, stage := .connecting }

/-- Listen: what is done before the loop. -/
def listenAndAccept (cTcp : TCPConfig) (cAd : FdAdapterConfig) (randomIsn : WrappingInt32) (datagramAdapter : α)
    (timestamp : Nat) : Thread α where
  socket   := initializeTCP cTcp randomIsn (FdAdapter.setListening true (FdAdapter.setConfig cAd datagramAdapter))
  loop     := eventloop
  baseTime := timestamp
  stage    := .listening

end TCPSpongeSocket

end Sponge
