import Sponge.ByteStream
import Sponge.Lib.Run
import Sponge.Util.EventLoop

/-!
# `Apps.StreamCopy` — copying between a socket and the terminal

`bidirectional_stream_copy` connects a socket with standard input and standard output through two byte streams. The two
directions are the same code with other descriptors: what one rule of the event loop reads from a source into a stream,
another one writes from the stream to a sink. Only the end differs: the socket is shut down for writing, and standard
output is closed. What the kernel answers during one round of the loop is a `CopyRound`, and it is part of the state,
since the rules live longer than a round.
-/

namespace Sponge

open Lib Util

/-- From standard input to the socket, or from the socket to standard output. -/
inductive Way where
  | outbound | inbound
deriving DecidableEq

def Way.other : Way → Way
  | .outbound => .inbound
  | .inbound  => .outbound

theorem Way.eq_other {w w' : Way} (h : w' ≠ w) : w' = w.other := by
  cases w <;> cases w' <;> first | rfl | exact absurd rfl h

/-- What the world answers during one round of the loop. -/
structure CopyRound where
  poll   : List PollFd → PollResult := fun _ => { ret := 0 }
  read   : Way → Nat → ReadResult := fun _ _ => { ret := -1, errno := 11 }
  writev : Way → Kernel := fun _ _ _ => { ret := -1, errno := 11 }
  finish : Way → SysResult := fun _ => { ret := 0, errno := 0 }

/-- What the rules work on. -/
structure StreamCopy where
  input            : FDWrapper := { fdNum := 0 }
  output           : FDWrapper := { fdNum := 1 }
  socket           : FDWrapper
  outbound         : ByteStream := ByteStream.ofCapacity 1048576
  inbound          : ByteStream := ByteStream.ofCapacity 1048576
  outboundShutdown : Bool := false
  inboundShutdown  : Bool := false
  round            : CopyRound := {}

namespace StreamCopy

def maxCopyLength : Nat := 65536

/-! ## The two directions -/

def source : Way → StreamCopy → FDWrapper
  | .outbound, s => s.input
  | .inbound,  s => s.socket

def setSource : Way → FDWrapper → StreamCopy → StreamCopy
  | .outbound, input,  s => { s with input }
  | .inbound,  socket, s => { s with socket }

def sink : Way → StreamCopy → FDWrapper
  | .outbound, s => s.socket
  | .inbound,  s => s.output

def setSink : Way → FDWrapper → StreamCopy → StreamCopy
  | .outbound, socket, s => { s with socket }
  | .inbound,  output, s => { s with output }

def stream : Way → StreamCopy → ByteStream
  | .outbound, s => s.outbound
  | .inbound,  s => s.inbound

def setStream : Way → ByteStream → StreamCopy → StreamCopy
  | .outbound, outbound, s => { s with outbound }
  | .inbound,  inbound,  s => { s with inbound }

def shut : Way → StreamCopy → Bool
  | .outbound, s => s.outboundShutdown
  | .inbound,  s => s.inboundShutdown

def setShut : Way → StreamCopy → StreamCopy
  | .outbound, s => { s with outboundShutdown := true }
  | .inbound,  s => { s with inboundShutdown := true }

/-! ## The callbacks -/

/-- Tell the stream that its input has ended. -/
def endInput (w : Way) : EStateM Failure StreamCopy Unit :=
  modify fun s => s.setStream w (s.stream w).endInput

def setError (w : Way) : EStateM Failure StreamCopy Unit :=
  modify fun s => s.setStream w (s.stream w).setError

/-- Rules 1 and 3: read from the source into the stream. -/
def readInto (w : Way) : EStateM Failure StreamCopy Unit := do
  let s ← get
  let data ← zoom (source w) (setSource w) (FDWrapper.read (s.round.read w) (s.stream w).remainingCapacity)
  modify fun s => s.setStream w ((s.stream w).write data).1
  if ((← get).source w).eof then
    endInput w

/-- The end of what is written to the sink. -/
def finish : Way → SysResult → EStateM Failure FDWrapper Unit
  | .outbound => FDWrapper.shutdown .wr
  | .inbound  => FDWrapper.close

/-- Rules 2 and 4: write from the stream to the sink, and remove what was really written. -/
def writeFrom (w : Way) : EStateM Failure StreamCopy Unit := do
  let s ← get
  let bytesToWrite := min maxCopyLength (s.stream w).bufferSize
  let buffer := BufferViewList.ofString ((s.stream w).peekOutput bytesToWrite)
  let bytesWritten ← zoom (sink w) (setSink w) (FDWrapper.write (s.round.writev w) buffer false)
  modify fun s => s.setStream w ((s.stream w).popOutput bytesWritten)
  if ((← get).stream w).eof then
    zoom (sink w) (setSink w) (finish w (s.round.finish w))
    modify (setShut w)

/-! ## The rules -/

def readRule (w : Way) : Rule StreamCopy where
  fd        := source w
  direction := .input
  callback  := readInto w
  interest  := fun s => !(s.stream w).error && decide (0 < (s.stream w).remainingCapacity) && !(s.stream w.other).error
  cancel    := endInput w

def writeRule (w : Way) : Rule StreamCopy where
  fd        := sink w
  direction := .output
  callback  := writeFrom w
  interest  := fun s => !(s.stream w).bufferEmpty || ((s.stream w).eof && !s.shut w)
  cancel    := setError w

def rules : List (Rule StreamCopy) := [readRule .outbound, writeRule .outbound, readRule .inbound, writeRule .inbound]

/-- The loop with the rules that are added to it. -/
def eventloop : EventLoop StreamCopy :=
  EventLoop.addRule (EventLoop.addRule (EventLoop.addRule (EventLoop.addRule {} (readRule .outbound))
    (writeRule .outbound)) (readRule .inbound)) (writeRule .inbound)

theorem rules_eventloop : eventloop.rules = rules := rfl

/-- **Where an exception comes from.** In round `r` an operation on a descriptor was given the answers of that round and
    has thrown `e`, and the state is as it was left then; or `poll` has reported an error. -/
inductive Thrown (r : CopyRound) (e : Failure) (s : StreamCopy) : Prop where
  | read (w : Way) :
      Threw (FDWrapper.read (r.read w) (s.stream w).remainingCapacity) e (s.source w) → Thrown r e s
  | write (w : Way) :
      Threw (FDWrapper.write (r.writev w) (BufferViewList.ofString
        ((s.stream w).peekOutput (min maxCopyLength (s.stream w).bufferSize))) false) e (s.sink w) → Thrown r e s
  | finish (w : Way) : Threw (StreamCopy.finish w (r.finish w)) e (s.sink w) → Thrown r e s
  | poll : e = EventLoop.pollError → EventLoop.Reported r.poll → Thrown r e s

/-- So it is not the one by which the loop accuses a rule. -/
theorem Thrown.innocent {r : CopyRound} {e : Failure} {s : StreamCopy} (h : Thrown r e s) : e ≠ Rule.busyWait := by
  have hcall : e.ofCall = true ∨ e = EventLoop.pollError := by
    cases h with
    | read w hthrew => exact Or.inl (hthrew.of_ends (FDWrapper.read_throws (r.read w) _))
    | write w hthrew => exact Or.inl (hthrew.of_ends (FDWrapper.write_throws (r.writev w) _ false))
    | finish w hthrew =>
        cases w with
        | outbound => exact Or.inl (hthrew.of_ends (FDWrapper.shutdown_throws .wr (r.finish .outbound)))
        | inbound => exact Or.inl (hthrew.of_ends (FDWrapper.close_throws (r.finish .inbound)))
    | poll he _ => exact Or.inr he
  rintro rfl
  exact absurd hcall (by decide)

end StreamCopy

/-- A call of `bidirectional_stream_copy`: its loop, and how it has ended. -/
structure Copier where
  state : StreamCopy
  loop  : EventLoop StreamCopy := StreamCopy.eventloop
  ended : Option (Except Failure Unit) := none

namespace Copier

/-- The call before its loop. -/
def bidirectionalStreamCopy (socket : FDWrapper) : Copier where
  state := { socket }

/-- One round of the loop, which goes on until `wait_next_event` says that it is over. -/
def advance (c : Copier) (r : CopyRound) : Copier :=
  match c.ended with
  | some _ => c
  | none   =>
    match EventLoop.waitNextEvent r.poll c.loop { c.state with round := r } with
    | .ok (result, loop) state => { state, loop, ended := if result == .exit then some (.ok ()) else none }
    | .error e state           => { c with state, ended := some (.error e) }

end Copier

/-- What the manual promises of the writes of a round. -/
def CopyRound.Documented (r : CopyRound) : Prop :=
  ∀ w k iovecs, (gathered iovecs).length ≤ StreamCopy.maxCopyLength →
    (r.writev w k iovecs).Documented (gathered iovecs).length

/-! ## A direction by itself -/

/-- What belongs to one direction: the bytes that were read from the source and those that the sink has taken, the
    stream between them, and whether the source has ended and the sink was shut down or closed. -/
structure Lane where
  taken  : Buffer
  given  : Buffer
  stream : ByteStream
  ended  : Bool
  shut   : Bool
  closed : Bool

/-- The two rules of a direction. -/
inductive Job where
  | read | write
deriving DecidableEq

namespace Lane

/-- What was read from the source since `l₀` has gone into the sink, but for what is in the stream. -/
def Copied (l₀ l : Lane) : Prop :=
  ∃ copied, l.given = l₀.given ++ copied ∧ l.taken = l₀.taken ++ copied ++ l.stream.buf

/-- All that was read since then has. -/
def Complete (l₀ l : Lane) : Prop := ∃ copied, l.given = l₀.given ++ copied ∧ l.taken = l₀.taken ++ copied

theorem Copied.complete {l₀ l : Lane} (h : Copied l₀ l) (hempty : l.stream.buf = []) : Complete l₀ l := by
  obtain ⟨copied, hgiven, htaken⟩ := h
  rw [hempty, List.append_nil] at htaken
  exact ⟨copied, hgiven, htaken⟩

/-- What holds of a direction that began as `l₀`. With `D` the kernel keeps to the manual. -/
structure Inv (D : Prop) (l₀ l : Lane) : Prop where
  capacity : 0 < l.stream.capacity
  copied   : D → Copied l₀ l
  shut     : l.shut = true → l.stream.eof = true
  ended    : l.ended = true → l₀.ended = true ∨ l.stream.isEof = true
  closed   : l.closed = true → l₀.closed = true ∨ l.shut = true

/-- `data` is read from the source, and the stream is told if the source has ended. -/
structure Read (l l' : Lane) (data : Buffer) : Prop where
  taken  : l'.taken = l.taken ++ data
  buf    : l'.stream.buf = l.stream.buf ++ data
  isEof  : l'.stream.isEof = (l.stream.isEof || l'.ended)
  ended  : l.ended = true → l'.ended = true
  rest   : l'.given = l.given ∧ l'.stream.capacity = l.stream.capacity ∧ l'.stream.error = l.stream.error ∧
    l'.shut = l.shut ∧ l'.closed = l.closed

/-- `n` bytes have left the stream for the sink. -/
structure Written (D : Prop) (l l' : Lane) (n : Nat) : Prop where
  given  : ∃ piece, l'.given = l.given ++ piece ∧ (D → piece = l.stream.buf.take n)
  stream : l'.stream = l.stream.popOutput n
  rest   : l'.taken = l.taken ∧ l'.ended = l.ended

/-- What a rule leaves alone, its callback as well as its cancel callback. -/
def Frame : Job → Lane → Lane → Prop
  | .read,  l, l' => l'.shut = l.shut ∧ l'.stream.error = l.stream.error ∧ l'.closed = l.closed ∧
      (l.stream.isEof = true → l'.stream.isEof = true) ∧ (l.ended = true → l'.ended = true)
  | .write, l, l' => l'.stream.isEof = l.stream.isEof ∧ l'.ended = l.ended ∧
      (l.stream.error = true → l'.stream.error = true) ∧ (l.closed = true → l'.closed = true)

section Steps

variable {D : Prop} {l₀ l l' : Lane} {data : Buffer} {n : Nat}

theorem Read.frame (h : Read l l' data) : Frame .read l l' := by
  refine ⟨h.rest.2.2.2.1, h.rest.2.2.1, h.rest.2.2.2.2, fun hend => ?_, h.ended⟩
  rw [h.isEof, hend, Bool.true_or]

/-- Reading from a source whose stream has not ended. -/
theorem Inv.read (h : Inv D l₀ l) (hopen : l.stream.isEof = false) (hread : Read l l' data) : Inv D l₀ l' := by
  obtain ⟨hgiven, hcapacity, -, hshut, hclosed⟩ := hread.rest
  have hunshut : l.shut = false := by
    by_contra hshut
    have heof := (ByteStream.eof_iff _).mp (h.shut (by simpa using hshut))
    rw [hopen] at heof
    cases heof.1
  refine ⟨hcapacity ▸ h.capacity, fun hD => ?_, fun h => ?_, fun hend => ?_, fun hc => ?_⟩
  · obtain ⟨copied, hg, ht⟩ := h.copied hD
    refine ⟨copied, hgiven.trans hg, ?_⟩
    rw [hread.taken, hread.buf, ht, List.append_assoc]
  · rw [hshut, hunshut] at h
    cases h
  · rw [hread.isEof, hend, Bool.or_true]
    exact Or.inr rfl
  · rw [hshut]
    exact h.closed (hclosed ▸ hc)

/-- Writing, and shutting down the sink at most if nothing is left and nothing will come. -/
theorem Inv.written (h : Inv D l₀ l) (hwritten : Written D l l' n)
    (hshut : l'.shut = true → l'.stream.eof = true) (hclosed : l'.closed = true → l.closed = true ∨ l'.shut = true)
    (hmono : l.shut = true → l'.shut = true) : Inv D l₀ l' := by
  refine ⟨?_, fun hD => ?_, hshut, fun hend => ?_, fun hc => ?_⟩
  · rw [hwritten.stream]
    exact h.capacity
  · obtain ⟨copied, hg, ht⟩ := h.copied hD
    obtain ⟨piece, hgiven, hpiece⟩ := hwritten.given
    refine ⟨copied ++ piece, by rw [hgiven, hg, List.append_assoc], ?_⟩
    have hbuf : piece ++ l'.stream.buf = l.stream.buf := by
      rw [hwritten.stream, hpiece hD]
      exact List.take_append_drop n l.stream.buf
    rw [hwritten.rest.1, ht, ← hbuf]
    simp only [List.append_assoc]
  · rw [hwritten.stream]
    exact h.ended (hwritten.rest.2 ▸ hend)
  · rcases hclosed hc with hc | hs
    · exact (h.closed hc).imp id hmono
    · exact Or.inr hs

/-- What the rules need of a direction as long as they are there. -/
def Left : Job → Lane → Prop
  | .read,  l => l.stream.isEof = true → l.ended = true
  | .write, l => l.stream.error = false

/-- What they rely on when they are served. -/
def Ready : Job → Lane → Prop
  | .read,  l => l.stream.isEof = false
  | .write, l => l.shut = false

/-- What they leave behind when they are cancelled. -/
def Canceled : Job → Lane → Prop
  | .read,  l => l.stream.isEof = true
  | .write, l => l.stream.error = true

/-- Their descriptors are done with. -/
def Done : Job → Lane → Prop
  | .read,  l => l.ended = true
  | .write, l => l.closed = true

/-- A rule does not hinder the other rule of its direction. -/
theorem Frame.spares {j j' : Job} (h : Frame j l l') (hne : j' ≠ j) :
    (Left j' l → Left j' l') ∧ (Ready j' l → Ready j' l') := by
  cases j <;> cases j'
  · exact absurd rfl hne
  · exact ⟨fun hleft => h.2.1.trans hleft, fun hready => h.1.trans hready⟩
  · refine ⟨fun hleft hend => ?_, fun hready => h.1.trans hready⟩
    rw [h.2.1]
    exact hleft (h.1 ▸ hend)
  · exact absurd rfl hne

theorem Frame.canceled {j j' : Job} (h : Frame j l l') (hcanceled : Canceled j' l) : Canceled j' l' := by
  cases j <;> cases j'
  · exact h.2.2.2.1 hcanceled
  · exact h.2.1.trans hcanceled
  · exact h.1.trans hcanceled
  · exact h.2.2.1 hcanceled

theorem Frame.done {j j' : Job} (h : Frame j l l') (hdone : Done j' l) : Done j' l' := by
  cases j <;> cases j'
  · exact h.2.2.2.2 hdone
  · exact h.2.2.1.trans hdone
  · exact h.2.1.trans hdone
  · exact h.2.2.2 hdone

end Steps

end Lane

namespace StreamCopy

def lane (w : Way) (s : StreamCopy) : Lane where
  taken  := (s.source w).received
  given  := (s.sink w).calls.flatMap WritevCall.taken
  stream := s.stream w
  ended  := (s.source w).eof
  shut   := s.shut w
  closed := (s.sink w).closed

variable {s s' : StreamCopy} {w : Way}

section Access

variable (fd : FDWrapper) (b : ByteStream)

@[simp] theorem stream_setStream : (s.setStream w b).stream w = b := by cases w <;> rfl
@[simp] theorem setStream_setStream (b' : ByteStream) : (s.setStream w b).setStream w b' = s.setStream w b' := by
  cases w <;> rfl
@[simp] theorem stream_setSource : (s.setSource w fd).stream w = s.stream w := by cases w <;> rfl
@[simp] theorem stream_setSink : (s.setSink w fd).stream w = s.stream w := by cases w <;> rfl
@[simp] theorem source_setStream : (s.setStream w b).source w = s.source w := by cases w <;> rfl
@[simp] theorem source_setSource : (s.setSource w fd).source w = fd := by cases w <;> rfl
@[simp] theorem sink_setStream : (s.setStream w b).sink w = s.sink w := by cases w <;> rfl
@[simp] theorem sink_setSink : (s.setSink w fd).sink w = fd := by cases w <;> rfl
@[simp] theorem sink_setShut : (s.setShut w).sink w = s.sink w := by cases w <;> rfl
@[simp] theorem setSource_source : s.setSource w (s.source w) = s := by cases w <;> rfl
@[simp] theorem setSink_sink : s.setSink w (s.sink w) = s := by cases w <;> rfl

end Access

theorem lane_setStream (b : ByteStream) : (s.setStream w b).lane w = { s.lane w with stream := b } := by
  cases w <;> rfl

theorem lane_setShut : (s.setShut w).lane w = { s.lane w with shut := true } := by
  cases w <;> rfl

theorem lane_setSource (fd : FDWrapper) :
    (s.setSource w fd).lane w = { s.lane w with taken := fd.received, ended := fd.eof } := by
  cases w <;> rfl

theorem lane_setSink (fd : FDWrapper) :
    (s.setSink w fd).lane w = { s.lane w with given := fd.calls.flatMap WritevCall.taken, closed := fd.closed } := by
  cases w <;> rfl

/-- What was done for one direction leaves the other one as it was, and does not close a source. -/
structure Beside (w : Way) (s s' : StreamCopy) : Prop where
  round   : s'.round = s.round
  other   : s'.lane w.other = s.lane w.other
  sources : ∀ w, (s'.source w).closed = (s.source w).closed

theorem Beside.trans {s'' : StreamCopy} (h : Beside w s s') (h' : Beside w s' s'') : Beside w s s'' :=
  ⟨h'.round.trans h.round, h'.other.trans h.other, fun w => (h'.sources w).trans (h.sources w)⟩

theorem beside_setStream (b : ByteStream) : Beside w s (s.setStream w b) := by
  cases w <;> exact ⟨rfl, rfl, fun w => by cases w <;> rfl⟩

theorem beside_setShut : Beside w s (s.setShut w) := by
  cases w <;> exact ⟨rfl, rfl, fun w => by cases w <;> rfl⟩

/-- Reading from the socket does not write to it. -/
theorem beside_setSource {fd : FDWrapper} (hcalls : fd.calls = (s.source w).calls)
    (hclosed : fd.closed = (s.source w).closed) : Beside w s (s.setSource w fd) := by
  cases w with
  | outbound => exact ⟨rfl, rfl, fun w => by cases w with | outbound => exact hclosed | inbound => rfl⟩
  | inbound =>
      refine ⟨rfl, ?_, fun w => by cases w with | outbound => rfl | inbound => exact hclosed⟩
      show Lane.mk _ (fd.calls.flatMap WritevCall.taken) _ _ _ fd.closed = _
      rw [hcalls, hclosed]
      rfl

/-- Writing to the socket does not read from it. -/
theorem beside_setSink {fd : FDWrapper} (hreceived : fd.received = (s.sink w).received)
    (heof : w = .outbound → fd.eof = (s.sink w).eof ∧ fd.closed = (s.sink w).closed) : Beside w s (s.setSink w fd) := by
  cases w with
  | outbound =>
      refine ⟨rfl, ?_, fun w => by cases w with | outbound => rfl | inbound => exact (heof rfl).2⟩
      show Lane.mk fd.received _ _ fd.eof _ _ = _
      rw [hreceived, (heof rfl).1]
      rfl
  | inbound => exact ⟨rfl, rfl, fun w => by cases w <;> rfl⟩

/-- A `writev` is recorded in the sink: the socket is not read from, and only what was given to the sink grows. -/
theorem setSink_written {fd : FDWrapper} {c : WritevCall} {count : UInt32}
    (hfd : fd = { s.sink w with writeCount := count, calls := (s.sink w).calls ++ [c] }) :
    Beside w s (s.setSink w fd) ∧ (s.setSink w fd).lane w = { s.lane w with given := (s.lane w).given ++ c.taken } := by
  subst hfd
  refine ⟨beside_setSink rfl fun _ => ⟨rfl, rfl⟩, ?_⟩
  rw [lane_setSink, List.flatMap_append, List.flatMap_singleton]
  rfl

/-! ## What the callbacks do -/

/-- **Rules 1 and 3.** A read that fails has changed nothing. -/
theorem readInto_ends (w : Way) (s : StreamCopy) :
    Ends (readInto w s)
      (fun _ s' => Beside w s s' ∧ (∃ data, Lane.Read (s.lane w) (s'.lane w) data) ∧
        (s'.source w).readCount ≠ (s.source w).readCount)
      (fun e s' => s' = s ∧ Thrown s.round e s) := by
  have hread := Ends.zoom (setSource w) s
    (FDWrapper.read_ends (s.round.read w) (s.stream w).remainingCapacity (s.source w)).and_self
  show Ends ((zoom (source w) (setSource w)
    (FDWrapper.read (s.round.read w) (s.stream w).remainingCapacity) >>= _) s) _ _
  refine (hread.mono (fun _ _ h => h) ?_).bind ?_
  · rintro e _ ⟨fd, rfl, rfl, hres⟩
    exact ⟨setSource_source, .read w ⟨_, hres⟩⟩
  · rintro data _ ⟨fd, rfl, ⟨hlen, -, hfd⟩, -⟩
    have hall : (s.stream w).writeLen data.length = data.length := by
      rw [ByteStream.writeLen_eq_min]
      exact Nat.min_eq_left hlen
    have hcount : fd.readCount ≠ (s.source w).readCount := by
      rw [hfd]
      exact (s.source w).readCount_registerRead_ne
    have hread (b : ByteStream) (hbuf : b.buf = (s.stream w).buf ++ data)
        (hisEof : b.isEof = ((s.stream w).isEof || fd.eof)) (hcapacity : b.capacity = (s.stream w).capacity)
        (herror : b.error = (s.stream w).error) :
        Lane.Read (s.lane w) (((s.setSource w fd).setStream w b).lane w) data := by
      rw [lane_setStream, lane_setSource]
      refine ⟨by rw [hfd]; rfl, hbuf, hisEof, fun hend => ?_, rfl, hcapacity, herror, rfl, rfl⟩
      rw [hfd]
      exact Bool.or_eq_true_iff.mpr (Or.inl hend)
    have hbeside : Beside w s (s.setSource w fd) := beside_setSource (by rw [hfd]; rfl) (by rw [hfd]; rfl)
    have hbuf : ((s.stream w).write data).1.buf = (s.stream w).buf ++ data := by
      rw [ByteStream.write_buf, hall, List.take_length]
    show Ends ((if _ then endInput w else pure () : EStateM Failure StreamCopy Unit) _) _ _
    simp only [stream_setSource]
    split
    · next hend =>
        rw [source_setStream, source_setSource] at hend
        refine ⟨(hbeside.trans (beside_setStream _)).trans (beside_setStream _), ⟨data, ?_⟩, ?_⟩
        · beta_reduce
          rw [setStream_setStream, stream_setStream]
          exact hread _ hbuf (by rw [hend, Bool.or_true]; rfl) rfl rfl
        · rw [source_setStream, source_setStream, source_setSource]
          exact hcount
    · next hend =>
        rw [source_setStream, source_setSource] at hend
        refine ⟨hbeside.trans (beside_setStream _), ⟨data, ?_⟩, ?_⟩
        · exact hread _ hbuf (by rw [Bool.eq_false_of_not_eq_true hend, Bool.or_false]; rfl) rfl rfl
        · rw [source_setStream, source_setSource]
          exact hcount

/-- The end of what is written, the only difference between the directions: standard output is closed. -/
theorem finish_ends (w : Way) (r : SysResult) (fd : FDWrapper) :
    Ends (finish w r fd)
      (fun _ fd' => fd'.received = fd.received ∧ fd'.calls = fd.calls ∧
        (w = .outbound → fd'.eof = fd.eof ∧ fd'.closed = fd.closed) ∧ (fd.closed = true → fd'.closed = true) ∧
        (fd'.writeCount = fd.writeCount ∨ fd'.writeCount = fd.writeCount + 1))
      (fun _ fd' => fd' = fd) := by
  cases w with
  | outbound =>
      refine (FDWrapper.shutdown_wr_ends r fd).mono ?_ fun _ _ h => h
      rintro _ _ rfl
      exact ⟨rfl, rfl, fun _ => ⟨rfl, rfl⟩, id, Or.inr rfl⟩
  | inbound =>
      refine (FDWrapper.close_ends r fd).mono ?_ fun _ _ h => h
      rintro _ _ rfl
      exact ⟨rfl, rfl, (nomatch ·), fun _ => rfl, Or.inl rfl⟩

/-- The sink is shut down, or closed, and this is noted. -/
theorem finishSink_ends (w : Way) (r : SysResult) (s : StreamCopy) :
    Ends ((do zoom (sink w) (setSink w) (finish w r); modify (setShut w)) s)
      (fun _ s' => Beside w s s' ∧
        (∃ closed, s'.lane w = { s.lane w with closed, shut := true } ∧ ((s.lane w).closed = true → closed = true)) ∧
        ((s'.sink w).writeCount = (s.sink w).writeCount ∨ (s'.sink w).writeCount = (s.sink w).writeCount + 1))
      (fun e s' => s' = s ∧ Threw (finish w r) e (s.sink w)) := by
  refine ((Ends.zoom (setSink w) s (finish_ends w r (s.sink w)).and_self).mono (fun _ _ h => h) ?_).bind ?_
  · rintro e _ ⟨_, rfl, rfl, hres⟩
    exact ⟨setSink_sink, _, hres⟩
  · rintro _ _ ⟨fd, rfl, ⟨hreceived, hcalls, heof, hmono, hcount⟩, -⟩
    refine ⟨(beside_setSink hreceived heof).trans beside_setShut, ⟨fd.closed, ?_, hmono⟩, ?_⟩
    · show ((s.setSink w fd).setShut w).lane w = _
      rw [lane_setShut, lane_setSink, hcalls]
      rfl
    · show ((((s.setSink w fd).setShut w).sink w).writeCount = _ ∨ (((s.setSink w fd).setShut w).sink w).writeCount = _)
      rw [sink_setShut, sink_setSink]
      exact hcount

/-- This is done if nothing is left and nothing will come. -/
theorem finishAtEof_ends (w : Way) (r : SysResult) (s : StreamCopy) :
    Ends ((if (s.stream w).eof = true then (do zoom (sink w) (setSink w) (finish w r); modify (setShut w))
        else pure () : EStateM Failure StreamCopy Unit) s)
      (fun _ s' => Beside w s s' ∧
        (∃ closed, s'.lane w = { s.lane w with closed, shut := (s.lane w).shut || (s.stream w).eof } ∧
          ((s.lane w).closed = true → closed = true) ∧
          (closed = true → (s.lane w).closed = true ∨ (s.stream w).eof = true)) ∧
        ((s'.sink w).writeCount = (s.sink w).writeCount ∨ (s'.sink w).writeCount = (s.sink w).writeCount + 1))
      (fun e s' => s' = s ∧ Threw (finish w r) e (s.sink w)) := by
  split
  · next hend =>
      refine (finishSink_ends w r s).mono ?_ fun _ _ h => h
      rintro _ s' ⟨hbeside, ⟨closed, hlane, hmono⟩, hcount⟩
      rw [hend, Bool.or_true]
      exact ⟨hbeside, ⟨closed, hlane, hmono, fun _ => Or.inr rfl⟩, hcount⟩
  · next hend =>
      rw [Bool.eq_false_of_not_eq_true hend, Bool.or_false]
      exact ⟨⟨rfl, rfl, fun _ => rfl⟩, ⟨(s.lane w).closed, rfl, id, Or.inl⟩, Or.inl rfl⟩

/-- **Rules 2 and 4.** The sink is shut down, or closed, only if nothing is left and nothing will come. -/
theorem writeFrom_ends {D : Prop} (w : Way) (s : StreamCopy) (hdoc : D → s.round.Documented) :
    Ends (writeFrom w s)
      (fun _ s' => Beside w s s' ∧ (∃ n, Lane.Written D (s.lane w) (s'.lane w) n) ∧
        (s'.lane w).shut = ((s.lane w).shut || (s'.lane w).stream.eof) ∧
        ((s.lane w).closed = true → (s'.lane w).closed = true) ∧
        ((s'.lane w).closed = true → (s.lane w).closed = true ∨ (s'.lane w).shut = true) ∧
        (s'.sink w).writeCount ≠ (s.sink w).writeCount)
      (fun e s' => Beside w s s' ∧ (∃ n, Lane.Written D (s.lane w) (s'.lane w) n) ∧
        (s'.lane w).shut = (s.lane w).shut ∧ (s'.lane w).closed = (s.lane w).closed ∧ Thrown s.round e s') := by
  have hfront := FDWrapper.write_front_ends (by decide : maxCopyLength < 2 ^ 31) (fun hD => hdoc hD w)
    (s.stream w).buf (s.sink w)
  have hwrite := Ends.zoom (setSink w) s hfront.and_self
  show Ends ((zoom (sink w) (setSink w) (FDWrapper.write (s.round.writev w) (BufferViewList.ofString
    ((s.stream w).buf.take (min maxCopyLength (s.stream w).buf.length))) false) >>= _) s) _ _
  refine (hwrite.mono (fun _ _ h => h) ?_).bind ?_
  · rintro e _ ⟨fd, rfl, ⟨c, count, hfd, htaken⟩, hres⟩
    obtain ⟨hbeside, hlane⟩ := setSink_written hfd
    rw [hlane]
    refine ⟨hbeside, ⟨0, ?_⟩, rfl, rfl, .write w ?_⟩
    · exact ⟨⟨c.taken, rfl, fun hD => (htaken hD).trans List.take_zero.symm⟩, rfl, rfl, rfl⟩
    · rw [stream_setSink, sink_setSink]
      exact ⟨s.sink w, hres⟩
  · rintro n _ ⟨fd, rfl, ⟨hn, c, hfd, htaken⟩, -⟩
    obtain ⟨hbeside, hlane⟩ := setSink_written hfd
    -- the state after the bytes were removed
    obtain ⟨s₁, hs₁⟩ : ∃ s₁, s₁ = (s.setSink w fd).setStream w ((s.stream w).popOutput n) := ⟨_, rfl⟩
    replace hbeside : Beside w s s₁ := hs₁ ▸ hbeside.trans (beside_setStream _)
    replace hlane : s₁.lane w = { s.lane w with
        given := (s.lane w).given ++ c.taken, stream := (s.stream w).popOutput n } := by
      rw [hs₁, lane_setStream, hlane]
    have hcount : (s₁.sink w).writeCount = (s.sink w).writeCount + 1 := by
      rw [hs₁, sink_setStream, sink_setSink, hfd]
    have hwritten : Lane.Written D (s.lane w) (s₁.lane w) n := by
      rw [hlane]
      exact ⟨⟨c.taken, rfl, htaken⟩, rfl, rfl, rfl⟩
    have hshut : (s₁.lane w).shut = (s.lane w).shut := by rw [hlane]
    have hclosed : (s₁.lane w).closed = (s.lane w).closed := by rw [hlane]
    show Ends ((if _ then _ else _ : EStateM Failure StreamCopy Unit) _) _ _
    simp only [stream_setSink, ← hs₁]
    refine (finishAtEof_ends w (s.round.finish w) s₁).mono ?_ ?_
    · rintro _ s₂ ⟨hbeside', ⟨closed, hlane', hmono, hwhy⟩, hcount'⟩
      rw [hclosed] at hmono hwhy
      rw [hlane', hshut]
      refine ⟨hbeside.trans hbeside', ⟨n, hwritten.given, hwritten.stream, hwritten.rest⟩, rfl, hmono, ?_, ?_⟩
      · exact fun hc => (hwhy hc).imp id fun hend => Bool.or_eq_true_iff.mpr (Or.inr hend)
      · rw [hcount] at hcount'
        rcases hcount' with hcount' | hcount'
        · rw [hcount']
          simp
        · rw [hcount', add_assoc]
          simp
    · rintro e _ ⟨rfl, hthrew⟩
      exact ⟨hbeside, ⟨n, hwritten⟩, hshut, hclosed, .finish w hthrew⟩

/-! ## The rules by direction -/

def ruleOf : Job → Way → Rule StreamCopy
  | .read,  w => readRule w
  | .write, w => writeRule w

/-- Different rules are different: they have other descriptors, or look for another event. -/
theorem ruleOf_inj {j j' : Job} {w w' : Way} (h : ruleOf j w = ruleOf j' w') : j = j' ∧ w = w' := by
  have hdirection : (ruleOf j w).direction = (ruleOf j' w').direction := congrArg Rule.direction h
  have hfd : ((ruleOf j w).fd { socket := { fdNum := 3 } }).fdNum =
      ((ruleOf j' w').fd { socket := { fdNum := 3 } }).fdNum := by rw [h]
  cases j <;> cases j' <;> cases w <;> cases w' <;> first
    | exact ⟨rfl, rfl⟩
    | exact absurd hdirection (by decide)
    | exact absurd hfd (by decide)

/-- The rules in their order. -/
def jobs : List (Job × Way) := [(.read, .outbound), (.write, .outbound), (.read, .inbound), (.write, .inbound)]

theorem rules_eq : rules = jobs.map fun p => ruleOf p.1 p.2 := rfl

theorem mem_rules {rule : Rule StreamCopy} (h : rule ∈ rules) : ∃ j w, rule = ruleOf j w := by
  rw [rules_eq, List.mem_map] at h
  obtain ⟨p, -, rfl⟩ := h
  exact ⟨p.1, p.2, rfl⟩

theorem ruleOf_mem (j : Job) (w : Way) : ruleOf j w ∈ rules := by
  have hmem : (j, w) ∈ jobs := by cases j <;> cases w <;> decide
  rw [rules_eq]
  exact List.mem_map_of_mem (f := fun p => ruleOf p.1 p.2) hmem

/-- In each direction, the rule that reads comes before the one that writes. -/
theorem pairwise_rules {R : Rule StreamCopy → Rule StreamCopy → Prop}
    (h : ∀ j j' w w', (w = w' → j = .read ∧ j' = .write) → R (ruleOf j w) (ruleOf j' w')) : rules.Pairwise R := by
  have horder : jobs.Pairwise fun p q => p.2 = q.2 → p.1 = .read ∧ q.1 = .write := by decide
  rw [rules_eq, List.pairwise_map]
  exact horder.imp fun hpq => h _ _ _ _ hpq

/-- What is said of the job of a rule and its direction. -/
def Has (P : Job → Lane → Prop) (rule : Rule StreamCopy) (s : StreamCopy) : Prop :=
  ∀ j w, rule = ruleOf j w → P j (s.lane w)

theorem has_iff {P : Job → Lane → Prop} {j : Job} {w : Way} {s : StreamCopy} :
    Has P (ruleOf j w) s ↔ P j (s.lane w) := by
  refine ⟨fun h => h j w rfl, fun h j' w' heq => ?_⟩
  obtain ⟨rfl, rfl⟩ := ruleOf_inj heq
  exact h

/-- What a rule does to the state, whatever it is called for. -/
structure Touches (j : Job) (w : Way) (s s' : StreamCopy) : Prop extends Beside w s s' where
  frame : Lane.Frame j (s.lane w) (s'.lane w)

theorem cancel_touches {j : Job} (h : (ruleOf j w).cancel s = .ok () s') : Touches j w s s' := by
  cases j with
  | read =>
      obtain rfl : s.setStream w (s.stream w).endInput = s' := by injection h
      refine ⟨beside_setStream _, ?_⟩
      rw [lane_setStream]
      exact ⟨rfl, rfl, rfl, fun _ => rfl, id⟩
  | write =>
      obtain rfl : s.setStream w (s.stream w).setError = s' := by injection h
      refine ⟨beside_setStream _, ?_⟩
      rw [lane_setStream]
      exact ⟨rfl, rfl, fun _ => rfl, id⟩

theorem callback_touches {j : Job} (h : (ruleOf j w).callback s = .ok () s') : Touches j w s s' := by
  cases j with
  | read =>
      obtain ⟨hbeside, ⟨data, hread⟩, -⟩ := (readInto_ends w s).of_ok h
      exact ⟨hbeside, hread.frame⟩
  | write =>
      obtain ⟨hbeside, ⟨n, hwritten⟩, -, hclosed, -⟩ := (writeFrom_ends (D := False) w s (nomatch ·)).of_ok h
      refine ⟨hbeside, ?_, hwritten.rest.2, ?_, hclosed⟩
      · rw [hwritten.stream]
        rfl
      · rw [hwritten.stream]
        exact id

/-- What a rule needs is not destroyed by what another one does. -/
theorem Touches.spares {j j' : Job} {w' : Way} (h : Touches j w s s') (hne : ruleOf j' w' ≠ ruleOf j w) :
    (Has Lane.Left (ruleOf j' w') s → Has Lane.Left (ruleOf j' w') s') ∧
      (Has Lane.Ready (ruleOf j' w') s → Has Lane.Ready (ruleOf j' w') s') := by
  simp only [has_iff]
  by_cases hw : w' = w
  · subst hw
    exact h.frame.spares fun hj => hne (hj ▸ rfl)
  · rw [Way.eq_other hw, h.other]
    exact ⟨id, id⟩

/-- What no rule destroys in its own direction, no rule destroys. -/
theorem Touches.keeps {P : Job → Lane → Prop} (hP : ∀ j j' l l', Lane.Frame j l l' → P j' l → P j' l') {j : Job}
    (h : Touches j w s s') {rule : Rule StreamCopy} (hrule : Has P rule s) : Has P rule s' := by
  intro j' w' heq
  have hbefore := hrule j' w' heq
  by_cases hw : w' = w
  · subst hw
    exact hP _ _ _ _ h.frame hbefore
  · rw [Way.eq_other hw] at hbefore ⊢
    rwa [h.other]

theorem Touches.canceled {j : Job} (h : Touches j w s s') {rule : Rule StreamCopy} :
    Has Lane.Canceled rule s → Has Lane.Canceled rule s' :=
  h.keeps (P := Lane.Canceled) fun _ _ _ _ hframe => hframe.canceled

theorem Touches.done {j : Job} (h : Touches j w s s') {rule : Rule StreamCopy} :
    Has Lane.Done rule s → Has Lane.Done rule s' :=
  h.keeps (P := Lane.Done) fun _ _ _ _ hframe => hframe.done

/-! ## The invariant -/

/-- What holds at any time of a call that began in `s₀`. -/
structure Inv (D : Prop) (s₀ : StreamCopy) (r : CopyRound) (s : StreamCopy) : Prop where
  round   : s.round = r
  lanes   : ∀ w, Lane.Inv D (s₀.lane w) (s.lane w)
  sources : ∀ w, (s.source w).closed = (s₀.source w).closed

section Keeps

variable {D : Prop} {s₀ : StreamCopy} {r : CopyRound}

theorem Inv.beside (h : Inv D s₀ r s) (hbeside : Beside w s s') (hlane : Lane.Inv D (s₀.lane w) (s'.lane w)) :
    Inv D s₀ r s' := by
  refine ⟨hbeside.round.trans h.round, fun w' => ?_, fun w' => (hbeside.sources w').trans (h.sources w')⟩
  by_cases hw : w' = w
  · rwa [hw]
  · rw [Way.eq_other hw, hbeside.other]
    exact h.lanes w.other

theorem callback_ends (hdoc : D → r.Documented) {j : Job} (h : Inv D s₀ r s) (hleft : Lane.Left j (s.lane w))
    (hready : Lane.Ready j (s.lane w)) :
    Ends ((ruleOf j w).callback s)
      (fun _ s' => Inv D s₀ r s' ∧ Lane.Left j (s'.lane w) ∧
        (ruleOf j w).serviceCount s' ≠ (ruleOf j w).serviceCount s)
      (fun e s' => Inv D s₀ r s' ∧ Thrown r e s') := by
  cases j with
  | read =>
      refine (readInto_ends w s).mono ?_ ?_
      · rintro _ s' ⟨hbeside, ⟨data, hread⟩, hcount⟩
        refine ⟨h.beside hbeside ((h.lanes w).read hready hread), fun hend => ?_, hcount⟩
        rwa [hread.isEof, hready, Bool.false_or] at hend
      · rintro e _ ⟨rfl, hthrown⟩
        exact ⟨h, h.round ▸ hthrown⟩
  | write =>
      have hunshut : (s.lane w).shut = true → False := fun hshut => nomatch hready.symm.trans hshut
      refine (writeFrom_ends w s fun hD => h.round ▸ hdoc hD).mono ?_ ?_
      · rintro _ s' ⟨hbeside, ⟨n, hwritten⟩, hshut, -, hclosed, hcount⟩
        refine ⟨h.beside hbeside ((h.lanes w).written hwritten ?_ hclosed fun hs => (hunshut hs).elim), ?_, hcount⟩
        · intro hs
          rwa [hshut, hready, Bool.false_or] at hs
        · show (s'.lane w).stream.error = false
          rw [hwritten.stream]
          exact hleft
      · rintro e s' ⟨hbeside, ⟨n, hwritten⟩, hshut, hclosed, hthrown⟩
        exact ⟨h.beside hbeside ((h.lanes w).written hwritten (fun hs => (hunshut (hshut ▸ hs)).elim)
          (fun hc => Or.inl (hclosed ▸ hc)) fun hs => (hunshut hs).elim), h.round ▸ hthrown⟩

theorem cancel_ends {j : Job} (h : Inv D s₀ r s) :
    Ends ((ruleOf j w).cancel s) (fun _ s' => Inv D s₀ r s' ∧ Lane.Canceled j (s'.lane w)) (fun _ _ => False) := by
  have hlane := h.lanes w
  cases j with
  | read =>
      refine ⟨h.beside (beside_setStream _) ?_, ?_⟩
      · rw [lane_setStream]
        refine ⟨hlane.capacity, hlane.copied, fun hs => ?_, fun _ => Or.inr rfl, hlane.closed⟩
        have heof := (ByteStream.eof_iff _).mp (hlane.shut hs)
        exact (ByteStream.eof_iff _).mpr ⟨rfl, heof.2⟩
      · rw [lane_setStream]
        rfl
  | write =>
      refine ⟨h.beside (beside_setStream _) ?_, ?_⟩
      · rw [lane_setStream]
        exact ⟨hlane.capacity, hlane.copied, hlane.shut, hlane.ended, hlane.closed⟩
      · rw [lane_setStream]
        rfl

/-- A rule that is interested has what it relies on. -/
theorem ready_of_interest {j : Job} (h : Inv D s₀ r s) (hleft : Lane.Left j (s.lane w))
    (hlive : (ruleOf j w).exhausted s = false) (hinterest : (ruleOf j w).interest s = true) :
    Lane.Ready j (s.lane w) := by
  cases j with
  | read =>
      simp only [Rule.exhausted, ruleOf, readRule, beq_self_eq_true, Bool.true_and, Bool.or_eq_false_iff] at hlive
      by_contra hend
      exact nomatch hlive.1.symm.trans (hleft (Bool.eq_true_of_not_eq_false hend))
  | write =>
      by_contra hshut
      have hshut' : s.shut w = true := Bool.eq_true_of_not_eq_false hshut
      have heof : (s.stream w).eof = true := (h.lanes w).shut hshut'
      have hempty : (s.stream w).bufferEmpty = true := (Bool.and_eq_true_iff.mp heof).2
      simp only [ruleOf, writeRule, hempty, hshut', Bool.not_true, Bool.and_false, Bool.or_self] at hinterest
      cases hinterest

theorem ruleOf_ne {j j' : Job} {w w' : Way} (h : w = w' → j = .read ∧ j' = .write) : ruleOf j' w' ≠ ruleOf j w := by
  intro heq
  obtain ⟨rfl, rfl⟩ := ruleOf_inj heq
  obtain ⟨hread, hwrite⟩ := h rfl
  exact nomatch hread.symm.trans hwrite

/-- **The rules keep the invariant**, and what they throw comes from an operation in this round. -/
theorem keeps_rules (hdoc : D → r.Documented) :
    EventLoop.Keeps (Inv D s₀ r) (Has Lane.Left) (Has Lane.Ready) (Has Lane.Canceled)
      (fun e s => Inv D s₀ r s ∧ Thrown r e s) rules where
  interest := by
    intro rule hrule s hI hleft hlive hinterest
    obtain ⟨j, w, rfl⟩ := mem_rules hrule
    rw [has_iff] at hleft ⊢
    exact ready_of_interest hI hleft hlive hinterest
  callback := by
    intro rule hrule s hI hleft hready
    obtain ⟨j, w, rfl⟩ := mem_rules hrule
    refine (callback_ends hdoc hI (has_iff.mp hleft) (has_iff.mp hready)).mono ?_ fun _ _ h => h
    exact fun _ s' h => ⟨h.1, has_iff.mpr h.2.1, Or.inl h.2.2⟩
  cancel := by
    intro rule hrule s hI
    obtain ⟨j, w, rfl⟩ := mem_rules hrule
    exact (cancel_ends hI).mono (fun _ s' h => ⟨h.1, has_iff.mpr h.2⟩) fun _ _ h => h.elim
  apart := by
    refine pairwise_rules fun j j' w w' horder => ?_
    have hlater := ruleOf_ne horder
    constructor
    · exact ⟨fun s s' _ hleft hran => ((callback_touches hran).spares hlater).1 hleft,
        fun s s' _ hready hran => ((callback_touches hran).spares hlater).2 hready⟩
    · exact fun s s' _ hleft hran => ((callback_touches hran).spares hlater.symm).1 hleft
    · exact ⟨fun s s' _ hleft hran => ((cancel_touches hran).spares hlater).1 hleft,
        fun s s' _ hready hran => ((cancel_touches hran).spares hlater).2 hready⟩
    · exact ⟨fun s s' _ hleft hran => ((cancel_touches hran).spares hlater.symm).1 hleft,
        fun s s' _ hready hran => ((cancel_touches hran).spares hlater.symm).2 hready⟩
  gone := by
    intro rule hrule other hother
    obtain ⟨j, w, rfl⟩ := mem_rules hrule
    obtain ⟨j', w', rfl⟩ := mem_rules hother
    exact ⟨fun s s' _ hgone hran => (callback_touches hran).canceled hgone,
      fun s s' _ hgone hran => (cancel_touches hran).canceled hgone⟩

end Keeps

end StreamCopy

/-! ## Whole calls -/

namespace Copier

open StreamCopy

/-- What holds of a call that began in `s₀`, after any number of rounds. As long as it has not failed, each rule is
    there or was cancelled. -/
structure Inv (D : Prop) (s₀ : StreamCopy) (c : Copier) : Prop where
  state     : ∃ r, StreamCopy.Inv D s₀ r c.state
  sub       : c.loop.rules.Sublist rules
  left      : (∀ e, c.ended ≠ some (.error e)) → ∀ rule ∈ c.loop.rules, Has Lane.Left rule c.state
  accounted : (∀ e, c.ended ≠ some (.error e)) → EventLoop.Accounted (Has Lane.Canceled) rules c.loop.rules c.state

variable {D : Prop} {s₀ : StreamCopy} {c : Copier} {r₀ r : CopyRound}

theorem lane_round (s : StreamCopy) (w : Way) : StreamCopy.lane w { s with round := r } = s.lane w := by
  cases w <;> rfl

theorem has_round {P : Job → Lane → Prop} {rule : Rule StreamCopy} {s : StreamCopy} (h : Has P rule s) :
    Has P rule { s with round := r } := by
  intro j w heq
  rw [lane_round]
  exact h j w heq

/-- A new round begins. -/
theorem begin_inv {s : StreamCopy} (h : StreamCopy.Inv D s₀ r₀ s) : StreamCopy.Inv D s₀ r { s with round := r } := by
  refine ⟨rfl, fun w => ?_, fun w => (by cases w <;> rfl : _ = _).trans (h.sources w)⟩
  rw [lane_round s w]
  exact h.lanes w

/-- A round of the loop. -/
theorem Inv.round_ends (h : Inv D s₀ c) (hdoc : D → r.Documented) (hrunning : ∀ e, c.ended ≠ some (.error e)) :
    Ends (EventLoop.waitNextEvent r.poll c.loop { c.state with round := r })
      (fun out s' => StreamCopy.Inv D s₀ r s' ∧ out.2.rules.Sublist rules ∧
        (∀ rule ∈ out.2.rules, Has Lane.Left rule s') ∧ EventLoop.Accounted (Has Lane.Canceled) rules out.2.rules s')
      (fun e s' => StreamCopy.Inv D s₀ r s' ∧ Thrown r e s') := by
  obtain ⟨r₀, hstate⟩ := h.state
  have hrules : EventLoop.Keeps (StreamCopy.Inv D s₀ r) (Has Lane.Left) (Has Lane.Ready) (Has Lane.Canceled)
      (fun e s => StreamCopy.Inv D s₀ r s ∧ Thrown r e s) rules := keeps_rules hdoc
  have hkeeps : EventLoop.Keeps
      (fun s => StreamCopy.Inv D s₀ r s ∧ EventLoop.Accounted (Has Lane.Canceled) rules c.loop.rules s) _ _ _ _
      c.loop.rules := hrules.and_accounted h.sub
  refine (EventLoop.waitNextEvent_keeps r.poll hkeeps
    ⟨begin_inv hstate, fun rule hrule => (h.accounted hrunning rule hrule).imp id has_round⟩
    fun rule hrule => has_round (h.left hrunning rule hrule)).mono ?_ ?_
  · rintro out s' ⟨⟨hI, hbefore⟩, hsub, hleft, hall⟩
    exact ⟨hI, hsub.trans h.sub, hleft, hbefore.trans hall⟩
  · rintro e s' (hthrown | ⟨⟨hI, -⟩, he, hreported⟩)
    · exact hthrown
    · exact ⟨hI, .poll he hreported⟩

/-- **A round of a call.** -/
theorem Inv.advance (h : Inv D s₀ c) (hdoc : D → r.Documented) : Inv D s₀ (c.advance r) := by
  unfold Copier.advance
  cases hended : c.ended with
  | some result => exact h
  | none =>
      have hround := h.round_ends hdoc (by rw [hended]; exact fun _ => (nomatch ·))
      dsimp only
      cases hres : EventLoop.waitNextEvent r.poll c.loop { c.state with round := r } with
      | ok out state =>
          obtain ⟨result, loop⟩ := out
          rw [hres] at hround
          obtain ⟨hI, hsub, hleft, hall⟩ := hround
          exact ⟨⟨r, hI⟩, hsub, fun _ => hleft, fun _ => hall⟩
      | error e state =>
          rw [hres] at hround
          exact ⟨⟨r, hround.1⟩, h.sub, fun hok => absurd rfl (hok e), fun hok => absurd rfl (hok e)⟩

/-- If the call has failed, then by an exception from one of these rounds. -/
def Blames (rounds : List CopyRound) (c : Copier) : Prop :=
  ∀ e, c.ended = some (.error e) → ∃ r ∈ rounds, Thrown r e c.state

/-- **A call that fails in a round** does so by an exception from an operation in this round. -/
theorem Blames.advance {rounds : List CopyRound} (hblames : Blames rounds c) (h : Inv D s₀ c)
    (hdoc : D → r.Documented) : Blames (rounds ++ [r]) (c.advance r) := by
  unfold Copier.advance
  cases hended : c.ended with
  | some result =>
      intro e hfailed
      obtain ⟨r', hr', hthrown⟩ := hblames e hfailed
      exact ⟨r', List.mem_append_left [r] hr', hthrown⟩
  | none =>
      have hround := h.round_ends hdoc (by rw [hended]; exact fun _ => (nomatch ·))
      dsimp only
      cases hres : EventLoop.waitNextEvent r.poll c.loop { c.state with round := r } with
      | ok out state =>
          intro e hfailed
          dsimp only at hfailed
          split at hfailed <;> cases hfailed
      | error e state =>
          rw [hres] at hround
          intro e' hfailed
          obtain rfl := Except.error.inj (Option.some.inj hfailed)
          exact ⟨r, List.mem_append_right rounds List.mem_cons_self, hround.2⟩

theorem inv_init (D : Prop) (socket : FDWrapper) :
    Inv D (bidirectionalStreamCopy socket).state (bidirectionalStreamCopy socket) where
  state := by
    refine ⟨{}, rfl, fun w => ?_, fun _ => rfl⟩
    have hstream : (bidirectionalStreamCopy socket).state.stream w = ByteStream.ofCapacity 1048576 := by
      cases w <;> rfl
    have hshut : (bidirectionalStreamCopy socket).state.shut w = false := by
      cases w <;> rfl
    refine ⟨?_, fun _ => ⟨[], (List.append_nil _).symm, ?_⟩, ?_, Or.inl, Or.inl⟩
    · show 0 < ((bidirectionalStreamCopy socket).state.stream w).capacity
      rw [hstream]
      decide
    · show _ = _ ++ [] ++ ((bidirectionalStreamCopy socket).state.stream w).buf
      rw [hstream, List.append_nil]
      exact (List.append_nil _).symm
    · intro hset
      exact absurd (hshut.symm.trans hset) Bool.false_ne_true
  sub := rules_eventloop ▸ List.Sublist.refl _
  left := by
    intro _ rule hrule
    obtain ⟨j, w, rfl⟩ := mem_rules hrule
    rw [has_iff]
    cases j <;> cases w <;> first | rfl | exact fun hend => absurd hend Bool.false_ne_true
  accounted := fun _ _ hrule => Or.inl hrule

/-- **Copying in both directions.** After any number of rounds, what was read from standard input since the beginning
    has been written to the socket, in order and without a gap, but for what is in the outbound stream; and the same for
    the socket and standard output. A direction is shut down only once its input has ended and nothing is left. If the
    call fails, then because in one of the rounds an operation on a descriptor or `poll` has failed: the loop never
    accuses a rule of waiting busily. -/
theorem copies_both_ways (socket : FDWrapper) (rounds : List CopyRound) (hdoc : ∀ r ∈ rounds, r.Documented) :
    let c₀ := bidirectionalStreamCopy socket
    let c := run Copier.advance c₀ rounds
    (∀ w, Lane.Copied (c₀.state.lane w) (c.state.lane w)) ∧
      (∀ w, c.state.shut w = true → (c.state.stream w).eof = true) ∧
      ∀ e, c.ended = some (.error e) → (∃ r ∈ rounds, Thrown r e c.state) ∧ e ≠ Rule.busyWait := by
  intro c₀ c
  have h : Inv True c₀.state c ∧ Blames rounds c := by
    refine run_history rounds (fun hist c => Inv True c₀.state c ∧ Blames hist c)
      ⟨inv_init True socket, fun e hfailed => nomatch hfailed⟩ ?_
    rintro hist c r ⟨h, hblames⟩ hbegins
    have hr := hdoc r (hbegins.subset (List.mem_append_right hist List.mem_cons_self))
    exact ⟨h.advance fun _ => hr, hblames.advance h fun _ => hr⟩
  obtain ⟨r, hI⟩ := h.1.state
  refine ⟨fun w => (hI.lanes w).copied trivial, fun w => (hI.lanes w).shut, ?_⟩
  intro e hfailed
  obtain ⟨r', hr', hthrown⟩ := h.2 e hfailed
  exact ⟨⟨r', hr', hthrown⟩, hthrown.innocent⟩

/-- A round in which everything is ready, and both sources have the same to say. -/
def lively (data : Buffer) : CopyRound where
  poll   := fun _ => { ret := 1, revents := fun _ => { pollin := true, pollout := true } }
  read   := fun _ _ => { ret := Int64.ofNat data.length, errno := 0, data }
  writev := fun _ _ iovecs => { ret := Int64.ofNat (gathered iovecs).length, errno := 0 }

theorem documented_lively (data : Buffer) : (lively data).Documented := by
  intro w k iovecs hsize
  have hmax : maxCopyLength = 65536 := rfl
  have hwritten : (Int64.ofNat (gathered iovecs).length).toInt = (gathered iovecs).length :=
    Int64.toInt_ofNat_of_lt (by omega)
  refine Or.inr ⟨?_, ?_⟩
  · show 0 ≤ (Int64.ofNat (gathered iovecs).length).toInt
    omega
  · show (Int64.ofNat (gathered iovecs).length).toInt ≤ (gathered iovecs).length
    omega

/-- A few bytes, and then the end of both sources. -/
def echo : List CopyRound := [lively [7, 8], lively [9], lively [], lively [], lively []]

theorem copies_both_ways_echo :
    (run Copier.advance (bidirectionalStreamCopy { fdNum := 3 }) (echo.take 2)).state.socket.received = [7, 8, 9] ∧
      Lane.Copied ((bidirectionalStreamCopy { fdNum := 3 }).state.lane .inbound)
        ((run Copier.advance (bidirectionalStreamCopy { fdNum := 3 }) (echo.take 2)).state.lane .inbound) := by
  refine ⟨by decide +kernel, (copies_both_ways { fdNum := 3 } (echo.take 2) ?_).1 .inbound⟩
  intro r hr
  simp only [echo, List.take_succ_cons, List.take_zero, List.mem_cons, List.not_mem_nil, or_false] at hr
  rcases hr with rfl | rfl <;> exact documented_lively _

/-! ## The end of a call -/

/-- A round in which no signal is caught and no descriptor hangs up. -/
structure Calm (r : CopyRound) : Prop where
  documented : r.Documented
  signal     : ∀ pollfds, (r.poll pollfds).verdict ≠ some .exit
  hangup     : ∀ pollfds i, ((r.poll pollfds).revents i).pollhup = false

/-- What calm rounds keep: a rule is lost only if its descriptor is done with, and the call returns only if no rule is
    interested. -/
structure Kept (c : Copier) : Prop where
  lasting : (∀ e, c.ended ≠ some (.error e)) → EventLoop.Accounted (Has Lane.Done) rules c.loop.rules c.state
  quiet   : c.ended = some (.ok ()) → ∀ rule ∈ c.loop.rules, rule.interest c.state = false

/-- Cancelling does not touch any descriptor. -/
theorem exhausted_cancel {rule other : Rule StreamCopy} (hrule : rule ∈ rules) (hother : other ∈ rules)
    {s s' : StreamCopy} (hran : other.cancel s = .ok () s') : rule.exhausted s' = rule.exhausted s := by
  obtain ⟨j, w, rfl⟩ := mem_rules hrule
  obtain ⟨j', w', rfl⟩ := mem_rules hother
  cases j' <;> (injection hran with _ hstate; subst hstate; cases j <;> cases w <;> cases w' <;> rfl)

/-- As long as the sources are not closed, a descriptor is done with at its end or when it is closed as a sink. -/
theorem done_of_exhausted {rule : Rule StreamCopy} {s : StreamCopy} (hopen : ∀ w, (s.source w).closed = false)
    (h : rule.exhausted s = true) : Has Lane.Done rule s := by
  rintro j w rfl
  cases j with
  | read =>
      simp only [Rule.exhausted, ruleOf, readRule, beq_self_eq_true, Bool.true_and, hopen, Bool.or_false] at h
      exact h
  | write =>
      simp only [Rule.exhausted, ruleOf, writeRule] at h
      exact h

/-- A rule that is not interested does not become so when a rule after it is cancelled. -/
theorem quiet_apart : rules.Pairwise fun rule later =>
    ∀ s s', True → rule.interest s = false → later.cancel s = .ok () s' → rule.interest s' = false := by
  refine pairwise_rules fun j j' w w' horder s s' _ hquiet hran => ?_
  cases j with
  | read =>
      cases j' <;> (injection hran with _ hstate; subst hstate)
      · cases w <;> cases w' <;> exact hquiet
      · -- an error ends the interest in reading of both directions
        simp only [ruleOf, readRule, Bool.and_eq_false_iff, Bool.not_eq_false']
        cases w <;> cases w' <;> first | exact Or.inl (Or.inl rfl) | exact Or.inr rfl
  | write =>
      -- a cancelled read could wake up the rule that writes in the same direction, but it comes before it
      have hw : w ≠ w' := fun hw => nomatch (horder hw).1
      cases j' <;> (injection hran with _ hstate; subst hstate)
      · cases w <;> cases w' <;> first | exact hquiet | exact absurd rfl hw
      · cases w <;> cases w' <;> exact hquiet

section Round

variable {loop : EventLoop StreamCopy} {s : StreamCopy} {rule : Rule StreamCopy}

/-- A descriptor that is done with stays so. -/
theorem done_round (hdoc : r.Documented) (h : StreamCopy.Inv True s₀ r s) (hsub : loop.rules.Sublist rules)
    (hleft : ∀ rule ∈ loop.rules, Has Lane.Left rule s) (hdone : Has Lane.Done rule s) :
    Ends (EventLoop.waitNextEvent r.poll loop s) (fun _ s' => Has Lane.Done rule s') (fun _ _ => True) := by
  have hrules : EventLoop.Keeps (StreamCopy.Inv True s₀ r) (Has Lane.Left) (Has Lane.Ready) (Has Lane.Canceled)
      (fun e s => StreamCopy.Inv True s₀ r s ∧ Thrown r e s) rules := keeps_rules fun _ => hdoc
  have hkeeps := hrules.sublist hsub
  have hcallback : ∀ other ∈ loop.rules, ∀ s s', StreamCopy.Inv True s₀ r s → Has Lane.Done rule s →
      other.callback s = .ok () s' → Has Lane.Done rule s' := by
    intro other hother s s' _ hdone hran
    obtain ⟨j, w, rfl⟩ := mem_rules (hsub.subset hother)
    exact (callback_touches hran).done hdone
  have hcancel : ∀ other ∈ loop.rules, ∀ s s', StreamCopy.Inv True s₀ r s → Has Lane.Done rule s →
      other.cancel s = .ok () s' → Has Lane.Done rule s' := by
    intro other hother s s' _ hdone hran
    obtain ⟨j, w, rfl⟩ := mem_rules (hsub.subset hother)
    exact (cancel_touches hran).done hdone
  exact (EventLoop.waitNextEvent_keeps r.poll (hkeeps.and hcallback hcancel) ⟨h, hdone⟩ hleft).mono
    (fun _ _ h => h.1.2) fun _ _ _ => trivial

/-- A rule whose descriptor is not done with stays if nothing hangs up. -/
theorem retains_round (hcalm : Calm r) (hsub : loop.rules.Sublist rules) (hrule : rule ∈ loop.rules)
    (hlive : rule.exhausted s = false) :
    Ends (EventLoop.waitNextEvent r.poll loop s) (fun out _ => rule ∈ out.2.rules) (fun _ _ => True) := by
  have hcancel : ∀ other ∈ loop.rules, ∀ s, rule.exhausted s = false →
      Ends (other.cancel s) (fun _ s' => rule.exhausted s' = false) (fun _ _ => True) := by
    intro other hother s hs
    refine (Ends.self (other.cancel s)).mono ?_ fun _ _ _ => trivial
    rintro ⟨⟩ s' hran
    exact (exhausted_cancel (hsub.subset hrule) (hsub.subset hother) hran).trans hs
  have hretains := EventLoop.waitNextEvent_retains hcancel (List.singleton_sublist.mpr hrule)
    (fun other hother s hs => by rwa [List.mem_singleton.mp hother]) hcalm.hangup hlive
  exact hretains.mono (fun _ _ hsub => List.singleton_sublist.mp hsub) fun _ _ h => h

end Round

/-- **A calm round of a call.** -/
theorem Kept.advance (hkept : Kept c) (h : Inv True s₀ c) (hcalm : Calm r)
    (hopen : ∀ w, (s₀.source w).closed = false) : Kept (c.advance r) := by
  unfold Copier.advance
  cases hended : c.ended with
  | some result => exact hkept
  | none =>
      have hrunning : ∀ e, c.ended ≠ some (.error e) := by
        rw [hended]
        exact fun _ => (nomatch ·)
      obtain ⟨r₀, hstate⟩ := h.state
      have hbegin := begin_inv (r := r) hstate
      have hleft (rule) (hrule : rule ∈ c.loop.rules) := has_round (r := r) (h.left hrunning rule hrule)
      have hlasting (rule) (hrule : rule ∈ rules) :
          Ends (EventLoop.waitNextEvent r.poll c.loop { c.state with round := r })
            (fun out s' => rule ∈ out.2.rules ∨ Has Lane.Done rule s') (fun _ _ => True) := by
        have hstays (hdone : Has Lane.Done rule { c.state with round := r }) :
            Ends (EventLoop.waitNextEvent r.poll c.loop { c.state with round := r })
              (fun out s' => rule ∈ out.2.rules ∨ Has Lane.Done rule s') (fun _ _ => True) :=
          (done_round hcalm.documented hbegin h.sub hleft hdone).mono (fun _ _ => Or.inr) fun _ _ h => h
        rcases hkept.lasting hrunning rule hrule with hmem | hdone
        · cases hexhausted : rule.exhausted { c.state with round := r } with
          | true => exact hstays (done_of_exhausted (fun w => (hbegin.sources w).trans (hopen w)) hexhausted)
          | false => exact (retains_round hcalm h.sub hmem hexhausted).mono (fun _ _ => Or.inl) fun _ _ h => h
        · exact hstays (has_round hdone)
      have hexit := EventLoop.waitNextEvent_exit (K := fun _ => True) (X := fun _ _ => True)
        (s := { c.state with round := r }) (fun rule _ s _ => by cases rule.cancel s <;> trivial)
        (quiet_apart.sublist h.sub) hcalm.signal trivial
      dsimp only
      cases hres : EventLoop.waitNextEvent r.poll c.loop { c.state with round := r } with
      | ok out state =>
          rw [hres] at hexit
          refine ⟨fun _ rule hrule => (hlasting rule hrule).of_ok hres, fun hover => ?_⟩
          dsimp only at hover
          split at hover
          · next hresult => exact (hexit (beq_iff_eq.mp hresult)).2
          · cases hover
      | error e state => exact ⟨fun hok => absurd rfl (hok e), (nomatch ·)⟩

section Over

variable (h : Inv True s₀ c) (hkept : Kept c) (hover : c.ended = some (.ok ()))

include h hkept hover

/-- When the call returns, a rule that writes is gone since its sink is closed, or has nothing left to do. -/
theorem write_over (w : Way) : (c.state.lane w).closed = true ∨
    ((c.state.stream w).error = false ∧ (c.state.stream w).buf = [] ∧
      ((c.state.stream w).isEof = true → c.state.shut w = true)) := by
  have hrunning (e : Failure) : c.ended ≠ some (.error e) := fun hfailed => nomatch hover.symm.trans hfailed
  rcases hkept.lasting hrunning _ (ruleOf_mem .write w) with hmem | hdone
  · have hquiet := hkept.quiet hover _ hmem
    simp only [ruleOf, writeRule, Bool.or_eq_false_iff, Bool.not_eq_false', Bool.and_eq_false_iff] at hquiet
    have hempty : (c.state.stream w).buf = [] := by
      simpa [ByteStream.bufferEmpty] using hquiet.1
    refine Or.inr ⟨has_iff.mp (h.left hrunning _ hmem), hempty, fun hend => ?_⟩
    rcases hquiet.2 with hnot | hshut
    · rw [(ByteStream.eof_iff _).mpr ⟨hend, hempty⟩] at hnot
      cases hnot
    · exact hshut
  · exact Or.inl (has_iff.mp hdone)

/-- A rule that reads is gone, or a stream is in error, or there is no room. -/
theorem read_over (w : Way) : ((c.state.lane w).ended = true ∧ (c.state.stream w).isEof = true) ∨
    (((c.state.stream w).isEof = true → (c.state.lane w).ended = true) ∧
      ((c.state.stream w).error = true ∨ (c.state.stream w).remainingCapacity = 0 ∨
        (c.state.stream w.other).error = true)) := by
  have hrunning (e : Failure) : c.ended ≠ some (.error e) := fun hfailed => nomatch hover.symm.trans hfailed
  by_cases hmem : ruleOf .read w ∈ c.loop.rules
  · have hquiet := hkept.quiet hover _ hmem
    simp only [ruleOf, readRule, Bool.and_eq_false_iff, Bool.not_eq_false', decide_eq_false_iff_not, Nat.not_lt,
      Nat.le_zero, or_assoc] at hquiet
    exact Or.inr ⟨has_iff.mp (h.left hrunning _ hmem), hquiet⟩
  · have hdone := (hkept.lasting hrunning _ (ruleOf_mem .read w)).resolve_left hmem
    have hcanceled := (h.accounted hrunning _ (ruleOf_mem .read w)).resolve_left hmem
    exact Or.inl ⟨has_iff.mp hdone, has_iff.mp hcanceled⟩

end Over

/-- **A copy that returns has copied everything.** If no signal is caught and no descriptor hangs up, the call returns
    only when the socket has come to its end and standard output has got all of it and was closed. Everything that was
    read from standard input has then been written to the socket, and if standard input has come to its end the socket
    was shut down for writing. -/
theorem copies_everything (socket : FDWrapper) (hopen : socket.closed = false) (rounds : List CopyRound)
    (hcalm : ∀ r ∈ rounds, Calm r) :
    let c₀ := bidirectionalStreamCopy socket
    let c := run Copier.advance c₀ rounds
    c.ended = some (.ok ()) →
      (∀ w, Lane.Complete (c₀.state.lane w) (c.state.lane w)) ∧
      c.state.socket.eof = true ∧ c.state.inboundShutdown = true ∧
      (c.state.input.eof = true → c.state.outboundShutdown = true) := by
  intro c₀ c hover
  have hsources (w : Way) : (c₀.state.source w).closed = false := by
    cases w with
    | outbound => rfl
    | inbound => exact hopen
  have hend : Inv True c₀.state c ∧ Kept c := by
    refine run_history rounds (fun _ c => Inv True c₀.state c ∧ Kept c)
      ⟨inv_init True socket, fun _ rule hrule => Or.inl hrule, (nomatch ·)⟩ ?_
    rintro hist c r ⟨h, hkept⟩ hbegins
    have hr := hcalm r (hbegins.subset (List.mem_append_right hist List.mem_cons_self))
    exact ⟨h.advance fun _ => hr.documented, hkept.advance h hr hsources⟩
  obtain ⟨h, hkept⟩ := hend
  obtain ⟨r, hI⟩ := h.state
  -- the socket is never closed
  have hsocket : (c.state.lane .outbound).closed = false := (hI.sources .inbound).trans hopen
  obtain ⟨hnoerror, hempty, htold⟩ := (write_over h hkept hover .outbound).resolve_left
    (hsocket ▸ Bool.false_ne_true)
  have hinbound : c.state.shut .inbound = true := by
    rcases write_over h hkept hover .inbound with hclosed | ⟨hnoerror', hempty', htold'⟩
    · exact ((hI.lanes .inbound).closed hclosed).resolve_left Bool.false_ne_true
    · apply htold'
      rcases read_over h hkept hover .inbound with hgone | ⟨-, herror | hfull | herror⟩
      · exact hgone.2
      · exact nomatch hnoerror'.symm.trans herror
      · have hcapacity : 0 < (c.state.stream .inbound).capacity := (hI.lanes .inbound).capacity
        rw [ByteStream.remainingCapacity, hempty', List.length_nil] at hfull
        omega
      · exact nomatch hnoerror.symm.trans herror
  have heof := (ByteStream.eof_iff _).mp ((hI.lanes .inbound).shut hinbound)
  refine ⟨fun w => ((hI.lanes w).copied trivial).complete ?_, ?_, hinbound, fun hinput => ?_⟩
  · cases w with
    | outbound => exact hempty
    | inbound => exact heof.2
  · exact (read_over h hkept hover .inbound).elim (fun hgone => hgone.1) fun hstays => hstays.1 heof.1
  · exact htold (((hI.lanes .outbound).ended hinput).resolve_left Bool.false_ne_true)

theorem copies_everything_echo :
    (run Copier.advance (bidirectionalStreamCopy { fdNum := 3 }) echo).ended = some (.ok ()) ∧
      (run Copier.advance (bidirectionalStreamCopy { fdNum := 3 }) echo).state.outboundShutdown = true := by
  have hover : (run Copier.advance (bidirectionalStreamCopy { fdNum := 3 }) echo).ended = some (.ok ()) := by
    decide +kernel
  have hcalm : ∀ r ∈ echo, Calm r := by
    intro r hr
    obtain ⟨data, rfl⟩ : ∃ data, r = lively data := by
      simp only [echo, List.mem_cons, List.not_mem_nil, or_false] at hr
      rcases hr with rfl | rfl | rfl | rfl | rfl <;> exact ⟨_, rfl⟩
    exact ⟨documented_lively data, fun _ => (nomatch ·), fun _ _ => rfl⟩
  have heverything := copies_everything { fdNum := 3 } rfl echo hcalm hover
  exact ⟨hover, heverything.2.2.2 (by decide +kernel)⟩

end Copier

end Sponge
