import Sponge.Receiver.Effect
import Sponge.Reassembler.Owner

/-!
# `Receiver.Arrivals` — what the receiver tells its peer, whatever arrives

The receiver is fed with arbitrary segments, and its owner reads and pops. Two numbers go back to the peer.

- The window only opens: `window_size` is the free space of the output stream, and the right edge of the
  window never moves to the left (`window_never_shrinks`).
- The acknowledgment number moves forward relative to the ISN of the first SYN as long as no other SYN
  arrives with a different sequence number, and only then (`ackno_forward_iff`): the branch for SYN segments is
  taken on every one of them and rewrites the ISN.
-/

namespace Sponge

open Lib

/-- What happens to a receiver: a segment arrives, or the owner reads or pops. -/
inductive ReceiverOp where
  | segment (seg : TCPSegment)
  | read (len : Nat)
  | pop (len : Nat)
deriving DecidableEq

namespace TCPReceiver

variable {r : TCPReceiver}

def act (r : TCPReceiver) : ReceiverOp → TCPReceiver
  | .segment seg => r.segmentReceived seg
  | .read len    => { r with reassembler := r.reassembler.readOut len }
  | .pop len     => { r with reassembler := r.reassembler.popOut len }

/-- A pop takes no more than is buffered. -/
def PopFits (r : TCPReceiver) : ReceiverOp → Prop
  | .pop len => len ≤ r.streamOut.bufferSize
  | _        => True

instance (r : TCPReceiver) : (op : ReceiverOp) → Decidable (PopFits r op)
  | .pop len               => inferInstanceAs (Decidable (len ≤ r.streamOut.bufferSize))
  | .segment _ | .read _   => inferInstanceAs (Decidable True)

theorem heard_act (r : TCPReceiver) (op : ReceiverOp) : Heard True r (r.act op) := by
  cases op with
  | segment seg => exact (heard_segmentReceived r seg).imp fun _ => trivial
  | read len => exact ⟨rfl, id, le_refl _, id, Or.inl⟩
  | pop len => exact ⟨rfl, id, le_refl _, id, Or.inl⟩

theorem capacity_segmentReceived (r : TCPReceiver) (seg : TCPSegment) :
    (r.segmentReceived seg).capacity = r.capacity := by
  rcases segmentReceived_cases r seg with ⟨-, heq⟩ | ⟨-, -, heq⟩ | ⟨-, -, heq⟩ <;> rw [heq] <;> rfl

/-! ## The window -/

/-- The counters of the reassembler agree, and it has the capacity of the receiver. -/
structure Windowed (capacity : Nat) (r : TCPReceiver) : Prop where
  counted  : r.reassembler.Counted
  outer    : r.capacity = capacity
  inner    : r.reassembler.capacity = capacity

theorem Windowed.init (capacity : Nat) : Windowed capacity (ofCapacity capacity) :=
  ⟨StreamReassembler.Counted.init capacity, rfl, rfl⟩

theorem Windowed.segmentReceived {capacity : Nat} (h : Windowed capacity r) (seg : TCPSegment) :
    Windowed capacity (r.segmentReceived seg) := by
  have hinner : (r.segmentReceived seg).reassembler.Counted ∧
      (r.segmentReceived seg).reassembler.capacity = capacity := by
    rw [reassembler_segmentReceived]
    cases r.pushIndex seg with
    | none => exact ⟨h.counted, h.inner⟩
    | some index =>
        have hframe :=
          StreamReassembler.pushFrame_pushSubstring r.reassembler seg.payload index seg.header.fin
        exact ⟨h.counted.pushSubstring _ _ _, hframe.capacity.trans h.inner⟩
  exact ⟨hinner.1, (capacity_segmentReceived r seg).trans h.outer, hinner.2⟩

theorem Windowed.readOut {capacity : Nat} (h : Windowed capacity r) (len : Nat) :
    Windowed capacity { r with reassembler := r.reassembler.readOut len } :=
  ⟨h.counted.readOut len, h.outer, h.inner⟩

theorem Windowed.act {capacity : Nat} {op : ReceiverOp} (h : Windowed capacity r) (hok : PopFits r op) :
    Windowed capacity (r.act op) := by
  cases op with
  | segment seg => exact h.segmentReceived seg
  | read len => exact h.readOut len
  | pop len =>
      rw [TCPReceiver.act, StreamReassembler.popOut_eq_readOut hok]
      exact h.readOut len

/-- The two subtractions of `window_size` do not borrow. -/
theorem Windowed.unread_le {capacity : Nat} (h : Windowed capacity r) :
    r.streamOut.bytesRead ≤ r.streamOut.bytesWritten ∧
      r.streamOut.bytesWritten - r.streamOut.bytesRead = r.streamOut.bufferSize ∧
      r.streamOut.bufferSize ≤ capacity := by
  have hbal := h.counted.balance
  have hfits := r.reassembler.output.fits
  have hcap := h.counted.outCap
  have hinner := h.inner
  unfold streamOut ByteStream.bytesWritten ByteStream.bytesRead ByteStream.bufferSize
  refine ⟨by omega, by omega, by omega⟩

theorem Windowed.windowSize_eq_sub {capacity : Nat} (h : Windowed capacity r) :
    r.windowSize = capacity - (r.streamOut.bytesWritten - r.streamOut.bytesRead) := by
  obtain ⟨hle, hunread, hfits⟩ := h.unread_le
  rw [windowSize, usub_of_le hle, hunread, h.outer, usub_of_le hfits]

theorem Windowed.windowSize_eq {capacity : Nat} (h : Windowed capacity r) :
    r.windowSize = r.streamOut.remainingCapacity := by
  have hcap : r.streamOut.capacity = capacity := h.counted.outCap.trans h.inner
  rw [h.windowSize_eq_sub, h.unread_le.2.1, ByteStream.remainingCapacity, hcap]
  rfl

/-- The right edge of the window in absolute sequence numbers: the acknowledgment plus the window. -/
def rightEdge (r : TCPReceiver) : Nat := r.ackOffset + r.windowSize

/-- What is written narrows the window as much as it moves the acknowledgment, so only reads and the end of the
    stream move the edge. -/
theorem Windowed.rightEdge_eq {capacity : Nat} (h : Windowed capacity r) :
    r.rightEdge = r.streamOut.bytesRead + capacity + 1 + (if r.streamOut.inputEnded then 1 else 0) := by
  obtain ⟨hle, hunread, hfits⟩ := h.unread_le
  rw [rightEdge, ackOffset, h.windowSize_eq_sub]
  omega

theorem bytesRead_le_act (r : TCPReceiver) (op : ReceiverOp) :
    r.streamOut.bytesRead ≤ (r.act op).streamOut.bytesRead := by
  cases op with
  | segment seg =>
      rw [act, streamOut, streamOut, reassembler_segmentReceived]
      cases r.pushIndex seg with
      | none => exact le_refl _
      | some index =>
          have hframe :=
            StreamReassembler.pushFrame_pushSubstring r.reassembler seg.payload index seg.header.fin
          exact le_of_eq hframe.readCount.symm
  | read len =>
      show r.streamOut.readCount ≤ (r.streamOut.read len).2.readCount
      rw [ByteStream.read_readCount]
      exact Nat.le_add_right _ _
  | pop len => exact Nat.le_add_right _ _

theorem Windowed.rightEdge_le_act {capacity : Nat} {op : ReceiverOp} (h : Windowed capacity r)
    (hok : PopFits r op) : r.rightEdge ≤ (r.act op).rightEdge := by
  have hread := bytesRead_le_act r op
  have hstays : r.streamOut.inputEnded = true → (r.act op).streamOut.inputEnded = true :=
    (heard_act r op).stays
  rw [h.rightEdge_eq, (h.act hok).rightEdge_eq]
  by_cases hend : r.streamOut.inputEnded = true
  · rw [if_pos hend, if_pos (hstays hend)]
    omega
  · rw [if_neg hend]
    omega

/-- **The receiver never takes back window.** In every run of arbitrary segments, reads and pops of what is
    buffered, the window is the free space of the stream and no subtraction in it borrows, and its right edge
    only moves to the right. -/
theorem window_never_shrinks (capacity : Nat) (ops : List ReceiverOp)
    (h : Guarded act PopFits (ofCapacity capacity) ops) :
    ∀ pre mid, pre ++ mid <+: ops →
      let r := run act (ofCapacity capacity) pre
      let r' := run act (ofCapacity capacity) (pre ++ mid)
      r.windowSize = r.streamOut.remainingCapacity ∧ r.windowSize ≤ capacity ∧
      r.streamOut.bytesRead ≤ r.streamOut.bytesWritten ∧
      r.streamOut.bytesWritten - r.streamOut.bytesRead ≤ capacity ∧
      r.rightEdge ≤ r'.rightEdge := by
  intro pre mid hp r r'
  have hrun := h.of_isPrefix hp
  obtain ⟨hpre, hmid⟩ := Guarded.append.mp hrun
  have hinv : Windowed capacity r :=
    hpre.invariant (Windowed capacity) (Windowed.init capacity) fun _ _ hr hok => hr.act hok
  obtain ⟨hle, hunread, hfits⟩ := hinv.unread_le
  refine ⟨hinv.windowSize_eq, ?_, hle, by rw [hunread]; exact hfits, ?_⟩
  · rw [hinv.windowSize_eq, ByteStream.remainingCapacity]
    have hcap : r.streamOut.capacity = capacity := hinv.counted.outCap.trans hinv.inner
    rw [hcap]
    exact Nat.sub_le _ _
  · -- from the middle on, the edge is never to the left of where it is now
    have hedge : Windowed capacity r' ∧ r.rightEdge ≤ r'.rightEdge := by
      show Windowed capacity (run act _ (pre ++ mid)) ∧ r.rightEdge ≤ (run act _ (pre ++ mid)).rightEdge
      rw [run_append]
      exact hmid.invariant (fun r' => Windowed capacity r' ∧ r.rightEdge ≤ r'.rightEdge)
        ⟨hinv, le_refl _⟩ fun _ _ hr hok => ⟨hr.1.act hok, hr.2.trans (hr.1.rightEdge_le_act hok)⟩
    exact hedge.2

/-- A byte out of order, the one before it, a read, and a FIN. -/
def readWhileArriving : List ReceiverOp :=
  [.segment { header := { syn := true, seqno := .ofRaw 7 } },
    .segment { header := { seqno := .ofRaw 9 }, payload := [98] },
    .segment { header := { seqno := .ofRaw 8 }, payload := [97] }, .read 1, .pop 1,
    .segment { header := { seqno := .ofRaw 10, fin := true } }]

theorem window_never_shrinks_reading :
    Guarded act PopFits (ofCapacity 4) readWhileArriving ∧
    (run act (ofCapacity 4) []).rightEdge ≤ (run act (ofCapacity 4) readWhileArriving).rightEdge :=
  have hrun : Guarded act PopFits (ofCapacity 4) readWhileArriving := by decide +kernel
  ⟨hrun, (window_never_shrinks 4 readWhileArriving hrun [] readWhileArriving (List.prefix_refl _)).2.2.2.2⟩

/-! ## The acknowledgment number -/

/-- The sequence number of the first SYN. -/
def firstSyn : List ReceiverOp → Option WrappingInt32
  | []                  => none
  | .segment seg :: ops => if seg.header.syn then some seg.header.seqno else firstSyn ops
  | .read _ :: ops      => firstSyn ops
  | .pop _ :: ops       => firstSyn ops

theorem firstSyn_append (ops ops' : List ReceiverOp) :
    firstSyn (ops ++ ops') = (firstSyn ops).or (firstSyn ops') := by
  induction ops with
  | nil => rfl
  | cons op ops ih =>
      cases op with
      | segment seg =>
          rw [List.cons_append, firstSyn, firstSyn, ih]
          split <;> rfl
      | read len => exact ih
      | pop len => exact ih

/-- Once the first SYN is known, it stays. -/
theorem firstSyn_of_isPrefix {pre ops : List ReceiverOp} {s : WrappingInt32} (hp : pre <+: ops)
    (h : firstSyn pre = some s) : firstSyn ops = some s := by
  obtain ⟨post, rfl⟩ := hp
  rw [firstSyn_append, h]
  rfl

/-- The ISN in use is that of the first SYN. -/
def IsnFixed (hist : List ReceiverOp) (r : TCPReceiver) : Prop :=
  ∀ s, firstSyn hist = some s → r.isn = s ∧ r.isnSet = true

theorem IsnFixed.step {hist : List ReceiverOp} {op : ReceiverOp} (h : IsnFixed hist r)
    (hsyn : ∀ seg, op = .segment seg → seg.header.syn = true → ∀ s, firstSyn (hist ++ [op]) = some s →
      seg.header.seqno = s) : IsnFixed (hist ++ [op]) (r.act op) := by
  intro s hs
  have hold (hno : firstSyn [op] = none) : r.isn = s ∧ r.isnSet = true := by
    rw [firstSyn_append, hno, Option.or_none] at hs
    exact h s hs
  cases op with
  | segment seg =>
      show (r.segmentReceived seg).isn = s ∧ (r.segmentReceived seg).isnSet = true
      rcases segmentReceived_cases r seg with ⟨hyes, heq⟩ | ⟨hno, -, heq⟩ | ⟨hno, -, heq⟩
      · rw [heq]
        exact ⟨hsyn seg rfl hyes s hs, rfl⟩
      · rw [heq]
        exact ⟨(hold (by simp [firstSyn, hno])).1, rfl⟩
      · rw [heq]
        exact hold (by simp [firstSyn, hno])
  | read len => exact hold rfl
  | pop len => exact hold rfl

/-- The acknowledgment number is relative to the ISN of the first SYN and only moves forward. -/
def AcknoForward (capacity : Nat) (ops : List ReceiverOp) : Prop :=
  ∀ pre mid s, pre ++ mid <+: ops → firstSyn pre = some s →
    let r := run act (ofCapacity capacity) pre
    let r' := run act (ofCapacity capacity) (pre ++ mid)
    r'.isn = s ∧ r'.ackno = some (wrap r'.ackOffset s) ∧ 1 ≤ r.ackOffset ∧ r.ackOffset ≤ r'.ackOffset

theorem ackOffset_le_run (r : TCPReceiver) (ops : List ReceiverOp) : r.ackOffset ≤ (run act r ops).ackOffset :=
  run_invariant ops (fun r' => r.ackOffset ≤ r'.ackOffset) (le_refl _) fun r' op h =>
    h.trans (heard_act r' op).ackOffset_le

/-- Every SYN sets the ISN to its own number. -/
theorem isn_of_syn {seg : TCPSegment} (hsyn : seg.header.syn = true) :
    (r.segmentReceived seg).isn = seg.header.seqno := by
  rcases segmentReceived_cases r seg with ⟨-, heq⟩ | ⟨hno, -⟩ | ⟨hno, -⟩
  · rw [heq]; rfl
  · rw [hsyn] at hno; cases hno
  · rw [hsyn] at hno; cases hno

/-- If every SYN carries the number of the first, then that is the ISN in use. -/
theorem isnFixed_run (capacity : Nat) {ops hist : List ReceiverOp} (hp : hist <+: ops)
    (h : ∀ seg, .segment seg ∈ ops → seg.header.syn = true → firstSyn ops = some seg.header.seqno) :
    IsnFixed hist (run act (ofCapacity capacity) hist) := by
  refine run_history hist IsnFixed (fun s hs => by cases hs) fun hist r op hr hp' => ?_
  refine hr.step fun seg hop hsyn s hs => ?_
  subst hop
  have hall := hp'.trans hp
  have hmem : .segment seg ∈ ops := hall.subset (List.mem_append_right _ List.mem_cons_self)
  have hfirst := h seg hmem hsyn
  rw [firstSyn_of_isPrefix hall hs] at hfirst
  exact (Option.some.inj hfirst).symm

theorem firstSyn_of_syn (before : List ReceiverOp) {seg : TCPSegment} (hsyn : seg.header.syn = true) :
    ∃ s, firstSyn (before ++ [.segment seg]) = some s := by
  rw [firstSyn_append]
  cases firstSyn before with
  | none => exact ⟨seg.header.seqno, by simp [firstSyn, hsyn]⟩
  | some s => exact ⟨s, rfl⟩

/-- **The acknowledgment number never moves backwards if and only if every SYN of the run carries the sequence
    number of the first one.** -/
theorem ackno_forward_iff (capacity : Nat) (ops : List ReceiverOp) :
    AcknoForward capacity ops ↔
      ∀ seg, .segment seg ∈ ops → seg.header.syn = true → firstSyn ops = some seg.header.seqno := by
  constructor
  · intro h seg hmem hsyn
    obtain ⟨before, rest, rfl⟩ := List.append_of_mem hmem
    have hp : before ++ [.segment seg] <+: before ++ .segment seg :: rest := ⟨rest, by simp⟩
    obtain ⟨s, hs⟩ := firstSyn_of_syn before hsyn
    -- the ISN after this SYN is its own number, and it must be that of the first
    have hisn := (h (before ++ [.segment seg]) [] s (by rw [List.append_nil]; exact hp) hs).1
    rw [List.append_nil, run_append] at hisn
    have hown : (run act (run act (ofCapacity capacity) before) [.segment seg]).isn = seg.header.seqno :=
      isn_of_syn hsyn
    rw [← hown, hisn]
    exact firstSyn_of_isPrefix hp hs
  · intro h pre mid s hp hs r r'
    obtain ⟨hisn, hset⟩ := isnFixed_run capacity hp h s (firstSyn_of_isPrefix (List.prefix_append _ _) hs)
    refine ⟨hisn, ?_, ?_, ?_⟩
    · rw [ackno_eq, hset, if_pos rfl]
      exact congrArg some (congrArg (wrap _) hisn)
    · rw [ackOffset]
      omega
    · show _ ≤ (run act (ofCapacity capacity) (pre ++ mid)).ackOffset
      rw [run_append]
      exact ackOffset_le_run _ mid

/-- A delayed SYN with another sequence number takes the place of the first. -/
theorem ackno_rewritten_by_second_syn : ¬ ∀ (capacity : Nat) (ops : List ReceiverOp),
    AcknoForward capacity ops := by
  intro h
  have hisn := (h 10 [.segment { header := { syn := true, seqno := .ofRaw 5 } },
      .segment { header := { syn := true, seqno := .ofRaw 100 } }]
    [.segment { header := { syn := true, seqno := .ofRaw 5 } }]
    [.segment { header := { syn := true, seqno := .ofRaw 100 } }] (.ofRaw 5) (List.prefix_refl _) rfl).1
  revert hisn
  decide +kernel

end TCPReceiver

end Sponge
