import Sponge.Sender.Closing
import Sponge.Sender.Backoff

/-!
# `Sender.Acknowledge` — what an acknowledgment does

As long as no sequence number has wrapped, the raw comparisons of `ack_received` are comparisons of positions. The
outstanding segments then end in increasing order, so the loop that drops from the front of the queue drops exactly
those that end at or before the acknowledgment number (`ack_processing`), and none of those that are left ends at
or before the recorded one (`Pruned`).

An outdated acknowledgment therefore drops nothing and resets nothing. But its window is taken, and `fill_window`
is called with it, so it is harmless only if that window changes nothing: `outdated_ack_harmless_iff` says when.
-/

namespace Sponge

open Lib TCPSegment

namespace TCPSender

variable {s : TCPSender} {accepted : List UInt8} {isn ackno : WrappingInt32} {seg : TCPSegment}
  {segs : List TCPSegment}

/-! ## The outstanding segments end in order -/

/-- The segment ends past the acknowledgment number. -/
def endsPast (ackno : WrappingInt32) (seg : TCPSegment) : Bool :=
  decide (ackno.rawValue < seg.header.seqno.rawValue + seg.lengthInSequenceSpace)

theorem fullyAcked_eq (ackno : WrappingInt32) (seg : TCPSegment) :
    fullyAcked ackno seg = !endsPast ackno seg := by
  unfold fullyAcked endsPast
  rw [← decide_not]
  exact decide_eq_decide.mpr Nat.not_lt.symm

/-- Without a wrap a segment at position `m` ends at its position plus its length. -/
theorem endsPast_of_seqno {m : Nat} (hseq : seg.header.seqno = wrap m isn)
    (hfit : isn.rawValue + m < 2 ^ 32)
    (hack : ackno.rawValue < isn.rawValue + m + seg.lengthInSequenceSpace) : endsPast ackno seg = true := by
  unfold endsPast
  rw [hseq, rawValue_wrap_of_lt hfit]
  exact decide_eq_true hack

/-- Segments laid out past the acknowledgment number end past it. -/
theorem endsPast_of_laid {n : Nat}
    (hlaid : Laid lengthInSequenceSpace (fun n seg => seg.header.seqno = wrap n isn) n segs)
    (hfit : isn.rawValue + n + extent lengthInSequenceSpace segs < 2 ^ 32)
    (hack : ackno.rawValue < isn.rawValue + n) : ∀ seg ∈ segs, endsPast ackno seg = true := by
  intro seg hseg
  obtain ⟨m, hle, hend, hseq⟩ := hlaid.of_mem hseg
  apply endsPast_of_seqno hseq
  · omega
  · omega

/-- **The dropping loop is a filter.** The segments end in increasing order, so once one ends past the
    acknowledgment number all the later ones do. -/
theorem dropWhile_fullyAcked {n : Nat}
    (hlaid : Laid lengthInSequenceSpace (fun n seg => seg.header.seqno = wrap n isn) n segs)
    (hfit : isn.rawValue + n + extent lengthInSequenceSpace segs < 2 ^ 32) :
    segs.dropWhile (fullyAcked ackno) = segs.filter (endsPast ackno) := by
  induction segs generalizing n with
  | nil => rfl
  | cons seg segs ih =>
      obtain ⟨hseq, hrest⟩ := hlaid
      rw [extent_cons] at hfit
      by_cases hpast : endsPast ackno seg = true
      · have hkeep : ¬ fullyAcked ackno seg = true := by rw [fullyAcked_eq, hpast]; exact Bool.noConfusion
        have hend : ackno.rawValue < isn.rawValue + (n + seg.lengthInSequenceSpace) := by
          unfold endsPast at hpast
          rw [hseq, rawValue_wrap_of_lt (by omega)] at hpast
          have := of_decide_eq_true hpast
          omega
        have hall := endsPast_of_laid hrest (by omega) hend
        rw [List.dropWhile_cons_of_neg hkeep, List.filter_cons_of_pos hpast, List.filter_eq_self.mpr hall]
      · have hdrop : fullyAcked ackno seg = true := by
          rw [fullyAcked_eq, Bool.not_eq_true _ |>.mp hpast]; rfl
        rw [List.dropWhile_cons_of_pos hdrop, List.filter_cons_of_neg hpast]
        apply ih hrest
        omega

/-- The same for the queue of a sender that has not wrapped. -/
theorem SenderInv.outSegments_acceptAck (h : SenderInv accepted s)
    (hlt : s.isn.rawValue + s.nextSeqno < 2 ^ 32) (ackno : WrappingInt32) (w : UInt16) :
    (s.acceptAck ackno w).outSegments = s.outSegments.filter (endsPast ackno) := by
  have hnext := h.next
  rw [h.queue, extent_append] at hnext
  rw [acceptAck_outSegments]
  apply dropWhile_fullyAcked h.laid_outSegments
  omega

/-! ## Nothing acknowledged is outstanding -/

/-- As long as nothing has wrapped, every outstanding segment ends past the recorded acknowledgment number. -/
def Pruned (s : TCPSender) : Prop :=
  s.isn.rawValue + s.nextSeqno < 2 ^ 32 → ∀ seg ∈ s.outSegments, endsPast s.ackGot seg = true

theorem Pruned.fillWindow (h : Pruned s) (hack : AckBound s) : Pruned s.fillWindow := by
  obtain ⟨new, hsends⟩ := fillWindow_sends s
  intro hlt seg hseg
  rw [hsends.isn, hsends.nextSeqno] at hlt
  rw [hsends.ackGot]
  rw [hsends.outSegments] at hseg
  rcases List.mem_append.mp hseg with hold | hmem
  · exact h (by omega) seg hold
  · -- what is newly sent starts at the next sequence number, which is not acknowledged
    obtain ⟨m, hle, hend, hseq⟩ := hsends.numbered.of_mem hmem
    have hlen := hsends.pos seg hmem
    have hhigh := hack.high (by omega)
    apply endsPast_of_seqno hseq
    · omega
    · omega

theorem Pruned.acceptAck (h : Pruned s) (hinv : SenderInv accepted s) (ackno : WrappingInt32) (w : UInt16) :
    Pruned (s.acceptAck ackno w) := by
  intro hlt seg hseg
  rw [acceptAck_isn, acceptAck_nextSeqno] at hlt
  rw [hinv.outSegments_acceptAck hlt, List.mem_filter] at hseg
  rw [acceptAck_ackGot]
  split
  · exact hseg.2
  · exact h hlt seg hseg.1

theorem Pruned.ackReceived (h : Pruned s) (hack : AckBound s) (hinv : SenderInv accepted s)
    (ackno : WrappingInt32) (w : UInt16) : Pruned (s.ackReceived ackno w) := by
  rw [ackReceived_eq]
  split
  · exact h
  · next hb =>
      apply (h.acceptAck hinv ackno w).fillWindow
      exact hack.acceptAck hinv w (by simpa using hb)

theorem Pruned.tick (h : Pruned s) (ms : Nat) : Pruned (s.tick ms) := by
  rcases tick_cases s ms with ⟨_, heq⟩ | ⟨_, _, _, _, -, heq⟩ <;>
    · rw [heq]
      exact h

end TCPSender

open TCPSender

namespace Feed

/-- What a run keeps of acknowledgments: the recorded number is between what was dropped and what was sent, nothing
    before it is outstanding, and the initial timeout is the configured one. -/
structure Tracked (timeout : Nat) (isn : WrappingInt32) (f : Feed) : Prop where
  sender : SenderInv f.accepted f.sender
  isn_eq : f.sender.isn = isn
  ack    : AckBound f.sender
  pruned : Pruned f.sender
  backs  : f.sender.initialRetransmissionTimeout = timeout

theorem Tracked.step {timeout : Nat} {isn : WrappingInt32} {f : Feed} (h : Tracked timeout isn f)
    (op : SenderOp WrappingInt32) : Tracked timeout isn (f.step op) := by
  have hsender := senderInv_step h.sender op
  have hisn := (isn_step f op).trans h.isn_eq
  cases op with
  | write data => exact ⟨hsender, hisn, h.ack.congr rfl rfl rfl (le_refl _), h.pruned, h.backs⟩
  | endInput => exact ⟨hsender, hisn, h.ack.congr rfl rfl rfl (le_refl _), h.pruned, h.backs⟩
  | fillWindow =>
      exact ⟨hsender, hisn, h.ack.fillWindow, h.pruned.fillWindow h.ack,
        (timeout_fillWindow f.sender).trans h.backs⟩
  | ackReceived ackno w =>
      refine ⟨hsender, hisn, h.ack.ackReceived h.sender ackno w,
        h.pruned.ackReceived h.ack h.sender ackno w, ?_⟩
      show (f.sender.ackReceived ackno w).initialRetransmissionTimeout = timeout
      rw [ackReceived_eq]
      split
      · exact h.backs
      · rw [timeout_fillWindow, acceptAck_timeout]
        exact h.backs
  | tick ms =>
      exact ⟨hsender, hisn, h.ack.tick ms, h.pruned.tick ms, (timeout_tick f.sender ms).trans h.backs⟩

theorem tracked_after (capacity : Nat) (retxTimeout : UInt16) (isn : WrappingInt32)
    (ops : List (SenderOp WrappingInt32)) :
    Tracked retxTimeout.toNat isn (after capacity retxTimeout isn ops) := by
  apply run_invariant ops (Tracked retxTimeout.toNat isn)
  · refine ⟨SenderInv.init _ _ _, rfl, AckBound.init _ _ _, ?_, rfl⟩
    intro _ seg hseg
    cases hseg
  · intro f op h
    exact h.step op

/-- **Acknowledgment processing.** In every state in which no sequence number has wrapped, an acknowledgment beyond
    what was sent changes nothing. Any other one removes from the outstanding queue exactly the segments that end
    at or before it and appends only what `fill_window` newly sends; the recorded number becomes the larger of the
    two, and timeout and count are reset if it grows and left alone if not. -/
theorem ack_processing (capacity : Nat) (retxTimeout : UInt16) (isn : WrappingInt32)
    (ops : List (SenderOp WrappingInt32)) (ackno : WrappingInt32) (w : UInt16)
    (hlt : isn.rawValue + (after capacity retxTimeout isn ops).sender.nextSeqno < 2 ^ 32) :
    let s := (after capacity retxTimeout isn ops).sender
    let s' := s.ackReceived ackno w
    (ofConfig capacity retxTimeout isn).sender.ackGot = isn ∧
    (s.nextSeqno32.rawValue < ackno.rawValue → s' = s) ∧
    (ackno.rawValue ≤ s.nextSeqno32.rawValue →
      (∃ new, s'.firstSent = s.firstSent ++ new ∧
        s'.outSegments = s.outSegments.filter (fun seg =>
          decide (ackno.rawValue < seg.header.seqno.rawValue + seg.lengthInSequenceSpace)) ++ new) ∧
      s'.ackGot.rawValue = max s.ackGot.rawValue ackno.rawValue ∧
      (s.ackGot.rawValue < ackno.rawValue →
        s'.timer.rto = retxTimeout.toNat ∧ s'.consecutiveRetransmission = 0) ∧
      (ackno.rawValue ≤ s.ackGot.rawValue → s'.timer.rto = s.timer.rto ∧
        s'.consecutiveRetransmission = s.consecutiveRetransmission)) := by
  intro s s'
  have htracked := tracked_after capacity retxTimeout isn ops
  have hinv : SenderInv _ s := htracked.sender
  have hlt : s.isn.rawValue + s.nextSeqno < 2 ^ 32 := by
    rw [show s.isn = isn from htracked.isn_eq]
    exact hlt
  refine ⟨rfl, ?_, ?_⟩
  · intro hbeyond
    have hbeyond : s.ackBeyond ackno = true := decide_eq_true hbeyond
    show s.ackReceived ackno w = s
    rw [ackReceived_eq, if_pos hbeyond]
  · intro hle
    have hrun : s' = (s.acceptAck ackno w).fillWindow := by
      have hok : ¬ s.ackBeyond ackno = true := by
        rw [ackBeyond, decide_eq_true_iff]
        exact Nat.not_lt.mpr hle
      show s.ackReceived ackno w = _
      rw [ackReceived_eq, if_neg hok]
    have hout := hinv.outSegments_acceptAck hlt ackno w
    rw [hrun, rto_fillWindow, retx_fillWindow, ackGot_fillWindow, acceptAck_ackGot]
    refine ⟨?_, ?_, ?_, ?_⟩
    · -- both lists grow by the same segments, those the call of `fill_window` sends
      obtain ⟨new, hsends⟩ := fillWindow_sends (s.acceptAck ackno w)
      refine ⟨new, ?_, ?_⟩
      · rw [hsends.firstSent, firstSent_acceptAck]
      · rw [hsends.outSegments, hout]
        rfl
    · by_cases hnew : s.ackGot.rawValue < ackno.rawValue
      · have hnew' : s.ackNew ackno = true := decide_eq_true hnew
        rw [if_pos hnew', Nat.max_eq_right (Nat.le_of_lt hnew)]
      · have hold : ¬ s.ackNew ackno = true := by rw [ackNew, decide_eq_true_iff]; exact hnew
        rw [if_neg hold, Nat.max_eq_left (Nat.not_lt.mp hnew)]
    · intro hnew
      rw [← htracked.backs]
      exact backoff_acceptAck_of_new w (decide_eq_true hnew)
    · intro hold
      obtain ⟨htimer, hretx⟩ := timer_acceptAck_of_old (s := s) w
        (decide_eq_false (Nat.not_lt.mpr hold))
      exact ⟨congrArg _ htimer, hretx⟩

/-- Six bytes in one segment, acknowledged in the middle: the segment stays whole, the timeout is reset. -/
theorem ack_processing_partial :
    ((after 20 1000 (.ofRaw 5) [.fillWindow, .ackReceived (.ofRaw 6) 10, .write [1, 2, 3, 4, 5, 6], .fillWindow,
        .tick 1000]).sender.ackReceived (.ofRaw 8) 10).ackGot.rawValue = 8 ∧
    ((after 20 1000 (.ofRaw 5) [.fillWindow, .ackReceived (.ofRaw 6) 10, .write [1, 2, 3, 4, 5, 6], .fillWindow,
        .tick 1000]).sender.ackReceived (.ofRaw 8) 10).timer.rto = 1000 := by
  have h := ack_processing 20 1000 (.ofRaw 5) [.fillWindow, .ackReceived (.ofRaw 6) 10,
    .write [1, 2, 3, 4, 5, 6], .fillWindow, .tick 1000] (.ofRaw 8) 10 (by decide +kernel)
  obtain ⟨-, hgot, hnew, -⟩ := h.2.2 (by decide +kernel)
  exact ⟨hgot.trans (by decide +kernel), (hnew (by decide +kernel)).1⟩

end Feed

/-! ## Outdated acknowledgments -/

namespace TCPSender

variable {s : TCPSender} {accepted : List UInt8} {ackno : WrappingInt32}

/-- Older than the recorded acknowledgment number, or not after the ISN while the SYN is unacknowledged. -/
def Outdated (s : TCPSender) (ackno : WrappingInt32) : Prop :=
  ackno.rawValue < s.ackGot.rawValue ∨ (s.acked = [] ∧ ackno.rawValue ≤ s.isn.rawValue)

/-- The sequence numbers sent and not acknowledged, by the raw values. -/
def unacked (s : TCPSender) : Nat := s.nextSeqno32.rawValue - s.ackGot.rawValue

/-- The window `w` is no news, and filling it sends nothing. After the FIN it is enough that `w` is the recorded
    window. Before it, the SYN has to be out, there is nothing to send or `w` is exactly used up, and `w` is the
    recorded window, where a window of zero that is not used up is recorded as one. -/
def Harmless (s : TCPSender) (w : UInt16) : Prop :=
  (s.finFlag = true ∧ s.trueWindowSize = w) ∨
  (s.finFlag = false ∧ s.synFlag = true ∧ (s.avail = 0 ∨ s.unacked = max 1 w.toNat) ∧
    s.trueWindowSize = if w = 0 ∧ s.unacked ≠ 1 then 1 else w)

instance (s : TCPSender) (ackno : WrappingInt32) : Decidable (Outdated s ackno) := by
  unfold Outdated; infer_instance

instance (s : TCPSender) (w : UInt16) : Decidable (Harmless s w) := by
  unfold Harmless; infer_instance

/-- An old acknowledgment number changes nothing but the window. -/
theorem acceptAck_of_old (h : Pruned s) (hlt : s.isn.rawValue + s.nextSeqno < 2 ^ 32)
    (hold : ackno.rawValue ≤ s.ackGot.rawValue) (w : UInt16) :
    s.acceptAck ackno w = { s with trueWindowSize := w } := by
  have hkeep : ∀ seg ∈ s.outSegments, fullyAcked ackno seg = false := by
    intro seg hseg
    have hpast := of_decide_eq_true (h hlt seg hseg)
    apply decide_eq_false
    omega
  have htake : s.outSegments.takeWhile (fullyAcked ackno) = [] := by
    rw [List.takeWhile_eq_nil_iff]
    intro hpos
    rw [hkeep _ (List.get_mem _ _)]
    exact Bool.false_ne_true
  have hdrop : s.outSegments.dropWhile (fullyAcked ackno) = s.outSegments := by
    have hall := List.takeWhile_append_dropWhile (p := fullyAcked ackno) (l := s.outSegments)
    rwa [htake, List.nil_append] at hall
  have hnew : s.ackNew ackno = false := decide_eq_false (Nat.not_lt.mpr hold)
  obtain ⟨htimer, hretx⟩ := timer_acceptAck_of_old w hnew
  rw [acceptAck_frame, htake, hdrop, hnew, htimer, hretx]
  simp

theorem ackBeyond_of_old (h : AckBound s) (hlt : s.isn.rawValue + s.nextSeqno < 2 ^ 32)
    (hold : ackno.rawValue ≤ s.ackGot.rawValue) : s.ackBeyond ackno = false := by
  have hhigh := h.high hlt
  rw [ackBeyond, nextSeqno32, rawValue_wrap_of_lt hlt]
  exact decide_eq_false (by omega)

theorem Outdated.le (hold : Outdated s ackno) (h : AckBound s) : ackno.rawValue ≤ s.ackGot.rawValue := by
  rcases hold with hlt | ⟨-, hle⟩
  · exact Nat.le_of_lt hlt
  · have hlow := h.low
    omega

/-! ### `fill_window` with nothing to do -/

theorem read_of_empty {stream : ByteStream} (h : stream.buf = []) (len : Nat) :
    (stream.read len).2 = stream := by
  cases stream
  simp only at h
  subst h
  simp [ByteStream.read, ByteStream.popOutput]

/-- Without room or without anything to send the loop leaves the sender as it is; it is left by the `return` if
    there was room. -/
theorem fillLoop_idle (hfin : s.finFlag = false) (hidle : s.remain = 0 ∨ s.avail = 0) :
    s.fillLoop = (s, decide (s.remain ≠ 0)) := by
  by_cases hzero : s.remain = 0
  · rw [fillLoop, if_neg (fun hgo => hgo.1 hzero), decide_eq_false (not_not_intro hzero)]
  · have havail := hidle.resolve_left hzero
    have hle := takeSegment_length s s.remain
    have hlen : (s.takeSegment s.remain).2.lengthInSequenceSpace = 0 := by omega
    have hbuf : s.stream.buf = [] := by
      unfold avail at havail
      exact List.length_eq_zero_iff.mp (by omega)
    rw [fillLoop, if_pos ⟨hzero, hfin⟩, if_pos hlen, decide_eq_true hzero]
    rcases takeSegment_cases s s.remain with ⟨-, -, heq⟩ | ⟨-, heq⟩
    · rw [heq] at hlen
      simp [lengthInSequenceSpace] at hlen
    · rw [heq, read_of_empty hbuf]

theorem fillWindow_idle (hsyn : s.synFlag = true) (hfin : s.finFlag = false)
    (hidle : s.room = 0 ∨ s.avail = 0) :
    s.fillWindow =
      { s with trueWindowSize := if s.trueWindowSize = 0 ∧ s.room ≠ 0 then 1 else s.trueWindowSize } := by
  have hloop : s.widened.fillLoop = (s.widened, decide (s.room ≠ 0)) := by
    rw [← remain_widened] at hidle ⊢
    exact fillLoop_idle hfin hidle
  rw [fillWindow_loop hfin hsyn, hloop]
  by_cases hzero : s.trueWindowSize = 0 <;> by_cases hnone : s.room = 0 <;> simp [widened, hzero, hnone]

/-- The room is used up exactly if what is unacknowledged is as large as the window. -/
theorem room_eq_zero_iff (hle : s.ackGot.rawValue ≤ s.nextSeqno32.rawValue) :
    s.room = 0 ↔ s.unacked = max 1 s.trueWindowSize.toNat := by
  have hnext := s.nextSeqno32.isLt
  have hw := s.trueWindowSize.toNat_lt
  rw [room, usub_of_le hle, unacked]
  unfold usub
  split <;> omega

/-- Changing the window only changes nothing exactly if it is the window already. -/
theorem window_eq_self_iff (s : TCPSender) (w : UInt16) :
    { s with trueWindowSize := w } = s ↔ s.trueWindowSize = w := by
  constructor
  · intro h
    rw [← congrArg trueWindowSize h]
  · rintro rfl
    rfl

/-- **`fill_window` with the window `w` changes nothing at all** exactly if `w` is harmless. -/
theorem fillWindow_eq_self_iff (hle : s.ackGot.rawValue ≤ s.nextSeqno32.rawValue) (w : UInt16) :
    TCPSender.fillWindow { s with trueWindowSize := w } = s ↔ Harmless s w := by
  rcases fillWindow_cases { s with trueWindowSize := w } with
    ⟨hfin, heq⟩ | ⟨hfin, hsyn, heq⟩ | ⟨hfin, hsyn, new, hfills, htotal⟩
  · have hfin : s.finFlag = true := hfin
    rw [heq, window_eq_self_iff]
    simp [Harmless, hfin]
  · -- the SYN is sent, and it is in the queue afterwards
    have hfin : s.finFlag = false := hfin
    have hsyn : s.synFlag = false := hsyn
    apply iff_of_false
    · intro hsame
      have hout := congrArg outSegments (heq.symm.trans hsame)
      exact absurd (List.append_right_eq_self.mp hout) (List.cons_ne_nil _ _)
    · simp [Harmless, hfin, hsyn]
  · have hfin : s.finFlag = false := hfin
    have hsyn : s.synFlag = true := hsyn
    have hroom : room { s with trueWindowSize := w } = 0 ↔ s.unacked = max 1 w.toNat :=
      room_eq_zero_iff (s := { s with trueWindowSize := w }) hle
    have htotal : extent lengthInSequenceSpace new =
        min (room { s with trueWindowSize := w }) s.avail := htotal
    have hzero : w = 0 → max 1 w.toNat = 1 := by rintro rfl; rfl
    have hright : Harmless s w ↔ (s.avail = 0 ∨ s.unacked = max 1 w.toNat) ∧
        s.trueWindowSize = if w = 0 ∧ s.unacked ≠ 1 then 1 else w := by
      simp [Harmless, hfin, hsyn]
    rw [hright]
    by_cases hidle : room { s with trueWindowSize := w } = 0 ∨ s.avail = 0
    · rw [fillWindow_idle (s := { s with trueWindowSize := w }) hsyn hfin hidle]
      rw [hroom] at hidle
      have hsame : (if w = 0 ∧ room { s with trueWindowSize := w } ≠ 0 then (1 : UInt16) else w) =
          if w = 0 ∧ s.unacked ≠ 1 then 1 else w := by
        refine if_congr (and_congr_right fun hw => ?_) rfl rfl
        rw [ne_eq, hroom, hzero hw]
      exact ((window_eq_self_iff s _).trans (by rw [hsame])).trans
        (and_iff_right (hidle.symm)).symm
    · -- something is sent, and it is in the queue afterwards
      apply iff_of_false
      · intro hsame
        have hout := hfills.outSegments
        rw [hsame] at hout
        have hnil := List.append_right_eq_self.mp hout.symm
        rw [hnil, extent_nil] at htotal
        omega
      · rw [hroom] at hidle
        rintro ⟨hquiet, -⟩
        exact hidle hquiet.symm

end TCPSender

namespace Feed

/-- **When an outdated acknowledgment is harmless.** In every state in which no sequence number has wrapped, an
    acknowledgment older than the recorded one, or not after the ISN while the SYN is unacknowledged, leaves the
    sender as it is, the outbound queue and the window included, if and only if its window is harmless. -/
theorem outdated_ack_harmless_iff (capacity : Nat) (retxTimeout : UInt16) (isn : WrappingInt32)
    (ops : List (SenderOp WrappingInt32)) (ackno : WrappingInt32) (w : UInt16)
    (hlt : isn.rawValue + (after capacity retxTimeout isn ops).sender.nextSeqno < 2 ^ 32)
    (hold : Outdated (after capacity retxTimeout isn ops).sender ackno) :
    (after capacity retxTimeout isn ops).sender.ackReceived ackno w =
        (after capacity retxTimeout isn ops).sender ↔
      Harmless (after capacity retxTimeout isn ops).sender w := by
  have htracked := tracked_after capacity retxTimeout isn ops
  generalize after capacity retxTimeout isn ops = f at *
  rw [← htracked.isn_eq] at hlt
  have hle := hold.le htracked.ack
  have hnext : f.sender.ackGot.rawValue ≤ f.sender.nextSeqno32.rawValue := by
    rw [nextSeqno32, rawValue_wrap_of_lt hlt]
    exact htracked.ack.high hlt
  have hbeyond : ¬ f.sender.ackBeyond ackno = true := by
    rw [ackBeyond_of_old htracked.ack hlt hle]
    exact Bool.false_ne_true
  rw [ackReceived_eq, if_neg hbeyond, acceptAck_of_old htracked.pruned hlt hle]
  exact fillWindow_eq_self_iff hnext w

/-- Three bytes are sent and acknowledged; then the first acknowledgment arrives again. -/
def ackedThree : List (SenderOp WrappingInt32) :=
  [.fillWindow, .ackReceived (.ofRaw 6) 10, .write [1, 2, 3], .fillWindow, .ackReceived (.ofRaw 9) 10]

/-- With the same window it is harmless. -/
theorem outdated_ack_same_window :
    (after 20 1000 (.ofRaw 5) ackedThree).sender.ackReceived (.ofRaw 6) 10 =
      (after 20 1000 (.ofRaw 5) ackedThree).sender :=
  (outdated_ack_harmless_iff 20 1000 (.ofRaw 5) ackedThree (.ofRaw 6) 10 (by decide +kernel)
    (by decide +kernel)).mpr (by decide +kernel)

/-- With another window it replaces the window of the newest acknowledgment. -/
theorem outdated_ack_shrinks_window :
    ¬ ∀ (capacity : Nat) (retxTimeout : UInt16) (isn : WrappingInt32) (ops : List (SenderOp WrappingInt32))
      (ackno : WrappingInt32) (w : UInt16),
      isn.rawValue + (after capacity retxTimeout isn ops).sender.nextSeqno < 2 ^ 32 →
      Outdated (after capacity retxTimeout isn ops).sender ackno →
      (after capacity retxTimeout isn ops).sender.ackReceived ackno w =
        (after capacity retxTimeout isn ops).sender := by
  intro h
  have hsame := congrArg trueWindowSize
    (h 20 1000 (.ofRaw 5) ackedThree (.ofRaw 6) 2 (by decide +kernel) (by decide +kernel))
  revert hsame
  decide +kernel

end Feed

end Sponge
