import Sponge.Sender.Partition

/-!
# `Sender.Shift` — how far the sender depends on its initial sequence number

`shift d` moves every sequence number in a sender by `d`, modulo `2 ^ 32`. Filling the window, passing time
and the stream commute with it, because they only use differences of sequence numbers. `ack_received` does
not: it compares raw 32-bit values, and a comparison can come out differently when one of the two numbers has
wrapped. `ackChecks` lists the comparisons it makes. Where these agree, so do the senders
(`isn_irrelevant`), and they agree as long as nothing wraps (`checksAgree_of_noWrap`).
-/

namespace Sponge

open Lib

/-! ## Shifting -/

/-- Move the sequence number of a segment. -/
def TCPSegment.shift (d : Nat) (seg : TCPSegment) : TCPSegment :=
  { seg with header := { seg.header with seqno := seg.header.seqno.add d } }

def SendEvent.shift (d : Nat) : SendEvent → SendEvent
  | .sent seg   => .sent (seg.shift d)
  | .resent seg => .resent (seg.shift d)
  | .acked seg  => .acked (seg.shift d)

namespace TCPSender

/-- Move every sequence number the sender holds. -/
def shift (d : Nat) (s : TCPSender) : TCPSender :=
  { s with
    isn := s.isn.add d
    segmentsOut := s.segmentsOut.map (·.shift d)
    outSegments := s.outSegments.map (·.shift d)
    ackGot := s.ackGot.add d
    log := s.log.map (·.shift d) }

section Commute

variable (d : Nat) (s : TCPSender)

@[simp] theorem shift_stream : (s.shift d).stream = s.stream := rfl
@[simp] theorem shift_trueWindowSize : (s.shift d).trueWindowSize = s.trueWindowSize := rfl
@[simp] theorem shift_synFlag : (s.shift d).synFlag = s.synFlag := rfl
@[simp] theorem shift_finFlag : (s.shift d).finFlag = s.finFlag := rfl
@[simp] theorem shift_outSegments : (s.shift d).outSegments = s.outSegments.map (·.shift d) := rfl
@[simp] theorem shift_timer : (s.shift d).timer = s.timer := rfl

@[simp] theorem lengthInSequenceSpace_shift (seg : TCPSegment) :
    (seg.shift d).lengthInSequenceSpace = seg.lengthInSequenceSpace := rfl

theorem nextSeqno32_shift : (s.shift d).nextSeqno32 = s.nextSeqno32.add d := wrap_isn_add _ _ _

/-- Differences of sequence numbers do not move. -/
theorem usub_add_add (a b : WrappingInt32) :
    usub 32 (a.add d).rawValue (b.add d).rawValue = usub 32 a.rawValue b.rawValue := by
  have ha := a.isLt
  have hb := b.isLt
  rw [WrappingInt32.rawValue_add, WrappingInt32.rawValue_add]
  unfold usub
  split <;> split <;> omega

theorem remain_shift : (s.shift d).remain = s.remain := by
  rw [remain, nextSeqno32_shift]
  exact congrArg _ (usub_add_add d _ _)

theorem takeSegment_shift (remain : Nat) :
    (s.shift d).takeSegment remain =
      ((s.takeSegment remain).1.shift d, (s.takeSegment remain).2.shift d) := by
  simp only [takeSegment, nextSeqno32_shift, shift_stream, TCPSegment.lengthInSequenceSpace,
    Bool.false_eq_true, if_false]
  split <;> rfl

theorem sendSegment_shift (seg : TCPSegment) :
    (s.shift d).sendSegment (seg.shift d) = (s.sendSegment seg).shift d := by
  simp only [sendSegment, shift, List.map_append, List.map_cons, List.map_nil,
    lengthInSequenceSpace_shift]
  rfl

/-- One unfolding of the loop on a shifted state. -/
theorem fillLoop_shift_eq :
    (s.shift d).fillLoop =
      if s.remain ≠ 0 ∧ s.finFlag = false then
        if (s.takeSegment s.remain).2.lengthInSequenceSpace = 0 then
          ((s.takeSegment s.remain).1.shift d, true)
        else (((s.takeSegment s.remain).1.sendSegment (s.takeSegment s.remain).2).shift d).fillLoop
      else (s.shift d, false) := by
  rw [fillLoop, remain_shift, takeSegment_shift]
  simp only [shift_finFlag, lengthInSequenceSpace_shift, sendSegment_shift]

theorem fillLoop_shift : (s.shift d).fillLoop = (s.fillLoop.1.shift d, s.fillLoop.2) := by
  induction s using fillLoop.induct with
  | case1 s hgo hempty =>
      rw [fillLoop_shift_eq, if_pos hgo, if_pos hempty, fillLoop, if_pos hgo, if_pos hempty]
  | case2 s hgo hlen ih =>
      conv_rhs => rw [fillLoop, if_pos hgo, if_neg hlen]
      rw [fillLoop_shift_eq, if_pos hgo, if_neg hlen, ih]
  | case3 s hstop => rw [fillLoop_shift_eq, if_neg hstop, fillLoop, if_neg hstop]

theorem widened_shift : (s.shift d).widened = s.widened.shift d := rfl

theorem fillWindow_shift : (s.shift d).fillWindow = s.fillWindow.shift d := by
  by_cases hfin : s.finFlag = true
  · rw [fillWindow, fillWindow, if_pos hfin, if_pos (show (s.shift d).finFlag = true from hfin)]
  · by_cases hsyn : s.synFlag = false
    · rw [fillWindow, fillWindow, if_neg hfin, if_neg (show ¬ (s.shift d).finFlag = true from hfin), if_pos hsyn,
        if_pos (show (s.shift d).synFlag = false from hsyn), nextSeqno32_shift, ← sendSegment_shift]
      rfl
    · rw [Bool.not_eq_true] at hfin
      rw [Bool.not_eq_false] at hsyn
      rw [fillWindow_loop hfin hsyn, fillWindow_loop (s := s.shift d) hfin hsyn, widened_shift, fillLoop_shift]
      rfl

theorem retransmit_shift (seg : TCPSegment) :
    (s.shift d).retransmit (seg.shift d) = (s.retransmit seg).shift d := by
  simp only [retransmit]
  by_cases h : s.trueWindowSize ≠ 0 ∨ s.nextSeqno = 1
  · rw [if_pos h, if_pos (show (s.shift d).trueWindowSize ≠ 0 ∨ (s.shift d).nextSeqno = 1 from h)]
    simp [shift, SendEvent.shift]
  · rw [if_neg h, if_neg (show ¬ ((s.shift d).trueWindowSize ≠ 0 ∨ (s.shift d).nextSeqno = 1) from h)]
    simp [shift, SendEvent.shift]

theorem tick_shift (ms : Nat) : (s.shift d).tick ms = (s.tick ms).shift d := by
  simp only [tick, shift_timer, shift_outSegments]
  cases hout : s.outSegments with
  | nil => simp [shift, hout]
  | cons seg rest =>
      simp only [List.map_cons]
      by_cases hrun : (s.timer.passTime (ms % 2 ^ 32)).isRunning = false
      · rw [if_pos hrun, if_pos hrun, ← retransmit_shift]
        simp [shift, hout]
      · rw [if_neg hrun, if_neg hrun]
        simp [shift, hout]

end Commute

/-! ## The comparisons of `ack_received` -/

/-- The comparisons of the dropping loop, up to the first segment that is not acknowledged. -/
def popChecks (ackno : WrappingInt32) : List TCPSegment → List Bool
  | []          => []
  | seg :: rest => if fullyAcked ackno seg then true :: popChecks ackno rest else [false]

/-- The outcomes of all comparisons of raw sequence numbers that `ack_received` makes, in order. -/
def ackChecks (s : TCPSender) (ackno : WrappingInt32) : List Bool :=
  if s.ackBeyond ackno then [true]
  else false :: s.ackNew ackno :: popChecks ackno s.outSegments

variable {d : Nat} {s : TCPSender} {ackno : WrappingInt32}

theorem popLoop_shift {segs : List TCPSegment}
    (h : popChecks (ackno.add d) (segs.map (·.shift d)) = popChecks ackno segs) :
    popLoop (ackno.add d) (segs.map (·.shift d)) (s.shift d) = (popLoop ackno segs s).shift d := by
  induction segs generalizing s with
  | nil => rfl
  | cons seg segs ih =>
      rw [List.map_cons, popChecks, popChecks] at h
      rw [List.map_cons, popLoop, popLoop]
      by_cases hack : fullyAcked ackno seg = true
      · rw [if_pos hack] at h ⊢
        by_cases hack' : fullyAcked (ackno.add d) (seg.shift d) = true
        · rw [if_pos hack'] at h ⊢
          rw [← ih (List.cons.inj h).2]
          simp [shift, SendEvent.shift]
        · -- the lists of outcomes would differ at their head
          rw [if_neg hack'] at h
          exact absurd (List.cons.inj h).1 Bool.false_ne_true
      · rw [if_neg hack] at h ⊢
        by_cases hack' : fullyAcked (ackno.add d) (seg.shift d) = true
        · rw [if_pos hack'] at h
          exact absurd (List.cons.inj h).1.symm Bool.false_ne_true
        · rw [if_neg hack']

theorem recordAck_shift (h : (s.shift d).ackNew (ackno.add d) = s.ackNew ackno) :
    (s.shift d).recordAck (ackno.add d) = (s.recordAck ackno).shift d := by
  unfold recordAck
  rw [h]
  split
  · simp [shift]
  · rfl

/-- **`ack_received` commutes with the shift where its comparisons agree.** -/
theorem ackReceived_shift (w : UInt16)
    (h : (s.shift d).ackChecks (ackno.add d) = s.ackChecks ackno) :
    (s.shift d).ackReceived (ackno.add d) w = (s.ackReceived ackno w).shift d := by
  unfold ackChecks at h
  rw [ackReceived_eq, ackReceived_eq]
  by_cases hb : s.ackBeyond ackno = true
  · rw [if_pos hb] at h ⊢
    by_cases hb' : (s.shift d).ackBeyond (ackno.add d) = true
    · rw [if_pos hb']
    · rw [if_neg hb'] at h
      exact absurd (List.cons.inj h).1 Bool.false_ne_true
  · rw [if_neg hb] at h ⊢
    by_cases hb' : (s.shift d).ackBeyond (ackno.add d) = true
    · rw [if_pos hb'] at h
      exact absurd (List.cons.inj h).1.symm Bool.false_ne_true
    · rw [if_neg hb'] at h ⊢
      obtain ⟨hnew, hpop⟩ := List.cons.inj (List.cons.inj h).2
      rw [← fillWindow_shift]
      congr 1
      have hloop : popLoop (ackno.add d) (s.shift d).outSegments (s.shift d) =
          (popLoop ackno s.outSegments s).shift d := popLoop_shift hpop
      have hrec : ((popLoop ackno s.outSegments s).shift d).ackNew (ackno.add d) =
          (popLoop ackno s.outSegments s).ackNew ackno := by
        rw [popLoop_eq rfl]; exact hnew
      rw [acceptAck, hloop, recordAck_shift hrec]
      rfl

/-! ## Two senders side by side -/

/-- Two senders, with ISNs `isn₁` and `isn₂`, driven by the same operations; acknowledgment numbers are
    offsets from the ISN. -/
def pairStep (isn₁ isn₂ : WrappingInt32) (p : TCPSender × TCPSender) (op : SenderOp Nat) :
    TCPSender × TCPSender :=
  (p.1.step (op.map isn₁.add), p.2.step (op.map isn₂.add))

/-- Two fresh senders that differ only in the ISN. -/
def pairOf (capacity : Nat) (retxTimeout : UInt16) (isn₁ isn₂ : WrappingInt32) : TCPSender × TCPSender :=
  (ofConfig capacity retxTimeout isn₁, ofConfig capacity retxTimeout isn₂)

/-- Every comparison of raw sequence numbers that the operation makes comes out the same in both senders.
    Only `ack_received` makes any. -/
def ChecksAgree (isn₁ isn₂ : WrappingInt32) (p : TCPSender × TCPSender) : SenderOp Nat → Prop
  | .ackReceived a _ => p.2.ackChecks (isn₂.add a) = p.1.ackChecks (isn₁.add a)
  | _                => True

instance (isn₁ isn₂ : WrappingInt32) (p : TCPSender × TCPSender) :
    (op : SenderOp Nat) → Decidable (ChecksAgree isn₁ isn₂ p op)
  | .ackReceived a _ =>
      inferInstanceAs (Decidable (p.2.ackChecks (isn₂.add a) = p.1.ackChecks (isn₁.add a)))
  | .write _ | .endInput | .fillWindow | .tick _ => inferInstanceAs (Decidable True)

/-- The offset from one ISN to another leads there. -/
theorem add_usub (isn₁ isn₂ : WrappingInt32) :
    isn₁.add (usub 32 isn₂.rawValue isn₁.rawValue) = isn₂ := by
  ext
  have h₁ := isn₁.isLt
  have h₂ := isn₂.isLt
  rw [WrappingInt32.rawValue_add]
  unfold usub
  split <;> omega

theorem add_right_comm (isn : WrappingInt32) (d a : Nat) : (isn.add d).add a = (isn.add a).add d := by
  rw [WrappingInt32.add_add, WrappingInt32.add_add, Nat.add_comm]

/-- One step of the two senders keeps them a shift apart. -/
theorem pairStep_shift {isn : WrappingInt32} {d : Nat} {p : TCPSender × TCPSender} {op : SenderOp Nat}
    (h : p.2 = p.1.shift d) (hok : ChecksAgree isn (isn.add d) p op) :
    (pairStep isn (isn.add d) p op).2 = (pairStep isn (isn.add d) p op).1.shift d := by
  simp only [pairStep, h]
  cases op with
  | write data => rfl
  | endInput => rfl
  | fillWindow => exact fillWindow_shift d p.1
  | ackReceived a w =>
      rw [ChecksAgree, h, add_right_comm] at hok
      simp only [SenderOp.map, step, add_right_comm isn d a]
      exact ackReceived_shift w hok
  | tick ms => exact tick_shift d p.1 ms

/-- **The sender does not depend on its ISN** in any run in which the raw comparisons of `ack_received`
    come out the same for both ISNs: at every moment the two senders agree on the absolute sequence number,
    the bytes in flight, the retransmission count and the timeout, and have queued the same segments up to
    shifting each sequence number. -/
theorem isn_irrelevant (capacity : Nat) (retxTimeout : UInt16) (isn₁ isn₂ : WrappingInt32)
    (ops : List (SenderOp Nat))
    (h : Guarded (pairStep isn₁ isn₂) (ChecksAgree isn₁ isn₂) (pairOf capacity retxTimeout isn₁ isn₂)
      ops) :
    ∀ pre, pre <+: ops →
      let p := run (pairStep isn₁ isn₂) (pairOf capacity retxTimeout isn₁ isn₂) pre
      p.2.nextSeqno = p.1.nextSeqno ∧ p.2.bytesInFlight = p.1.bytesInFlight ∧
      p.2.consecutiveRetransmission = p.1.consecutiveRetransmission ∧ p.2.timer.rto = p.1.timer.rto ∧
      p.2.segmentsOut = p.1.segmentsOut.map (·.shift (usub 32 isn₂.rawValue isn₁.rawValue)) := by
  intro pre hpre p
  have hd := add_usub isn₁ isn₂
  generalize usub 32 isn₂.rawValue isn₁.rawValue = d at hd ⊢
  subst hd
  have hshift : p.2 = p.1.shift d :=
    (h.of_isPrefix hpre).invariant (fun p => p.2 = p.1.shift d) rfl fun _ _ hp hok => pairStep_shift hp hok
  rw [hshift]
  exact ⟨rfl, rfl, rfl, rfl, rfl⟩

/-- Two ISNs far from the wrap: a handshake, some data, a partial and a full acknowledgment. -/
theorem isn_irrelevant_handshake :
    Guarded (pairStep (.ofRaw 0) (.ofRaw 7)) (ChecksAgree (.ofRaw 0) (.ofRaw 7))
      (pairOf 10 1000 (.ofRaw 0) (.ofRaw 7))
      [.fillWindow, .ackReceived 1 4, .write [1, 2, 3], .fillWindow, .ackReceived 4 4] ∧
    (run (pairStep (.ofRaw 0) (.ofRaw 7)) (pairOf 10 1000 (.ofRaw 0) (.ofRaw 7))
      [.fillWindow, .ackReceived 1 4, .write [1, 2, 3], .fillWindow, .ackReceived 4 4]).2.bytesInFlight =
    (run (pairStep (.ofRaw 0) (.ofRaw 7)) (pairOf 10 1000 (.ofRaw 0) (.ofRaw 7))
      [.fillWindow, .ackReceived 1 4, .write [1, 2, 3], .fillWindow, .ackReceived 4 4]).1.bytesInFlight :=
  ⟨by decide +kernel,
    (isn_irrelevant 10 1000 (.ofRaw 0) (.ofRaw 7) _ (by decide +kernel) _ (List.prefix_refl _)).2.1⟩

/-- With the last ISN the SYN ends at the wrap, and its acknowledgment does not count. -/
theorem isn_relevant_at_wrap :
    ¬ ∀ (capacity : Nat) (retxTimeout : UInt16) (isn₁ isn₂ : WrappingInt32) (ops : List (SenderOp Nat)),
      let p := run (pairStep isn₁ isn₂) (pairOf capacity retxTimeout isn₁ isn₂) ops
      p.2.nextSeqno = p.1.nextSeqno ∧ p.2.bytesInFlight = p.1.bytesInFlight ∧
      p.2.consecutiveRetransmission = p.1.consecutiveRetransmission ∧ p.2.timer.rto = p.1.timer.rto ∧
      p.2.segmentsOut = p.1.segmentsOut.map (·.shift (usub 32 isn₂.rawValue isn₁.rawValue)) := by
  intro h
  have hflight := (h 10 1000 (.ofRaw 0) (.ofRaw 4294967295) [.fillWindow, .ackReceived 1 10]).2.1
  revert hflight
  decide +kernel

/-! ## No wrap, no difference -/

/-- Neither ISN makes a number wrap: not the next sequence number, and not the acknowledgment number. -/
def NoWrap (isn₁ isn₂ : WrappingInt32) (p : TCPSender × TCPSender) (op : SenderOp Nat) : Prop :=
  ∀ isn ∈ [isn₁, isn₂], isn.rawValue + p.1.nextSeqno < 2 ^ 32 ∧
    ∀ a w, op = .ackReceived a w → isn.rawValue + a < 2 ^ 32

/-- Without a wrap a shifted number is the sum. -/
theorem rawValue_add_shift {isn : WrappingInt32} {x : Nat} (h : (isn.add d).rawValue + x < 2 ^ 32) :
    ((isn.add x).add d).rawValue = (isn.add d).rawValue + x := by
  rw [← add_right_comm, WrappingInt32.rawValue_add]
  exact Nat.mod_eq_of_lt h

theorem popChecks_shift {isn : WrappingInt32} {a n : Nat} {segs : List TCPSegment}
    (hn : isn.rawValue + n < 2 ^ 32) (hn' : (isn.add d).rawValue + n < 2 ^ 32)
    (ha : isn.rawValue + a < 2 ^ 32) (ha' : (isn.add d).rawValue + a < 2 ^ 32)
    (hsegs : ∀ seg ∈ segs, ∃ v ≤ n, seg.header.seqno = wrap v isn) :
    popChecks ((isn.add a).add d) (segs.map (·.shift d)) = popChecks (isn.add a) segs := by
  induction segs with
  | nil => rfl
  | cons seg segs ih =>
      have ih := ih fun seg hm => hsegs seg (List.mem_cons_of_mem _ hm)
      obtain ⟨v, hv, hseq⟩ := hsegs seg List.mem_cons_self
      have hsame : fullyAcked ((isn.add a).add d) (seg.shift d) = fullyAcked (isn.add a) seg := by
        have hraw : (seg.shift d).header.seqno.rawValue = (isn.add d).rawValue + v := by
          simp only [TCPSegment.shift, hseq, wrap_eq_add]
          exact rawValue_add_shift (by omega)
        have hraw' : seg.header.seqno.rawValue = isn.rawValue + v := by
          rw [hseq]; exact rawValue_wrap_of_lt (by omega)
        have hack : (isn.add a).rawValue = isn.rawValue + a := Nat.mod_eq_of_lt ha
        rw [fullyAcked, fullyAcked, hraw, hraw', hack, rawValue_add_shift ha',
          lengthInSequenceSpace_shift]
        exact decide_eq_decide.mpr (by omega)
      rw [List.map_cons, popChecks, popChecks, hsame, ih]

/-- **The comparisons agree as long as nothing wraps.** -/
theorem ackChecks_shift {accepted : List UInt8} {a g : Nat} (hinv : SenderInv accepted s)
    (hgot : s.ackGot = s.isn.add g)
    (hlt : ∀ x ∈ [s.nextSeqno, a, g], s.isn.rawValue + x < 2 ^ 32 ∧ (s.isn.add d).rawValue + x < 2 ^ 32) :
    (s.shift d).ackChecks ((s.isn.add a).add d) = s.ackChecks (s.isn.add a) := by
  simp only [List.forall_mem_cons, List.not_mem_nil, false_imp_iff, implies_true, and_true] at hlt
  obtain ⟨⟨hn, hn'⟩, ⟨ha, ha'⟩, hg, hg'⟩ := hlt
  have hack : (s.isn.add a).rawValue = s.isn.rawValue + a := Nat.mod_eq_of_lt ha
  have hbeyond : (s.shift d).ackBeyond ((s.isn.add a).add d) = s.ackBeyond (s.isn.add a) := by
    have hnext : s.nextSeqno32.rawValue = s.isn.rawValue + s.nextSeqno := rawValue_wrap_of_lt hn
    have hnext' : (s.shift d).nextSeqno32.rawValue = (s.isn.add d).rawValue + s.nextSeqno := by
      rw [nextSeqno32_shift, nextSeqno32, wrap_eq_add]; exact rawValue_add_shift hn'
    rw [ackBeyond, ackBeyond, hnext, hnext', rawValue_add_shift ha', hack]
    exact decide_eq_decide.mpr (by omega)
  have hnew : (s.shift d).ackNew ((s.isn.add a).add d) = s.ackNew (s.isn.add a) := by
    have hrec : (s.shift d).ackGot.rawValue = (s.isn.add d).rawValue + g := by
      rw [shift, hgot]; exact rawValue_add_shift hg'
    have hrec' : s.ackGot.rawValue = s.isn.rawValue + g := by rw [hgot]; exact Nat.mod_eq_of_lt hg
    rw [ackNew, ackNew, hrec, hrec', rawValue_add_shift ha', hack]
    exact decide_eq_decide.mpr (by omega)
  have hpop : popChecks ((s.isn.add a).add d) (s.shift d).outSegments =
      popChecks (s.isn.add a) s.outSegments := by
    refine popChecks_shift hn hn' ha ha' fun seg hseg => ?_
    -- an outstanding segment was sent, so its number is that of an earlier position
    have hsent : seg ∈ s.firstSent := by rw [hinv.queue]; exact List.mem_append_right _ hseg
    obtain ⟨v, -, hv, hseq⟩ := hinv.numbered.of_mem hsent
    rw [Nat.zero_add, ← hinv.next] at hv
    exact ⟨v, by omega, hseq⟩
  rw [ackChecks, ackChecks, hbeyond, hnew, hpop]

/-- What a run without a wrap keeps. -/
structure NoWrapInv (isn : WrappingInt32) (d : Nat) (p : TCPSender × TCPSender) : Prop where
  shifted : p.2 = p.1.shift d
  isn_eq  : p.1.isn = isn
  sender  : ∃ accepted, SenderInv accepted p.1
  ackGot  : ∃ g, p.1.ackGot = isn.add g ∧ isn.rawValue + g < 2 ^ 32 ∧ (isn.add d).rawValue + g < 2 ^ 32

theorem NoWrapInv.checksAgree {isn : WrappingInt32} {p : TCPSender × TCPSender} {op : SenderOp Nat}
    (h : NoWrapInv isn d p) (hok : NoWrap isn (isn.add d) p op) :
    ChecksAgree isn (isn.add d) p op := by
  cases op with
  | ackReceived a w =>
      obtain ⟨⟨hn, ha⟩, hn', ha'⟩ :
          (isn.rawValue + p.1.nextSeqno < 2 ^ 32 ∧ _) ∧ (isn.add d).rawValue + p.1.nextSeqno < 2 ^ 32 ∧ _ :=
        ⟨hok isn (by simp), hok (isn.add d) (by simp)⟩
      obtain ⟨accepted, hinv⟩ := h.sender
      obtain ⟨g, hgot, hg, hg'⟩ := h.ackGot
      have ha := ha a w rfl
      have ha' := ha' a w rfl
      rw [ChecksAgree, h.shifted, add_right_comm]
      have hisn := h.isn_eq
      subst hisn
      exact ackChecks_shift hinv hgot (by
        simp only [List.forall_mem_cons, List.not_mem_nil, false_imp_iff, implies_true, and_true]
        exact ⟨⟨hn, hn'⟩, ⟨ha, ha'⟩, hg, hg'⟩)
  | write _ | endInput | fillWindow | tick _ => trivial

theorem NoWrapInv.step {isn : WrappingInt32} {p : TCPSender × TCPSender} {op : SenderOp Nat}
    (h : NoWrapInv isn d p) (hok : NoWrap isn (isn.add d) p op) :
    NoWrapInv isn d (pairStep isn (isn.add d) p op) := by
  obtain ⟨accepted, hinv⟩ := h.sender
  refine ⟨pairStep_shift h.shifted (h.checksAgree hok), ?_,
    ⟨_, Feed.senderInv_step (f := ⟨p.1, accepted⟩) hinv (op.map isn.add)⟩, ?_⟩
  · exact (Feed.isn_step ⟨p.1, accepted⟩ (op.map isn.add)).trans h.isn_eq
  · cases op with
    | write data => exact h.ackGot
    | endInput => exact h.ackGot
    | fillWindow =>
        rw [pairStep]
        simp only [SenderOp.map, TCPSender.step, ackGot_fillWindow]
        exact h.ackGot
    | tick ms =>
        rw [pairStep]
        simp only [SenderOp.map, TCPSender.step, ackGot_tick]
        exact h.ackGot
    | ackReceived a w =>
        rcases ackGot_ackReceived p.1 (isn.add a) w with heq | heq
        · obtain ⟨g, hgot, hg⟩ := h.ackGot
          exact ⟨g, heq.trans hgot, hg⟩
        · exact ⟨a, heq, (hok isn (by simp)).2 a w rfl, (hok (isn.add d) (by simp)).2 a w rfl⟩

/-- A run without a wrap meets the condition of `isn_irrelevant`. -/
theorem checksAgree_of_noWrap (capacity : Nat) (retxTimeout : UInt16) (isn₁ isn₂ : WrappingInt32)
    (ops : List (SenderOp Nat))
    (h : Guarded (pairStep isn₁ isn₂) (NoWrap isn₁ isn₂) (pairOf capacity retxTimeout isn₁ isn₂) ops) :
    Guarded (pairStep isn₁ isn₂) (ChecksAgree isn₁ isn₂) (pairOf capacity retxTimeout isn₁ isn₂) ops := by
  have hd := add_usub isn₁ isn₂
  generalize usub 32 isn₂.rawValue isn₁.rawValue = d at hd
  subst hd
  refine h.imp (NoWrapInv isn₁ d) ⟨rfl, rfl, ⟨[], SenderInv.init _ _ _⟩, 0, ?_, ?_, ?_⟩ ?_ ?_
  · rw [← wrap_eq_add 0 isn₁, wrap_zero]; rfl
  · exact isn₁.isLt
  · exact (isn₁.add d).isLt
  · exact fun p op hinv hok => hinv.checksAgree hok
  · exact fun p op hinv hok => hinv.step hok

end TCPSender

end Sponge
