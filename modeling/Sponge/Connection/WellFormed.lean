import Sponge.Connection.Linger
import Sponge.Connection.Outbound

/-!
# `Connection.WellFormed` — the numbers and flags on outgoing segments

A segment that occupies sequence numbers comes from the sender, and lies between the ISN and the next sequence
number. A segment that occupies none is made up by `sendseg` from a fresh `TCPSegment`. Nobody gives it a sequence
number, so it goes out with number zero, and it carries an acknowledgment only if the receiver has one.
`sendsEmpty` says from the state before an operation whether such a segment goes out, and
`outgoing_wellFormed_iff` that a run sends only well-formed segments if and only if, each time, zero happens to be
the next sequence number and the segment is a reset or the peer's SYN has been seen.
-/

namespace Sponge

open Lib TCPSegment

namespace TCPSender

variable {s : TCPSender}

/-! ## When the sender has nothing to send -/

/-- With this much room, `fill_window` sends nothing: the FIN is out, or the SYN is out and there is no room or
    nothing to fill it with. -/
def stalled (s : TCPSender) (room : Nat) : Bool := s.finFlag || s.synFlag && (room == 0 || s.avail == 0)

theorem Fills.eq_nil_iff {s' : TCPSender} {new : List TCPSegment} (h : Fills s new s') :
    new = [] ↔ extent lengthInSequenceSpace new = 0 := by
  rw [extent_eq_zero_iff]
  exact fun seg hseg => (h.shape seg hseg).pos

/-- **`fill_window` leaves an empty queue** exactly if it was empty and there is nothing to send. -/
theorem queue_fillWindow_eq_nil_iff (s : TCPSender) :
    s.fillWindow.segmentsOut = [] ↔ s.segmentsOut = [] ∧ s.stalled s.room = true := by
  rcases fillWindow_cases s with ⟨hfin, heq⟩ | ⟨hfin, hsyn, heq⟩ | ⟨hfin, hsyn, new, hfills, htotal⟩
  · rw [heq, stalled, hfin, Bool.true_or]
    exact (and_iff_left rfl).symm
  · rw [heq, stalled, hfin, hsyn]
    refine iff_of_false ?_ fun h => Bool.false_ne_true h.2
    exact List.append_ne_nil_of_right_ne_nil _ (List.cons_ne_nil _ _)
  · rw [hfills.segmentsOut, List.append_eq_nil_iff, hfills.eq_nil_iff, htotal, stalled, hfin, hsyn]
    simp only [Bool.false_or, Bool.true_and, Bool.or_eq_true, beq_iff_eq]
    exact and_congr_right fun _ => Nat.min_eq_zero_iff

/-- The same for an acknowledgment, seen from the state before it. -/
theorem queue_ackReceived_eq_nil_iff (s : TCPSender) (ackno : WrappingInt32) (w : UInt16) :
    (s.ackReceived ackno w).segmentsOut = [] ↔
      s.segmentsOut = [] ∧ (s.ackBeyond ackno || s.stalled (s.opens ackno w)) = true := by
  rw [ackReceived_eq]
  cases hbeyond : s.ackBeyond ackno with
  | true =>
      rw [if_pos rfl, Bool.true_or]
      exact (and_iff_left rfl).symm
  | false =>
      rw [if_neg Bool.false_ne_true, Bool.false_or, queue_fillWindow_eq_nil_iff, acceptAck_segmentsOut]
      apply and_congr_right
      intro _
      rw [stalled, stalled, acceptAck_finFlag, acceptAck_synFlag, avail, avail, acceptAck_stream]
      cases hfin : s.finFlag with
      | true => exact Iff.rfl
      | false => rw [room_acceptAck hfin hbeyond]

/-- From `s` to `s'` the next sequence number has not moved if the queue is empty. -/
def Unmoved (s s' : TCPSender) : Prop :=
  s'.segmentsOut = [] → s.segmentsOut = [] ∧ s'.nextSeqno32 = s.nextSeqno32

theorem Unmoved.of_eq {s s' : TCPSender} (hout : s'.segmentsOut = s.segmentsOut)
    (hnext : s'.nextSeqno32 = s.nextSeqno32) : Unmoved s s' := fun h => ⟨hout ▸ h, hnext⟩

theorem Unmoved.trans {s s₁ s' : TCPSender} (h : Unmoved s s₁) (h' : Unmoved s₁ s') : Unmoved s s' := by
  intro hnil
  obtain ⟨hnil₁, hnext₁⟩ := h' hnil
  obtain ⟨hnil₀, hnext₀⟩ := h hnil₁
  exact ⟨hnil₀, hnext₁.trans hnext₀⟩

theorem unmoved_fillWindow (s : TCPSender) : Unmoved s s.fillWindow := by
  intro hnil
  obtain ⟨new, h⟩ := fillWindow_sends s
  rw [h.segmentsOut, List.append_eq_nil_iff] at hnil
  refine ⟨hnil.1, ?_⟩
  rw [nextSeqno32, h.nextSeqno, h.isn, hnil.2]
  rfl

theorem unmoved_ackReceived (s : TCPSender) (ackno : WrappingInt32) (w : UInt16) :
    Unmoved s (s.ackReceived ackno w) := by
  rw [ackReceived_eq]
  split
  · exact Unmoved.of_eq rfl rfl
  · have haccept : Unmoved s (s.acceptAck ackno w) :=
      Unmoved.of_eq (acceptAck_segmentsOut _ _ _) (by rw [nextSeqno32, acceptAck_nextSeqno, acceptAck_isn]; rfl)
    exact haccept.trans (unmoved_fillWindow _)

theorem unmoved_tick (s : TCPSender) (ms : Nat) : Unmoved s (s.tick ms) := by
  rcases tick_cases s ms with ⟨_, heq⟩ | ⟨seg, _, _, _, -, heq⟩
  · rw [heq]
    exact Unmoved.of_eq rfl rfl
  · rw [heq]
    exact fun hnil => absurd hnil (List.append_ne_nil_of_right_ne_nil _ (List.cons_ne_nil _ _))

end TCPSender

open TCPSender

namespace TCPConnection

variable {c c' : TCPConnection} {timeout : UInt16}

/-! ## When an empty segment goes out -/

/-- `fill_window` would leave the queue empty. -/
def idle (s : TCPSender) : Bool := s.segmentsOut.isEmpty && s.stalled s.room

/-- The operation calls `sendseg` with nothing queued, seen from the state before it. -/
def sendsEmpty (c : TCPConnection) : Op → Bool
  | .connect             => idle c.sender
  | .write data          => idle (c.sender.write data)
  | .endInputStream      => idle c.sender.endInput
  | .segmentReceived seg =>
    c.answers seg && c.synSet && c.sender.segmentsOut.isEmpty &&
      (!seg.header.ack || c.sender.ackBeyond seg.header.ackno ||
        c.sender.stalled (c.sender.opens seg.header.ackno seg.header.win))
  | .tick _ | .readInbound _ => false

theorem idle_iff (s : TCPSender) : idle s = true ↔ s.fillWindow.segmentsOut = [] := by
  rw [idle, Bool.and_eq_true, List.isEmpty_iff, queue_fillWindow_eq_nil_iff]

theorem Enqueues.eq_nil {s s' : TCPSender} (h : Enqueues s s') (hnil : s'.segmentsOut = []) :
    s.segmentsOut = [] := by
  obtain ⟨new, hout, -⟩ := h
  rw [hout] at hnil
  exact (List.append_eq_nil_iff.mp hnil).1

/-- Where the first SYN arrives there is always our own to send. -/
theorem openedSender_ne_nil (h : c.Begun) (hsyn : c.synSet = false) : c.openedSender.segmentsOut ≠ [] := by
  intro hnil
  have hfresh : c.sender.synFlag = false := by
    by_contra hon
    exact absurd ((h.opened (by simpa using hon)).symm.trans hsyn) Bool.noConfusion
  rw [openedSender, hsyn, if_neg Bool.false_ne_true, queue_fillWindow_eq_nil_iff, stalled, hfresh, Bool.false_and,
    Bool.or_false] at hnil
  exact absurd ((h.fin hnil.2).symm.trans hfresh) Bool.noConfusion

theorem sendsEmpty_segmentReceived_iff (h : c.Begun) (seg : TCPSegment) :
    c.sendsEmpty (.segmentReceived seg) = true ↔
      c.answers seg = true ∧ (c.senderAfter (.segmentReceived seg)).segmentsOut = [] := by
  rw [sendsEmpty, Bool.and_assoc, Bool.and_assoc, Bool.and_eq_true]
  apply and_congr_right
  intro hans
  rw [answers, Bool.and_eq_true, Bool.and_eq_true, Bool.and_eq_true, Bool.not_eq_true'] at hans
  rw [senderAfter_of_admits hans.1.1.1 hans.1.1.2]
  cases hsyn : c.synSet with
  | true =>
      have hopened : c.openedSender = c.sender := by rw [openedSender, if_pos hsyn]
      rw [Bool.true_and, Bool.and_eq_true, List.isEmpty_iff, hopened]
      cases seg.header.ack with
      | true =>
          rw [if_pos rfl, Bool.not_true, Bool.false_or]
          exact (queue_ackReceived_eq_nil_iff _ _ _).symm
      | false =>
          rw [if_neg Bool.false_ne_true, Bool.not_false, Bool.true_or, Bool.true_or]
          exact and_iff_left rfl
  | false =>
      have hne := openedSender_ne_nil h hsyn
      refine iff_of_false Bool.false_ne_true ?_
      split
      · exact fun hnil => hne ((enqueues_ackReceived _ _ _).eq_nil hnil)
      · exact hne

/-- A tick that gives up has just queued the segment it could not get through. -/
theorem tick_queue_ne_nil (h : Budget timeout c) {ms : Nat} (hflush : c.flushes (.tick ms) = true) :
    (c.senderAfter (.tick ms)).segmentsOut ≠ [] := by
  rw [flushes, Bool.and_eq_true, Bool.or_eq_true] at hflush
  obtain ⟨hact, hwhy⟩ := hflush
  rw [senderAfter, if_pos hact]
  rcases hwhy with hstuck | hqueue
  · have hmore := of_decide_eq_true hstuck
    rcases backoff_tick c.sender ms with ⟨-, hsame⟩ | ⟨-, -, hne⟩
    · rw [hsame] at hmore
      exact absurd (h.live hact) (Nat.not_le.mpr hmore)
    · exact hne
  · intro hnil
    rw [hnil] at hqueue
    cases hqueue

/-- **`sendsEmpty` says when `sendseg` finds nothing queued.** -/
theorem sendsEmpty_iff (hb : c.Begun) (hbudget : Budget timeout c) (op : Op) :
    c.sendsEmpty op = true ↔ c.flushes op = true ∧ (c.senderAfter op).segmentsOut = [] := by
  cases op with
  | connect => exact (idle_iff _).trans (and_iff_right rfl).symm
  | write data => exact (idle_iff _).trans (and_iff_right rfl).symm
  | endInputStream => exact (idle_iff _).trans (and_iff_right rfl).symm
  | tick ms => exact iff_of_false Bool.false_ne_true fun h => tick_queue_ne_nil hbudget h.1 h.2
  | segmentReceived seg => exact sendsEmpty_segmentReceived_iff hb seg
  | readInbound len => exact iff_of_false Bool.false_ne_true fun h => Bool.false_ne_true h.1

theorem unmoved_senderAfter (c : TCPConnection) (op : Op) : Unmoved c.sender (c.senderAfter op) :=
  senderAfter_rel (fun _ => Unmoved.of_eq rfl rfl) Unmoved.trans
    (fun _ _ => Unmoved.of_eq rfl rfl) (fun _ => Unmoved.of_eq rfl rfl)
    unmoved_fillWindow unmoved_ackReceived unmoved_tick op

/-! ## Well-formed segments -/

/-- An outgoing segment of a connection whose sender is `s`. -/
structure WellFormed (s : TCPSender) (seg : TCPSegment) : Prop where
  empty    : seg.lengthInSequenceSpace = 0 →
    seg.header.seqno = s.nextSeqno32 ∧ (seg.header.rst = true ∨ seg.header.ack = true)
  occupied : 0 < seg.lengthInSequenceSpace →
    ∃ n, seg.header.seqno = wrap n s.isn ∧ n + seg.lengthInSequenceSpace ≤ s.nextSeqno

theorem stamp_seqno (r : TCPReceiver) (rst : Bool) (seg : TCPSegment) :
    (stamp r rst seg).header.seqno = seg.header.seqno := by
  have h := congrArg (fun seg => seg.header.seqno) (unstamp_stamp r rst seg)
  exact h

/-- What the sender has queued is well formed, whatever it is stamped with. -/
theorem wellFormed_of_queued {s : TCPSender} (h : Sound s) {seg : TCPSegment} (hseg : seg ∈ s.segmentsOut)
    (r : TCPReceiver) (rst : Bool) : WellFormed s (stamp r rst seg) := by
  have hpos := h.pos seg hseg
  obtain ⟨accepted, hinv⟩ := h
  rw [← length_stamp r rst seg] at hpos
  refine ⟨fun hzero => absurd hzero (Nat.ne_of_gt hpos), fun _ => ?_⟩
  obtain ⟨n, -, hend, hseq⟩ := hinv.numbered.of_mem (hinv.pending seg hseg)
  rw [Nat.zero_add, ← hinv.next] at hend
  rw [stamp_seqno, length_stamp]
  exact ⟨n, hseq, hend⟩

/-- The made-up segment is well formed only if zero is the next sequence number. -/
theorem wellFormed_empty_iff (s : TCPSender) (r : TCPReceiver) (rst : Bool) :
    WellFormed s (stamp r rst {}) ↔ s.nextSeqno32 = .ofRaw 0 ∧ (rst = true ∨ r.isnSet = true) := by
  have hzero : (stamp r rst {}).lengthInSequenceSpace = 0 := length_stamp r rst {}
  have hflags : (stamp r rst {}).header.rst = rst ∧ (stamp r rst {}).header.ack = r.isnSet := by
    rw [stamp, TCPReceiver.ackno_eq]
    cases r.isnSet <;> cases rst <;> exact ⟨rfl, rfl⟩
  constructor
  · intro h
    obtain ⟨hseq, hrst⟩ := h.empty hzero
    rw [stamp_seqno] at hseq
    rw [hflags.1, hflags.2] at hrst
    exact ⟨hseq.symm, hrst⟩
  · rintro ⟨hnext, hrst⟩
    refine ⟨fun _ => ?_, fun hpos => absurd hzero (Nat.ne_of_gt hpos)⟩
    rw [stamp_seqno, hnext, hflags.1, hflags.2]
    exact ⟨rfl, hrst⟩

/-- What `sendseg` sends is well formed exactly if it has something to send or may send an empty segment. -/
theorem wellFormed_outgoing_iff {s : TCPSender} (h : Sound s) (r : TCPReceiver) (rst : Bool) :
    (∀ seg ∈ (outgoing s.segmentsOut).map (stamp r rst), WellFormed s seg) ↔
      (s.segmentsOut = [] → s.nextSeqno32 = .ofRaw 0 ∧ (rst = true ∨ r.isnSet = true)) := by
  by_cases hnil : s.segmentsOut = []
  · have hout : outgoing s.segmentsOut = [{}] := by rw [hnil]; rfl
    rw [hout, List.map_singleton, List.forall_mem_singleton, wellFormed_empty_iff]
    exact (imp_iff_right hnil).symm
  · have hout : outgoing s.segmentsOut = s.segmentsOut := if_neg fun hempty => hnil (List.isEmpty_iff.mp hempty)
    refine iff_of_true ?_ fun hempty => absurd hempty hnil
    rw [hout, List.forall_mem_map]
    exact fun seg hseg => wellFormed_of_queued h hseg r rst

/-- Only the next sequence number and the ISN matter. -/
theorem WellFormed.congr {s s' : TCPSender} (hisn : s'.isn = s.isn) (hnext : s'.nextSeqno = s.nextSeqno)
    (seg : TCPSegment) : WellFormed s' seg ↔ WellFormed s seg := by
  have hnext32 : s'.nextSeqno32 = s.nextSeqno32 := by rw [nextSeqno32, hisn, hnext]; rfl
  constructor
  · rintro ⟨hempty, hoccupied⟩
    rw [hnext32] at hempty
    rw [hisn, hnext] at hoccupied
    exact ⟨hempty, hoccupied⟩
  · rintro ⟨hempty, hoccupied⟩
    rw [← hnext32] at hempty
    rw [← hisn, ← hnext] at hoccupied
    exact ⟨hempty, hoccupied⟩

theorem Handled.nextSeqno {s : TCPSender} {r : TCPReceiver} {failed : Bool} (h : Handled c s r failed c') :
    c'.sender.nextSeqno = s.nextSeqno := by
  rw [h.sender]; cases failed <;> rfl

/-! ## Steps and runs -/

/-- What was put on the outbound queue between `c` and `c'`. -/
def pushed (c c' : TCPConnection) : List TCPSegment := c'.segmentsOut.drop c.segmentsOut.length

/-- If the operation sends an empty segment, then zero is the next sequence number, and the segment is a reset or the
    peer's SYN has been seen. -/
def emptyOk (c : TCPConnection) (op : Op) : Bool :=
  !c.sendsEmpty op ||
    decide (c.sender.nextSeqno32 = .ofRaw 0) && (c.rstSet || c.receiver.isnSet || op.isSyn)

theorem isnSet_segmentReceived (r : TCPReceiver) (seg : TCPSegment) :
    (r.segmentReceived seg).isnSet = (r.isnSet || seg.header.syn) := by
  rw [TCPReceiver.segmentReceived]
  cases seg.header.syn with
  | true => exact (Bool.or_true _).symm
  | false =>
      rw [if_neg Bool.false_ne_true, Bool.or_false]
      split <;> rfl

theorem isnSet_receiverAfter {op : Op} (h : c.flushes op = true) :
    (c.receiverAfter op).isnSet = (c.receiver.isnSet || op.isSyn) := by
  cases op with
  | segmentReceived seg =>
      rw [flushes, answers, Bool.and_eq_true, Bool.and_eq_true, Bool.and_eq_true, Bool.not_eq_true'] at h
      rw [receiverAfter_of_admits h.1.1.1 h.1.1.2]
      exact isnSet_segmentReceived _ _
  | connect | write _ | endInputStream | tick _ | readInbound _ => exact (Bool.or_false _).symm

theorem resets_of_sendsEmpty {op : Op} (h : c.sendsEmpty op = true) : c.resets op = c.rstSet := by
  cases op with
  | tick ms => cases h
  | connect | write _ | endInputStream | segmentReceived _ | readInbound _ => rfl

/-- A call of `sendseg` sends only well-formed segments exactly if it has something to send or may send an empty
    one. -/
theorem wellFormed_pushed_iff {c₀ : TCPConnection} {s : TCPSender} {r : TCPReceiver} {failed rst : Bool}
    (hs : Sound s) (hh : Handled c₀ s r failed c') (hd : Dispatched c s r true rst c') :
    (∀ seg ∈ pushed c c', WellFormed c'.sender seg) ↔
      (s.segmentsOut = [] → s.nextSeqno32 = .ofRaw 0 ∧ (rst = true ∨ r.isnSet = true)) := by
  rw [← wellFormed_outgoing_iff hs, pushed, hd.out, List.drop_left, if_pos rfl]
  simp only [WellFormed.congr hh.sender_isn hh.nextSeqno]

/-- **One step sends only well-formed segments exactly if it meets the condition.** -/
theorem wellFormed_step_iff (hs : Sound c.sender) (hb : c.Begun) (hbudget : Budget timeout c) (op : Op) :
    (∀ seg ∈ pushed c (c.step op), WellFormed (c.step op).sender seg) ↔ c.emptyOk op = true := by
  obtain ⟨failed, hh⟩ := handled_step c op
  have hd := dispatched_step c op
  have hempty := sendsEmpty_iff hb hbudget op
  rw [emptyOk, Bool.or_eq_true, Bool.not_eq_true', Bool.and_eq_true, decide_eq_true_eq]
  cases hflush : c.flushes op with
  | false =>
      rw [hflush] at hd
      refine iff_of_true ?_ (Or.inl ?_)
      · rw [pushed, hd.out, List.drop_left]
        exact fun _ hseg => by cases hseg
      · by_contra hsends
        exact absurd ((hempty.mp (by simpa using hsends)).1.symm.trans hflush) Bool.noConfusion
  | true =>
      rw [hflush] at hd
      rw [wellFormed_pushed_iff (sound_after op hs) hh hd, isnSet_receiverAfter hflush]
      by_cases hnil : (c.senderAfter op).segmentsOut = []
      · have hsends : c.sendsEmpty op = true := hempty.mpr ⟨hflush, hnil⟩
        rw [hsends, resets_of_sendsEmpty hsends, (unmoved_senderAfter c op hnil).2, Bool.or_assoc,
          Bool.or_eq_true c.rstSet, imp_iff_right hnil]
        exact (or_iff_right Bool.noConfusion).symm
      · refine iff_of_true (fun hempty' => absurd hempty' hnil) (Or.inl ?_)
        by_contra hsends
        exact hnil (hempty.mp (by simpa using hsends)).2

/-- The destructor sends a reset, so only its number can be wrong. -/
theorem wellFormed_destroy_iff (hs : Sound c.sender) :
    (∀ seg ∈ pushed c c.destroy, WellFormed c.destroy.sender seg) ↔
      (c.active = true → c.sender.segmentsOut = [] → c.sender.nextSeqno32 = .ofRaw 0) := by
  rw [destroy]
  by_cases hact : c.active = true
  · have hd : Dispatched c c.sender c.receiver true true (sendseg { c with rstSet := true }) :=
      (Dispatched.sendseg { c with rstSet := true }).base rfl
    rw [if_pos hact, wellFormed_pushed_iff hs (Handled.sendseg { c with rstSet := true }) hd, imp_iff_right hact]
    exact imp_congr_right fun _ => and_iff_left (Or.inl rfl)
  · rw [if_neg hact]
    refine iff_of_true ?_ fun hon => absurd hon hact
    rw [pushed, List.drop_length]
    exact fun _ hseg => by cases hseg

/-- **Outgoing segments are well formed if and only if no empty one is sent with a number that is not the next.**
    The condition is on the state before each operation; what occupies sequence numbers is always in order. The same
    for the destructor, after any run. -/
theorem outgoing_wellFormed_iff (cfg : TCPConfig) (randomIsn : WrappingInt32) (ops : List Op) :
    ((∀ hist op, hist ++ [op] <+: ops →
      ∀ seg ∈ pushed (run step (ofConfig cfg randomIsn) hist) ((run step (ofConfig cfg randomIsn) hist).step op),
        WellFormed ((run step (ofConfig cfg randomIsn) hist).step op).sender seg) ↔
      Guarded step (fun c op => c.emptyOk op = true) (ofConfig cfg randomIsn) ops) ∧
    let c := run step (ofConfig cfg randomIsn) ops
    ((∀ seg ∈ pushed c c.destroy, WellFormed c.destroy.sender seg) ↔
      (c.active = true → c.sender.segmentsOut = [] → c.sender.nextSeqno32 = .ofRaw 0)) := by
  refine ⟨?_, wellFormed_destroy_iff (sound_run cfg randomIsn ops)⟩
  rw [Guarded.iff_forall]
  apply forall_congr'
  intro hist
  apply forall_congr'
  intro op
  apply imp_congr_right
  intro _
  exact wellFormed_step_iff (sound_run cfg randomIsn hist) (begun_run cfg randomIsn hist)
    (budget_run cfg randomIsn hist) op

/-- Our SYN, and the peer's answer to it. -/
def handshake (ackno : WrappingInt32) : List Op :=
  [.connect, .segmentReceived { header := { syn := true, ack := true, seqno := .ofRaw 100, ackno, win := 1000 } }]

/-- With the greatest number as ISN, the next one is zero, and the reply to the peer's SYN is right by chance. -/
theorem outgoing_wellFormed_by_chance :
    ∀ hist op, hist ++ [op] <+: handshake (.ofRaw 0) →
      ∀ seg ∈ pushed (run step (ofConfig {} (.ofRaw (2 ^ 32 - 1))) hist)
        ((run step (ofConfig {} (.ofRaw (2 ^ 32 - 1))) hist).step op),
        WellFormed ((run step (ofConfig {} (.ofRaw (2 ^ 32 - 1))) hist).step op).sender seg :=
  (outgoing_wellFormed_iff {} (.ofRaw (2 ^ 32 - 1)) (handshake (.ofRaw 0))).1.mpr (by decide +kernel)

/-- Otherwise the acknowledgment of the peer's SYN goes out with the number zero instead of the next one. -/
theorem outgoing_misnumbered : ¬ ∀ (cfg : TCPConfig) (randomIsn : WrappingInt32) (ops hist : List Op) (op : Op),
    hist ++ [op] <+: ops →
    ∀ seg ∈ pushed (run step (ofConfig cfg randomIsn) hist) ((run step (ofConfig cfg randomIsn) hist).step op),
      WellFormed ((run step (ofConfig cfg randomIsn) hist).step op).sender seg := by
  intro h
  have hreply := h {} (.ofRaw 0) (handshake (.ofRaw 1)) [.connect] _ (List.prefix_refl _)
    { header := { ack := true, ackno := .ofRaw 101, win := 64000 } } (by decide +kernel)
  exact absurd (hreply.empty rfl).1 (by decide +kernel)

end TCPConnection

end Sponge
