import Sponge.Connection.Endpoint

/-!
# `Connection.Reply` — which segments are answered

A segment that occupies sequence numbers is answered with the receiver's current acknowledgment, with one
exception: once `finAckSent` is set, only another FIN is answered. `segment_answered_iff` says that this is the only
exception.

The flag is meant to say that the peer's FIN has been acknowledged, after which nothing is left to answer but the FIN
itself. But `sendseg` sets it as soon as the number of an acknowledgment is larger than that of the segment with the
FIN, both taken as raw 32-bit numbers, and the number of a segment is that of its first byte. So it may be set while
bytes before the FIN are missing, and then the segments that bring them are not answered
(`segment_unanswered_fin_first`).
-/

namespace Sponge

open Lib

namespace TCPConnection

variable {c c' : TCPConnection} {seg : TCPSegment}

/-- Before a SYN has been seen or sent, the receiver knows no ISN. -/
def SynInv (c : TCPConnection) : Prop := c.synSet = false → c.receiver.isnSet = false

theorem synInv_step (op : Op) (h : c.SynInv) : (c.step op).SynInv := by
  obtain ⟨failed, hh⟩ := handled_step c op
  intro hsyn
  obtain ⟨hold, hsame⟩ := hh.syn hsyn
  rw [hh.isnSet, hsame]
  exact h hold

theorem synInv_run (cfg : TCPConfig) (randomIsn : WrappingInt32) (ops : List Op) :
    (run step (ofConfig cfg randomIsn) ops).SynInv :=
  run_invariant ops SynInv (fun _ => rfl) fun _ op h => synInv_step op h

/-! ## The reply -/

/-- From `c` to `c'` at least one segment went out with the acknowledgment `ackno`. -/
def Answers (ackno : WrappingInt32) (c c' : TCPConnection) : Prop :=
  ∃ new, c'.segmentsOut = c.segmentsOut ++ new ∧
    ∃ out ∈ new, out.header.ack = true ∧ out.header.ackno = ackno

theorem stamp_ack {r : TCPReceiver} {ackno : WrappingInt32} (h : r.ackno = some ackno) (rst : Bool)
    (seg : TCPSegment) :
    (stamp r rst seg).header.ack = true ∧ (stamp r rst seg).header.ackno = ackno := by
  unfold stamp
  rw [h]
  cases rst <;> exact ⟨rfl, rfl⟩

/-- `sendseg` always sends something, and everything it sends carries the current acknowledgment. -/
theorem answers_sendseg {ackno : WrappingInt32} (h : c.receiver.ackno = some ackno) :
    Answers ackno c c.sendseg := by
  obtain ⟨seg, hseg⟩ := List.exists_mem_of_ne_nil _ c.pending_ne_nil
  exact ⟨c.pending.map (stamp c.receiver c.rstSet), sendseg_segmentsOut c, stamp c.receiver c.rstSet seg,
    List.mem_map_of_mem hseg, stamp_ack h _ seg⟩

@[simp] theorem absorb_segmentsOut (c : TCPConnection) (seg : TCPSegment) :
    (c.absorb seg).segmentsOut = c.segmentsOut := by
  unfold absorb; dsimp only; split <;> simp

@[simp] theorem absorb_finAckSent (c : TCPConnection) (seg : TCPSegment) :
    (c.absorb seg).finAckSent = c.finAckSent := by
  unfold absorb; dsimp only; split <;> simp

/-- The last part of `segment_received` answers, unless `finAckSent` is set and this is not a FIN. -/
theorem answers_reply {ackno : WrappingInt32} (hlen : 0 < seg.lengthInSequenceSpace)
    (hack : c.receiver.ackno = some ackno) (hreply : c.finAckSent = false ∨ seg.header.fin = true) :
    Answers ackno c (c.reply seg) := by
  have hguard : ¬ (c.finAckSent = true ∧ seg.header.fin = false) := by
    rintro ⟨hsent, hfin⟩
    rcases hreply with h | h
    · rw [hsent] at h; cases h
    · rw [hfin] at h; cases h
  unfold reply
  rw [if_neg hguard]
  dsimp only
  rw [if_pos hlen]
  split
  · obtain ⟨new, hnew, hout⟩ := answers_sendseg (c := { c with recFinSeqno := some seg.header.seqno }) hack
    exact ⟨new, by rw [cleanShutdown_segmentsOut, hnew], hout⟩
  · obtain ⟨new, hnew, hout⟩ := answers_sendseg hack
    exact ⟨new, by rw [cleanShutdown_segmentsOut, hnew], hout⟩

theorem reply_silent (hsent : c.finAckSent = true) (hfin : seg.header.fin = false) : c.reply seg = c := by
  rw [reply, if_pos ⟨hsent, hfin⟩]

/-- In an active connection a segment that leaves the receiver with an acknowledgment number was let in. -/
theorem admits_of_ackno {ackno : WrappingInt32} (hinv : c.SynInv) (hact : c.active = true)
    (hack : (c.segmentReceived seg).receiver.ackno = some ackno) : c.admits seg = true := by
  by_contra hadm
  rw [Bool.not_eq_true] at hadm
  rw [segmentReceived_of_not_admits hadm] at hack
  rw [admits, hact, Bool.true_and, Bool.or_eq_false_iff] at hadm
  rw [TCPReceiver.ackno_eq, hinv hadm.1] at hack
  cases hack

/-- **A segment that occupies sequence numbers is answered, unless `finAckSent` is set before and this is not a FIN.**
    Then nothing at all is sent. -/
theorem segment_answered_iff (cfg : TCPConfig) (randomIsn : WrappingInt32) (ops : List Op)
    (seg : TCPSegment) (ackno : WrappingInt32) :
    let c := run step (ofConfig cfg randomIsn) ops
    c.active = true → seg.header.rst = false → 0 < seg.lengthInSequenceSpace →
    (c.segmentReceived seg).receiver.ackno = some ackno →
      (Answers ackno c (c.segmentReceived seg) ↔ c.finAckSent = false ∨ seg.header.fin = true) := by
  intro c hact hrst hlen hack
  have hadm := admits_of_ackno (synInv_run cfg randomIsn ops) hact hack
  have heq := segmentReceived_of_admits hadm hrst
  constructor
  · rintro ⟨new, hnew, out, hout, -⟩
    by_contra hsilent
    rw [not_or, Bool.not_eq_false, Bool.not_eq_true] at hsilent
    rw [heq, reply_silent (by simpa using hsilent.1) hsilent.2, absorb_segmentsOut,
      openPassive_segmentsOut] at hnew
    rw [List.append_right_eq_self.mp hnew.symm] at hout
    cases hout
  · intro hreply
    have hack' : ((c.openPassive seg).absorb seg).receiver.ackno = some ackno := by
      obtain ⟨failed, hh⟩ := Handled.reply ((c.openPassive seg).absorb seg) seg
      rw [heq] at hack
      rcases hh.receiver_cases with h | h <;> rw [h] at hack <;> exact hack
    obtain ⟨new, hnew, hout⟩ :=
      answers_reply (c := (c.openPassive seg).absorb seg) hlen hack' (by simpa using hreply)
    exact ⟨new, by rw [heq, hnew, absorb_segmentsOut, openPassive_segmentsOut], hout⟩

/-- The handshake, a byte from the peer, and its FIN. -/
def peerClosed : List Op :=
  [.connect,
    .segmentReceived { header := { syn := true, ack := true, seqno := .ofRaw 100, ackno := .ofRaw 1,
                                   win := 1000 } },
    .segmentReceived { header := { seqno := .ofRaw 101 }, payload := [7] },
    .segmentReceived { header := { fin := true, seqno := .ofRaw 102 } }]

/-- A FIN that arrives again is answered again. -/
theorem segment_answered_fin_again :
    Answers (.ofRaw 103) (run step (ofConfig {} (.ofRaw 0)) peerClosed)
      ((run step (ofConfig {} (.ofRaw 0)) peerClosed).segmentReceived
        { header := { fin := true, seqno := .ofRaw 102 } }) :=
  (segment_answered_iff {} (.ofRaw 0) peerClosed { header := { fin := true, seqno := .ofRaw 102 } }
    (.ofRaw 103) (by decide +kernel) rfl (by decide) (by decide +kernel)).mpr (Or.inr rfl)

/-- A peer whose ISN is three below `2 ^ 32` sends `abc`. The SYN arrives, and then the last byte together with the
    FIN. -/
def finFirst : List Op :=
  [.segmentReceived { header := { syn := true, seqno := .ofRaw 4294967293 } },
    .segmentReceived { header := { fin := true, seqno := .ofRaw 0 }, payload := [99] }]

/-- The first byte, which then arrives, moves the acknowledgment number but is not answered. -/
theorem segment_unanswered_fin_first :
    ¬ ∀ (cfg : TCPConfig) (randomIsn : WrappingInt32) (ops : List Op) (seg : TCPSegment)
      (ackno : WrappingInt32),
      (run step (ofConfig cfg randomIsn) ops).active = true → seg.header.rst = false →
      0 < seg.lengthInSequenceSpace →
      ((run step (ofConfig cfg randomIsn) ops).segmentReceived seg).receiver.ackno = some ackno →
      Answers ackno (run step (ofConfig cfg randomIsn) ops)
        ((run step (ofConfig cfg randomIsn) ops).segmentReceived seg) := by
  intro h
  have hsame : ((run step (ofConfig {} (.ofRaw 0)) finFirst).segmentReceived
      { header := { seqno := .ofRaw 4294967294 }, payload := [97] }).segmentsOut =
      (run step (ofConfig {} (.ofRaw 0)) finFirst).segmentsOut := by decide +kernel
  obtain ⟨new, hnew, out, hout, -⟩ := h {} (.ofRaw 0) finFirst
    { header := { seqno := .ofRaw 4294967294 }, payload := [97] } (.ofRaw 4294967295) (by decide +kernel) rfl
    (by decide) (by decide +kernel)
  rw [hsame] at hnew
  rw [List.append_right_eq_self.mp hnew.symm] at hout
  cases hout

/-- The flag is set although every acknowledgment that was sent asks for the first byte. -/
example : (run step (ofConfig {} (.ofRaw 0)) finFirst).finAckSent = true ∧
    ∀ out ∈ (run step (ofConfig {} (.ofRaw 0)) finFirst).segmentsOut, out.header.ackno = .ofRaw 4294967294 := by
  decide +kernel

end TCPConnection

end Sponge
