import Sponge.Connection.Backoff
import Sponge.Connection.Reply
import Sponge.Sender.Accounting

/-!
# `Connection.Outbound` — from the sender's queue to the connection's

The sender queues segments and the connection moves them on, stamped, whenever it calls `sendseg`. `flushes` says
from the state before an operation whether it makes that call; `dispatched_step` says what then becomes of the two
queues. A pure acknowledgment may leave segments waiting in the sender's queue, and so may a reset, but none of
them is lost, doubled or overtaken (`segments_relayed`).
-/

namespace Sponge

open Lib TCPSender

namespace TCPConnection

variable {c c' : TCPConnection} {s : TCPSender} {r : TCPReceiver} {flush rst : Bool}

/-! ## When `sendseg` is called -/

/-- What goes out when the sender has queued `queue`: an empty segment is made up if there is nothing. -/
def outgoing (queue : List TCPSegment) : List TCPSegment := if queue.isEmpty then [{}] else queue

/-- The segment gets to the end of `segment_received` and is answered. -/
def answers (c : TCPConnection) (seg : TCPSegment) : Bool :=
  c.admits seg && !seg.header.rst && (!c.finAckSent || seg.header.fin) && decide (0 < seg.lengthInSequenceSpace)

/-- The operation calls `sendseg`. -/
def flushes (c : TCPConnection) : Op → Bool
  | .connect | .write _ | .endInputStream => true
  | .tick ms             => c.active && (stuck (c.sender.tick ms) || !(c.sender.tick ms).segmentsOut.isEmpty)
  | .segmentReceived seg => c.answers seg
  | .readInbound _       => false

/-- The operation sends with RST. -/
def resets (c : TCPConnection) : Op → Bool
  | .tick ms => c.rstSet || stuck (c.sender.tick ms)
  | _        => c.rstSet

/-- From `c`, with the sender's queue as `s` has it, to `c'`: either everything goes out, stamped, or nothing. -/
structure Dispatched (c : TCPConnection) (s : TCPSender) (r : TCPReceiver) (flush rst : Bool)
    (c' : TCPConnection) : Prop where
  out   : c'.segmentsOut = c.segmentsOut ++ if flush then (outgoing s.segmentsOut).map (stamp r rst) else []
  queue : c'.sender.segmentsOut = if flush then [] else s.segmentsOut

theorem Dispatched.sendseg (c : TCPConnection) : Dispatched c c.sender c.receiver true c.rstSet c.sendseg where
  out   := sendseg_segmentsOut c
  queue := by rw [sendseg_eq, cleanShutdown_sender]; rfl

/-- The base matters only through its outbound queue. -/
theorem Dispatched.base {c₀ : TCPConnection} (h : Dispatched c₀ s r flush rst c')
    (hout : c₀.segmentsOut = c.segmentsOut) : Dispatched c s r flush rst c' := ⟨hout ▸ h.out, h.queue⟩

/-- Nothing is sent, and the queue is that of `s`. -/
theorem Dispatched.quiet (hout : c'.segmentsOut = c.segmentsOut) (hqueue : c'.sender.segmentsOut = s.segmentsOut) :
    Dispatched c s r false rst c' where
  out   := by rw [hout, if_neg Bool.false_ne_true, List.append_nil]
  queue := by rw [hqueue, if_neg Bool.false_ne_true]

theorem Dispatched.cleanShutdown (h : Dispatched c s r flush rst c') : Dispatched c s r flush rst c'.cleanShutdown :=
  ⟨by rw [cleanShutdown_segmentsOut]; exact h.out, by rw [cleanShutdown_sender]; exact h.queue⟩

theorem dispatched_tick (c : TCPConnection) (ms : Nat) :
    Dispatched c (c.senderAfter (.tick ms)) c.receiver (c.flushes (.tick ms)) (c.resets (.tick ms)) (c.tick ms) := by
  by_cases hact : c.active = true
  · rw [senderAfter, if_pos hact, flushes, resets, hact, Bool.true_and]
    by_cases hstuck : stuck (c.sender.tick ms) = true
    · rw [tick_stuck hact hstuck, hstuck, Bool.true_or, Bool.or_true]
      have h : Dispatched c (c.sender.tick ms) c.receiver true true
          (TCPConnection.sendseg { c.elapse ms with rstSet := true }) :=
        (Dispatched.sendseg { c.elapse ms with rstSet := true }).base rfl
      exact h.cleanShutdown
    · rw [Bool.not_eq_true] at hstuck
      rw [tick_not_stuck hact hstuck, hstuck, Bool.false_or, Bool.or_false]
      have hkeep : (c.elapse ms).cleanShutdown.segmentsOut = c.segmentsOut := by
        rw [cleanShutdown_segmentsOut]; rfl
      cases (c.sender.tick ms).segmentsOut.isEmpty with
      | true =>
          have hqueue : (c.elapse ms).cleanShutdown.sender.segmentsOut = (c.sender.tick ms).segmentsOut := by
            rw [cleanShutdown_sender]; rfl
          exact Dispatched.quiet hkeep hqueue
      | false =>
          have h := Dispatched.sendseg (c.elapse ms).cleanShutdown
          rw [cleanShutdown_rstSet, cleanShutdown_receiver, cleanShutdown_sender] at h
          exact h.base hkeep
  · rw [Bool.not_eq_true] at hact
    rw [tick_inactive hact, senderAfter, if_neg (by rw [hact]; exact Bool.noConfusion), flushes, hact,
      Bool.false_and]
    exact Dispatched.quiet rfl rfl

theorem absorb_rstSet (c : TCPConnection) (seg : TCPSegment) : (c.absorb seg).rstSet = c.rstSet := by
  unfold absorb; dsimp only; split <;> simp

/-- The last part of `segment_received`. -/
theorem dispatched_reply (c : TCPConnection) (seg : TCPSegment) :
    Dispatched c c.sender c.receiver
      ((!c.finAckSent || seg.header.fin) && decide (0 < seg.lengthInSequenceSpace)) c.rstSet (c.reply seg) := by
  by_cases hsilent : c.finAckSent = true ∧ seg.header.fin = false
  · rw [reply_silent hsilent.1 hsilent.2, hsilent.1, hsilent.2]
    exact Dispatched.quiet rfl rfl
  · have hspeaks : (!c.finAckSent || seg.header.fin) = true := by
      cases hsent : c.finAckSent <;> cases hfin : seg.header.fin <;> simp_all
    rw [hspeaks, Bool.true_and, reply, if_neg hsilent]
    -- the FIN's number is remembered first, which no queue notices
    have hmark : ∀ c₁ : TCPConnection, c₁.segmentsOut = c.segmentsOut → c₁.sender = c.sender →
        c₁.receiver = c.receiver → c₁.rstSet = c.rstSet →
        Dispatched c c.sender c.receiver (decide (0 < seg.lengthInSequenceSpace)) c.rstSet
          (if seg.lengthInSequenceSpace > 0 then c₁.sendseg else c₁).cleanShutdown := by
      intro c₁ hout hsender hreceiver hrst
      apply Dispatched.cleanShutdown
      by_cases hlen : seg.lengthInSequenceSpace > 0
      · rw [if_pos hlen, decide_eq_true hlen, ← hsender, ← hreceiver, ← hrst]
        exact (Dispatched.sendseg c₁).base hout
      · rw [if_neg hlen, decide_eq_false hlen]
        exact Dispatched.quiet hout (by rw [hsender])
    by_cases hfin : seg.header.fin = true
    · simp only [if_pos hfin]
      exact hmark { c with recFinSeqno := some seg.header.seqno } rfl rfl rfl rfl
    · simp only [if_neg hfin]
      exact hmark c rfl rfl rfl rfl

theorem absorb_halves (c : TCPConnection) (seg : TCPSegment) :
    (c.absorb seg).sender =
      (if seg.header.ack then c.sender.ackReceived seg.header.ackno seg.header.win else c.sender) ∧
    (c.absorb seg).receiver = c.receiver.segmentReceived seg := by
  unfold absorb; dsimp only; split <;> simp

theorem dispatched_segmentReceived (c : TCPConnection) (seg : TCPSegment) :
    Dispatched c (c.senderAfter (.segmentReceived seg)) (c.receiverAfter (.segmentReceived seg)) (c.answers seg)
      c.rstSet (c.segmentReceived seg) := by
  cases hadm : c.admits seg with
  | false =>
      rw [segmentReceived_of_not_admits hadm, senderAfter_of_not_admits hadm, answers, hadm]
      exact Dispatched.quiet rfl rfl
  | true =>
      have hsend := openPassive_sender (not_dropped_of_admits hadm)
      cases hrst : seg.header.rst with
      | true =>
          rw [segmentReceived_of_rst hadm hrst, senderAfter_of_rst hadm hrst, answers, hadm, hrst]
          refine Dispatched.quiet (openPassive_segmentsOut c seg) ?_
          show (c.openPassive seg).sender.segmentsOut = _
          rw [hsend]
      | false =>
          rw [segmentReceived_of_admits hadm hrst, senderAfter_of_admits hadm hrst,
            receiverAfter_of_admits hadm hrst, answers, hadm, hrst]
          have h := dispatched_reply ((c.openPassive seg).absorb seg) seg
          rw [(absorb_halves _ seg).1, (absorb_halves _ seg).2, hsend, openPassive_receiver, absorb_finAckSent,
            openPassive_finAckSent, absorb_rstSet, openPassive_rstSet] at h
          exact h.base ((absorb_segmentsOut _ seg).trans (openPassive_segmentsOut c seg))

/-- **What an operation does to the two queues**, seen from the state before it. -/
theorem dispatched_step (c : TCPConnection) (op : Op) :
    Dispatched c (c.senderAfter op) (c.receiverAfter op) (c.flushes op) (c.resets op) (c.step op) := by
  cases op with
  | connect => exact (Dispatched.sendseg { c with sender := c.sender.fillWindow }).base rfl
  | write data => exact (Dispatched.sendseg { c with sender := (c.sender.write data).fillWindow }).base rfl
  | endInputStream =>
      exact (Dispatched.sendseg { c with sender := c.sender.endInput.fillWindow, closedByApp := true }).base rfl
  | tick ms => exact dispatched_tick c ms
  | segmentReceived seg => exact dispatched_segmentReceived c seg
  | readInbound len => exact Dispatched.quiet rfl rfl

/-! ## What the sender adds to its queue -/

/-- From `s` to `s'` the same segments were added to the queue and to the history. -/
def Enqueues (s s' : TCPSender) : Prop :=
  ∃ new, s'.segmentsOut = s.segmentsOut ++ new ∧ s'.queued = s.queued ++ new

theorem Enqueues.of_eq {s s' : TCPSender} (hout : s'.segmentsOut = s.segmentsOut) (hlog : s'.queued = s.queued) :
    Enqueues s s' := ⟨[], by rw [hout, List.append_nil], by rw [hlog, List.append_nil]⟩

theorem Enqueues.trans {s s₁ s' : TCPSender} (h : Enqueues s s₁) (h' : Enqueues s₁ s') : Enqueues s s' := by
  obtain ⟨new, hout, hlog⟩ := h
  obtain ⟨new', hout', hlog'⟩ := h'
  exact ⟨new ++ new', by rw [hout', hout, List.append_assoc], by rw [hlog', hlog, List.append_assoc]⟩

theorem enqueues_fillWindow (s : TCPSender) : Enqueues s s.fillWindow := by
  obtain ⟨new, h⟩ := fillWindow_sends s
  exact ⟨new, h.segmentsOut, h.queued⟩

theorem enqueues_ackReceived (s : TCPSender) (ackno : WrappingInt32) (w : UInt16) :
    Enqueues s (s.ackReceived ackno w) := by
  rw [ackReceived_eq]
  split
  · exact Enqueues.of_eq rfl rfl
  · have haccept : Enqueues s (s.acceptAck ackno w) :=
      Enqueues.of_eq (acceptAck_segmentsOut _ _ _) (queued_acceptAck _ _ _)
    exact haccept.trans (enqueues_fillWindow _)

theorem enqueues_tick (s : TCPSender) (ms : Nat) : Enqueues s (s.tick ms) := by
  rcases tick_cases s ms with ⟨_, heq⟩ | ⟨seg, _, _, _, -, heq⟩
  · rw [heq]
    exact Enqueues.of_eq rfl rfl
  · rw [heq]
    exact ⟨[seg], rfl, by simp [queued, List.filterMap_append]⟩

theorem enqueues_senderAfter (c : TCPConnection) (op : Op) : Enqueues c.sender (c.senderAfter op) :=
  senderAfter_rel (fun _ => Enqueues.of_eq rfl rfl) Enqueues.trans
    (fun _ _ => Enqueues.of_eq rfl rfl) (fun _ => Enqueues.of_eq rfl rfl)
    enqueues_fillWindow enqueues_ackReceived enqueues_tick op

/-! ## Nothing is lost on the way -/

/-- A segment without the fields the connection fills in. -/
def unstamp (seg : TCPSegment) : TCPSegment :=
  { seg with header := { seg.header with ack := false, ackno := .ofRaw 0, win := 0, rst := false } }

@[simp] theorem unstamp_stamp (r : TCPReceiver) (rst : Bool) (seg : TCPSegment) :
    unstamp (stamp r rst seg) = unstamp seg := by
  rw [stamp]
  cases r.ackno <;> cases rst <;> rfl

@[simp] theorem length_stamp (r : TCPReceiver) (rst : Bool) (seg : TCPSegment) :
    (stamp r rst seg).lengthInSequenceSpace = seg.lengthInSequenceSpace := by
  have h := congrArg TCPSegment.lengthInSequenceSpace (unstamp_stamp r rst seg)
  exact h

/-- The segments that occupy sequence numbers. -/
def occupying (segs : List TCPSegment) : List TCPSegment := segs.filter fun seg => 0 < seg.lengthInSequenceSpace

/-- The made-up segment does not count, the others all do. -/
theorem unstamp_outgoing {queue : List TCPSegment} (h : ∀ seg ∈ queue, 0 < seg.lengthInSequenceSpace)
    (r : TCPReceiver) (rst : Bool) :
    (occupying ((outgoing queue).map (stamp r rst))).map unstamp = queue.map unstamp := by
  have hstamp : (fun seg => decide (0 < seg.lengthInSequenceSpace)) ∘ stamp r rst =
      fun seg => decide (0 < seg.lengthInSequenceSpace) := by
    funext seg
    rw [Function.comp_apply, length_stamp]
  have hall : (outgoing queue).filter (fun seg => decide (0 < seg.lengthInSequenceSpace)) = queue := by
    rw [outgoing]
    split
    · next hempty =>
        rw [List.isEmpty_iff.mp hempty]
        rfl
    · exact List.filter_eq_self.mpr fun seg hseg => decide_eq_true (h seg hseg)
  rw [occupying, List.filter_map, hstamp, hall, List.map_map]
  exact List.map_congr_left fun seg _ => unstamp_stamp r rst seg

/-- What has gone out and what still waits is what the sender has queued. -/
def Relayed (c : TCPConnection) : Prop :=
  (occupying c.segmentsOut ++ c.sender.segmentsOut).map unstamp = c.sender.queued.map unstamp

theorem Relayed.dispatched (h : c.Relayed) (hs : Enqueues c.sender s) (hd : Dispatched c s r flush rst c')
    (hpos : ∀ seg ∈ s.segmentsOut, 0 < seg.lengthInSequenceSpace) (hlog : c'.sender.queued = s.queued) :
    c'.Relayed := by
  obtain ⟨new, hqueue, hqueued⟩ := hs
  have hall : (occupying c.segmentsOut).map unstamp ++ s.segmentsOut.map unstamp = s.queued.map unstamp := by
    rw [hqueue, hqueued, List.map_append, List.map_append, ← List.append_assoc, ← List.map_append]
    exact congrArg (· ++ new.map unstamp) h
  rw [Relayed, hd.out, hd.queue, hlog, occupying, List.filter_append, List.map_append, List.map_append, ← hall]
  cases flush with
  | true =>
      rw [if_pos rfl, if_pos rfl, List.map_nil, List.append_nil]
      exact congrArg _ (unstamp_outgoing hpos r rst)
  | false =>
      rw [if_neg Bool.false_ne_true, if_neg Bool.false_ne_true, List.filter_nil, List.map_nil, List.append_nil]
      rfl

theorem Handled.queued {failed : Bool} (h : Handled c s r failed c') : c'.sender.queued = s.queued := by
  rw [h.sender]; cases failed <;> rfl

/-- The invariant of the sender, for some bytes written. -/
def Sound (s : TCPSender) : Prop := ∃ accepted, SenderInv accepted s

theorem sound_after (op : Op) (h : Sound c.sender) : Sound (c.senderAfter op) := by
  obtain ⟨accepted, hinv⟩ := h
  exact ⟨_, Endpoint.senderInv_after (e := ⟨c, accepted, []⟩) op hinv⟩

theorem Sound.pos (h : Sound s) : ∀ seg ∈ s.segmentsOut, 0 < seg.lengthInSequenceSpace := by
  obtain ⟨accepted, hinv⟩ := h
  exact fun seg hseg => hinv.pos_of_mem (hinv.pending seg hseg)

theorem sound_step (op : Op) (h : Sound c.sender) : Sound (c.step op).sender := by
  obtain ⟨accepted, hinv⟩ := h
  exact ⟨_, Endpoint.senderInv_step (e := ⟨c, accepted, []⟩) op hinv⟩

theorem sound_run (cfg : TCPConfig) (randomIsn : WrappingInt32) (ops : List Op) :
    Sound (run step (ofConfig cfg randomIsn) ops).sender :=
  run_invariant ops (fun c : TCPConnection => Sound c.sender) ⟨[], SenderInv.init _ _ _⟩ fun _ op h => sound_step op h

theorem relayed_step (op : Op) (hs : Sound c.sender) (h : c.Relayed) : (c.step op).Relayed := by
  obtain ⟨failed, hh⟩ := handled_step c op
  exact h.dispatched (enqueues_senderAfter c op) (dispatched_step c op) (sound_after op hs).pos hh.queued

theorem relayed_run (cfg : TCPConfig) (randomIsn : WrappingInt32) (ops : List Op) :
    (run step (ofConfig cfg randomIsn) ops).Relayed := by
  have hinit : (ofConfig cfg randomIsn).Relayed := rfl
  refine (run_invariant ops (fun c : TCPConnection => Sound c.sender ∧ c.Relayed)
    ⟨⟨[], SenderInv.init _ _ _⟩, hinit⟩ ?_).2
  intro c op h
  exact ⟨sound_step op h.1, relayed_step op h.1 h.2⟩

/-- After an operation that sends, and after a tick of an active connection, nothing waits. -/
theorem queue_empty_step {op : Op} (h : op.sends = true ∨ (∃ ms, op = .tick ms) ∧ c.active = true) :
    (c.step op).sender.segmentsOut = [] := by
  rw [(dispatched_step c op).queue]
  rcases h with hsends | ⟨⟨ms, rfl⟩, hact⟩
  · have hflush : c.flushes op = true := by cases op <;> first | rfl | cases hsends
    rw [if_pos hflush]
  · split
    · rfl
    · next hquiet =>
        rw [flushes, hact, Bool.true_and, Bool.or_eq_true, not_or] at hquiet
        rw [senderAfter, if_pos hact]
        simpa using hquiet.2

/-- **No segment is lost or doubled between the sender and the wire.** In every run the segments that went out and
    occupy sequence numbers, followed by those still waiting in the sender's queue, are in order those the sender has
    queued, up to the fields the connection fills in. Nothing waits after the operations of the application that send,
    nor after a tick of an active connection. -/
theorem segments_relayed (cfg : TCPConfig) (randomIsn : WrappingInt32) (ops : List Op) :
    let c := run step (ofConfig cfg randomIsn) ops
    (occupying c.segmentsOut ++ c.sender.segmentsOut).map unstamp = c.sender.queued.map unstamp ∧
    ∀ op, op.sends = true ∨ (∃ ms, op = .tick ms) ∧ c.active = true → (c.step op).sender.segmentsOut = [] :=
  ⟨relayed_run cfg randomIsn ops, fun _ hop => queue_empty_step hop⟩

end TCPConnection

end Sponge
