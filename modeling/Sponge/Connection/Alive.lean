import Sponge.Connection.Linger
import Sponge.Connection.Outbound
import Sponge.Sender.Acknowledge

/-!
# `Connection.Alive` — a connection that goes on

What a connection says about itself while it is active: nothing with RST has left it (`Unreset`), and it has
remembered the number of every FIN it has looked at, so that without one it has not acknowledged any (`Unfinished`).
A tick that does not give up leaves nothing in the sender's queue (`queue_tick`), and a sender with nothing
outstanding has sent all there is (`Prompt`).
-/

namespace Sponge

open Lib TCPSender

namespace TCPConnection

variable {c : TCPConnection} {seg : TCPSegment}

/-! ## No reset -/

@[simp] theorem sendseg_rstSet (c : TCPConnection) : c.sendseg.rstSet = c.rstSet := by
  rw [sendseg_eq, cleanShutdown_rstSet]
  rfl

theorem reply_rstSet (c : TCPConnection) (seg : TCPSegment) : (c.reply seg).rstSet = c.rstSet := by
  unfold reply
  split_ifs <;> simp

/-- A tick that gives up leaves the connection inactive. -/
theorem not_stuck_of_active {ms : Nat} (h : (c.tick ms).active = true) (hact : c.active = true) :
    stuck (c.sender.tick ms) = false := by
  by_contra hstuck
  rw [(givesUp_tick hact (by simpa using hstuck)).inactive] at h
  cases h

theorem active_of_step (op : Op) (h : (c.step op).active = true) : c.active = true := by
  by_contra hoff
  rw [active_step op (by simpa using hoff)] at h
  cases h

/-- No operation that leaves the connection active sets the reset flag. -/
theorem rstSet_step (op : Op) (h : c.rstSet = false) (hact : (c.step op).active = true) :
    (c.step op).rstSet = false := by
  have hwas := active_of_step op hact
  cases op with
  | connect => exact (sendseg_rstSet _).trans h
  | write data => exact (sendseg_rstSet _).trans h
  | endInputStream => exact (sendseg_rstSet _).trans h
  | tick ms =>
      show (c.tick ms).rstSet = false
      rw [tick_not_stuck hwas (not_stuck_of_active hact hwas)]
      split
      · exact (cleanShutdown_rstSet _).trans h
      · exact (sendseg_rstSet _).trans ((cleanShutdown_rstSet _).trans h)
  | segmentReceived seg =>
      have hact' : (c.segmentReceived seg).active = true := hact
      show (c.segmentReceived seg).rstSet = false
      cases hadm : c.admits seg with
      | false =>
          rw [segmentReceived_of_not_admits hadm]
          exact h
      | true =>
          cases hrst : seg.header.rst with
          | true =>
              rw [segmentReceived_of_rst hadm hrst] at hact'
              cases hact'
          | false =>
              rw [segmentReceived_of_admits hadm hrst, reply_rstSet, absorb_rstSet, openPassive_rstSet]
              exact h
  | readInbound len => exact h

/-- Nor does it send with RST. -/
theorem resets_eq_false {op : Op} (h : c.rstSet = false) (hact : (c.step op).active = true) :
    c.resets op = false := by
  cases op with
  | tick ms =>
      rw [resets, h, not_stuck_of_active hact (active_of_step (.tick ms) hact)]
      rfl
  | connect | write _ | endInputStream | segmentReceived _ | readInbound _ => exact h

theorem noRst_of_firstSent {accepted : List UInt8} {s : TCPSender} (h : SenderInv accepted s)
    (hseg : seg ∈ s.firstSent) : seg.header.rst = false := by
  rcases h.shape_of_mem hseg with rfl | hdata
  · rfl
  · rw [hdata.header]

theorem noRst_of_outgoing {accepted : List UInt8} {s : TCPSender} (h : SenderInv accepted s)
    (hseg : seg ∈ outgoing s.segmentsOut) : seg.header.rst = false := by
  unfold outgoing at hseg
  split at hseg
  · rw [List.mem_singleton.mp hseg]
  · exact noRst_of_firstSent h (h.pending seg hseg)

theorem outgoing_ne_nil (queue : List TCPSegment) : outgoing queue ≠ [] := by
  unfold outgoing
  split
  · exact List.cons_ne_nil _ _
  · next hne => exact fun hnil => hne (List.isEmpty_iff.mpr hnil)

theorem stamp_noRst (r : TCPReceiver) (h : seg.header.rst = false) : (stamp r false seg).header.rst = false := by
  unfold stamp
  cases r.ackno <;> exact h

/-- Nothing with RST has been sent. -/
structure Unreset (c : TCPConnection) : Prop where
  flag : c.rstSet = false
  out  : ∀ seg ∈ c.segmentsOut, seg.header.rst = false

theorem Unreset.step {accepted : List UInt8} {op : Op} (h : c.Unreset) (hinv : SenderInv accepted (c.senderAfter op))
    (hact : (c.step op).active = true) : (c.step op).Unreset := by
  have hout := (dispatched_step c op).out
  rw [resets_eq_false h.flag hact] at hout
  refine ⟨rstSet_step op h.flag hact, ?_⟩
  intro seg hseg
  rw [hout] at hseg
  rcases List.mem_append.mp hseg with hold | hnew
  · exact h.out seg hold
  · split at hnew
    · obtain ⟨base, hbase, rfl⟩ := List.mem_map.mp hnew
      exact stamp_noRst _ (noRst_of_outgoing hinv hbase)
    · cases hnew

/-- The last part of `segment_received` does not put the streams into error by itself. -/
theorem Handled.reply_unreset (seg : TCPSegment) (h : c.rstSet = false) :
    Handled c c.sender c.receiver false (c.reply seg) := by
  have hmark : ∀ c₁ : TCPConnection, Handled c c.sender c.receiver false c₁ → c₁.rstSet = false →
      Handled c c.sender c.receiver false
        (if seg.lengthInSequenceSpace > 0 then c₁.sendseg else c₁).cleanShutdown := by
    intro c₁ h₁ hrst
    split
    · have hsend := Handled.sendseg c₁
      rw [hrst] at hsend
      exact (h₁.trans hsend).trans (Handled.cleanShutdown _)
    · exact h₁.trans (Handled.cleanShutdown _)
  unfold TCPConnection.reply
  split
  · exact Handled.refl c
  · split
    · exact hmark { c with recFinSeqno := some seg.header.seqno }
        ((Handled.refl { c with recFinSeqno := some seg.header.seqno }).base rfl Or.inl rfl rfl rfl) h
    · exact hmark c (Handled.refl c) h

/-- **A segment without RST stops a connection only when both streams are done.** -/
theorem done_of_segmentReceived (hact : c.active = true) (hflag : c.rstSet = false) (hrst : seg.header.rst = false)
    (hoff : (c.segmentReceived seg).active = false) :
    StreamsDone (c.senderAfter (.segmentReceived seg)) (c.receiverAfter (.segmentReceived seg)) := by
  cases hadm : c.admits seg with
  | false =>
      rw [segmentReceived_of_not_admits hadm] at hoff
      exact Bool.noConfusion (hact.symm.trans hoff)
  | true =>
      have hopen := openPassive_synSet (not_dropped_of_admits hadm)
      have hsend := openPassive_sender (not_dropped_of_admits hadm)
      rw [segmentReceived_of_admits hadm hrst] at hoff
      rw [senderAfter_of_admits hadm hrst, receiverAfter_of_admits hadm hrst]
      have habs := Handled.absorb (c.openPassive seg) seg hopen
      rw [hsend, openPassive_receiver] at habs
      have hreply := Handled.reply_unreset (c := (c.openPassive seg).absorb seg) seg
        (by rw [absorb_rstSet, openPassive_rstSet]; exact hflag)
      rcases (habs.trans hreply).inactive hoff with hold | hfailed | ⟨hdone, -⟩
      · rw [openPassive_active] at hold
        exact Bool.noConfusion (hact.symm.trans hold)
      · cases hfailed
      · exact hdone

/-! ## No FIN -/

@[simp] theorem cleanShutdown_recFinSeqno (c : TCPConnection) : c.cleanShutdown.recFinSeqno = c.recFinSeqno := by
  rw [cleanShutdown_frame]

@[simp] theorem sendseg_recFinSeqno (c : TCPConnection) : c.sendseg.recFinSeqno = c.recFinSeqno := by
  rw [sendseg_eq, cleanShutdown_recFinSeqno]
  rfl

@[simp] theorem openPassive_recFinSeqno (c : TCPConnection) (seg : TCPSegment) :
    (c.openPassive seg).recFinSeqno = c.recFinSeqno := by
  rw [openPassive_frame]

@[simp] theorem absorb_recFinSeqno (c : TCPConnection) (seg : TCPSegment) :
    (c.absorb seg).recFinSeqno = c.recFinSeqno := by
  unfold absorb; dsimp only; split <;> simp

/-- The last part of `segment_received` remembers a FIN. -/
theorem reply_recFinSeqno (c : TCPConnection) (seg : TCPSegment) :
    (c.reply seg).recFinSeqno = if seg.header.fin then some seg.header.seqno else c.recFinSeqno := by
  unfold reply
  split_ifs <;> simp_all

theorem acksFin_none (r : TCPReceiver) : acksFin r none = false := by
  unfold acksFin
  cases r.ackno <;> rfl

/-- Without a FIN there is nothing to acknowledge. -/
theorem sendseg_finAckSent (h : c.recFinSeqno = none) : c.sendseg.finAckSent = c.finAckSent := by
  rw [sendseg_eq, cleanShutdown_finAckSent]
  show (c.finAckSent || acksFin c.receiver c.recFinSeqno) = c.finAckSent
  rw [h, acksFin_none, Bool.or_false]

theorem reply_finAckSent (h : c.recFinSeqno = none) (hfin : seg.header.fin = false) :
    (c.reply seg).finAckSent = c.finAckSent := by
  unfold reply
  simp only [hfin, Bool.false_eq_true, if_false]
  split_ifs
  · rfl
  · rw [cleanShutdown_finAckSent, sendseg_finAckSent h]
  · exact cleanShutdown_finAckSent c

/-- The operation makes the connection look at a FIN. -/
def looksAtFin (c : TCPConnection) : Op → Bool
  | .segmentReceived seg => c.admits seg && !seg.header.rst && seg.header.fin
  | _                    => false

/-- No FIN has been looked at, so none has been acknowledged, and the inbound stream goes on. -/
structure Unfinished (c : TCPConnection) : Prop where
  unseen  : c.recFinSeqno = none
  unacked : c.finAckSent = false
  unended : ¬ (c.receiver.reassembler.eofFlag = true ∨ c.receiver.streamOut.isEof = true)

/-- The inbound stream ends only by a FIN that is looked at. -/
theorem unended_receiverAfter {op : Op} (hop : c.looksAtFin op = false)
    (h : ¬ (c.receiver.reassembler.eofFlag = true ∨ c.receiver.streamOut.isEof = true)) :
    ¬ ((c.receiverAfter op).reassembler.eofFlag = true ∨ (c.receiverAfter op).streamOut.isEof = true) := by
  cases op with
  | segmentReceived seg =>
      simp only [receiverAfter]
      split
      · next hlet =>
          rw [looksAtFin, hlet, Bool.true_and] at hop
          intro hend
          rcases (TCPReceiver.heard_segmentReceived c.receiver seg).ended hend with hold | ⟨hfin, -⟩
          · exact h hold
          · exact Bool.noConfusion (hop.symm.trans hfin)
      · exact h
  | connect | write _ | endInputStream | tick _ | readInbound _ => exact h

theorem tick_fin (c : TCPConnection) (ms : Nat) : (c.tick ms).recFinSeqno = c.recFinSeqno ∧
    (c.recFinSeqno = none → (c.tick ms).finAckSent = c.finAckSent) := by
  by_cases hact : c.active = true
  · by_cases hstuck : stuck (c.sender.tick ms) = true
    · rw [tick_stuck hact hstuck]
      refine ⟨by rw [cleanShutdown_recFinSeqno, sendseg_recFinSeqno]; rfl, fun hnone => ?_⟩
      rw [cleanShutdown_finAckSent, sendseg_finAckSent (c := { c.elapse ms with rstSet := true }) hnone]
      rfl
    · rw [tick_not_stuck hact (by simpa using hstuck)]
      split
      · exact ⟨cleanShutdown_recFinSeqno _, fun _ => cleanShutdown_finAckSent _⟩
      · refine ⟨by rw [sendseg_recFinSeqno, cleanShutdown_recFinSeqno]; rfl, fun hnone => ?_⟩
        have hquiet : (c.elapse ms).cleanShutdown.recFinSeqno = none := (cleanShutdown_recFinSeqno _).trans hnone
        rw [sendseg_finAckSent hquiet, cleanShutdown_finAckSent]
        rfl
  · rw [tick_inactive (by simpa using hact)]
    exact ⟨rfl, fun _ => rfl⟩

/-- **Only a FIN that is looked at is remembered**, and nothing makes the connection forget it. -/
theorem recFinSeqno_step (c : TCPConnection) (op : Op) :
    (c.step op).recFinSeqno = none ↔ c.recFinSeqno = none ∧ c.looksAtFin op = false := by
  cases op with
  | connect =>
      show (sendseg _).recFinSeqno = none ↔ c.recFinSeqno = none ∧ false = false
      rw [sendseg_recFinSeqno, and_iff_left rfl]
  | write data =>
      show (sendseg _).recFinSeqno = none ↔ c.recFinSeqno = none ∧ false = false
      rw [sendseg_recFinSeqno, and_iff_left rfl]
  | endInputStream =>
      show (sendseg _).recFinSeqno = none ↔ c.recFinSeqno = none ∧ false = false
      rw [sendseg_recFinSeqno, and_iff_left rfl]
  | tick ms =>
      show (c.tick ms).recFinSeqno = none ↔ c.recFinSeqno = none ∧ false = false
      rw [(tick_fin c ms).1, and_iff_left rfl]
  | segmentReceived seg =>
      show (c.segmentReceived seg).recFinSeqno = none ↔ _
      rw [looksAtFin]
      cases hadm : c.admits seg with
      | false => simp [segmentReceived_of_not_admits hadm]
      | true =>
          cases hrst : seg.header.rst with
          | true =>
              rw [segmentReceived_of_rst hadm hrst]
              simp [resetReceived]
          | false =>
              rw [segmentReceived_of_admits hadm hrst, reply_recFinSeqno, absorb_recFinSeqno, openPassive_recFinSeqno]
              cases seg.header.fin <;> simp
  | readInbound len => exact (and_iff_left rfl).symm

theorem Unfinished.step {op : Op} (h : c.Unfinished) (hop : c.looksAtFin op = false) : (c.step op).Unfinished := by
  obtain ⟨failed, hh⟩ := handled_step c op
  refine ⟨(recFinSeqno_step c op).mpr ⟨h.unseen, hop⟩, ?_,
    fun hend => unended_receiverAfter hop h.unended (hh.ended hend)⟩
  cases op with
  | connect => exact (sendseg_finAckSent (c := { c with sender := c.sender.fillWindow }) h.unseen).trans h.unacked
  | write data =>
      exact (sendseg_finAckSent (c := { c with sender := (c.sender.write data).fillWindow }) h.unseen).trans h.unacked
  | endInputStream =>
      exact (sendseg_finAckSent
        (c := { c with sender := c.sender.endInput.fillWindow, closedByApp := true }) h.unseen).trans h.unacked
  | tick ms => exact ((tick_fin c ms).2 h.unseen).trans h.unacked
  | segmentReceived seg =>
      show (c.segmentReceived seg).finAckSent = false
      cases hadm : c.admits seg with
      | false =>
          rw [segmentReceived_of_not_admits hadm]
          exact h.unacked
      | true =>
          cases hrst : seg.header.rst with
          | true =>
              rw [segmentReceived_of_rst hadm hrst]
              exact (openPassive_finAckSent c seg).trans h.unacked
          | false =>
              rw [looksAtFin, hadm, hrst] at hop
              rw [segmentReceived_of_admits hadm hrst, reply_finAckSent (by simpa using h.unseen) hop,
                absorb_finAckSent, openPassive_finAckSent]
              exact h.unacked
  | readInbound len => exact h.unacked

/-! ## A tick -/

/-- After a tick of an active connection that goes on, nothing is waiting in the sender's queue. -/
theorem queue_tick {ms : Nat} (hact : (c.tick ms).active = true) : (c.tick ms).sender.segmentsOut = [] := by
  have hwas := active_of_step (.tick ms) hact
  have hqueue := (dispatched_tick c ms).queue
  rw [flushes, hwas, not_stuck_of_active hact hwas, Bool.true_and, Bool.false_or, senderAfter, if_pos hwas] at hqueue
  rw [hqueue]
  cases hempty : (c.sender.tick ms).segmentsOut with
  | nil => rfl
  | cons seg rest => rfl

/-- What is outstanding keeps `clean_shutdown` from stopping the connection. -/
theorem not_done_of_busy {accepted : List UInt8} {s : TCPSender} {r : TCPReceiver} (hinv : SenderInv accepted s)
    (hbusy : s.outSegments ≠ []) : ¬ StreamsDone s r :=
  fun hdone => hbusy (hinv.outSegments_eq_nil hdone.inFlight)

/-- **A tick does not stop a connection** that has something outstanding, unless it gives up. -/
theorem active_tick_of_not_stuck {accepted : List UInt8} {ms : Nat} (hact : c.active = true) (hrst : c.rstSet = false)
    (hinv : SenderInv accepted c.sender) (hbusy : c.sender.outSegments ≠ [])
    (hstuck : stuck (c.sender.tick ms) = false) : (c.tick ms).active = true := by
  have hdone : ¬ StreamsDone (c.sender.tick ms) c.receiver :=
    not_done_of_busy (hinv.tick ms) (by rw [(outSegments_tick _ _).1]; exact hbusy)
  have hclean : (c.elapse ms).cleanShutdown.active = true := by
    by_contra hoff
    rcases cleanShutdown_inactive _ (by simpa using hoff) with hold | ⟨hall, -⟩
    · exact Bool.noConfusion (hact.symm.trans hold)
    · exact hdone hall
  rw [tick_not_stuck hact hstuck]
  split
  · exact hclean
  · by_contra hoff
    rcases (Handled.sendseg (c.elapse ms).cleanShutdown).inactive (by simpa using hoff) with hold | hset | ⟨hall, -⟩
    · exact Bool.noConfusion (hclean.symm.trans hold)
    · rw [cleanShutdown_rstSet] at hset
      exact Bool.noConfusion (hrst.symm.trans hset)
    · rw [cleanShutdown_sender, cleanShutdown_receiver] at hall
      exact hdone hall

/-- So it does not if there is a retransmission left. -/
theorem active_tick {accepted : List UInt8} (ms : Nat) (hact : c.active = true) (hrst : c.rstSet = false)
    (hinv : SenderInv accepted c.sender) (hbusy : c.sender.outSegments ≠ [])
    (hcount : c.sender.consecutiveRetransmission < TCPConfig.maxRetxAttempts) : (c.tick ms).active = true := by
  have hmax : TCPConfig.maxRetxAttempts = 8 := rfl
  refine active_tick_of_not_stuck hact hrst hinv hbusy (decide_eq_false ?_)
  rcases backoff_tick c.sender ms with ⟨-, hretx⟩ | ⟨-, hretx, -⟩
  · omega
  · omega

end TCPConnection

/-! ## Nothing is held back -/

/-- What is outstanding is not acknowledged, and if nothing is outstanding there is nothing to send. -/
structure Prompt (s : TCPSender) : Prop where
  inv    : ∃ accepted, SenderInv accepted s
  ack    : AckBound s
  pruned : Pruned s
  spent  : s.synFlag = true → s.finFlag = false → s.outSegments = [] → s.avail = 0

namespace Prompt

variable {s : TCPSender} {accepted : List UInt8}

theorem init (capacity : Nat) (retxTimeout : UInt16) (isn : WrappingInt32) :
    Prompt (TCPSender.ofConfig capacity retxTimeout isn) where
  inv    := ⟨[], SenderInv.init ..⟩
  ack    := AckBound.init ..
  pruned := fun _ _ h => nomatch h
  spent  := fun h => nomatch h

/-- `fill_window` sends something if there is anything to send and nothing is outstanding. -/
theorem of_fillWindow (hinv : SenderInv accepted s) (hack : AckBound s) (hpruned : Pruned s) : Prompt s.fillWindow := by
  refine ⟨⟨accepted, hinv.fillWindow⟩, hack.fillWindow, hpruned.fillWindow hack, ?_⟩
  intro hsyn hfin hempty
  rcases fillWindow_cases s with ⟨hold, heq⟩ | ⟨-, -, heq⟩ | ⟨-, -, new, hfills, htotal⟩
  · rw [heq, hold] at hfin
    cases hfin
  · rw [heq] at hempty
    simp [sendSegment] at hempty
  · rw [hfills.outSegments, List.append_eq_nil_iff] at hempty
    obtain ⟨hnone, rfl⟩ := hempty
    have hroom := room_pos_of_empty hack hinv hnone
    have hbuf : s.fillWindow.stream.buf = s.stream.buf := hfills.buf
    rw [extent_nil] at htotal
    rw [avail, hbuf, hfills.isEof]
    show s.avail = 0
    omega

theorem fillWindow (h : Prompt s) : Prompt s.fillWindow :=
  let ⟨_, hinv⟩ := h.inv
  of_fillWindow hinv h.ack h.pruned

theorem ackReceived (h : Prompt s) (ackno : WrappingInt32) (w : UInt16) : Prompt (s.ackReceived ackno w) := by
  obtain ⟨accepted, hinv⟩ := h.inv
  rw [ackReceived_eq]
  split
  · exact h
  · next hb =>
      exact of_fillWindow (hinv.acceptAck ackno w) (h.ack.acceptAck hinv w (by simpa using hb))
        (h.pruned.acceptAck hinv ackno w)

theorem tick (h : Prompt s) (ms : Nat) : Prompt (s.tick ms) := by
  obtain ⟨accepted, hinv⟩ := h.inv
  refine ⟨⟨accepted, hinv.tick ms⟩, h.ack.tick ms, h.pruned.tick ms, ?_⟩
  rcases tick_cases s ms with ⟨_, heq⟩ | ⟨_, _, _, _, -, heq⟩
  · rw [heq]
    exact h.spent
  · rw [heq]
    exact h.spent

/-- **Every operation of a connection leaves its sender prompt.** -/
theorem step {c : TCPConnection} (h : Prompt c.sender) (op : TCPConnection.Op) : Prompt (c.step op).sender := by
  have hafter : Prompt (c.senderAfter op) := by
    refine TCPConnection.senderAfter_rule (P := Prompt) op h (fun _ hs => hs.fillWindow) ?_ ?_
      (fun _ _ _ _ hs => hs.ackReceived _ _) fun ms _ _ => h.tick ms
    · intro data _
      obtain ⟨accepted, hinv⟩ := h.inv
      exact of_fillWindow (hinv.write data) (h.ack.congr rfl rfl rfl (le_refl _)) h.pruned
    · intro _
      obtain ⟨accepted, hinv⟩ := h.inv
      exact of_fillWindow hinv.endInput (h.ack.congr rfl rfl rfl (le_refl _)) h.pruned
  obtain ⟨accepted, hinv⟩ := hafter.inv
  obtain ⟨failed, hh⟩ := TCPConnection.handled_step c op
  obtain ⟨hack, hpruned, hspent⟩ := hh.transport
    (P := fun s => AckBound s ∧ Pruned s ∧ (s.synFlag = true → s.finFlag = false → s.outSegments = [] → s.avail = 0))
    (fun _ _ hs => ⟨hs.1.congr rfl rfl rfl (le_refl _), hs.2⟩)
    (fun _ hs => ⟨hs.1.congr rfl rfl rfl (le_refl _), hs.2⟩) ⟨hafter.ack, hafter.pruned, hafter.spent⟩
  exact ⟨⟨accepted, hh.senderInv hinv⟩, hack, hpruned, hspent⟩

end Prompt

end Sponge
