import Sponge.Connection.Final
import Sponge.Connection.Reply

/-!
# `Connection.Linger` — who waits after the end

`clean_shutdown` is called from four places, and each call may drop `_linger_after_streams_finish` or switch the
connection off. `Winds looked c c'` is what all these calls have in common: the flag is dropped exactly if
`clean_shutdown` was called (`looked`) while the inbound stream had ended and the outbound one was not at its
end. `winds_step` says it for every operation, seen from the state `after` in which the streams have been served
and the clock has been set.

Two laws follow. If the outbound stream is at its end when the inbound one ends, the connection lingers: it
stops only by a reset or after ten timeouts of silence (`time_wait_respected`). If it is not, the flag is
dropped for ever, and `passive_close_iff` says exactly when that is: `clean_shutdown` looks at the outbound
stream after `fill_window` had its chance to drain it, so a FIN that comes with a large enough window is too
late, even though our own FIN had not been sent before.
-/

namespace Sponge

open Lib TCPSender

namespace TCPConnection

variable {c c' c₁ c₂ : TCPConnection} {looked looked₁ looked₂ : Bool}

/-! ## What winding down does -/

/-- The inbound stream is over and the outbound one is not. -/
def endedFirst (c : TCPConnection) : Bool := c.receiver.streamOut.inputEnded && !c.sender.stream.eof

structure Winds (looked : Bool) (c c' : TCPConnection) : Prop where
  cfg      : c'.cfg = c.cfg
  time     : c'.timeSinceLastSegmentReceived = c.timeSinceLastSegmentReceived
  inbound  : c'.receiver.streamOut.isEof = c.receiver.streamOut.isEof
  outbound : c'.sender.stream.eof = c.sender.stream.eof
  linger   : c'.lingerAfterStreamsFinish = (c.lingerAfterStreamsFinish && !(looked && c.endedFirst))
  rst      : c.rstSet = true → c'.rstSet = true
  inactive : c'.active = false → c.active = false ∨ c'.rstSet = true ∨
    (c.receiver.streamOut.isEof = true ∧
      (10 * c.cfg.rtTimeout.toNat ≤ c.timeSinceLastSegmentReceived ∨ c'.lingerAfterStreamsFinish = false))

theorem Winds.refl (c : TCPConnection) : Winds false c c :=
  ⟨rfl, rfl, rfl, rfl, by simp, id, Or.inl⟩

/-- Only the fields it speaks of matter. -/
theorem Winds.base (h : Winds looked c₁ c') (hcfg : c₁.cfg = c.cfg)
    (htime : c₁.timeSinceLastSegmentReceived = c.timeSinceLastSegmentReceived)
    (hin : c₁.receiver = c.receiver) (hout : c₁.sender = c.sender)
    (hlinger : c₁.lingerAfterStreamsFinish = c.lingerAfterStreamsFinish)
    (hrst : c.rstSet = true → c₁.rstSet = true) (hact : c₁.active = c.active) : Winds looked c c' := by
  have hfirst : c₁.endedFirst = c.endedFirst := by rw [endedFirst, endedFirst, hin, hout]
  refine ⟨h.cfg.trans hcfg, h.time.trans htime, hin ▸ h.inbound, hout ▸ h.outbound, ?_,
    fun hr => h.rst (hrst hr), ?_⟩
  · rw [h.linger, hlinger, hfirst]
  · rw [← hact, ← hin, ← hcfg, ← htime]
    exact h.inactive

theorem Winds.endedFirst (h : Winds looked c c') : c'.endedFirst = c.endedFirst := by
  rw [TCPConnection.endedFirst, TCPConnection.endedFirst, h.outbound, ByteStream.inputEnded, h.inbound]
  rfl

theorem Winds.trans (h₁ : Winds looked₁ c c₁) (h₂ : Winds looked₂ c₁ c₂) :
    Winds (looked₁ || looked₂) c c₂ := by
  constructor
  case cfg => exact h₂.cfg.trans h₁.cfg
  case time => exact h₂.time.trans h₁.time
  case inbound => exact h₂.inbound.trans h₁.inbound
  case outbound => exact h₂.outbound.trans h₁.outbound
  case linger =>
    rw [h₂.linger, h₁.linger, h₁.endedFirst]
    cases c.lingerAfterStreamsFinish <;> cases looked₁ <;> cases looked₂ <;> cases c.endedFirst <;> rfl
  case rst => exact fun hr => h₂.rst (h₁.rst hr)
  case inactive =>
    intro hact
    rcases h₂.inactive hact with hold | hrst | ⟨hend, hover⟩
    · rcases h₁.inactive hold with hwas | hrst | ⟨hend, hover⟩
      · exact Or.inl hwas
      · exact Or.inr (Or.inl (h₂.rst hrst))
      · -- a flag that is down stays down
        refine Or.inr (Or.inr ⟨hend, hover.imp id fun hdown => ?_⟩)
        rw [h₂.linger, hdown]
        rfl
    · exact Or.inr (Or.inl hrst)
    · rw [h₁.inbound] at hend
      rw [h₁.cfg, h₁.time] at hover
      exact Or.inr (Or.inr ⟨hend, hover⟩)

theorem Winds.cleanShutdown (c : TCPConnection) : Winds true c c.cleanShutdown := by
  have hflag : c.cleanShutdown.lingerAfterStreamsFinish =
      (c.lingerAfterStreamsFinish && !c.endedFirst) := by
    unfold TCPConnection.cleanShutdown TCPConnection.endedFirst
    dsimp only
    cases c.receiver.streamOut.inputEnded && !c.sender.stream.eof <;> split_ifs <;> simp_all
  constructor
  case cfg => rw [cleanShutdown_frame]
  case time => rw [cleanShutdown_frame]
  case inbound => rw [cleanShutdown_receiver]
  case outbound => rw [cleanShutdown_sender]
  case linger => rw [hflag, Bool.true_and]
  case rst => exact fun hr => (cleanShutdown_rstSet c).trans hr
  case inactive =>
    intro hact
    unfold TCPConnection.cleanShutdown at hact hflag ⊢
    dsimp only at hact hflag ⊢
    split_ifs at hact hflag ⊢ with hfirst hall hall
    · exact Or.inr (Or.inr ⟨hall.2.1, Or.inr rfl⟩)
    · exact Or.inl hact
    · exact Or.inr (Or.inr ⟨hall.2.1, hall.2.2.2.2.2⟩)
    · exact Or.inl hact

theorem Winds.afterSend (c : TCPConnection) (queue : List TCPSegment) : Winds false c (c.afterSend queue) := by
  have hin : (c.afterSend queue).receiver.streamOut.isEof = c.receiver.streamOut.isEof := by
    unfold TCPConnection.afterSend; dsimp only; split <;> rfl
  have hout : (c.afterSend queue).sender.stream.eof = c.sender.stream.eof := by
    unfold TCPConnection.afterSend; dsimp only; split <;> rfl
  refine ⟨rfl, rfl, hin, hout, by simp [TCPConnection.afterSend], id, ?_⟩
  intro hact
  rw [TCPConnection.afterSend, Bool.and_eq_false_iff, Bool.not_eq_false'] at hact
  exact hact.imp id Or.inl

theorem Winds.sendseg (c : TCPConnection) : Winds true c c.sendseg := by
  rw [sendseg_eq]
  exact (Winds.afterSend c c.pending).trans (Winds.cleanShutdown _)

theorem Winds.resetIfStuck (c : TCPConnection) : ∃ looked, Winds looked c c.resetIfStuck := by
  unfold TCPConnection.resetIfStuck
  split
  · exact ⟨true, (Winds.sendseg { c with rstSet := true }).base rfl rfl rfl rfl rfl (fun _ => rfl) rfl⟩
  · exact ⟨false, Winds.refl c⟩

theorem Winds.reply (c : TCPConnection) (seg : TCPSegment) :
    Winds (seg.header.fin || !c.finAckSent) c (c.reply seg) := by
  unfold TCPConnection.reply
  by_cases hskip : c.finAckSent = true ∧ seg.header.fin = false
  · rw [if_pos hskip, hskip.1, hskip.2]
    exact Winds.refl c
  · have hlook : (seg.header.fin || !c.finAckSent) = true := by
      cases hsent : c.finAckSent <;> cases hfin : seg.header.fin <;> simp_all
    rw [if_neg hskip, hlook]
    dsimp only
    have hmark : Winds false c
        (if seg.header.fin then { c with recFinSeqno := some seg.header.seqno } else c) := by
      split
      · exact (Winds.refl { c with recFinSeqno := some seg.header.seqno }).base rfl rfl rfl rfl rfl id rfl
      · exact Winds.refl c
    generalize (if seg.header.fin then { c with recFinSeqno := some seg.header.seqno } else c) = c₁
      at hmark ⊢
    split
    · exact (hmark.trans (Winds.sendseg c₁)).trans (Winds.cleanShutdown _)
    · exact hmark.trans (Winds.cleanShutdown _)

/-! ## Every operation -/

/-- What the operation does to the time since the last segment. -/
def timeAfter (c : TCPConnection) : Op → Nat
  | .tick ms             =>
    if c.active then uadd 64 c.timeSinceLastSegmentReceived ms else c.timeSinceLastSegmentReceived
  | .segmentReceived seg => if c.admits seg then 0 else c.timeSinceLastSegmentReceived
  | _                    => c.timeSinceLastSegmentReceived

/-- The connection with its streams served and its clock set, before the operation winds it down. -/
def after (c : TCPConnection) (op : Op) : TCPConnection :=
  { c with
    sender := c.senderAfter op
    receiver := c.receiverAfter op
    timeSinceLastSegmentReceived := c.timeAfter op }

/-- The operation calls `clean_shutdown`. -/
def looks (c : TCPConnection) : Op → Bool
  | .connect | .write _ | .endInputStream => true
  | .tick _                               => c.active
  | .segmentReceived seg                  =>
    c.admits seg && !seg.header.rst && (seg.header.ack || seg.header.fin || !c.finAckSent)
  | .readInbound _                        => false

theorem winds_tick (c : TCPConnection) (ms : Nat) :
    Winds (c.looks (.tick ms)) (c.after (.tick ms)) (c.tick ms) := by
  rw [looks]
  unfold TCPConnection.tick
  by_cases hact : c.active = false
  · have hsame : c.after (.tick ms) = c := by
      have hsender : c.senderAfter (.tick ms) = c.sender := if_neg (by simp [hact])
      have htime : c.timeAfter (.tick ms) = c.timeSinceLastSegmentReceived := if_neg (by simp [hact])
      rw [after, hsender, htime]
      rfl
    rw [if_pos hact, hact, hsame]
    exact Winds.refl c
  · have hact' : c.active = true := by simpa using hact
    have hafter : c.after (.tick ms) = c.elapse ms := by
      have hsender : c.senderAfter (.tick ms) = c.sender.tick ms := if_pos hact'
      have htime : c.timeAfter (.tick ms) = uadd 64 c.timeSinceLastSegmentReceived ms := if_pos hact'
      rw [after, hsender, htime]
      rfl
    rw [if_neg hact, hact', hafter]
    dsimp only
    obtain ⟨looked, hreset⟩ := Winds.resetIfStuck (c.elapse ms)
    have hclean := hreset.trans (Winds.cleanShutdown _)
    rw [Bool.or_true] at hclean
    split
    · exact hclean
    · split
      · exact hclean
      · exact hclean.trans (Winds.sendseg _)

/-- The part of `segment_received` up to the reply. -/
theorem winds_absorb {seg : TCPSegment} (hadm : c.admits seg = true) (hrst : seg.header.rst = false) :
    Winds seg.header.ack (c.after (.segmentReceived seg)) ((c.openPassive seg).absorb seg) := by
  have hsender := senderAfter_of_admits hadm hrst
  have htime : c.timeAfter (.segmentReceived seg) = 0 := if_pos hadm
  have hclock : (c.openPassive seg).timeSinceLastSegmentReceived = 0 := rfl
  have hof {looked : Bool} {c' : TCPConnection} (s : TCPSender)
      (hs : s = c.senderAfter (.segmentReceived seg))
      (h : Winds looked { c.openPassive seg with
        receiver := (c.openPassive seg).receiver.segmentReceived seg, sender := s } c') :
      Winds looked (c.after (.segmentReceived seg)) c' := by
    refine h.base (openPassive_cfg c seg) (hclock.trans htime.symm) ?_ hs (openPassive_linger c seg) ?_
      (openPassive_active c seg)
    · rw [openPassive_receiver]; exact (receiverAfter_of_admits hadm hrst).symm
    · rw [openPassive_rstSet]; exact id
  have hopened := openPassive_sender (not_dropped_of_admits hadm)
  unfold absorb
  dsimp only
  cases hack : seg.header.ack with
  | false =>
      rw [if_neg Bool.false_ne_true]
      refine hof _ ?_ (Winds.refl _)
      rw [hsender, hack, if_neg Bool.false_ne_true, hopened]
  | true =>
      rw [if_pos rfl]
      refine hof _ ?_ (Winds.cleanShutdown _)
      rw [hsender, hack, if_pos rfl, hopened]

/-- A reset: `clean_shutdown` is not called. -/
theorem winds_reset {seg : TCPSegment} (hadm : c.admits seg = true) (hrst : seg.header.rst = true) :
    Winds false (c.after (.segmentReceived seg)) (c.openPassive seg).resetReceived := by
  have htime : c.timeAfter (.segmentReceived seg) = 0 := if_pos hadm
  constructor
  case cfg => exact openPassive_cfg c seg
  case time => exact htime.symm
  case inbound =>
    rw [after, receiverAfter_of_rst hrst, resetReceived, openPassive_receiver]
    rfl
  case outbound =>
    rw [after, senderAfter_of_rst hadm hrst, resetReceived, openPassive_sender (not_dropped_of_admits hadm)]
    rfl
  case linger =>
    rw [Bool.false_and, Bool.not_false, Bool.and_true]
    exact openPassive_linger c seg
  case rst => exact fun _ => rfl
  case inactive => exact fun _ => Or.inr (Or.inl rfl)

theorem winds_segmentReceived (c : TCPConnection) (seg : TCPSegment) :
    Winds (c.looks (.segmentReceived seg)) (c.after (.segmentReceived seg)) (c.segmentReceived seg) := by
  rw [looks]
  cases hadm : c.admits seg with
  | false =>
      have hsame : c.after (.segmentReceived seg) = c := by
        have htime : c.timeAfter (.segmentReceived seg) = c.timeSinceLastSegmentReceived :=
          if_neg (by simp [hadm])
        rw [after, senderAfter_of_not_admits hadm, receiverAfter_of_not_admits hadm, htime]
      rw [segmentReceived_of_not_admits hadm, hsame]
      exact Winds.refl c
  | true =>
      cases hrst : seg.header.rst with
      | true =>
          rw [segmentReceived_of_rst hadm hrst]
          exact winds_reset hadm hrst
      | false =>
          rw [segmentReceived_of_admits hadm hrst]
          have hreply := Winds.reply ((c.openPassive seg).absorb seg) seg
          rw [absorb_finAckSent, openPassive_finAckSent] at hreply
          have hall := (winds_absorb hadm hrst).trans hreply
          rw [← Bool.or_assoc] at hall
          exact hall

/-- **How every operation winds a connection down.** -/
theorem winds_step (c : TCPConnection) (op : Op) : Winds (c.looks op) (c.after op) (c.step op) := by
  cases op with
  | connect => exact Winds.sendseg _
  | write data => exact Winds.sendseg _
  | endInputStream =>
      exact (Winds.sendseg { c with sender := c.sender.endInput.fillWindow, closedByApp := true }).base
        rfl rfl rfl rfl rfl id rfl
  | tick ms => exact winds_tick c ms
  | segmentReceived seg => exact winds_segmentReceived c seg
  | readInbound len => exact Winds.refl _

/-! ## Before and after the inbound stream ends -/

theorem cfg_run (cfg : TCPConfig) (randomIsn : WrappingInt32) (ops : List Op) :
    (run step (ofConfig cfg randomIsn) ops).cfg = cfg :=
  run_invariant ops (fun c : TCPConnection => c.cfg = cfg) rfl fun c op h => (winds_step c op).cfg.trans h

/-- The end of the inbound stream is not taken back. -/
theorem inbound_run (ops : List Op) (h : c.receiver.streamOut.isEof = true) :
    (run step c ops).receiver.streamOut.isEof = true := by
  refine run_invariant ops (fun c : TCPConnection => c.receiver.streamOut.isEof = true) h ?_
  intro c op h
  rw [(winds_step c op).inbound]
  exact (heard_receiverAfter c op).stays h

/-- Until the inbound stream ends the connection is set to linger, and stops only by a reset. -/
def Waits (c : TCPConnection) : Prop :=
  c.receiver.streamOut.isEof = false →
    c.lingerAfterStreamsFinish = true ∧ (c.active = false → c.rstSet = true)

theorem waits_step (op : Op) (h : c.Waits) : (c.step op).Waits := by
  have hw := winds_step c op
  intro hopen
  have hafter : (c.after op).receiver.streamOut.isEof = false := hw.inbound.symm.trans hopen
  have hbefore : c.receiver.streamOut.isEof = false := by
    by_contra hend
    have hend' := (heard_receiverAfter c op).stays (by simpa using hend)
    exact absurd (hafter.symm.trans hend') Bool.false_ne_true
  obtain ⟨hlinger, hactive⟩ := h hbefore
  constructor
  · have hfirst : (c.after op).endedFirst = false := by
      rw [endedFirst, ByteStream.inputEnded, hafter, Bool.false_and]
    rw [hw.linger, hfirst, Bool.and_false]
    exact (Bool.and_true _).trans hlinger
  · intro hact
    rcases hw.inactive hact with hold | hrst | ⟨hend, -⟩
    · exact hw.rst (hactive hold)
    · exact hrst
    · exact absurd (hafter.symm.trans hend) Bool.false_ne_true

theorem waits_run (cfg : TCPConfig) (randomIsn : WrappingInt32) (ops : List Op) :
    (run step (ofConfig cfg randomIsn) ops).Waits :=
  run_invariant ops Waits (fun _ => ⟨rfl, fun h => by cases h⟩) fun _ op h => waits_step op h

/-- What the operation that ends the inbound stream does to the flag. -/
theorem linger_of_end {op : Op} (h : c.Waits) (hbefore : c.receiver.streamOut.isEof = false)
    (hended : (c.step op).receiver.streamOut.isEof = true) :
    (c.step op).lingerAfterStreamsFinish = !(c.looks op && !(c.senderAfter op).stream.eof) := by
  have hw := winds_step c op
  have hafter : (c.after op).receiver.streamOut.inputEnded = true := hw.inbound.symm.trans hended
  rw [hw.linger, endedFirst, hafter, Bool.true_and]
  show (c.lingerAfterStreamsFinish && _) = _
  rw [(h hbefore).1, Bool.true_and]
  rfl

/-! ## TIME_WAIT -/

theorem timeAfter_of_inactive (op : Op) (h : c.active = false) :
    c.timeAfter op = c.timeSinceLastSegmentReceived := by
  cases op with
  | tick ms => exact if_neg (by simp [h])
  | segmentReceived seg => exact if_neg (by simp [admits, h])
  | connect | write _ | endInputStream | readInbound _ => rfl

/-- Without a write, an outbound stream at its end stays there. -/
theorem eof_senderAfter (op : Op) (h : c.sender.stream.eof = true) (hop : op.isWrite = false) :
    (c.senderAfter op).stream.eof = true := by
  refine senderAfter_rule (P := fun s => s.stream.eof = true) op h ?_ ?_ ?_ ?_ ?_
  · exact fun s hs => eof_fillWindow hs
  · intro data hwrite
    rw [hwrite] at hop
    cases hop
  · intro _
    apply eof_fillWindow
    rw [ByteStream.eof_iff] at h ⊢
    exact ⟨rfl, h.2⟩
  · exact fun s seg _ _ hs => eof_ackReceived hs _ _
  · intro ms _ _
    rw [stream_tick]
    exact h

/-- Both streams are over and the connection lingers: it has stopped only by a reset or after the wait. -/
structure Lingers (c : TCPConnection) : Prop where
  inbound  : c.receiver.streamOut.isEof = true
  outbound : c.sender.stream.eof = true
  linger   : c.lingerAfterStreamsFinish = true
  stopped  : c.active = false →
    c.rstSet = true ∨ 10 * c.cfg.rtTimeout.toNat ≤ c.timeSinceLastSegmentReceived

/-- The operation with which the inbound stream ends after the outbound one. -/
theorem lingers_of_end {op : Op} (h : c.Waits) (hbefore : c.receiver.streamOut.isEof = false)
    (hended : (c.step op).receiver.streamOut.isEof = true) (heof : (c.step op).sender.stream.eof = true) :
    (c.step op).Lingers := by
  have hw := winds_step c op
  have heof' : (c.senderAfter op).stream.eof = true := hw.outbound.symm.trans heof
  have hlinger : (c.step op).lingerAfterStreamsFinish = true := by
    rw [linger_of_end h hbefore hended, heof', Bool.not_true, Bool.and_false]
    rfl
  refine ⟨hended, heof, hlinger, fun hact => ?_⟩
  rw [hw.cfg, hw.time]
  rcases hw.inactive hact with hold | hrst | ⟨-, hover | hdown⟩
  · exact Or.inl (hw.rst ((h hbefore).2 hold))
  · exact Or.inl hrst
  · exact Or.inr hover
  · exact absurd (hlinger.symm.trans hdown) Bool.noConfusion

theorem lingers_step (op : Op) (h : c.Lingers) (hop : op.isWrite = false) : (c.step op).Lingers := by
  have hw := winds_step c op
  have heof : (c.after op).sender.stream.eof = true := eof_senderAfter op h.outbound hop
  have hlinger : (c.step op).lingerAfterStreamsFinish = true := by
    rw [hw.linger, endedFirst, heof, Bool.not_true, Bool.and_false, Bool.and_false]
    exact (Bool.and_true _).trans h.linger
  refine ⟨inbound_run [op] h.inbound, hw.outbound.trans heof, hlinger, fun hact => ?_⟩
  rw [hw.cfg, hw.time]
  rcases hw.inactive hact with hold | hrst | ⟨-, hover | hdown⟩
  · -- an inactive connection lets no time pass
    have hact' : c.active = false := hold
    show _ ∨ 10 * c.cfg.rtTimeout.toNat ≤ c.timeAfter op
    rw [timeAfter_of_inactive op hact']
    exact (h.stopped hact').imp hw.rst id
  · exact Or.inl hrst
  · exact Or.inr hover
  · exact absurd (hlinger.symm.trans hdown) Bool.noConfusion

/-- In a run without a write after the end, the outbound stream has ended only by `end_input_stream`. -/
theorem endInput_mem_run (cfg : TCPConfig) (randomIsn : WrappingInt32) (ops : List Op)
    (h : (run step (ofConfig cfg randomIsn) ops).sender.stream.isEof = true) : .endInputStream ∈ ops :=
  run_history ops (fun hist (c : TCPConnection) => c.sender.stream.isEof = true → .endInputStream ∈ hist)
    (fun h => by cases h) (fun _ _ op hi _ => endInput_mem_step hi op) h

theorem time_of_admits {seg : TCPSegment} (h : c.admits seg = true) :
    (c.segmentReceived seg).timeSinceLastSegmentReceived = 0 :=
  (winds_segmentReceived c seg).time.trans (if_pos h)

/-- Up to the end of the inbound stream, only a reset has stopped the connection. -/
theorem reset_before_end (cfg : TCPConfig) (randomIsn : WrappingInt32) {pre hist : List Op} (hp : hist <+: pre)
    (hopen : (run step (ofConfig cfg randomIsn) pre).receiver.streamOut.isEof = false)
    (hact : (run step (ofConfig cfg randomIsn) hist).active = false) :
    (run step (ofConfig cfg randomIsn) hist).rstSet = true := by
  obtain ⟨rest, rfl⟩ := hp
  have hopen' : (run step (ofConfig cfg randomIsn) hist).receiver.streamOut.isEof = false := by
    by_contra hend
    have hend' := inbound_run rest (by simpa using hend)
    rw [run_append] at hopen
    exact absurd (hopen.symm.trans hend') Bool.false_ne_true
  exact (waits_run cfg randomIsn hist hopen').2 hact

/-- From then on, without a write, the connection keeps lingering. -/
theorem lingers_run (mid : List Op) (h : c.Lingers) (hmid : ∀ op ∈ mid, op.isWrite = false) :
    (run step c mid).Lingers := by
  refine run_history mid (fun _ => Lingers) h fun hist c op hc hp => ?_
  exact lingers_step op hc (hmid op (hp.subset (List.mem_append_right _ List.mem_cons_self)))

/-- **TIME_WAIT is respected.** In a run without a write after the end, if the outbound stream is at its end when
    the inbound one ends, then at no moment of the run has the connection stopped without a reset unless nothing
    has been received for ten timeouts; and every segment that is let in starts the wait anew. -/
theorem time_wait_respected (cfg : TCPConfig) (randomIsn : WrappingInt32) (pre : List Op) (op : Op)
    (post : List Op) (hwrite : NoWriteAfterEnd (pre ++ op :: post))
    (hbefore : (run step (ofConfig cfg randomIsn) pre).inboundStream.inputEnded = false)
    (hended : (run step (ofConfig cfg randomIsn) (pre ++ [op])).inboundStream.inputEnded = true)
    (heof : (run step (ofConfig cfg randomIsn) pre).sender.stream.eof = true ∨
      (run step (ofConfig cfg randomIsn) (pre ++ [op])).sender.stream.eof = true) :
    ∀ hist, hist <+: pre ++ op :: post →
      let c := run step (ofConfig cfg randomIsn) hist
      (c.active = false →
        c.rstSet = true ∨ 10 * cfg.rtTimeout.toNat ≤ c.timeSinceLastSegmentReceived) ∧
      ∀ seg, c.admits seg = true → (c.segmentReceived seg).timeSinceLastSegmentReceived = 0 := by
  have hsplit : pre ++ op :: post = (pre ++ [op]) ++ post := by simp
  -- in either case the outbound stream is at its end after the operation
  have heof' : (run step (ofConfig cfg randomIsn) (pre ++ [op])).sender.stream.eof = true := by
    rcases heof with h | h
    · have hend := endInput_mem_run cfg randomIsn pre ((ByteStream.eof_iff _).mp h).1
      have hop := hwrite.isWrite_of_mem hend op List.mem_cons_self
      rw [run_append]
      exact (winds_step _ op).outbound.trans (eof_senderAfter op h hop)
    · exact h
  have hend := endInput_mem_run cfg randomIsn _ ((ByteStream.eof_iff _).mp heof').1
  have hlingers : (run step (ofConfig cfg randomIsn) (pre ++ [op])).Lingers := by
    have hwaits := waits_run cfg randomIsn pre
    rw [run_append] at hended heof' ⊢
    exact lingers_of_end hwaits hbefore hended heof'
  intro hist hp c
  refine ⟨fun hact => ?_, fun seg hadm => time_of_admits hadm⟩
  have hcfg : c.cfg = cfg := cfg_run cfg randomIsn hist
  rw [hsplit] at hp hwrite
  rcases List.prefix_or_prefix_of_prefix hp (List.prefix_append _ post) with hearly | ⟨mid, rfl⟩
  · rcases List.prefix_concat_iff.mp hearly with rfl | hpre
    · rw [← hcfg]
      exact hlingers.stopped hact
    · exact Or.inl (reset_before_end cfg randomIsn hpre hbefore hact)
  · have hmid : mid <+: post := (List.prefix_append_right_inj _).mp hp
    have hlate : c.Lingers := by
      show (run step _ _).Lingers
      rw [run_append]
      exact lingers_run mid hlingers fun op' hop' => hwrite.isWrite_of_mem hend op' (hmid.subset hop')
    rw [← hcfg]
    exact hlate.stopped hact

/-- The active close: our end first, and acknowledged. -/
def activeClose : List Op :=
  [.connect,
    .segmentReceived { header := { syn := true, ack := true, seqno := .ofRaw 100, ackno := .ofRaw 1,
                                   win := 1000 } },
    .endInputStream,
    .segmentReceived { header := { ack := true, seqno := .ofRaw 101, ackno := .ofRaw 2, win := 1000 } }]

/-- The peer's FIN, acknowledging everything, with room for `win` more. -/
def finWithWindow (win : UInt16) : TCPSegment :=
  { header := { fin := true, ack := true, seqno := .ofRaw 101, ackno := .ofRaw 2, win } }

/-- Then the peer's end, and ten seconds of silence. -/
def activeEnd : List Op := [.segmentReceived (finWithWindow 1000), .tick 10000]

theorem time_wait_respected_active_close :
    (run step (ofConfig {} (.ofRaw 0)) (activeClose ++ activeEnd)).active = false ∧
    ((run step (ofConfig {} (.ofRaw 0)) (activeClose ++ activeEnd)).rstSet = true ∨
      10000 ≤ (run step (ofConfig {} (.ofRaw 0))
        (activeClose ++ activeEnd)).timeSinceLastSegmentReceived) :=
  have hact : (run step (ofConfig {} (.ofRaw 0)) (activeClose ++ activeEnd)).active = false := by
    decide +kernel
  have hall := time_wait_respected {} (.ofRaw 0) activeClose (.segmentReceived (finWithWindow 1000))
    [.tick 10000] (by decide) (by decide +kernel) (by decide +kernel) (Or.inl (by decide +kernel))
  ⟨hact, (hall (activeClose ++ activeEnd) (List.prefix_refl _)).1 hact⟩

/-! ## The passive close -/

/-- A stream that ends or carries a FIN has begun, and the connection knows it. -/
structure Begun (c : TCPConnection) : Prop where
  ended  : c.sender.stream.isEof = true → c.sender.synFlag = true
  fin    : c.sender.finFlag = true → c.sender.synFlag = true
  opened : c.sender.synFlag = true → c.synSet = true

/-- Sending after `fill_window` leaves the connection open: the SYN is queued now or went out before. -/
theorem synSet_sendseg_fillWindow {s : TCPSender} (hfin : s.finFlag = true → s.synFlag = true)
    (hopen : s.synFlag = true → c.synSet = true) :
    (sendseg { c with sender := s.fillWindow }).synSet = true := by
  rw [sendseg_eq, cleanShutdown_synSet, afterSend, Bool.or_eq_true]
  cases hsyn : s.synFlag with
  | true => exact Or.inl (hopen hsyn)
  | false =>
      right
      rcases fillWindow_cases s with ⟨hfin', -⟩ | ⟨-, -, heq⟩ | ⟨-, hsyn', -⟩
      · exact absurd ((hfin hfin').symm.trans hsyn) Bool.noConfusion
      · have hmem : synSegment s.nextSeqno32 ∈ pending { c with sender := s.fillWindow } := by
          rw [pending, if_neg]
          · rw [heq]
            exact List.mem_append_right _ List.mem_cons_self
          · rw [heq]
            simp [sendSegment]
        exact List.any_eq_true.mpr ⟨_, hmem, rfl⟩
      · exact absurd (hsyn'.symm.trans hsyn) Bool.noConfusion

theorem synSet_of_admits {seg : TCPSegment} (h : c.admits seg = true) : (c.segmentReceived seg).synSet = true := by
  have hopen := openPassive_synSet (not_dropped_of_admits h)
  cases hrst : seg.header.rst with
  | true =>
      rw [segmentReceived_of_rst h hrst]
      exact hopen
  | false =>
      rw [segmentReceived_of_admits h hrst]
      obtain ⟨failed, hreply⟩ := Handled.reply ((c.openPassive seg).absorb seg) seg
      have habs := Handled.absorb (c.openPassive seg) seg hopen
      by_contra hclosed
      have hclosed' := (habs.syn (hreply.syn (by simpa using hclosed)).1).1
      exact absurd (hopen.symm.trans hclosed') Bool.noConfusion

/-- The sender's part: after `fill_window` the stream has begun in any case. -/
theorem begun_senderAfter (op : Op) (h : c.Begun) :
    ((c.senderAfter op).stream.isEof = true → (c.senderAfter op).synFlag = true) ∧
      ((c.senderAfter op).finFlag = true → (c.senderAfter op).synFlag = true) := by
  have hfill (s : TCPSender) (hs : s.finFlag = true → s.synFlag = true) :
      (s.fillWindow.stream.isEof = true → s.fillWindow.synFlag = true) ∧
        (s.fillWindow.finFlag = true → s.fillWindow.synFlag = true) :=
    ⟨fun _ => synFlag_fillWindow hs, fun _ => synFlag_fillWindow hs⟩
  refine senderAfter_rule (P := fun s => (s.stream.isEof = true → s.synFlag = true) ∧
    (s.finFlag = true → s.synFlag = true)) op ⟨h.ended, h.fin⟩ ?_ ?_ ?_ ?_ ?_
  · exact fun s hs => hfill s hs.2
  · exact fun data _ => hfill _ h.fin
  · exact fun _ => hfill _ h.fin
  · intro s seg _ _ hs
    rw [ackReceived_eq]
    split
    · exact hs
    · apply hfill
      rw [acceptAck_finFlag, acceptAck_synFlag]
      exact hs.2
  · intro ms _ _
    rcases tick_cases c.sender ms with ⟨_, heq⟩ | ⟨_, _, _, _, -, heq⟩ <;>
      · rw [heq]
        exact ⟨h.ended, h.fin⟩

theorem begun_step (op : Op) (h : c.Begun) : (c.step op).Begun := by
  obtain ⟨failed, hh⟩ := handled_step c op
  obtain ⟨hended, hfin⟩ := begun_senderAfter op h
  refine ⟨?_, ?_, ?_⟩
  · rw [hh.stream_isEof, hh.synFlag]; exact hended
  · rw [hh.finFlag, hh.synFlag]; exact hfin
  -- the operations that queue a SYN send it in the same call
  cases op with
  | connect => exact fun _ => synSet_sendseg_fillWindow h.fin h.opened
  | write data => exact fun _ => synSet_sendseg_fillWindow (s := c.sender.write data) h.fin h.opened
  | endInputStream =>
      exact fun _ => synSet_sendseg_fillWindow (c := { c with closedByApp := true })
        (s := c.sender.endInput) h.fin h.opened
  | tick ms =>
      intro hsyn
      have hsame : (c.senderAfter (.tick ms)).synFlag = c.sender.synFlag := by
        simp only [senderAfter]
        split
        · rcases tick_cases c.sender ms with ⟨_, heq⟩ | ⟨_, _, _, _, -, heq⟩ <;> rw [heq]
        · rfl
      rw [hh.synFlag, hsame] at hsyn
      by_contra hclosed
      have hclosed' := (hh.syn (by simpa using hclosed)).1
      exact absurd ((h.opened hsyn).symm.trans hclosed') Bool.noConfusion
  | segmentReceived seg =>
      cases hadm : c.admits seg with
      | true => exact fun _ => synSet_of_admits hadm
      | false =>
          show (c.segmentReceived seg).sender.synFlag = true → (c.segmentReceived seg).synSet = true
          rw [segmentReceived_of_not_admits hadm]
          exact h.opened
  | readInbound len => exact h.opened

theorem begun_run (cfg : TCPConfig) (randomIsn : WrappingInt32) (ops : List Op) :
    (run step (ofConfig cfg randomIsn) ops).Begun := by
  refine run_invariant ops Begun ⟨?_, ?_, ?_⟩ fun _ op h => begun_step op h
  · exact fun h => by cases h
  · exact fun h => by cases h
  · exact fun h => by cases h

/-- How much a segment lets `fill_window` send. -/
def opens (c : TCPConnection) (seg : TCPSegment) : Nat :=
  if seg.header.ack then c.sender.opens seg.header.ackno seg.header.win else 0

/-- Where the outbound stream stands after a segment, seen from the state before it. -/
theorem eof_senderAfter_iff {seg : TCPSegment} (h : c.Begun) (hadm : c.admits seg = true)
    (hrst : seg.header.rst = false) :
    (c.senderAfter (.segmentReceived seg)).stream.eof = true ↔
      c.sender.stream.isEof = true ∧ c.sender.stream.buf.length ≤ c.opens seg := by
  by_cases hend : c.sender.stream.isEof = true
  · have hsyn := h.ended hend
    have hopened : c.openedSender = c.sender := by rw [openedSender, if_pos (h.opened hsyn)]
    rw [senderAfter_of_admits hadm hrst, hopened, opens]
    cases seg.header.ack with
    | true => exact eof_ackReceived_iff hsyn _ _
    | false =>
        rw [if_neg Bool.false_ne_true, if_neg Bool.false_ne_true, ByteStream.eof_iff, Nat.le_zero,
          List.length_eq_zero_iff]
  · -- the stream has not ended, and a segment does not end it
    refine iff_of_false (fun heof => ?_) (fun hno => hend hno.1)
    have hend' := ((ByteStream.eof_iff _).mp heof).1
    rcases (streamFlags_senderAfter (.segmentReceived seg)).1 hend' with hold | hop
    · exact hend hold
    · cases hop

/-- Only a segment ends the inbound stream. -/
theorem admits_of_end {op : Op} (hbefore : c.receiver.streamOut.isEof = false)
    (hended : (c.step op).receiver.streamOut.isEof = true) :
    ∃ seg, op = .segmentReceived seg ∧ c.admits seg = true ∧ seg.header.rst = false := by
  have hafter : (c.receiverAfter op).streamOut.isEof = true := (winds_step c op).inbound.symm.trans hended
  have hsame (h : (c.receiverAfter op).streamOut.isEof = c.receiver.streamOut.isEof) : False :=
    Bool.noConfusion (hbefore.symm.trans (h.symm.trans hafter))
  cases op with
  | segmentReceived seg =>
      refine ⟨seg, rfl, ?_⟩
      by_contra hout
      refine hsame ?_
      rw [receiverAfter, if_neg]
      rw [Bool.and_eq_true, Bool.not_eq_true']
      exact hout
  | readInbound len => exact (hsame rfl).elim
  | connect | write _ | endInputStream | tick _ => exact (hsame rfl).elim

/-- The connection does not linger: it passes through CLOSE_WAIT and LAST_ACK, not through CLOSING and
    TIME_WAIT. -/
structure ClosesPassively (c : TCPConnection) : Prop where
  linger    : c.lingerAfterStreamsFinish = false
  closing   : c.state ≠ TCPState.ofState .closing
  timeWait  : c.state ≠ TCPState.ofState .timeWait
  closeWait : c.active = true → TCPState.receiverSummary c.receiver = .finRecv →
    TCPState.senderSummary c.sender = .synAcked → c.state = TCPState.ofState .closeWait
  lastAck   : c.active = true → TCPState.receiverSummary c.receiver = .finRecv →
    TCPState.senderSummary c.sender = .finSent → c.state = TCPState.ofState .lastAck

theorem ClosesPassively.of_linger (h : c.lingerAfterStreamsFinish = false) : ClosesPassively c := by
  have hflag : c.state.lingerAfterStreamsFinish = false := by
    rw [state, TCPState.ofParts, h]
    split <;> rfl
  refine ⟨h, ?_, ?_, ?_, ?_⟩
  · intro hstate
    rw [hstate] at hflag
    cases hflag
  · intro hstate
    rw [hstate] at hflag
    cases hflag
  · intro hact hr hs
    rw [state, TCPState.ofParts, hs, hr, hact, h]
    rfl
  · intro hact hr hs
    rw [state, TCPState.ofParts, hs, hr, hact, h]
    rfl

/-- A flag that is down stays down. -/
theorem linger_run (ops : List Op) (h : c.lingerAfterStreamsFinish = false) :
    (run step c ops).lingerAfterStreamsFinish = false := by
  refine run_invariant ops (fun c : TCPConnection => c.lingerAfterStreamsFinish = false) h ?_
  intro c op h
  rw [(winds_step c op).linger]
  show (c.lingerAfterStreamsFinish && _) = false
  rw [h, Bool.false_and]

/-- The segment reaches `clean_shutdown`, and the outbound stream outlives it: it has not ended, or has more
    buffered than the segment lets out. -/
def OutlivesInbound (c : TCPConnection) (seg : TCPSegment) : Prop :=
  (seg.header.ack = true ∨ seg.header.fin = true ∨ c.finAckSent = false) ∧
    (c.sender.stream.inputEnded = true → c.opens seg < c.sender.stream.bufferSize)

instance (c : TCPConnection) (seg : TCPSegment) : Decidable (OutlivesInbound c seg) :=
  inferInstanceAs (Decidable (_ ∧ (_ → _)))

/-- What the segment that ends the inbound stream does to the flag. -/
theorem linger_of_end_iff {seg : TCPSegment} (hb : c.Begun) (hw : c.Waits)
    (hadm : c.admits seg = true) (hrst : seg.header.rst = false)
    (hbefore : c.receiver.streamOut.isEof = false)
    (hended : (c.step (.segmentReceived seg)).receiver.streamOut.isEof = true) :
    (c.step (.segmentReceived seg)).lingerAfterStreamsFinish = false ↔ c.OutlivesInbound seg := by
  have heof : (c.senderAfter (.segmentReceived seg)).stream.eof = false ↔
      (c.sender.stream.isEof = true → c.opens seg < c.sender.stream.buf.length) := by
    rw [← Bool.not_eq_true, eof_senderAfter_iff hb hadm hrst, not_and, Nat.not_le]
  have hlooks : c.looks (.segmentReceived seg) = true ↔
      seg.header.ack = true ∨ seg.header.fin = true ∨ c.finAckSent = false := by
    rw [looks, hadm, hrst, Bool.not_false, Bool.true_and, Bool.true_and, Bool.or_eq_true, Bool.or_eq_true,
      Bool.not_eq_true', or_assoc]
  rw [linger_of_end hw hbefore hended, Bool.not_eq_false', Bool.and_eq_true, Bool.not_eq_true', hlooks, heof]
  rfl

/-- **When the connection closes passively.** In every run, let the inbound stream end in some call. That call is
    the arrival of a segment, and from its end on the connection does not linger if and only if
    `clean_shutdown` is reached and the outbound stream outlives the segment. Whether our FIN has been sent does
    not matter beyond that. -/
theorem passive_close_iff (cfg : TCPConfig) (randomIsn : WrappingInt32) (pre : List Op) (op : Op)
    (post : List Op)
    (hbefore : (run step (ofConfig cfg randomIsn) pre).inboundStream.inputEnded = false)
    (hended : (run step (ofConfig cfg randomIsn) (pre ++ [op])).inboundStream.inputEnded = true) :
    ∃ seg, op = .segmentReceived seg ∧
      ((∀ mid, mid <+: post → (run step (ofConfig cfg randomIsn) (pre ++ [op] ++ mid)).ClosesPassively) ↔
        (run step (ofConfig cfg randomIsn) pre).OutlivesInbound seg) := by
  have hb := begun_run cfg randomIsn pre
  have hw := waits_run cfg randomIsn pre
  have hstep : run step (ofConfig cfg randomIsn) (pre ++ [op]) =
      (run step (ofConfig cfg randomIsn) pre).step op := run_append ..
  rw [hstep] at hended
  obtain ⟨seg, rfl, hadm, hrst⟩ := admits_of_end hbefore hended
  refine ⟨seg, rfl, ?_⟩
  rw [← linger_of_end_iff hb hw hadm hrst hbefore hended, ← hstep]
  constructor
  · intro h
    have hnow := (h [] (List.nil_prefix)).linger
    rwa [List.append_nil] at hnow
  · intro hdown mid _
    rw [run_append]
    exact ClosesPassively.of_linger (linger_run mid hdown)

/-- The handshake with a window of one byte, three bytes to send, and our end: the FIN is held back. -/
def heldBack : List Op :=
  [.connect,
    .segmentReceived { header := { syn := true, ack := true, seqno := .ofRaw 100, ackno := .ofRaw 1,
                                   win := 1 } },
    .write [7, 8, 9], .endInputStream]

theorem passive_close_held_back :
    (run step (ofConfig {} (.ofRaw 0)) heldBack).OutlivesInbound (finWithWindow 1) ∧
    (run step (ofConfig {} (.ofRaw 0))
      (heldBack ++ [.segmentReceived (finWithWindow 1)] ++ [.tick 1])).ClosesPassively := by
  have houtlives : (run step (ofConfig {} (.ofRaw 0)) heldBack).OutlivesInbound (finWithWindow 1) := by
    decide +kernel
  obtain ⟨seg, hseg, hiff⟩ := passive_close_iff {} (.ofRaw 0) heldBack (.segmentReceived (finWithWindow 1))
    [.tick 1] (by decide +kernel) (by decide +kernel)
  cases hseg
  exact ⟨houtlives, hiff.mpr houtlives [.tick 1] (List.prefix_refl _)⟩

/-- With room for the rest, the FIN goes out before `clean_shutdown` looks, and the connection lingers. -/
theorem passive_close_lingers : ¬ ∀ (cfg : TCPConfig) (randomIsn : WrappingInt32) (pre : List Op) (op : Op)
    (post : List Op), NoWriteAfterEnd (pre ++ op :: post) →
    (run step (ofConfig cfg randomIsn) pre).inboundStream.inputEnded = false →
    (run step (ofConfig cfg randomIsn) (pre ++ [op])).inboundStream.inputEnded = true →
    (run step (ofConfig cfg randomIsn) pre).sender.finFlag = false →
    ∀ mid, mid <+: post →
      (run step (ofConfig cfg randomIsn) (pre ++ [op] ++ mid)).lingerAfterStreamsFinish = false := by
  intro h
  have hlinger := h {} (.ofRaw 0) heldBack (.segmentReceived (finWithWindow 1000)) [] (by decide)
    (by decide +kernel) (by decide +kernel) (by decide +kernel) [] (List.prefix_refl _)
  revert hlinger
  decide +kernel

end TCPConnection

end Sponge
