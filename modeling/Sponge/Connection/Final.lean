import Sponge.Connection.Endpoint
import Sponge.Sender.Closing

/-!
# `Connection.Final` — a connection that stops is closed or reset

A connection stops in one of two ways: an error is put on both its streams, or `clean_shutdown` finds both
streams ended and nothing in flight. In the second case the FIN is out (`Settled`), so that the summary of
the state is `CLOSED`; in the first it is `RESET`. What an inactive connection can still be asked to do
changes none of this (`FinalInv`), as long as nothing is written after the end.
-/

namespace Sponge

open Lib TCPSender TCPSegment

namespace TCPConnection

/-! ## Runs without a write after the end -/

def Op.isWrite : Op → Bool
  | .write _ => true
  | _        => false

/-- The socket layer never writes after `end_input_stream`. -/
def NoWriteAfterEnd (ops : List Op) : Prop :=
  ops.Pairwise fun a b => a = .endInputStream → b.isWrite = false

instance (ops : List Op) : Decidable (NoWriteAfterEnd ops) :=
  inferInstanceAs (Decidable (ops.Pairwise _))

/-- After `end_input_stream` no operation is a write. -/
theorem NoWriteAfterEnd.isWrite_of_mem {hist more : List Op} (h : NoWriteAfterEnd (hist ++ more))
    (hend : .endInputStream ∈ hist) : ∀ op ∈ more, op.isWrite = false :=
  fun op hop => (List.pairwise_append.mp h).2.2 _ hend op hop rfl

theorem NoWriteAfterEnd.not_mem {ops hist : List Op} {op : Op} (h : NoWriteAfterEnd ops)
    (hp : hist ++ [op] <+: ops) (hop : op.isWrite = true) : .endInputStream ∉ hist := by
  intro hmem
  have hpair : NoWriteAfterEnd (hist ++ [op]) := List.Pairwise.sublist hp.sublist h
  have hfalse := hpair.isWrite_of_mem hmem op List.mem_cons_self
  rw [hop] at hfalse
  cases hfalse

/-! ## The flags of the streams -/

variable {c c' : TCPConnection} {s : TCPSender} {r : TCPReceiver} {failed : Bool}

/-- The outgoing stream ends only by `end_input_stream`, and no sender operation reports an error on it. -/
theorem streamFlags_senderAfter (op : Op) :
    ((c.senderAfter op).stream.isEof = true → c.sender.stream.isEof = true ∨ op = .endInputStream) ∧
      (c.senderAfter op).stream.error = c.sender.stream.error := by
  refine senderAfter_rule
    (P := fun s => (s.stream.isEof = true → c.sender.stream.isEof = true ∨ op = .endInputStream) ∧
      s.stream.error = c.sender.stream.error) op ⟨Or.inl, rfl⟩ ?_ ?_ ?_ ?_ ?_
  · intro s hs
    rw [(streamFlags_fillWindow s).1, (streamFlags_fillWindow s).2]
    exact hs
  · intro data _
    rw [(streamFlags_fillWindow _).1, (streamFlags_fillWindow _).2]
    exact ⟨Or.inl, rfl⟩
  · intro hop
    rw [(streamFlags_fillWindow _).2]
    exact ⟨fun _ => Or.inr hop, rfl⟩
  · intro s seg _ _ hs
    rw [(streamFlags_ackReceived s _ _).1, (streamFlags_ackReceived s _ _).2]
    exact hs
  · intro ms _ _
    rw [stream_tick]
    exact ⟨Or.inl, rfl⟩

/-- So in a run it has ended only if the application has said so. -/
theorem endInput_mem_step {hist : List Op} (h : c.sender.stream.isEof = true → .endInputStream ∈ hist)
    (op : Op) (hend : (c.step op).sender.stream.isEof = true) : .endInputStream ∈ hist ++ [op] := by
  obtain ⟨failed, hh⟩ := handled_step c op
  rcases (streamFlags_senderAfter op).1 (hh.stream_isEof.symm.trans hend) with hold | rfl
  · exact List.mem_append_left _ (h hold)
  · exact List.mem_append_right _ List.mem_cons_self

/-- What an operation sends for the first time is queued. -/
theorem queues_senderAfter (c : TCPConnection) (op : Op) : Queues c.sender (c.senderAfter op) :=
  senderAfter_rel Queues.refl Queues.trans
    (fun _ _ => ⟨fun _ h => h, fun _ h => Or.inl h⟩) (fun _ => ⟨fun _ h => h, fun _ h => Or.inl h⟩)
    queues_fillWindow queues_ackReceived queues_tick op

/-- A segment is on the wire once a stamped copy of it is in the outbound queue of the connection. -/
def OnWire (c : TCPConnection) (seg : TCPSegment) : Prop := ∃ r rst, stamp r rst seg ∈ c.segmentsOut

/-- Everything sent for the first time is on the wire or about to be. -/
def Wired (c : TCPConnection) : Prop :=
  ∀ seg ∈ c.sender.firstSent, seg ∈ c.sender.segmentsOut ∨ c.OnWire seg

theorem wired_step (op : Op) (h : c.Wired) : (c.step op).Wired := by
  obtain ⟨failed, hh⟩ := handled_step c op
  have hqueues := queues_senderAfter c op
  intro seg hseg
  rw [hh.firstSent] at hseg
  have hpending : seg ∈ (c.senderAfter op).segmentsOut ∨ c.OnWire seg := by
    rcases hqueues.new seg hseg with hold | hnew
    · exact (h seg hold).imp (hqueues.kept seg) id
    · exact Or.inl hnew
  rcases hpending with hqueue | ⟨r, rst, hout⟩
  · exact (hh.sent seg hqueue).imp id fun hout => ⟨_, hout⟩
  · exact Or.inr ⟨r, rst, hh.kept.subset hout⟩

/-- The sender's half of a connection keeps all of `Settled`. -/
theorem Handled.settled {accepted : List UInt8} (h : Handled c s r failed c') (hs : Settled accepted s) :
    Settled accepted c'.sender := by
  obtain ⟨hack, hfilled, hdrained⟩ := h.transport (P := fun s => AckBound s ∧ Filled s ∧ Drained s)
    (fun s _ hs => ⟨hs.1.congr rfl rfl rfl (le_refl _), hs.2.1, hs.2.2⟩)
    (fun s hs => ⟨hs.1.congr rfl rfl rfl (le_refl _), hs.2.1, hs.2.2⟩) ⟨hs.ack, hs.filled, hs.drained⟩
  exact ⟨h.senderInv hs.inv, hack, hfilled, hdrained⟩

end TCPConnection

namespace Endpoint

open TCPConnection

variable {e : Endpoint}

theorem settled_after (op : Op) (h : Settled e.accepted e.conn.sender)
    (hwrite : op.isWrite = true → e.conn.sender.finFlag = false) :
    Settled (e.step op).accepted (e.conn.senderAfter op) := by
  cases op with
  | write data => exact h.write_fillWindow data (hwrite rfl)
  | connect | endInputStream | tick _ | segmentReceived _ | readInbound _ =>
      exact senderAfter_rule (P := Settled e.accepted) _ h (fun _ hs => hs.fillWindow)
        (fun _ hop => by cases hop) (fun _ => h.endInput_fillWindow) (fun _ _ _ _ hs => hs.ackReceived _ _)
        fun ms _ _ => h.tick ms

/-! ## The invariant -/

/-- Both streams are over: the peer's end has been seen, and the FIN is out and acknowledged. -/
structure Over (s : TCPSender) (r : TCPReceiver) : Prop where
  inbound : r.streamOut.isEof = true
  fin     : s.finFlag = true
  acked   : s.outSegments = []

/-- What holds after the operations `hist`. -/
structure FinalInv (hist : List Op) (e : Endpoint) : Prop where
  settled : Settled e.accepted e.conn.sender
  wired   : e.conn.Wired
  closed  : e.conn.sender.stream.isEof = true → .endInputStream ∈ hist
  errors  : e.conn.sender.stream.error = e.conn.receiver.streamOut.error
  heard   : e.conn.receiver.reassembler.eofFlag = true ∨ e.conn.receiver.streamOut.isEof = true →
    e.conn.receiver.isnSet = true ∧ ∃ seg, .segmentReceived seg ∈ hist ∧ seg.header.fin = true
  stopped : e.conn.active = false → e.conn.sender.stream.error = true ∨
    (Over e.conn.sender e.conn.receiver ∧ e.conn.sender.segmentsOut = [])

theorem FinalInv.init (cfg : TCPConfig) (randomIsn : WrappingInt32) :
    FinalInv [] (ofConfig cfg randomIsn) where
  settled := Settled.init ..
  wired   := fun _ h => by cases h
  closed  := fun h => by cases h
  errors  := rfl
  heard   := fun h => by rcases h with h | h <;> cases h
  stopped := fun h => by cases h

/-- `clean_shutdown` stops a connection only when both streams are over: with nothing in flight after the
    end of the stream, the FIN has been sent. -/
theorem over_of_done {accepted : List UInt8} {s : TCPSender} {r : TCPReceiver} (h : Settled accepted s)
    (hdone : StreamsDone s r) : Over s r := by
  have hempty := h.inv.outSegments_eq_nil hdone.inFlight
  refine ⟨hdone.inbound, ?_, hempty⟩
  rcases h.filled hdone.outbound with hne | hfin
  · exact absurd hempty hne
  · exact hfin

/-- What an inactive connection is still asked to do leaves it over: the FIN stops `fill_window`, and the
    clock and the network are ignored. -/
theorem Over.after {c : TCPConnection} (op : Op) (h : Over c.sender c.receiver) (hact : c.active = false)
    (hwrite : op.isWrite = false) : Over (c.senderAfter op) (c.receiverAfter op) ∧
      (c.senderAfter op).segmentsOut = c.sender.segmentsOut := by
  have hfill := fillWindow_of_fin h.fin
  have hadm (seg : TCPSegment) : c.admits seg = false := by rw [admits, hact, Bool.false_and]
  cases op with
  | connect =>
      simp only [senderAfter, receiverAfter, hfill]
      exact ⟨h, trivial⟩
  | write _ => cases hwrite
  | endInputStream =>
      have hfill' : c.sender.endInput.fillWindow = c.sender.endInput := fillWindow_of_fin h.fin
      simp only [senderAfter, receiverAfter, hfill']
      exact ⟨⟨h.inbound, h.fin, h.acked⟩, rfl⟩
  | tick ms =>
      simp only [senderAfter, receiverAfter, hact, Bool.false_eq_true, if_false]
      exact ⟨h, trivial⟩
  | segmentReceived seg =>
      rw [senderAfter_of_not_admits (hadm seg), receiverAfter_of_not_admits (hadm seg)]
      exact ⟨h, rfl⟩
  | readInbound len => exact ⟨⟨h.inbound, h.fin, h.acked⟩, rfl⟩

theorem Over.handled {c c' : TCPConnection} {s : TCPSender} {r : TCPReceiver} {failed : Bool}
    (h : Over s r) (hh : Handled c s r failed c') : Over c'.sender c'.receiver where
  inbound := hh.streamOut_isEof.trans h.inbound
  fin     := hh.finFlag.trans h.fin
  acked   := hh.outSegments.trans h.acked

/-- How a connection comes to be inactive: by an error, or because both streams are over. -/
theorem FinalInv.stopped_step {hist : List Op} (h : FinalInv hist e) (op : Op)
    (hwrite : op.isWrite = true → e.conn.sender.finFlag = false)
    (hact : (e.step op).conn.active = false) :
    (e.step op).conn.sender.stream.error = true ∨
      (Over (e.step op).conn.sender (e.step op).conn.receiver ∧ (e.step op).conn.sender.segmentsOut = []) := by
  obtain ⟨failed, hh⟩ := handled_step e.conn op
  have herror : (e.step op).conn.sender.stream.error = (failed || e.conn.sender.stream.error) :=
    hh.stream_error.trans (by rw [(streamFlags_senderAfter op).2])
  rw [herror, Bool.or_eq_true]
  rcases hh.inactive hact with hold | hfailed | ⟨hdone, hqueue⟩
  · -- it was inactive before, and stays as it was
    rcases h.stopped hold with herr | ⟨ho, hqueue⟩
    · exact Or.inl (Or.inr herr)
    · have hnowrite : op.isWrite = false := by
        by_contra hop
        have hfin := hwrite (by simpa using hop)
        rw [ho.fin] at hfin
        cases hfin
      obtain ⟨hafter, hsame⟩ := ho.after op hold hnowrite
      exact Or.inr ⟨hafter.handled hh, hh.segmentsOut_nil (hsame.trans hqueue)⟩
  · exact Or.inl (Or.inl hfailed)
  · -- `clean_shutdown` has just found both streams done
    exact Or.inr ⟨(over_of_done (settled_after op h.settled hwrite) hdone).handled hh, hqueue⟩

theorem FinalInv.step {hist : List Op} (h : FinalInv hist e) (op : Op)
    (hwrite : op.isWrite = true → .endInputStream ∉ hist) : FinalInv (hist ++ [op]) (e.step op) := by
  obtain ⟨failed, hh⟩ := handled_step e.conn op
  have hhist {op' : Op} (hmem : op' ∈ hist) : op' ∈ hist ++ [op] := List.mem_append_left _ hmem
  have hlast : op ∈ hist ++ [op] := List.mem_append_right _ List.mem_cons_self
  have hfin : op.isWrite = true → e.conn.sender.finFlag = false := by
    intro hop
    by_contra hfin
    exact hwrite hop (h.closed (h.settled.inv.ended (by simpa using hfin)))
  have hflags := streamFlags_senderAfter (c := e.conn) op
  have hheard := heard_receiverAfter e.conn op
  constructor
  case settled => exact hh.settled (settled_after op h.settled hfin)
  case wired => exact wired_step op h.wired
  case closed => exact endInput_mem_step h.closed op
  case errors =>
    show (e.conn.step op).sender.stream.error = (e.conn.step op).receiver.streamOut.error
    rw [hh.stream_error, hh.streamOut_error, hflags.2, hheard.error, h.errors]
  case heard =>
    intro hend
    show (e.conn.step op).receiver.isnSet = true ∧ _
    rw [hh.isnSet]
    rcases hheard.ended (hh.ended hend) with hold | ⟨⟨seg, rfl, hf⟩, hknown⟩
    · obtain ⟨hknown, seg, hmem, hf⟩ := h.heard hold
      exact ⟨hheard.known hknown, seg, hhist hmem, hf⟩
    · exact ⟨hknown, seg, hlast, hf⟩
  case stopped => exact h.stopped_step op hfin

/-! ## The state -/

theorem FinalInv.state_reset {hist : List Op} (h : FinalInv hist e) (hact : e.conn.active = false)
    (herr : e.conn.sender.stream.error = true) : e.conn.state = TCPState.ofState .reset := by
  have herr' := h.errors ▸ herr
  simp only [TCPConnection.state, TCPState.ofParts, TCPState.senderSummary, TCPState.receiverSummary, herr,
    herr', hact, if_true]
  rfl

theorem FinalInv.state_closed {hist : List Op} (h : FinalInv hist e) (hact : e.conn.active = false)
    (herr : e.conn.sender.stream.error = false) (ho : Over e.conn.sender e.conn.receiver) :
    e.conn.state = TCPState.ofState .closed := by
  obtain ⟨hflight, -, -, hnext, heof⟩ := h.settled.inv.finished h.settled.drained ho.fin ho.acked
  have hwritten : e.conn.sender.stream.bytesWritten = e.accepted.length := h.settled.inv.written
  have hsender : TCPState.senderSummary e.conn.sender = .finAcked := by
    rw [TCPState.senderSummary, herr, if_neg Bool.false_ne_true, hnext, hflight, hwritten, heof,
      if_neg (by omega), if_neg (by omega), if_neg (by decide), if_neg (by omega), if_neg (by omega)]
  have hackno : e.conn.receiver.ackno.isSome = true := by
    rw [TCPReceiver.ackno_eq, (h.heard (Or.inr ho.inbound)).1, if_pos rfl]
    rfl
  have hreceiver : TCPState.receiverSummary e.conn.receiver = .finRecv := by
    rw [TCPState.receiverSummary, ← h.errors, herr, if_neg Bool.false_ne_true, hackno, if_neg (by decide),
      ByteStream.inputEnded, ho.inbound, if_pos rfl]
  rw [TCPConnection.state, TCPState.ofParts, hsender, hreceiver, hact]
  rfl

/-- The FIN is on the last segment, after all the bytes. -/
theorem fin_last {accepted : List UInt8} {s : TCPSender} (h : SenderInv accepted s)
    (hfin : s.finFlag = true) : ∃ front last, s.firstSent = front ++ [last] ∧ last.header.fin = true := by
  obtain ⟨seg, hseg, hf⟩ := h.finFlag.mp hfin
  obtain ⟨front, rest, heq⟩ := List.append_of_mem hseg
  have hnil := h.later_eq_nil heq hf
  subst hnil
  exact ⟨front, seg, heq, hf⟩

theorem finalInv_run (cfg : TCPConfig) (randomIsn : WrappingInt32) (ops : List Op)
    (h : NoWriteAfterEnd ops) : FinalInv ops (run step (ofConfig cfg randomIsn) ops) :=
  run_history ops FinalInv (FinalInv.init cfg randomIsn) fun _ _ op hi hp => hi.step op (h.not_mem hp)

/-- **A connection that is no longer active is in an official final state.** If there is no error on its
    streams, the FIN went out after every byte accepted from the application, all of it was acknowledged, and
    the end of the peer's stream was received. -/
theorem inactive_is_final (cfg : TCPConfig) (randomIsn : WrappingInt32) (ops : List Op)
    (h : NoWriteAfterEnd ops) :
    let e := run step (ofConfig cfg randomIsn) ops
    e.conn.active = false →
      (e.conn.state = TCPState.ofState .closed ∨ e.conn.state = TCPState.ofState .reset) ∧
      (e.conn.sender.stream.error = false ∧ e.conn.inboundStream.error = false →
        (∃ front last, e.conn.sender.firstSent = front ++ [last] ∧ last.header.fin = true) ∧
        e.conn.sender.sentBytes = e.accepted ∧
        (∀ seg ∈ e.conn.sender.firstSent, e.conn.OnWire seg) ∧
        e.conn.sender.acked = e.conn.sender.firstSent ∧ e.conn.bytesInFlight = 0 ∧
        e.conn.inboundStream.inputEnded = true ∧
        ∃ seg, .segmentReceived seg ∈ ops ∧ seg.header.fin = true) := by
  intro e hact
  have hinv : FinalInv ops e := finalInv_run cfg randomIsn ops h
  by_cases herr : e.conn.sender.stream.error = true
  · refine ⟨Or.inr (hinv.state_reset hact herr), fun hno => ?_⟩
    rw [herr] at hno
    cases hno.1
  · rw [Bool.not_eq_true] at herr
    rcases hinv.stopped hact with herr' | ⟨ho, hqueue⟩
    · rw [herr] at herr'
      cases herr'
    · obtain ⟨hflight, hacked, hbytes, -, -⟩ :=
        hinv.settled.inv.finished hinv.settled.drained ho.fin ho.acked
      refine ⟨Or.inl (hinv.state_closed hact herr ho), fun _ => ⟨fin_last hinv.settled.inv ho.fin, hbytes,
        fun seg hseg => ?_, hacked, hflight, ho.inbound, (hinv.heard (Or.inr ho.inbound)).2⟩⟩
      rcases hinv.wired seg hseg with hwait | hwire
      · rw [hqueue] at hwait
        cases hwait
      · exact hwire

/-- A run that closes: the handshake, one byte, the peer's FIN, our own, and its acknowledgment. -/
def closingRun : List Op :=
  [.connect,
    .segmentReceived { header := { syn := true, ack := true, seqno := .ofRaw 100, ackno := .ofRaw 1,
                                   win := 1000 } },
    .write [7],
    .segmentReceived { header := { fin := true, ack := true, seqno := .ofRaw 101, ackno := .ofRaw 2,
                                   win := 1000 } },
    .endInputStream,
    .segmentReceived { header := { ack := true, seqno := .ofRaw 102, ackno := .ofRaw 3, win := 1000 } }]

theorem inactive_is_final_closing :
    NoWriteAfterEnd closingRun ∧
    (run step (ofConfig {} (.ofRaw 0)) closingRun).conn.active = false ∧
    ((run step (ofConfig {} (.ofRaw 0)) closingRun).conn.state = TCPState.ofState .closed ∨
      (run step (ofConfig {} (.ofRaw 0)) closingRun).conn.state = TCPState.ofState .reset) :=
  have hrun : NoWriteAfterEnd closingRun := by decide
  have hact : (run step (ofConfig {} (.ofRaw 0)) closingRun).conn.active = false := by decide +kernel
  ⟨hrun, hact, (inactive_is_final {} (.ofRaw 0) closingRun hrun hact).1⟩

end Endpoint

end Sponge
