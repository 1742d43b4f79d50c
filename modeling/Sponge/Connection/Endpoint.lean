import Sponge.Connection.Effect
import Sponge.Receiver.Effect

/-!
# `Connection.Endpoint` — a connection together with its history

An `Endpoint` is a connection with the bytes its application has written and read so far. The rules here turn
facts about the sender and the receiver into facts about every step of an endpoint, through `handled_step`:
`senderAfter_rule` for what the sender's operations keep, `senderAfter_rel` for a relation between the sender before
and after, `Handled.transport` for what does not depend on the outbound queue and the error flag.
-/

namespace Sponge

open Lib TCPSender

namespace TCPConnection

variable {c c' : TCPConnection} {s : TCPSender} {r : TCPReceiver} {failed : Bool}

/-- What does not depend on the outbound queue and the error flag holds of the new sender if it holds
    of `s`. -/
theorem Handled.transport {P : TCPSender → Prop} (h : Handled c s r failed c')
    (hqueue : ∀ s q, P s → P { s with segmentsOut := q }) (herror : ∀ s, P s → P s.setError) (hs : P s) :
    P c'.sender := by
  rw [h.sender]
  refine hqueue _ _ ?_
  split
  · exact herror s hs
  · exact hs

/-- The reassembler of the new receiver is that of `r`, up to the error flag of its output. -/
theorem Handled.receiver_cases (h : Handled c s r failed c') :
    c'.receiver = r ∨ c'.receiver = r.setError := by
  rw [h.receiver]
  split
  · exact Or.inr rfl
  · exact Or.inl rfl

/-! The fields of the two halves, one by one. -/

theorem Handled.sender_isn (h : Handled c s r failed c') : c'.sender.isn = s.isn := by
  rw [h.sender]; cases failed <;> rfl

theorem Handled.finFlag (h : Handled c s r failed c') : c'.sender.finFlag = s.finFlag := by
  rw [h.sender]; cases failed <;> rfl

theorem Handled.synFlag (h : Handled c s r failed c') : c'.sender.synFlag = s.synFlag := by
  rw [h.sender]; cases failed <;> rfl

theorem Handled.outSegments (h : Handled c s r failed c') : c'.sender.outSegments = s.outSegments := by
  rw [h.sender]; cases failed <;> rfl

theorem Handled.firstSent (h : Handled c s r failed c') : c'.sender.firstSent = s.firstSent := by
  rw [h.sender]; cases failed <;> rfl

theorem Handled.stream_isEof (h : Handled c s r failed c') : c'.sender.stream.isEof = s.stream.isEof := by
  rw [h.sender]; cases failed <;> rfl

theorem Handled.stream_error (h : Handled c s r failed c') :
    c'.sender.stream.error = (failed || s.stream.error) := by
  rw [h.sender]; cases failed <;> rfl

theorem Handled.isnSet (h : Handled c s r failed c') : c'.receiver.isnSet = r.isnSet := by
  rw [h.receiver]; cases failed <;> rfl

theorem Handled.isn (h : Handled c s r failed c') : c'.receiver.isn = r.isn := by
  rw [h.receiver]; cases failed <;> rfl

theorem Handled.ackOffset (h : Handled c s r failed c') : c'.receiver.ackOffset = r.ackOffset := by
  rw [h.receiver]; cases failed <;> rfl

theorem Handled.streamOut_error (h : Handled c s r failed c') :
    c'.receiver.streamOut.error = (failed || r.streamOut.error) := by
  rw [h.receiver]; cases failed <;> rfl

theorem Handled.streamOut_isEof (h : Handled c s r failed c') :
    c'.receiver.streamOut.isEof = r.streamOut.isEof := by
  rw [h.receiver]; cases failed <;> rfl

theorem Handled.ended (h : Handled c s r failed c')
    (hend : c'.receiver.reassembler.eofFlag = true ∨ c'.receiver.streamOut.isEof = true) :
    r.reassembler.eofFlag = true ∨ r.streamOut.isEof = true := by
  rw [h.receiver] at hend
  cases failed <;> exact hend

/-- A queue that is empty stays empty. -/
theorem Handled.segmentsOut_nil (h : Handled c s r failed c') (hs : s.segmentsOut = []) :
    c'.sender.segmentsOut = [] := by
  refine List.eq_nil_iff_forall_not_mem.mpr ?_
  intro seg hseg
  have hmem := h.left seg hseg
  rw [hs] at hmem
  cases hmem

/-- The new sender agrees with `s` on everything the invariant reads. -/
theorem Handled.senderInv {accepted : List UInt8} (h : Handled c s r failed c')
    (hs : SenderInv accepted s) : SenderInv accepted c'.sender := by
  have hagain : c'.sender.sentAgain = s.sentAgain := by
    rw [h.sender]; cases failed <;> rfl
  refine hs.agree ?_ (by rw [hagain]; exact hs.again) fun seg hseg => hs.pending seg (h.left seg hseg)
  have hsender := h.sender
  generalize c'.sender.segmentsOut = q at hsender
  rw [hsender]
  cases failed <;> exact ⟨rfl, rfl, rfl, rfl, rfl, rfl, rfl, rfl, rfl, id, rfl, rfl⟩

/-- What the operations of the sender keep, every operation of the connection keeps. -/
theorem senderAfter_rule {P : TCPSender → Prop} (op : Op) (h : P c.sender)
    (hfill : ∀ s, P s → P s.fillWindow)
    (hwrite : ∀ data, op = .write data → P (c.sender.write data).fillWindow)
    (hend : op = .endInputStream → P c.sender.endInput.fillWindow)
    (hack : ∀ s seg, op = .segmentReceived seg → seg.header.ack = true → P s →
      P (s.ackReceived seg.header.ackno seg.header.win))
    (htick : ∀ ms, op = .tick ms → c.active = true → P (c.sender.tick ms)) :
    P (c.senderAfter op) := by
  have hopen : P c.openedSender := by
    unfold openedSender
    split
    · exact h
    · exact hfill _ h
  cases op with
  | connect => exact hfill _ h
  | write data => exact hwrite data rfl
  | endInputStream => exact hend rfl
  | tick ms =>
      simp only [senderAfter]
      split
      · next hact => exact htick ms rfl hact
      · exact h
  | segmentReceived seg =>
      simp only [senderAfter]
      split
      · split
        · next hcond =>
            rw [Bool.and_eq_true] at hcond
            exact hack _ seg rfl hcond.2 hopen
        · exact hopen
      · exact h
  | readInbound len => exact h

/-- A reflexive and transitive relation that every sender operation keeps to is kept to by all of them together. -/
theorem senderAfter_rel {R : TCPSender → TCPSender → Prop} (hrefl : ∀ s, R s s)
    (htrans : ∀ {s s₁ s₂}, R s s₁ → R s₁ s₂ → R s s₂) (hwrite : ∀ s data, R s (s.write data))
    (hend : ∀ s, R s s.endInput) (hfill : ∀ s, R s s.fillWindow)
    (hack : ∀ s ackno w, R s (s.ackReceived ackno w)) (htick : ∀ s ms, R s (s.tick ms)) (op : Op) :
    R c.sender (c.senderAfter op) := by
  refine senderAfter_rule (P := R c.sender) op (hrefl _) ?_ ?_ ?_ ?_ ?_
  · exact fun s hs => htrans hs (hfill s)
  · exact fun data _ => htrans (hwrite c.sender data) (hfill _)
  · exact fun _ => htrans (hend c.sender) (hfill _)
  · exact fun s seg _ _ hs => htrans hs (hack s _ _)
  · exact fun ms _ _ => htick c.sender ms

/-- The inbound stream ends only by a FIN. -/
theorem heard_receiverAfter (c : TCPConnection) (op : Op) :
    TCPReceiver.Heard (∃ seg, op = .segmentReceived seg ∧ seg.header.fin = true) c.receiver
      (c.receiverAfter op) := by
  cases op with
  | segmentReceived seg =>
      simp only [receiverAfter]
      split
      · exact (TCPReceiver.heard_segmentReceived c.receiver seg).imp fun hfin => ⟨seg, rfl, hfin⟩
      · exact TCPReceiver.Heard.refl _ _
  | readInbound len => exact ⟨rfl, id, le_refl _, id, Or.inl⟩
  | connect | write _ | endInputStream | tick _ => exact TCPReceiver.Heard.refl _ _

end TCPConnection

/-- A connection, the bytes its `write` has accepted, and the bytes read from its inbound stream. -/
structure Endpoint where
  conn     : TCPConnection
  accepted : List UInt8
  taken    : List UInt8
deriving DecidableEq

namespace Endpoint

open TCPConnection

def ofConfig (cfg : TCPConfig) (randomIsn : WrappingInt32) : Endpoint :=
  ⟨TCPConnection.ofConfig cfg randomIsn, [], []⟩

def step (e : Endpoint) (op : Op) : Endpoint where
  conn     := e.conn.step op
  accepted := match op with
    | .write data => e.accepted ++ data.take (e.conn.write data).2
    | _           => e.accepted
  taken    := match op with
    | .readInbound len => e.taken ++ (e.conn.readInbound len).1
    | _                => e.taken

/-- The bytes ever written to the inbound stream: those already read followed by those still buffered. -/
def delivered (e : Endpoint) : List UInt8 := e.taken ++ e.conn.inboundStream.buf

variable {e : Endpoint}

theorem senderInv_after (op : Op) (h : SenderInv e.accepted e.conn.sender) :
    SenderInv (e.step op).accepted (e.conn.senderAfter op) := by
  cases op with
  | write data => exact (h.write data).fillWindow
  | connect | endInputStream | tick _ | segmentReceived _ | readInbound _ =>
      exact senderAfter_rule (P := SenderInv e.accepted) _ h (fun _ hs => hs.fillWindow)
        (fun _ hop => by cases hop) (fun _ => h.endInput.fillWindow) (fun _ _ _ _ hs => hs.ackReceived _ _)
        fun ms _ _ => h.tick ms

/-- **Every step of an endpoint keeps the sender's invariant**, with the bytes the application wrote. -/
theorem senderInv_step (op : Op) (h : SenderInv e.accepted e.conn.sender) :
    SenderInv (e.step op).accepted (e.step op).conn.sender := by
  obtain ⟨failed, hh⟩ := handled_step e.conn op
  exact hh.senderInv (senderInv_after op h)

end Endpoint

end Sponge
