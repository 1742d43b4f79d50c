import Sponge.Network
import Sponge.Sender.Segments

/-!
# `Network.Wire` — one direction of the traffic

Everything an endpoint puts on the wire carries a segment of its sender, or nothing (`WireInv`). At the other
end such a segment is pushed where it belongs, or, if it is very old, a multiple of `2 ^ 32` too far, where
the stream never comes (`arrival`). So the receiver follows the sender: what it holds and has delivered are
bytes of the sender's stream, at their indices (`Follows`).
-/

namespace Sponge

open Lib TCPSender StreamReassembler

/-! ## What goes out -/

/-- `seg` differs from `base` only in what the receiver's half of a connection does not look at. -/
structure SameData (base seg : TCPSegment) : Prop where
  seqno   : seg.header.seqno = base.header.seqno
  syn     : seg.header.syn = base.header.syn
  fin     : seg.header.fin = base.header.fin
  payload : seg.payload = base.payload

theorem sameData_stamp (r : TCPReceiver) (rst : Bool) (base : TCPSegment) :
    SameData base (TCPConnection.stamp r rst base) := by
  unfold TCPConnection.stamp
  cases r.ackno <;> cases rst <;> exact ⟨rfl, rfl, rfl, rfl⟩

/-- The segment carries one of the sender's, or is an empty one. -/
def Carries (s : TCPSender) (seg : TCPSegment) : Prop :=
  ∃ base, SameData base seg ∧ (base ∈ s.firstSent ∨ base = {})

theorem Carries.grows {s s' : TCPSender} {seg : TCPSegment} (h : Carries s seg) (hg : Grows s s') :
    Carries s' seg :=
  let ⟨base, hsame, hbase⟩ := h
  ⟨base, hsame, hbase.imp (fun hm => hg.sent.subset hm) id⟩

/-- A segment on the wire is a SYN, says nothing, or is an excerpt of the bytes sent. -/
theorem Carries.cases {accepted : List UInt8} {s : TCPSender} {seg : TCPSegment}
    (hinv : SenderInv accepted s) (h : Carries s seg) :
    (seg.header.syn = true ∧ seg.header.seqno = s.isn ∧ seg.header.fin = false ∧ seg.payload = []) ∨
    (seg.header.syn = false ∧ seg.header.fin = false ∧ seg.payload = []) ∨
    ∃ i, Located s seg i := by
  obtain ⟨base, hsame, hmem | rfl⟩ := h
  · rcases hinv.locate hmem with rfl | ⟨i, hi⟩
    · exact Or.inl ⟨hsame.syn, hsame.seqno, hsame.fin, hsame.payload⟩
    · refine Or.inr (Or.inr ⟨i, hsame.syn.trans hi.syn, hsame.seqno.trans hi.seqno, ?_, ?_, hi.used, ?_, ?_⟩)
      · rw [hsame.payload]; exact hi.bound
      · rw [hsame.payload]; exact hi.inside
      · rw [hsame.payload]; exact hi.bytes
      · rw [hsame.payload, hsame.fin]; exact hi.fin
  · exact Or.inr (Or.inl ⟨hsame.syn, hsame.fin, hsame.payload⟩)

namespace TCPConnection

theorem grows_senderAfter (c : TCPConnection) (op : Op) : Grows c.sender (c.senderAfter op) :=
  senderAfter_rel Grows.refl Grows.trans (fun _ _ => Grows.of_eq rfl rfl rfl) (fun _ => Grows.of_eq rfl rfl rfl)
    grows_fillWindow grows_ackReceived grows_tick op

theorem grows_step (c : TCPConnection) (op : Op) : Grows c.sender (c.step op).sender := by
  obtain ⟨failed, hh⟩ := handled_step c op
  exact (grows_senderAfter c op).trans (Grows.of_eq hh.sender_isn hh.firstSent hh.finFlag)

end TCPConnection

/-- What holds of an endpoint as a source of traffic, whatever it receives. -/
structure WireInv (e : Endpoint) : Prop where
  sender : SenderInv e.accepted e.conn.sender
  out    : ∀ seg ∈ e.conn.segmentsOut, Carries e.conn.sender seg

theorem WireInv.init (cfg : TCPConfig) (randomIsn : WrappingInt32) :
    WireInv (Endpoint.ofConfig cfg randomIsn) where
  sender := SenderInv.init ..
  out    := fun _ h => by cases h

theorem WireInv.step {e : Endpoint} (h : WireInv e) (op : TCPConnection.Op) : WireInv (e.step op) := by
  obtain ⟨failed, hh⟩ := TCPConnection.handled_step e.conn op
  refine ⟨Endpoint.senderInv_step op h.sender, fun seg hseg => ?_⟩
  rcases hh.out seg hseg with hold | ⟨base, rst, rfl, hbase⟩
  · -- what was on the wire before stays genuine while the sender goes on
    exact (h.out seg hold).grows (TCPConnection.grows_step e.conn op)
  · refine ⟨base, sameData_stamp _ rst base, hbase.imp (fun hm => ?_) id⟩
    have hfirst : (e.step op).conn.sender.firstSent = _ := hh.firstSent
    rw [hfirst]
    exact (Endpoint.senderInv_after op h.sender).pending base hm

/-! ## What comes in -/

/-- The receiver `r`, from which `taken` has been read, holds bytes of the sender's stream. -/
structure Follows (s : TCPSender) (taken : List UInt8) (r : TCPReceiver) : Prop where
  isn   : r.isnSet = true → r.isn = s.isn
  rep   : Rep (2 ^ 32) s.sentBytes r.reassembler
  taken : taken = s.sentBytes.take r.streamOut.readCount

variable {s s' : TCPSender} {r : TCPReceiver} {taken accepted : List UInt8} {seg : TCPSegment}

theorem Follows.written_le (h : Follows s taken r) : r.streamOut.bytesWritten ≤ s.sentBytes.length := by
  have hle := h.rep.next_le
  rwa [h.rep.next_eq] at hle

theorem sentBytes_lt_of_next (hinv : SenderInv accepted s) (hnext : s.nextSeqno ≤ 2 ^ 32) :
    s.sentBytes.length < 2 ^ 32 := by
  rcases hinv.sentBytes_lt with hnil | hlt
  · rw [hnil]; decide
  · omega

/-- Where and how a segment is pushed: as an excerpt, below `2 ^ 32` if at all, and with a FIN only at the
    end of the sender's stream. -/
structure Arrival (s : TCPSender) (r : TCPReceiver) (seg : TCPSegment) (index : Nat) : Prop where
  lt      : index + seg.payload.length < 2 ^ 64
  excerpt : Excerpt (2 ^ 32) s.sentBytes index seg.payload
  fin     : seg.header.fin = true → seg.header.syn = false ∧ r.isnSet = true ∧
    index = r.streamIndex r.isn seg.header.seqno ∧ index + seg.payload.length = s.sentBytes.length ∧
    s.finFlag = true

/-- Nothing but the index of an empty segment matters, and that it is a 64-bit number. -/
theorem arrival_empty (hwritten : r.streamOut.bytesWritten < 2 ^ 32) (isn seqno : WrappingInt32)
    (hpay : seg.payload = []) (hfin : seg.header.fin = false) :
    Arrival s r seg (r.streamIndex isn seqno) where
  lt      := by
    rw [hpay, List.length_nil, Nat.add_zero]
    exact usub_lt (Nat.lt_trans (unwrap_lt seqno isn hwritten) (by decide))
  excerpt := by rw [hpay]; exact Excerpt.nil
  fin     := fun h => by rw [hfin] at h; cases h

/-- A data segment arrives at its index, or so late that it is taken for one from the future. -/
theorem arrival_located {i : Nat} (hf : Follows s taken r) (hset : r.isnSet = true)
    (hlen : s.sentBytes.length < 2 ^ 32) (hnext : s.nextSeqno ≤ 2 ^ 32) (hi : Located s seg i) :
    Arrival s r seg (r.streamIndex s.isn seg.header.seqno) := by
  have hwritten := hf.written_le
  have hbound := hi.bound
  have hinside := hi.inside
  have hused := hi.used
  have hmax : TCPConfig.maxPayloadSize = 1452 := rfl
  have hindex : r.streamIndex s.isn seg.header.seqno =
      if i + 1 + 2 ^ 31 < r.streamOut.bytesWritten then i + 2 ^ 32 else i := by
    rw [TCPReceiver.streamIndex, hi.seqno, unwrap_wrap_of_lt s.isn (by omega) (by omega)]
    split
    · rw [usub_of_le (by omega)]; omega
    · rw [usub_of_le (by omega)]; omega
  refine ⟨?_, ?_, fun hfin => ?_⟩
  · rw [hindex]; split <;> omega
  · rw [hindex]
    split
    · -- beyond the bound the excerpt promises nothing
      intro j c _ hlt
      omega
    · exact hi.bytes _
  · -- a FIN is too close to the end of the stream to be taken for one from the future
    obtain ⟨hend, hflag⟩ := hi.fin hfin
    refine ⟨hi.syn, hset, by rw [hf.isn hset], ?_, hflag⟩
    rw [hindex, if_neg (by omega)]
    exact hend

/-- **What a segment on the wire does at the other end**: nothing, or a push of what it carries. -/
theorem arrival (hinv : SenderInv accepted s) (hnext : s.nextSeqno ≤ 2 ^ 32) (hf : Follows s taken r)
    (hc : Carries s seg) :
    r.segmentReceived seg = r ∨
      ∃ index, r.segmentReceived seg = r.pushed s.isn index seg ∧ Arrival s r seg index := by
  have hlen := sentBytes_lt_of_next hinv hnext
  have hwritten := Nat.lt_of_le_of_lt hf.written_le hlen
  rcases TCPReceiver.segmentReceived_cases r seg with ⟨hsyn, heq⟩ | ⟨hsyn, hset, heq⟩ | ⟨-, -, heq⟩
  · -- a SYN is the first segment of `s`, which carries no bytes
    rcases hc.cases hinv with ⟨-, hseq, hfin, hpay⟩ | ⟨hno, -⟩ | ⟨i, hi⟩
    · refine Or.inr ⟨_, ?_, arrival_empty hwritten s.isn (s.isn.add 1) hpay hfin⟩
      rw [heq, hseq]
    · rw [hsyn] at hno; cases hno
    · rw [hi.syn] at hsyn; cases hsyn
  · -- without SYN it is a bare acknowledgment or a data segment, and both ends know the same `isn`
    rw [hf.isn hset] at heq
    rcases hc.cases hinv with ⟨hyes, -⟩ | ⟨-, hfin, hpay⟩ | ⟨i, hi⟩
    · rw [hsyn] at hyes; cases hyes
    · exact Or.inr ⟨_, heq, arrival_empty hwritten s.isn _ hpay hfin⟩
    · exact Or.inr ⟨_, heq, arrival_located hf hset hlen hnext hi⟩
  · exact Or.inl heq

theorem Follows.init (s : TCPSender) (capacity : Nat) : Follows s [] (TCPReceiver.ofCapacity capacity) where
  isn   := fun h => by cases h
  rep   := Rep.init _ _ _
  taken := rfl

/-- The sender may send more. -/
theorem Follows.grows (h : Follows s taken r) (hg : Grows s s') : Follows s' taken r := by
  refine ⟨fun hset => (h.isn hset).trans hg.isn.symm, h.rep.mono hg.sentBytes, ?_⟩
  obtain ⟨new, hnew⟩ := hg.sentBytes
  have hread : r.streamOut.readCount ≤ s.sentBytes.length := by
    have := h.rep.balance; have := h.rep.next_eq; have := h.rep.next_le
    rw [TCPReceiver.streamOut]; omega
  rw [← hnew, List.take_append_of_le_length hread]
  exact h.taken

theorem Follows.pushed {index : Nat} (h : Follows s taken r) (hlen : s.sentBytes.length < 2 ^ 32)
    (ha : Arrival s r seg index) : Follows s taken (r.pushed s.isn index seg) where
  isn   := fun _ => rfl
  rep   := h.rep.pushSubstring hlen _ ha.lt ha.excerpt
  taken := by
    have hframe := pushFrame_pushSubstring r.reassembler seg.payload index seg.header.fin
    have hread : (r.pushed s.isn index seg).streamOut.readCount = r.streamOut.readCount := hframe.readCount
    rw [hread]
    exact h.taken

theorem Follows.readOut (h : Follows s taken r) (len : Nat) :
    Follows s (taken ++ (r.streamOut.read len).1)
      { r with reassembler := r.reassembler.readOut len } where
  isn   := h.isn
  rep   := h.rep.readOut len
  taken := by
    have hread := h.rep.take_read len
    rw [ByteStream.read_fst, h.taken]
    exact hread.symm

theorem Follows.setError (h : Follows s taken r) : Follows s taken r.setError where
  isn   := h.isn
  rep   := h.rep.setError
  taken := h.taken

/-- What has been read and what is buffered are the bytes sent, up to the next index. -/
theorem Follows.delivered_eq (h : Follows s taken r) :
    taken ++ r.streamOut.buf = s.sentBytes.take r.reassembler.nextIndex := by
  rw [h.taken]
  exact h.rep.buf_eq

/-- **An endpoint that only hears genuine segments of `s` keeps following it.** -/
theorem Follows.step {e : Endpoint} (h : Follows s e.taken e.conn.receiver) (hinv : SenderInv accepted s)
    (hnext : s.nextSeqno ≤ 2 ^ 32) (op : TCPConnection.Op)
    (hsent : ∀ seg, op = .segmentReceived seg → Carries s seg) :
    Follows s (e.step op).taken (e.step op).conn.receiver := by
  have hafter : Follows s (e.step op).taken (e.conn.receiverAfter op) := by
    cases op with
    | segmentReceived seg =>
        simp only [TCPConnection.receiverAfter]
        split
        · rcases arrival hinv hnext h (hsent seg rfl) with heq | ⟨index, heq, ha⟩
          · rw [heq]; exact h
          · rw [heq]; exact h.pushed (sentBytes_lt_of_next hinv hnext) ha
        · exact h
    | readInbound len => exact h.readOut len
    | connect | write _ | endInputStream | tick _ => exact h
  obtain ⟨failed, hh⟩ := TCPConnection.handled_step e.conn op
  rcases hh.receiver_cases with heq | heq
  · exact heq ▸ hafter
  · exact heq ▸ hafter.setError

end Sponge
