import Sponge.Sender.Partition
import Sponge.Lib.Excerpt

/-!
# `Sender.Segments` — what a segment tells about the stream it was cut from

Seen from the other end, a segment of the sender is either its SYN or an excerpt of the bytes sent so far, at
the index its sequence number stands for (`SenderInv.locate`). The bytes sent only grow, and not at all once
the FIN is out (`Grows`), so this stays true of a segment that arrives late.
-/

namespace Sponge

open Lib TCPSegment

namespace TCPSender

variable {s s' : TCPSender} {accepted : List UInt8} {seg : TCPSegment}

/-- The bytes sent so far, in order. -/
def sentBytes (s : TCPSender) : List UInt8 := payloads s.firstSent

theorem SenderInv.sentBytes_isPrefix (h : SenderInv accepted s) : s.sentBytes <+: accepted :=
  ⟨s.stream.buf, h.bytes⟩

/-- The sequence numbers used: one for the SYN, one for each byte, one for the FIN. -/
theorem SenderInv.nextSeqno_eq (h : SenderInv accepted s) (hsyn : s.synFlag = true) :
    s.nextSeqno = s.sentBytes.length + 1 + (if s.finFlag then 1 else 0) := by
  obtain ⟨rest, hrest, hdata⟩ := h.opened hsyn
  have hlast := h.finLast
  rw [hrest] at hlast
  have hext := extent_of_noSyn (fun seg hseg => (hdata seg hseg).syn) (List.pairwise_cons.mp hlast).2
  have hfin : s.finFlag = true ↔ ∃ seg ∈ rest, seg.header.fin = true := by
    rw [h.finFlag, hrest]
    simp [synSegment]
  have hone : (synSegment s.isn).lengthInSequenceSpace = 1 := rfl
  have hpay : payloads rest = s.sentBytes := by rw [sentBytes, hrest]; rfl
  rw [h.next, hrest, extent_cons, hext, hone, hpay]
  simp only [hfin]
  omega

theorem SenderInv.nextSeqno_le (h : SenderInv accepted s) : s.nextSeqno ≤ s.sentBytes.length + 2 := by
  by_cases hsyn : s.synFlag = true
  · rw [h.nextSeqno_eq hsyn]
    split <;> omega
  · rw [h.next, h.fresh (by simpa using hsyn)]
    exact Nat.zero_le _

/-- Bytes come after a SYN. -/
theorem SenderInv.sentBytes_lt (h : SenderInv accepted s) :
    s.sentBytes = [] ∨ s.sentBytes.length < s.nextSeqno := by
  by_cases hsyn : s.synFlag = true
  · right
    rw [h.nextSeqno_eq hsyn]
    omega
  · left
    rw [sentBytes, h.fresh (by simpa using hsyn)]
    rfl

/-! ## Where a segment lies -/

/-- The segment is an excerpt of the bytes sent, at index `i`, and it carries a FIN only at their end. -/
structure Located (s : TCPSender) (seg : TCPSegment) (i : Nat) : Prop where
  syn    : seg.header.syn = false
  seqno  : seg.header.seqno = wrap (i + 1) s.isn
  bound  : seg.payload.length ≤ TCPConfig.maxPayloadSize
  inside : i + seg.payload.length ≤ s.sentBytes.length
  used   : i + 1 < s.nextSeqno
  bytes  : ∀ M, Excerpt M s.sentBytes i seg.payload
  fin    : seg.header.fin = true → i + seg.payload.length = s.sentBytes.length ∧ s.finFlag = true

/-- **A segment is the SYN or an excerpt of the bytes sent.** -/
theorem SenderInv.locate (h : SenderInv accepted s) (hseg : seg ∈ s.firstSent) :
    seg = synSegment s.isn ∨ ∃ i, Located s seg i := by
  obtain ⟨rest, hrest, hdata⟩ := h.opened (h.synFlag_of_mem hseg)
  have hnum := h.numbered
  have hlast := h.finLast
  rw [hrest] at hseg hnum hlast
  rcases List.mem_cons.mp hseg with rfl | hmem
  · exact Or.inl rfl
  · -- split the data segments around this one; none before it carries a FIN
    obtain ⟨pre, post, rfl⟩ := List.append_of_mem hmem
    have hd := hdata seg hmem
    have hpair := List.pairwise_append.mp (List.pairwise_cons.mp hlast).2
    have hext := extent_of_noSyn (fun sg hsg => (hdata sg (List.mem_append_left _ hsg)).syn) hpair.1
    rw [if_neg] at hext
    case hnc =>
      rintro ⟨sg, hsg, hf⟩
      rw [hpair.2.2 sg hsg seg List.mem_cons_self] at hf
      cases hf
    have hbytes : s.sentBytes = payloads pre ++ (seg.payload ++ payloads post) := by
      rw [sentBytes, hrest, payloads_cons, payloads_append, payloads_cons]
      rfl
    refine Or.inr ⟨(payloads pre).length, hd.syn, ?_, hd.bound, ?_, ?_, ?_, ?_⟩
    · -- one for the SYN, then the bytes before this segment
      have hone : (synSegment s.isn).lengthInSequenceSpace = 1 := rfl
      have := laid_iff.mp hnum (synSegment s.isn :: pre) seg post rfl
      rw [extent_cons, hext, hone] at this
      rw [this]
      congr 1
      omega
    · rw [hbytes, List.length_append, List.length_append]
      omega
    · have hone : (synSegment s.isn).lengthInSequenceSpace = 1 := rfl
      have hpos := hd.pos
      rw [h.next, hrest, extent_cons, extent_append, extent_cons, hext, hone]
      omega
    · intro M
      have hslice : seg.payload = (s.sentBytes.drop (payloads pre).length).take seg.payload.length := by
        rw [hbytes, List.drop_left, List.take_left]
      rw [hslice]
      exact Excerpt.of_slice M _ _ _
    · -- nothing is sent after a FIN
      intro hf
      have hsplit : s.firstSent = (synSegment s.isn :: pre) ++ seg :: post := hrest
      have hnil := h.later_eq_nil hsplit hf
      refine ⟨?_, h.finFlag.mpr ⟨seg, by rw [hrest]; exact hseg, hf⟩⟩
      rw [hbytes, hnil, payloads_nil, List.append_nil, List.length_append]

/-! ## Growth -/

/-- From `s` to `s'` the history of segments only grows, and not after a FIN. -/
structure Grows (s s' : TCPSender) : Prop where
  isn     : s'.isn = s.isn
  sent    : s.firstSent <+: s'.firstSent
  final   : s.finFlag = true → s'.firstSent = s.firstSent
  finFlag : s.finFlag = true → s'.finFlag = true

theorem Grows.refl (s : TCPSender) : Grows s s := ⟨rfl, List.prefix_refl _, fun _ => rfl, id⟩

theorem Grows.trans {s₁ s₂ : TCPSender} (h₁ : Grows s s₁) (h₂ : Grows s₁ s₂) : Grows s s₂ where
  isn     := h₂.isn.trans h₁.isn
  sent    := h₁.sent.trans h₂.sent
  final   := fun hf => (h₂.final (h₁.finFlag hf)).trans (h₁.final hf)
  finFlag := fun hf => h₂.finFlag (h₁.finFlag hf)

/-- Nothing the history reads has changed. -/
theorem Grows.of_eq (hisn : s'.isn = s.isn) (hsent : s'.firstSent = s.firstSent)
    (hfin : s'.finFlag = s.finFlag) : Grows s s' :=
  ⟨hisn, hsent ▸ List.prefix_refl _, fun _ => hsent, fun hf => hfin ▸ hf⟩

theorem grows_fillWindow (s : TCPSender) : Grows s s.fillWindow := by
  rcases fillWindow_cases s with ⟨-, heq⟩ | ⟨hfin, -, heq⟩ | ⟨hfin, -, new, hfills, -⟩
  · rw [heq]; exact Grows.refl s
  · rw [heq]
    refine ⟨rfl, ⟨[synSegment s.nextSeqno32], (firstSent_sendSegment _ _).symm⟩, fun hf => ?_, id⟩
    rw [hfin] at hf
    cases hf
  · have hno : s.finFlag ≠ true := by rw [hfin]; exact Bool.false_ne_true
    exact ⟨hfills.isn, ⟨new, hfills.firstSent.symm⟩, fun hf => absurd hf hno, fun hf => absurd hf hno⟩

theorem grows_ackReceived (s : TCPSender) (ackno : WrappingInt32) (w : UInt16) :
    Grows s (s.ackReceived ackno w) := by
  rw [ackReceived_eq]
  split
  · exact Grows.refl s
  · have haccept : Grows s (s.acceptAck ackno w) :=
      Grows.of_eq (acceptAck_isn ..) (firstSent_acceptAck ..) (acceptAck_finFlag ..)
    exact haccept.trans (grows_fillWindow _)

theorem grows_tick (s : TCPSender) (ms : Nat) : Grows s (s.tick ms) := by
  refine Grows.of_eq (isn_tick s ms) (firstSent_tick s ms) ?_
  rcases tick_cases s ms with ⟨_, heq⟩ | ⟨_, _, _, _, -, heq⟩ <;> rw [heq]

theorem Grows.nextSeqno_le {accepted' : List UInt8} (h : Grows s s') (hs : SenderInv accepted s)
    (hs' : SenderInv accepted' s') : s.nextSeqno ≤ s'.nextSeqno := by
  obtain ⟨new, hnew⟩ := h.sent
  rw [hs.next, hs'.next, ← hnew, extent_append]
  exact Nat.le_add_right _ _

theorem Grows.sentBytes (h : Grows s s') : s.sentBytes <+: s'.sentBytes := by
  obtain ⟨new, hnew⟩ := h.sent
  exact ⟨payloads new, by rw [TCPSender.sentBytes, TCPSender.sentBytes, ← hnew, payloads_append]⟩

end TCPSender

end Sponge
