import Sponge.TCPReceiver
import Sponge.Reassembler.Effect

/-!
# `Receiver.Effect` — what an arriving segment does to the receiver

Before the first SYN nothing happens; otherwise the payload is pushed into the reassembler at the index that
`unwrap` finds, relative to the ISN of the segment itself if it is a SYN (`segmentReceived_cases`).
-/

namespace Sponge

open Lib

namespace TCPReceiver

/-- The stream index at which a payload with sequence number `seqno` is pushed, relative to `isn`. -/
def streamIndex (r : TCPReceiver) (isn seqno : WrappingInt32) : Nat :=
  usub 64 (unwrap seqno isn r.streamOut.bytesWritten) 1

/-- The receiver after a push at `index`, with the ISN `isn`. -/
def pushed (r : TCPReceiver) (isn : WrappingInt32) (index : Nat) (seg : TCPSegment) : TCPReceiver :=
  { r with
    isn, isnSet := true
    reassembler := r.reassembler.pushSubstring seg.payload index seg.header.fin }

theorem segmentReceived_cases (r : TCPReceiver) (seg : TCPSegment) :
    (seg.header.syn = true ∧ r.segmentReceived seg =
      r.pushed seg.header.seqno (r.streamIndex seg.header.seqno (seg.header.seqno.add 1)) seg) ∨
    (seg.header.syn = false ∧ r.isnSet = true ∧ r.segmentReceived seg =
      r.pushed r.isn (r.streamIndex r.isn seg.header.seqno) seg) ∨
    (seg.header.syn = false ∧ r.isnSet = false ∧ r.segmentReceived seg = r) := by
  unfold segmentReceived
  by_cases hsyn : seg.header.syn = true
  · rw [if_pos hsyn]
    exact Or.inl ⟨hsyn, rfl⟩
  · rw [if_neg hsyn]
    rw [Bool.not_eq_true] at hsyn
    by_cases hset : r.isnSet = false
    · rw [if_pos hset]
      exact Or.inr (Or.inr ⟨hsyn, hset, rfl⟩)
    · rw [if_neg hset]
      rw [Bool.not_eq_false] at hset
      refine Or.inr (Or.inl ⟨hsyn, hset, ?_⟩)
      rw [pushed, ← hset]
      rfl

/-- The index at which the payload of an arriving segment is pushed, if it is. -/
def pushIndex (r : TCPReceiver) (seg : TCPSegment) : Option Nat :=
  if seg.header.syn then some (r.streamIndex seg.header.seqno (seg.header.seqno.add 1))
  else if r.isnSet then some (r.streamIndex r.isn seg.header.seqno)
  else none

/-- What an arriving segment does to the reassembler is a push there, or nothing. -/
theorem reassembler_segmentReceived (r : TCPReceiver) (seg : TCPSegment) :
    (r.segmentReceived seg).reassembler =
      (r.pushIndex seg).elim r.reassembler (r.reassembler.pushSubstring seg.payload · seg.header.fin) := by
  rcases segmentReceived_cases r seg with ⟨hsyn, heq⟩ | ⟨hsyn, hset, heq⟩ | ⟨hsyn, hset, heq⟩
  · rw [heq, pushIndex, if_pos hsyn]; rfl
  · rw [heq, pushIndex, hsyn, hset]; rfl
  · rw [heq, pushIndex, hsyn, hset]; rfl

/-- What the receiver has heard only grows, no error is raised or cleared, and an end is learnt only if a FIN
    has come (`fin`), with the ISN known. -/
structure Heard (fin : Prop) (r r' : TCPReceiver) : Prop where
  error   : r'.streamOut.error = r.streamOut.error
  known   : r.isnSet = true → r'.isnSet = true
  written : r.streamOut.writeCount ≤ r'.streamOut.writeCount
  stays   : r.streamOut.isEof = true → r'.streamOut.isEof = true
  ended   : r'.reassembler.eofFlag = true ∨ r'.streamOut.isEof = true →
    (r.reassembler.eofFlag = true ∨ r.streamOut.isEof = true) ∨ (fin ∧ r'.isnSet = true)

theorem Heard.refl (fin : Prop) (r : TCPReceiver) : Heard fin r r :=
  ⟨rfl, id, le_refl _, id, Or.inl⟩

theorem Heard.imp {fin fin' : Prop} {r r' : TCPReceiver} (h : Heard fin r r') (hf : fin → fin') :
    Heard fin' r r' :=
  ⟨h.error, h.known, h.written, h.stays, fun he => (h.ended he).imp id (And.imp_left hf)⟩

theorem heard_pushed (r : TCPReceiver) (isn : WrappingInt32) (index : Nat) (seg : TCPSegment) :
    Heard (seg.header.fin = true) r (r.pushed isn index seg) := by
  have hf := StreamReassembler.pushFrame_pushSubstring r.reassembler seg.payload index seg.header.fin
  have hflag : (r.pushed isn index seg).reassembler.eofFlag = true →
      r.reassembler.eofFlag = true ∨ seg.header.fin = true := by
    intro h
    rcases hf.eofFlag with heq | ⟨hfin, -⟩
    · exact Or.inl (heq ▸ h)
    · exact Or.inr hfin
  refine ⟨hf.error, fun _ => rfl, hf.written, fun h => ?_, ?_⟩
  · rcases hf.isEof with heq | ⟨-, hnew⟩
    · exact heq.trans h
    · exact hnew
  rintro (h | h)
  · exact (hflag h).imp Or.inl fun hfin => ⟨hfin, rfl⟩
  · rcases hf.isEof with heq | ⟨hflag', -⟩
    · exact Or.inl (Or.inr (heq ▸ h))
    · exact (hflag hflag').imp Or.inl fun hfin => ⟨hfin, rfl⟩

theorem heard_segmentReceived (r : TCPReceiver) (seg : TCPSegment) :
    Heard (seg.header.fin = true) r (r.segmentReceived seg) := by
  rcases segmentReceived_cases r seg with ⟨-, heq⟩ | ⟨-, -, heq⟩ | ⟨-, -, heq⟩
  · rw [heq]; exact heard_pushed ..
  · rw [heq]; exact heard_pushed ..
  · rw [heq]; exact Heard.refl _ r

/-- The acknowledgment only moves forward. -/
theorem Heard.ackOffset_le {fin : Prop} {r r' : TCPReceiver} (h : Heard fin r r') :
    r.ackOffset ≤ r'.ackOffset := by
  have hwritten := h.written
  unfold ackOffset ByteStream.bytesWritten ByteStream.inputEnded
  by_cases hend : r.streamOut.isEof = true
  · rw [if_pos hend, if_pos (h.stays hend)]
    omega
  · rw [if_neg hend]
    omega

end TCPReceiver

end Sponge
