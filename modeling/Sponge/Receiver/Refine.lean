import Sponge.TCPReceiver
import Sponge.Reassembler.Cover

/-!
# `Receiver.Refine` — the wire receiver refines the reassembler

The receiver sees 32-bit sequence numbers, the reassembler wants 64-bit indices. For segments of one
stream whose position is less than `2 ^ 31` away from the bytes written so far, `unwrap` finds the true
index, across any number of `2 ^ 32` boundaries. So a run of the receiver is step by step the run of a
reassembler that is told the true indices (`receiver_refines`).
-/

namespace Sponge

open Lib StreamReassembler

namespace TCPReceiver

/-- `seg` carries the bytes of `S` from index `i` on: a SYN with the ISN itself and the beginning of the
    stream, or a later segment numbered `i + 1`; a FIN only at the end. -/
def SegmentOf (S : Stream) (isn : WrappingInt32) (i : Nat) (seg : TCPSegment) : Prop :=
  i + seg.payload.length ≤ S.bytes.length ∧ seg.payload = S.slice i seg.payload.length ∧
  (seg.header.syn = true → i = 0 ∧ seg.header.seqno = isn) ∧
  (seg.header.syn = false → seg.header.seqno = wrap (i + 1) isn) ∧
  (seg.header.fin = true → i + seg.payload.length = S.bytes.length)

instance (S : Stream) (isn : WrappingInt32) (i : Nat) (seg : TCPSegment) :
    Decidable (SegmentOf S isn i seg) := by
  unfold SegmentOf; infer_instance

/-- An arriving segment, with the index its payload truly has, or a read by the owner. -/
inductive WireOp where
  | segment (i : Nat) (seg : TCPSegment)
  | read (len : Nat)

def step (r : TCPReceiver) : WireOp → TCPReceiver
  | .segment _ seg => r.segmentReceived seg
  | .read len      => { r with reassembler := r.reassembler.readOut len }

/-- The specification: a reassembler that is given the true index. -/
def specStep (r : StreamReassembler) : WireOp → StreamReassembler
  | .segment i seg => r.pushSubstring seg.payload i seg.header.fin
  | .read len      => r.readOut len

/-- The segments are of one stream, the first one is a SYN, and each is near the bytes written. -/
def Near (S : Stream) (isn : WrappingInt32) (r : TCPReceiver) : WireOp → Prop
  | .segment i seg => SegmentOf S isn i seg ∧ (r.isnSet = false → seg.header.syn = true) ∧
      i + 1 < r.streamOut.bytesWritten + 2 ^ 31 ∧ r.streamOut.bytesWritten < i + 1 + 2 ^ 31
  | .read _        => True

instance (S : Stream) (isn : WrappingInt32) (r : TCPReceiver) :
    (op : WireOp) → Decidable (Near S isn r op)
  | .segment i seg =>
      inferInstanceAs (Decidable (SegmentOf S isn i seg ∧ (r.isnSet = false → seg.header.syn = true) ∧
        i + 1 < r.streamOut.bytesWritten + 2 ^ 31 ∧ r.streamOut.bytesWritten < i + 1 + 2 ^ 31))
  | .read _ => inferInstanceAs (Decidable True)

/-- The receiver after some operations: its reassembler is where the specification is, and the ISN is
    known from the first segment on. -/
structure Refines (S : Stream) (isn : WrappingInt32) (capacity : Nat) (ops : List WireOp)
    (r : TCPReceiver) : Prop where
  reassembler : r.reassembler = run specStep (StreamReassembler.ofCapacity capacity) ops
  rep         : Rep (2 ^ 64) S.bytes r.reassembler
  known       : r.isnSet = true → r.isn = isn
  seen        : (∃ i seg, .segment i seg ∈ ops) → r.isnSet = true

/-- Delivering at the wrapped number of index `i` pushes at index `i`. -/
theorem deliver_wrap {S : Stream} {r : TCPReceiver} {i : Nat} (payload : List UInt8) (fin : Bool)
    (hS : S.bytes.length < 2 ^ 63) (hrep : Rep (2 ^ 64) S.bytes r.reassembler)
    (hhi : i + 1 < r.streamOut.bytesWritten + 2 ^ 31)
    (hlo : r.streamOut.bytesWritten < i + 1 + 2 ^ 31) :
    r.deliver (wrap (i + 1) r.isn) payload fin =
      { r with reassembler := r.reassembler.pushSubstring payload i fin } := by
  have hwritten : r.streamOut.bytesWritten ≤ S.bytes.length := by
    have := hrep.next_le
    rw [hrep.next_eq] at this
    exact this
  have habs : unwrap (wrap (i + 1) r.isn) r.isn r.streamOut.bytesWritten = i + 1 :=
    unwrap_wrap r.isn (by omega) (by omega) (by omega)
  simp only [deliver, habs, usub_of_le (show 1 ≤ i + 1 by omega), Nat.add_sub_cancel]

/-- One arriving segment does to the reassembler what the specification does. -/
theorem segmentReceived_eq {S : Stream} {isn : WrappingInt32} {r : TCPReceiver} {i : Nat}
    {seg : TCPSegment} (hS : S.bytes.length < 2 ^ 63) (hrep : Rep (2 ^ 64) S.bytes r.reassembler)
    (hknown : r.isnSet = true → r.isn = isn) (hok : Near S isn r (.segment i seg)) :
    r.segmentReceived seg =
      { r with reassembler := r.reassembler.pushSubstring seg.payload i seg.header.fin,
               isn := isn, isnSet := true } := by
  obtain ⟨⟨-, -, hsyn, hdata, -⟩, hfirst, hhi, hlo⟩ := hok
  unfold segmentReceived
  cases hs : seg.header.syn with
  | true =>
      obtain ⟨rfl, hseq⟩ := hsyn hs
      rw [if_pos rfl, hseq, ← wrap_eq_add]
      exact deliver_wrap (i := 0) (r := { r with isn := isn, isnSet := true }) seg.payload
        seg.header.fin hS hrep hhi hlo
  | false =>
      have hset : r.isnSet = true := by
        cases h : r.isnSet with
        | true => rfl
        | false => rw [hfirst h] at hs; cases hs
      have hisn := hknown hset
      rw [if_neg Bool.false_ne_true, if_neg (by rw [hset]; simp), hdata hs, ← hisn,
        deliver_wrap seg.payload seg.header.fin hS hrep hhi hlo, hset]

theorem Refines.step {S : Stream} {isn : WrappingInt32} {capacity : Nat} {ops : List WireOp}
    {r : TCPReceiver} {op : WireOp} (hS : S.bytes.length < 2 ^ 63) (h : Refines S isn capacity ops r)
    (hok : Near S isn r op) : Refines S isn capacity (ops ++ [op]) (r.step op) := by
  cases op with
  | segment i seg =>
      have hnear := hok
      obtain ⟨⟨hlen, hpay, -⟩, -⟩ := hok
      have heq := segmentReceived_eq hS h.rep h.known hnear
      refine ⟨?_, ?_, ?_, ?_⟩
      · rw [TCPReceiver.step, heq, run_append, ← h.reassembler]; rfl
      · rw [TCPReceiver.step, heq]
        refine h.rep.pushSubstring S.fits _ (by omega) ?_
        rw [hpay]
        exact Excerpt.of_slice _ _ _ _
      · rw [TCPReceiver.step, heq]; exact fun _ => rfl
      · rw [TCPReceiver.step, heq]; exact fun _ => rfl
  | read len =>
      refine ⟨?_, h.rep.readOut len, h.known, ?_⟩
      · rw [run_append, ← h.reassembler]; rfl
      · rintro ⟨i, seg, hmem⟩
        rw [List.mem_append, List.mem_singleton] at hmem
        rcases hmem with hmem | hmem
        · exact h.seen ⟨i, seg, hmem⟩
        · cases hmem

/-- **The wire receiver refines the reassembler.** In every run of segments of one stream, each near the
    bytes written so far, the receiver acts on its byte stream exactly as pushes at the true indices would,
    and after each segment its acknowledgment number is the wrapped count of the bytes written, plus one
    for the SYN and one for a received end. -/
theorem receiver_refines (S : Stream) (isn : WrappingInt32) (capacity : Nat) (ops : List WireOp)
    (hS : S.bytes.length < 2 ^ 63)
    (h : Guarded TCPReceiver.step (Near S isn) (TCPReceiver.ofCapacity capacity) ops) :
    ∀ pre, pre <+: ops →
      let r := run TCPReceiver.step (TCPReceiver.ofCapacity capacity) pre
      r.reassembler = run specStep (StreamReassembler.ofCapacity capacity) pre ∧
      ((∃ i seg, .segment i seg ∈ pre) →
        r.ackno = some (wrap (r.streamOut.bytesWritten + 1 +
          (if r.streamOut.inputEnded then 1 else 0)) isn)) := by
  intro pre hpre r
  have hinit : Refines S isn capacity [] (TCPReceiver.ofCapacity capacity) :=
    ⟨rfl, Rep.init _ _ _, by simp [TCPReceiver.ofCapacity], by simp⟩
  have hinv : Refines S isn capacity pre r :=
    (h.of_isPrefix hpre).history (Refines S isn capacity) hinit fun _ _ _ hi hok => hi.step hS hok
  refine ⟨hinv.reassembler, fun hseg => ?_⟩
  have hset := hinv.seen hseg
  rw [ackno_eq, if_pos hset, hinv.known hset]
  rfl

/-- A stream numbered across the `2 ^ 32` boundary: SYN at `2 ^ 32 - 2`, then data out of order. -/
theorem receiver_refines_across_boundary :
    (run TCPReceiver.step (TCPReceiver.ofCapacity 8)
      [.segment 0 { header := { seqno := .ofRaw (2 ^ 32 - 2), syn := true } },
       .segment 2 { header := { seqno := .ofRaw 1, fin := true }, payload := [99] },
       .segment 0 { header := { seqno := .ofRaw (2 ^ 32 - 1) }, payload := [97, 98] }]).ackno =
      some (wrap 5 (.ofRaw (2 ^ 32 - 2))) := by
  have h := (receiver_refines ⟨[97, 98, 99], by decide⟩ (.ofRaw (2 ^ 32 - 2)) 8
    [.segment 0 { header := { seqno := .ofRaw (2 ^ 32 - 2), syn := true } },
     .segment 2 { header := { seqno := .ofRaw 1, fin := true }, payload := [99] },
     .segment 0 { header := { seqno := .ofRaw (2 ^ 32 - 1) }, payload := [97, 98] }]
    (by decide) (by decide +kernel) _ (List.prefix_refl _)).2 ⟨0, _, List.mem_cons_self⟩
  rw [h]
  decide +kernel

end TCPReceiver

end Sponge
