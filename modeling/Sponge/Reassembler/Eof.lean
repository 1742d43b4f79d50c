import Sponge.Reassembler.Cover

/-!
# `Reassembler.Eof` — when the end of the stream is signalled early, and when it is not

The reassembler remembers a received `eof` as one boolean and ends its output as soon as nothing is waiting
in the map. That is only right while the last byte of the stream is itself waiting, or already written. An
`eof` that arrives without its last byte (an empty substring ahead of the data, or one cut off by the
remaining capacity) raises the flag all the same, and the next byte written in order ends the stream.

`EndKept` is the condition on the state before such a push that rules this out, and `end_never_early` shows
that it is enough: in a run all of whose `eof` pushes meet it, the output ends only after the last byte.
-/

namespace Sponge

open Lib

namespace StreamReassembler

variable {S : List UInt8} {r : StreamReassembler}

/-- The last byte of an `eof` push of `[i, i + k)` is not lost: the push does not raise the `eof_flag`
    at all, the last byte is already written or already stored, or the push carries it and its part from
    `nextIndex` on fits into the output. -/
def EndKept (r : StreamReassembler) (i k : Nat) : Prop :=
  r.nextIndex + r.capacity < i + k ∨
  (r.nextIndex < i ∧ r.nextIndex + r.capacity ≤ i) ∨
  i + k ≤ r.nextIndex ∨
  i + k - 1 ∈ r.myMap ∨
  (0 < k ∧ k - (r.nextIndex - i) ≤ r.output.remainingCapacity)

instance (r : StreamReassembler) (i k : Nat) : Decidable (r.EndKept i k) := by
  unfold EndKept; infer_instance

/-- An `eof` is remembered only with the last byte of the stream at hand, and acted upon only when that
    byte has been written. -/
structure EofInv (M : Nat) (S : List UInt8) (r : StreamReassembler) : Prop where
  rep    : Rep M S r
  flag   : r.eofFlag = true → r.nextIndex = S.length ∨ S.length - 1 ∈ r.myMap ∧ S ≠ []
  ended  : r.output.isEof = true → r.nextIndex = S.length

/-- The last byte stays at hand when bytes are written. -/
theorem lastByte_advance {M : Nat} {r₁ : StreamReassembler} {cs : List UInt8} (ha : Advance r cs r₁)
    (hrep : Rep M S r₁)
    (h : r.nextIndex = S.length ∨ S.length - 1 ∈ r.myMap ∧ S ≠ [] ∨
      S.length ≤ r.nextIndex + cs.length) :
    r₁.nextIndex = S.length ∨ S.length - 1 ∈ r₁.myMap ∧ S ≠ [] := by
  have hle := hrep.next_le
  have hnext := ha.nextIndex
  rcases h with h | ⟨hmem, hne⟩ | h
  · left; omega
  · by_cases hpast : r.nextIndex ≤ S.length - 1 ∧ S.length - 1 < r.nextIndex + cs.length
    · have := List.length_pos_iff.mpr hne
      left; omega
    · exact Or.inr ⟨(ha.mem_iff _).mpr ⟨hmem, hpast⟩, hne⟩
  · left; omega

/-- With nothing waiting, the last byte is at hand only if it is written. -/
theorem finish_ended {M : Nat} (hrep : Rep M S r)
    (hflag : r.eofFlag = true → r.nextIndex = S.length ∨ S.length - 1 ∈ r.myMap ∧ S ≠ [])
    (hold : r.output.isEof = true → r.nextIndex = S.length) :
    r.finish.output.isEof = true → r.finish.nextIndex = S.length := by
  unfold finish
  split
  · next hdone =>
      rw [Bool.and_eq_true] at hdone
      intro _
      rcases hflag hdone.1 with h | ⟨hmem, -⟩
      · exact h
      · have hpos := size_pos_of_mem hmem
        have hzero : r.bytesUnAssembled = 0 := by simpa [empty] using hdone.2
        rw [hrep.count] at hzero
        omega
  · exact hold

/-- What a raised `eof_flag` says after `mark`: the last byte was at hand before, or the push carries it and
    it fits. The first two cases of `EndKept` do not arise, since they do not raise the flag. -/
theorem EofInv.marked {M : Nat} (h : EofInv M S r) {data : List UInt8} {index : Nat} {eof : Bool}
    (heof : eof = true → index + data.length = S.length ∧ r.EndKept index data.length)
    (hnear : index ≤ r.nextIndex ∨ index < r.nextIndex + r.capacity)
    (hf : (r.mark (r.eofFits data index eof)).eofFlag = true) :
    r.nextIndex = S.length ∨ S.length - 1 ∈ r.myMap ∧ S ≠ [] ∨
      (index + data.length = S.length ∧ 0 < data.length ∧
        data.length - (r.nextIndex - index) ≤ r.output.remainingCapacity) := by
  rw [mark_eofFlag, Bool.or_eq_true, eofFits, Bool.and_eq_true, decide_eq_true_eq] at hf
  have hle := h.rep.next_le
  rcases hf with hf | ⟨he, hcap⟩
  · rcases h.flag hf with hend | hmem
    · exact Or.inl hend
    · exact Or.inr (Or.inl hmem)
  · obtain ⟨hend, hkept⟩ := heof he
    rcases hkept with hk | hk | hk | hk | ⟨hpos, hfit⟩
    · omega
    · omega
    · left; omega
    · rw [hend] at hk
      by_cases hne : S = []
      · left; rw [hne, List.length_nil] at hle ⊢; omega
      · exact Or.inr (Or.inl ⟨hk, hne⟩)
    · exact Or.inr (Or.inr ⟨hend, hpos, hfit⟩)

/-- Draining and closing the output after the writing loop. -/
theorem EofInv.drainFinish {M : Nat} (h : EofInv M S r) (hS : S.length < M) {b : Bool}
    {fresh : List UInt8} {r₁ : StreamReassembler} (hwrite : Advance (r.mark b) fresh r₁)
    (hrep₁ : Rep M S r₁)
    (hmark : (r.mark b).eofFlag = true → r.nextIndex = S.length ∨ S.length - 1 ∈ r.myMap ∧ S ≠ [] ∨
      S.length ≤ r.nextIndex + fresh.length) :
    EofInv M S r₁.drain.finish := by
  obtain ⟨cs, hdrain, -, -, -⟩ := advance_drain hrep₁.singles
  have hall := hwrite.trans hdrain
  have hrep₂ := hrep₁.drain hS
  have hflag : r₁.drain.eofFlag = true →
      r₁.drain.nextIndex = S.length ∨ S.length - 1 ∈ r₁.drain.myMap ∧ S ≠ [] := by
    intro hf
    rw [hall.eofFlag] at hf
    refine lastByte_advance hall hrep₂ ?_
    rw [mark_nextIndex, mark_myMap, List.length_append]
    rcases hmark hf with hend | hmem | hlen
    · exact Or.inl hend
    · exact Or.inr (Or.inl hmem)
    · right; right; omega
  have hended : r₁.drain.output.isEof = true → r₁.drain.nextIndex = S.length := by
    intro he
    rw [hall.isEof] at he
    have hdone := h.ended he
    have hnext := hall.nextIndex
    have hle := hrep₂.next_le
    rw [mark_nextIndex] at hnext
    omega
  obtain ⟨-, -, -, -, -, hfn, -, hfm, hff, -⟩ := finish_frame r₁.drain
  refine ⟨hrep₂.finish, ?_, finish_ended hrep₂ hflag hended⟩
  rw [hff, hfn, hfm]
  exact hflag

/-- **A push keeps the end invariant** if an `eof` comes only at the end of the stream and its last byte
    is kept. Only the bytes below `M` have to be those of the stream. -/
theorem EofInv.pushSubstring {M : Nat} (h : EofInv M S r) (hS : S.length < M) {data : List UInt8}
    {index : Nat} {eof : Bool} (hlt : index + data.length < 2 ^ 64) (hd : Excerpt M S index data)
    (heof : eof = true → index + data.length = S.length ∧ r.EndKept index data.length) :
    EofInv M S (r.pushSubstring data index eof) := by
  have hrep' := h.rep.pushSubstring hS eof hlt hd
  have hp := pushSubstring_cases r eof hlt
  generalize r.pushSubstring data index eof = r' at hp hrep' ⊢
  cases hp with
  | discarded _ => exact h
  | seen hidx hfin =>
      refine ⟨hrep', fun hf => ?_, h.ended⟩
      rcases h.marked heof (Or.inl (by omega)) hf with hend | hmem | ⟨hend, -⟩
      · exact Or.inl hend
      · exact Or.inr hmem
      · exact Or.inl (hfin.symm.trans hend)
  | stored hidx hwin =>
      have hlen : index + (data.take r.output.remainingCapacity).length ≤ 2 ^ 64 := by
        rw [List.length_take]; omega
      refine ⟨hrep', fun hf => ?_, by simpa using h.ended⟩
      rw [storeLoop_nextIndex, mem_storeLoop hlen, mark_nextIndex, mark_myMap]
      rw [storeLoop_eofFlag] at hf
      rcases h.marked heof (Or.inr hwin) hf with hend | ⟨hmem, hne⟩ | ⟨hend, hpos, hfit⟩
      · exact Or.inl hend
      · exact Or.inr ⟨Or.inl hmem, hne⟩
      · -- the whole substring is stored, its last byte included
        refine Or.inr ⟨Or.inr ?_, List.length_pos_iff.mp (by omega)⟩
        rw [List.length_take]
        omega
  | written hidx hfin =>
      have hwrite := advance_fresh (r := r) (r.eofFits data index eof) hlt hidx hfin
      have hrep₁ := (h.rep.mark _).advance hS hwrite (fresh_excerpt hd hidx _)
      refine h.drainFinish hS hwrite hrep₁ fun hf => ?_
      rw [List.length_take, List.length_drop]
      rcases h.marked heof (Or.inl hidx) hf with hend | hmem | ⟨hend, -, hfit⟩
      · exact Or.inl hend
      · exact Or.inr (Or.inl hmem)
      · right; right; omega

end StreamReassembler

namespace Session

open StreamReassembler

/-- A consistent push: the substring exists, and `eof` is passed only at the end of the stream. -/
def Consistent (S : Stream) (_ : Session) : ReassemblerOp → Prop
  | .push i k eof => i + k ≤ S.bytes.length ∧ (eof = true → i + k = S.bytes.length)
  | .read _       => True

/-- A consistent push that keeps the last byte if it carries `eof`. -/
def ConsistentKept (S : Stream) (s : Session) : ReassemblerOp → Prop
  | .push i k eof => i + k ≤ S.bytes.length ∧
      (eof = true → i + k = S.bytes.length ∧ s.reassembler.EndKept i k)
  | .read _       => True

instance (S : Stream) (s : Session) : (op : ReassemblerOp) → Decidable (Consistent S s op)
  | .push i k eof =>
      inferInstanceAs (Decidable (i + k ≤ S.bytes.length ∧ (eof = true → i + k = S.bytes.length)))
  | .read _ => inferInstanceAs (Decidable True)

instance (S : Stream) (s : Session) : (op : ReassemblerOp) → Decidable (ConsistentKept S s op)
  | .push i k eof =>
      inferInstanceAs (Decidable (i + k ≤ S.bytes.length ∧
        (eof = true → i + k = S.bytes.length ∧ s.reassembler.EndKept i k)))
  | .read _ => inferInstanceAs (Decidable True)

/-- The end invariant is kept by every operation that meets the condition. -/
theorem eofInv_step {S : Stream} {s : Session} {op : ReassemblerOp}
    (h : EofInv (2 ^ 64) S.bytes s.reassembler) (hok : ConsistentKept S s op) :
    EofInv (2 ^ 64) S.bytes (s.step S op).reassembler := by
  cases op with
  | push i k eof =>
      obtain ⟨hlen, heof⟩ := hok
      have hk := Stream.length_slice hlen
      have := S.fits
      refine h.pushSubstring S.fits (by rw [hk]; omega) (Excerpt.of_slice _ i k _) ?_
      rw [hk]
      exact heof
  | read len => exact ⟨h.rep.readOut len, h.flag, h.ended⟩

/-- **The end of the stream is not signalled early** in any run of consistent pushes, anywhere inside or
    outside the window, whose `eof` pushes keep the last byte. -/
theorem end_never_early (S : Stream) (capacity : Nat) (ops : List ReassemblerOp)
    (h : Guarded (step S) (ConsistentKept S) (ofCapacity capacity) ops) :
    ∀ pre, pre <+: ops → (after S capacity pre).reassembler.streamOut.inputEnded = true →
      (after S capacity pre).reassembler.streamOut.bytesWritten = S.bytes.length := by
  intro pre hpre hended
  have hinit : EofInv (2 ^ 64) S.bytes (ofCapacity capacity).reassembler :=
    ⟨Rep.init _ _ _, by simp [Session.ofCapacity, StreamReassembler.ofCapacity],
      by simp [Session.ofCapacity, StreamReassembler.ofCapacity, ByteStream.ofCapacity]⟩
  have hinv : EofInv (2 ^ 64) S.bytes (after S capacity pre).reassembler :=
    (h.of_isPrefix hpre).invariant (fun s => EofInv (2 ^ 64) S.bytes s.reassembler) hinit
      fun _ _ hi hok => eofInv_step hi hok
  rw [streamOut, ByteStream.bytesWritten, ← hinv.rep.next_eq]
  exact hinv.ended hended

/-- Data and `eof` ahead of a hole: the stream ends when the hole is filled, not before. -/
theorem end_never_early_hole :
    Guarded (step ⟨[97, 98, 99], by decide⟩) (ConsistentKept ⟨[97, 98, 99], by decide⟩) (ofCapacity 4)
      [.push 2 1 true, .push 0 2 false] ∧
    (after ⟨[97, 98, 99], by decide⟩ 4 [.push 2 1 true, .push 0 2 false]).reassembler.streamOut.bytesWritten
      = 3 :=
  ⟨by decide +kernel,
    end_never_early _ 4 [.push 2 1 true, .push 0 2 false] (by decide +kernel) _ (List.prefix_refl _)
      (by decide +kernel)⟩

/-- An empty substring with `eof` overtakes the data of the two-byte stream: after the first byte the
    output is ended. -/
theorem end_early_empty_eof :
    ¬ ∀ (S : Stream) (capacity : Nat) (ops : List ReassemblerOp),
      Guarded (step S) (Consistent S) (ofCapacity capacity) ops →
      (after S capacity ops).reassembler.streamOut.inputEnded = true →
      (after S capacity ops).reassembler.streamOut.bytesWritten = S.bytes.length := by
  intro h
  have := h ⟨[97, 98], by decide⟩ 10 [.push 2 0 true, .push 0 1 false] (by decide +kernel)
    (by decide +kernel)
  revert this
  decide +kernel

/-- The other way to lose the last byte: two bytes are buffered unread, and the four bytes that end the
    stream are cut down to the two that still fit. -/
example :
    Guarded (step ⟨[97, 98, 99, 100, 101, 102], by decide⟩)
      (Consistent ⟨[97, 98, 99, 100, 101, 102], by decide⟩) (ofCapacity 4)
      [.push 0 2 false, .push 2 4 true] ∧
    (after ⟨[97, 98, 99, 100, 101, 102], by decide⟩ 4
      [.push 0 2 false, .push 2 4 true]).reassembler.streamOut.inputEnded = true ∧
    (after ⟨[97, 98, 99, 100, 101, 102], by decide⟩ 4
      [.push 0 2 false, .push 2 4 true]).reassembler.streamOut.bytesWritten = 4 := by
  decide +kernel

end Session

end Sponge
