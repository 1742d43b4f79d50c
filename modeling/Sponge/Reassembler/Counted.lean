import Sponge.Reassembler.Effect

/-!
# `Reassembler.Counted` — the counters of the reassembler agree

`Counted` is what survives any push of any string at any index: the counters of the reassembler and of its
output agree, the number of waiting bytes is the size of the map, and every stored string is one byte. The
keys at which the loops store and erase do not matter for it, so nothing is assumed about overflows.
-/

namespace Sponge

open Lib

namespace StreamReassembler

variable {r : StreamReassembler}

structure Counted (r : StreamReassembler) : Prop where
  next_eq : r.nextIndex = r.output.writeCount
  balance : r.output.readCount + r.output.buf.length = r.output.writeCount
  outCap  : r.output.capacity = r.capacity
  count   : r.bytesUnAssembled = r.myMap.size
  singles : r.Singles

theorem Counted.init (capacity : Nat) : Counted (ofCapacity capacity) where
  next_eq := rfl
  balance := rfl
  outCap  := rfl
  count   := rfl
  singles := by intro k v hv; simp [ofCapacity] at hv

/-- The right edge of the window, seen from `nextIndex`. -/
theorem Counted.edge (h : Counted r) :
    r.nextIndex + r.output.remainingCapacity = r.output.readCount + r.capacity := by
  have hnext := h.next_eq
  have hbal := h.balance
  have hcap := h.outCap
  have hfits := r.output.fits
  unfold ByteStream.remainingCapacity
  omega

/-! ## One round of each loop, at whatever key it is made -/

section Rounds

variable (key : Nat) (c : UInt8)

@[simp] theorem writeByte_output : (r.writeByte key c).output = (r.output.write [c]).1 := by
  unfold writeByte; dsimp only; split <;> rfl

@[simp] theorem writeByte_nextIndex : (r.writeByte key c).nextIndex = r.nextIndex + 1 := by
  unfold writeByte; dsimp only; split <;> rfl

theorem writeByte_lookup (k : Nat) :
    (r.writeByte key c).myMap[k]? = if k = key then none else r.myMap[k]? := by
  unfold writeByte
  dsimp only
  split
  · rw [Std.ExtTreeMap.getElem?_erase]
    by_cases hk : k = key
    · simp [hk]
    · simp [hk, Ne.symm hk]
  · next hmem =>
      by_cases hk : k = key
      · rw [if_pos hk, hk]
        exact Std.ExtTreeMap.getElem?_eq_none hmem
      · rw [if_neg hk]

theorem remaining_write (hroom : 0 < r.output.remainingCapacity) :
    (r.output.write [c]).1.remainingCapacity = r.output.remainingCapacity - 1 := by
  have hbuf := (ByteStream.write_singleton c hroom).1
  rw [ByteStream.remainingCapacity, hbuf, List.length_append, ByteStream.write_capacity,
    ByteStream.remainingCapacity]
  exact Nat.sub_add_eq _ _ _

/-- Erasing a key and counting down keeps the count, present or not. -/
theorem writeByte_count (h : r.bytesUnAssembled = r.myMap.size) :
    (r.writeByte key c).bytesUnAssembled = (r.writeByte key c).myMap.size := by
  unfold writeByte
  dsimp only
  split
  · next hmem =>
      have hsize := size_erase_of_mem hmem
      dsimp only
      rw [usub_of_le (by omega)]
      omega
  · exact h

theorem Counted.writeByte (h : Counted r) (hroom : 0 < r.output.remainingCapacity) :
    Counted (r.writeByte key c) := by
  obtain ⟨hbuf, hcount⟩ := ByteStream.write_singleton c hroom
  have hframe := frame_writeByte (r := r) key c
  constructor
  case next_eq => rw [writeByte_nextIndex, writeByte_output, hcount, h.next_eq]
  case balance =>
    have hbal := h.balance
    rw [writeByte_output, hbuf, hcount, ByteStream.write_readCount, List.length_append,
      List.length_singleton]
    omega
  case outCap => rw [hframe.outCap, hframe.capacity, h.outCap]
  case count => exact writeByte_count key c h.count
  case singles =>
    intro k v hv
    rw [writeByte_lookup] at hv
    split_ifs at hv
    exact h.singles k v hv

theorem Counted.storeByte (h : Counted r) : Counted (r.storeByte key c) := by
  have hsingles : (r.storeByte key c).Singles := by
    intro k v hv
    rw [storeByte_lookup, Option.or_eq_some_iff] at hv
    rcases hv with hold | ⟨-, hnew⟩
    · exact h.singles k v hold
    · split_ifs at hnew
      exact ⟨c, (Option.some.inj hnew).symm⟩
  unfold StreamReassembler.storeByte at hsingles ⊢
  split at hsingles
  · next hmem => rw [if_pos hmem]; exact h
  · next hmem =>
      rw [if_neg hmem]
      refine ⟨h.next_eq, h.balance, h.outCap, ?_, hsingles⟩
      simp [Std.ExtTreeMap.size_insert, hmem, h.count]

end Rounds

/-! ## The loops, the push and the read -/

theorem Counted.writeLoop {index i : Nat} {cs : List UInt8} (h : Counted r)
    (hroom : cs.length ≤ r.output.remainingCapacity) : Counted (writeLoop index i cs r) := by
  induction cs generalizing i r with
  | nil => exact h
  | cons c cs ih =>
      rw [List.length_cons] at hroom
      refine ih (h.writeByte _ c (by omega)) ?_
      rw [writeByte_output, remaining_write c (by omega)]
      omega

theorem Counted.storeLoop (index i : Nat) (cs : List UInt8) (h : Counted r) :
    Counted (storeLoop index i cs r) := by
  induction cs generalizing i r with
  | nil => exact h
  | cons c cs ih => exact ih (i + 1) (h.storeByte _ c)

theorem Counted.advance {r₁ : StreamReassembler} {cs : List UInt8} (h : Counted r) (ha : Advance r cs r₁) :
    Counted r₁ where
  next_eq := by rw [ha.nextIndex, ha.writeCount, h.next_eq]
  balance := by
    have hbal := h.balance
    rw [ha.readCount, ha.buf, ha.writeCount, List.length_append]
    omega
  outCap  := by rw [ha.outCap, ha.capacity, h.outCap]
  count   := ha.count h.count
  singles := ha.singles h.singles

theorem Counted.drain (h : Counted r) : Counted r.drain := by
  obtain ⟨cs, hadv, -⟩ := advance_drain h.singles
  exact h.advance hadv

theorem Counted.mark (h : Counted r) (b : Bool) : Counted (r.mark b) :=
  ⟨h.next_eq, h.balance, h.outCap, h.count, h.singles⟩

theorem finish_frame (r : StreamReassembler) :
    r.finish.output.buf = r.output.buf ∧ r.finish.output.writeCount = r.output.writeCount ∧
      r.finish.output.readCount = r.output.readCount ∧ r.finish.output.capacity = r.output.capacity ∧
      r.finish.capacity = r.capacity ∧ r.finish.nextIndex = r.nextIndex ∧
      r.finish.bytesUnAssembled = r.bytesUnAssembled ∧ r.finish.myMap = r.myMap ∧
      r.finish.eofFlag = r.eofFlag ∧ r.finish.output.error = r.output.error := by
  unfold finish; split <;> simp

theorem Counted.finish (h : Counted r) : Counted r.finish := by
  obtain ⟨hb, hw, hr, ho, hc, hn, hu, hm, -⟩ := finish_frame r
  refine ⟨?_, ?_, ?_, ?_, ?_⟩
  · rw [hn, hw]; exact h.next_eq
  · rw [hr, hb, hw]; exact h.balance
  · rw [ho, hc]; exact h.outCap
  · rw [hu, hm]; exact h.count
  · unfold Singles
    rw [hm]
    exact h.singles

/-- **The counters agree after any push.** -/
theorem Counted.pushSubstring (h : Counted r) (data : List UInt8) (index : Nat) (eof : Bool) :
    Counted (r.pushSubstring data index eof) := by
  have hp := pushSubstring_routed r data index eof
  generalize r.pushSubstring data index eof = r' at hp ⊢
  cases hp with
  | discarded _ => exact h
  | seen b _ _ _ _ => exact h.mark b
  | stored b _ _ _ _ _ => exact (h.mark b).storeLoop _ _ _
  | written b _ _ _ _ _ =>
      refine (Counted.drain ((h.mark b).writeLoop ?_)).finish
      rw [List.length_take, mark_output]
      exact Nat.min_le_left _ _

/-- The owner reads `len` bytes from the reassembled stream. -/
def readOut (r : StreamReassembler) (len : Nat) : StreamReassembler :=
  { r with output := (r.output.read len).2 }

theorem Counted.readOut (h : Counted r) (len : Nat) : Counted (r.readOut len) where
  next_eq := h.next_eq
  balance := by
    have hbal := h.balance
    simp only [StreamReassembler.readOut, ByteStream.read_readCount, ByteStream.read_buf, List.length_drop,
      ByteStream.read_writeCount]
    omega
  outCap  := h.outCap
  count   := h.count
  singles := h.singles

end StreamReassembler

end Sponge
