import Sponge.Reassembler.Owner

/-!
# `Reassembler.Memory` — the memory the reassembler takes

The capacity is meant to bound the assembled and the unassembled bytes together, and bytes beyond the window
are meant to be dropped. The code cuts what it stores ahead of a hole to the free space of the output, but
counts that space from the index of the push and not from `nextIndex`; so a push across the right edge of the
window is kept beyond the edge, and several of them can exceed the capacity.

`KeepsWindow` says of a push, before it is made, that what it stores ends at the edge, and `memory_bounded`
shows that this is enough. Indices may wrap around `2 ^ 64`: the invariant speaks about the true index of
every key.
-/

namespace Sponge

open Lib

namespace StreamReassembler

variable {r : StreamReassembler}

/-- The counters agree, and every stored byte has an index in the window; its key is that index modulo
    `2 ^ 64`. -/
structure Bounded (r : StreamReassembler) : Prop where
  counted : Counted r
  inside  : ∀ k ∈ r.myMap, ∃ t, t % 2 ^ 64 = k ∧ r.nextIndex ≤ t ∧ t < r.output.readCount + r.capacity

theorem Bounded.init (capacity : Nat) : Bounded (ofCapacity capacity) where
  counted := Counted.init capacity
  inside  := by intro k hk; simp [ofCapacity] at hk

/-- Assembled and unassembled bytes together fit into the window. -/
theorem Bounded.size_le (h : Bounded r) : r.output.bufferSize + r.unassembledBytes ≤ r.capacity := by
  have hsize := size_le_of_image h.inside
  have hcount := h.counted.count
  have hedge := h.counted.edge
  have hcap := h.counted.outCap
  have hfits := r.output.fits
  unfold ByteStream.remainingCapacity at hedge
  unfold ByteStream.bufferSize unassembledBytes
  omega

theorem Bounded.mark (h : Bounded r) (b : Bool) : Bounded (r.mark b) := ⟨h.counted.mark b, h.inside⟩

theorem Bounded.finish (h : Bounded r) : Bounded r.finish := by
  obtain ⟨-, -, hr, -, hc, hn, -, hm, -⟩ := finish_frame r
  refine ⟨h.counted.finish, ?_⟩
  rw [hr, hc, hn, hm]
  exact h.inside

/-! ## The loops -/

theorem mem_writeByte {key k : Nat} {c : UInt8} :
    k ∈ (r.writeByte key c).myMap ↔ k ≠ key ∧ k ∈ r.myMap := by
  rw [Std.ExtTreeMap.mem_iff_isSome_getElem?, Std.ExtTreeMap.mem_iff_isSome_getElem?, writeByte_lookup]
  split_ifs with hk <;> simp [hk]

/-- One round of the writing loop, which erases the key of the index it writes. -/
theorem Bounded.writeByte (h : Bounded r) {key : Nat} (c : UInt8) (hkey : key = r.nextIndex % 2 ^ 64)
    (hroom : 0 < r.output.remainingCapacity) : Bounded (r.writeByte key c) := by
  have hframe := frame_writeByte (r := r) key c
  refine ⟨h.counted.writeByte key c hroom, fun k hk => ?_⟩
  obtain ⟨hne, hold⟩ := mem_writeByte.mp hk
  obtain ⟨t, rfl, hlo, hhi⟩ := h.inside k hold
  refine ⟨t, rfl, ?_, by rw [hframe.readCount, hframe.capacity]; exact hhi⟩
  rw [writeByte_nextIndex]
  -- the index just written is not stored any more
  have hne' : t ≠ r.nextIndex := by
    rintro rfl
    exact hne hkey.symm
  omega

theorem Bounded.writeLoop {index i : Nat} {cs : List UInt8} (h : Bounded r) (hi : r.nextIndex = index + i)
    (hroom : cs.length ≤ r.output.remainingCapacity) : Bounded (writeLoop index i cs r) := by
  induction cs generalizing i r with
  | nil => exact h
  | cons c cs ih =>
      rw [List.length_cons] at hroom
      have hkey : uadd 64 index i = r.nextIndex % 2 ^ 64 := by rw [uadd, hi]
      refine ih (h.writeByte c hkey (by omega)) ?_ ?_
      · rw [writeByte_nextIndex, hi, Nat.add_assoc]
      · rw [writeByte_output, remaining_write c (by omega)]
        omega

/-- Every index the draining loop passes over is a key itself, hence below `2 ^ 64`. -/
theorem Bounded.drain (h : Bounded r) : Bounded r.drain := by
  obtain ⟨cs, hadv, -, hget, -⟩ := advance_drain h.counted.singles
  refine ⟨h.counted.drain, fun k hk => ?_⟩
  obtain ⟨hold, hpast⟩ := (hadv.mem_iff k).mp hk
  obtain ⟨t, ht, hlo, hhi⟩ := h.inside k hold
  refine ⟨t, ht, ?_, by rw [hadv.readCount, hadv.capacity]; exact hhi⟩
  rw [hadv.nextIndex]
  by_contra hlt
  have hj : t - r.nextIndex < cs.length := by omega
  have hstored := hget _ _ (List.getElem?_eq_getElem hj)
  rw [show r.nextIndex + (t - r.nextIndex) = t by omega] at hstored
  have hmem : t ∈ r.myMap := by
    rw [Std.ExtTreeMap.mem_iff_isSome_getElem?, hstored]; rfl
  obtain ⟨t', ht', -, -⟩ := h.inside t hmem
  have hsmall : t < 2 ^ 64 := by
    rw [← ht']
    exact Nat.mod_lt _ (by decide)
  rw [Nat.mod_eq_of_lt hsmall] at ht
  omega

theorem mem_storeByte {key k : Nat} {c : UInt8} :
    k ∈ (r.storeByte key c).myMap ↔ k ∈ r.myMap ∨ k = key := by
  rw [Std.ExtTreeMap.mem_iff_isSome_getElem?, Std.ExtTreeMap.mem_iff_isSome_getElem?, storeByte_lookup,
    Option.isSome_or, Bool.or_eq_true]
  split_ifs with hk <;> simp [hk]

/-- The storing loop keeps the bound if its last byte lies in the window. -/
theorem Bounded.storeLoop {index i : Nat} {cs : List UInt8} (h : Bounded r) (hlo : r.nextIndex ≤ index + i)
    (hhi : cs = [] ∨ index + i + cs.length ≤ r.output.readCount + r.capacity) :
    Bounded (storeLoop index i cs r) := by
  induction cs generalizing i r with
  | nil => exact h
  | cons c cs ih =>
      have hend := hhi.resolve_left (List.cons_ne_nil c cs)
      rw [List.length_cons] at hend
      obtain ⟨hout, hcap, hnext, -⟩ := storeLoop_frame index i [c] r
      rw [StreamReassembler.storeLoop, StreamReassembler.storeLoop] at hout hcap hnext
      have hbyte : Bounded (r.storeByte (uadd 64 index i) c) := by
        refine ⟨h.counted.storeByte _ c, fun k hk => ?_⟩
        rw [hout, hcap, hnext]
        rcases mem_storeByte.mp hk with hold | rfl
        · exact h.inside k hold
        · exact ⟨index + i, rfl, hlo, by omega⟩
      refine ih hbyte ?_ (Or.inr ?_)
      · rw [hnext]; omega
      · rw [hout, hcap]; omega

/-! ## Pushes -/

/-- What a push stores ahead of a hole, if anything, ends inside the window. A push that is discarded or that
    writes at `nextIndex` stores nothing. -/
def KeepsWindow (r : StreamReassembler) : StreamOp → Prop
  | .push data index _ =>
      r.nextIndex < index.toNat → index.toNat - r.nextIndex < r.capacity →
      r.nextIndex ≤ uadd 64 index.toNat data.length →
      min data.length r.output.remainingCapacity = 0 ∨
        index.toNat + min data.length r.output.remainingCapacity ≤ r.output.bytesRead + r.capacity
  | .read _            => True
  | .pop len           => len ≤ r.output.bufferSize

instance (r : StreamReassembler) : (op : StreamOp) → Decidable (KeepsWindow r op)
  | .push data index _ =>
      inferInstanceAs (Decidable (r.nextIndex < index.toNat → index.toNat - r.nextIndex < r.capacity →
        r.nextIndex ≤ uadd 64 index.toNat data.length →
        min data.length r.output.remainingCapacity = 0 ∨
          index.toNat + min data.length r.output.remainingCapacity ≤ r.output.bytesRead + r.capacity))
  | .read _            => inferInstanceAs (Decidable True)
  | .pop len           => inferInstanceAs (Decidable (len ≤ r.output.bufferSize))

theorem Bounded.push (h : Bounded r) {data : List UInt8} {index : UInt64} {eof : Bool}
    (hok : KeepsWindow r (.push data index eof)) : Bounded (r.pushSubstring data index.toNat eof) := by
  have hp := pushSubstring_routed r data index.toNat eof
  generalize r.pushSubstring data index.toNat eof = r' at hp ⊢
  cases hp with
  | discarded _ => exact h
  | seen b _ _ _ _ => exact h.mark b
  | stored b _ _ hidx hnear hend =>
      refine (h.mark b).storeLoop hidx.le ?_
      rw [← List.length_eq_zero_iff, List.length_take, Nat.min_comm]
      exact hok hidx hnear hend
  | written b _ _ _ _ _ =>
      refine (Bounded.drain ((h.mark b).writeLoop rfl ?_)).finish
      rw [List.length_take, mark_output]
      exact Nat.min_le_left _ _

theorem Bounded.readOut (h : Bounded r) (len : Nat) : Bounded (r.readOut len) := by
  refine ⟨h.counted.readOut len, fun k hk => ?_⟩
  obtain ⟨t, ht, hlo, hhi⟩ := h.inside k hk
  refine ⟨t, ht, hlo, Nat.lt_of_lt_of_le hhi ?_⟩
  -- a read only moves the window to the right
  simp only [StreamReassembler.readOut, ByteStream.read_readCount]
  omega

theorem Bounded.act {op : StreamOp} (h : Bounded r) (hok : KeepsWindow r op) : Bounded (r.act op) := by
  cases op with
  | push data index eof => exact h.push hok
  | read len => exact h.readOut len
  | pop len =>
      rw [StreamReassembler.act, popOut_eq_readOut hok]
      exact h.readOut len

theorem capacity_act (op : StreamOp) : (r.act op).capacity = r.capacity := by
  cases op with
  | push data index eof => exact (pushFrame_pushSubstring r data index.toNat eof).capacity
  | read len => rfl
  | pop len => rfl

/-- **The memory is bounded** in every run of pushes of any strings at any indices, interleaved with reads and
    pops, in which what is stored ahead of a hole ends inside the window: at every moment the buffered and the
    waiting bytes together are within the capacity, and no byte is kept whose index lies beyond the window. -/
theorem memory_bounded (capacity : Nat) (ops : List StreamOp)
    (h : Guarded act KeepsWindow (ofCapacity capacity) ops) :
    ∀ pre, pre <+: ops →
      let r := run act (ofCapacity capacity) pre
      r.streamOut.bufferSize + r.unassembledBytes ≤ capacity ∧
      r.streamOut.bytesWritten ≤ r.streamOut.bytesRead + capacity ∧
      ∀ k ∈ r.myMap, k < r.streamOut.bytesRead + capacity := by
  intro pre hpre r
  have hinv : Bounded r ∧ r.capacity = capacity :=
    (h.of_isPrefix hpre).invariant (fun r => Bounded r ∧ r.capacity = capacity)
      ⟨Bounded.init capacity, rfl⟩ fun r op hr hok => ⟨hr.1.act hok, (capacity_act op).trans hr.2⟩
  obtain ⟨hb, hcap⟩ := hinv
  rw [← hcap]
  refine ⟨hb.size_le, ?_, fun k hk => ?_⟩
  · have hedge := hb.counted.edge
    have hnext := hb.counted.next_eq
    unfold streamOut ByteStream.bytesWritten ByteStream.bytesRead
    omega
  · obtain ⟨t, rfl, -, hhi⟩ := hb.inside k hk
    exact Nat.lt_of_le_of_lt (Nat.mod_le _ _) hhi

/-- A hole, an overlap and a read, all inside the window. -/
def withHole : List StreamOp :=
  [.push [98, 99] 1 false, .push [97] 0 false, .read 2, .push [101, 102] 4 true, .push [7] 100 false]

theorem memory_bounded_hole :
    Guarded act KeepsWindow (ofCapacity 4) withHole ∧ (run act (ofCapacity 4) withHole).unassembledBytes ≤ 4 :=
  have hrun : Guarded act KeepsWindow (ofCapacity 4) withHole := by decide +kernel
  ⟨hrun, le_trans (Nat.le_add_left _ _) (memory_bounded 4 withHole hrun withHole (List.prefix_refl _)).1⟩

/-- Two bytes are buffered; two more are stored at the edge of the window, and then one before them: five
    bytes with a capacity of four. -/
theorem memory_exceeded :
    ¬ ∀ (capacity : Nat) (ops : List StreamOp), Guarded act PopFits (ofCapacity capacity) ops →
      let r := run act (ofCapacity capacity) ops
      r.streamOut.bufferSize + r.unassembledBytes ≤ capacity ∧
      ∀ k ∈ r.myMap, k < r.streamOut.bytesRead + capacity := by
  intro h
  have hsize := (h 4 [.push [97, 98] 0 false, .push [101, 102] 4 false, .push [100] 3 false]
    (by decide +kernel)).1
  revert hsize
  decide +kernel

end StreamReassembler

end Sponge
