import Sponge.Reassembler.Counted
import Sponge.Lib.Excerpt

/-!
# `Reassembler.Rep` — the representation invariant

`Rep M S r`: the reassembler `r` has been fed excerpts of the stream `S`. Its counters agree, the bytes
read so far followed by the buffered ones are an initial part of `S`, and every stored byte lies at or
after `nextIndex` and, below `M`, is the byte of `S` at its index. A caller whose indices may be off by a
multiple of `2 ^ 32` takes `M = 2 ^ 32`; stored bytes beyond it are then unconstrained, and unreachable as
long as `S` is shorter than `M`.
-/

namespace Sponge

open Lib

namespace StreamReassembler

variable {M : Nat} {S S' : List UInt8} {r r₁ : StreamReassembler}

structure Rep (M : Nat) (S : List UInt8) (r : StreamReassembler) : Prop where
  next_eq : r.nextIndex = r.output.writeCount
  next_le : r.nextIndex ≤ S.length
  balance : r.output.readCount + r.output.buf.length = r.output.writeCount
  buf_eq  : S.take r.output.readCount ++ r.output.buf = S.take r.nextIndex
  outCap  : r.output.capacity = r.capacity
  count   : r.bytesUnAssembled = r.myMap.size
  stored  : ∀ (k : Nat) (v : List UInt8), r.myMap[k]? = some v →
    r.nextIndex ≤ k ∧ ∃ c, v = [c] ∧ (k < M → S[k]? = some c)

theorem Rep.init (M : Nat) (S : List UInt8) (capacity : Nat) : Rep M S (ofCapacity capacity) where
  next_eq := rfl
  next_le := Nat.zero_le _
  balance := rfl
  buf_eq := rfl
  outCap := rfl
  count := rfl
  stored := by intro k v hv; simp [ofCapacity] at hv

theorem Rep.singles (h : Rep M S r) : r.Singles := fun k v hv =>
  let ⟨c, hc, _⟩ := (h.stored k v hv).2
  ⟨c, hc⟩

theorem Rep.counted (h : Rep M S r) : Counted r :=
  ⟨h.next_eq, h.balance, h.outCap, h.count, h.singles⟩

/-- Where the counters are known to agree, three things are left to show. -/
theorem Rep.of_counted (hc : Counted r) (hle : r.nextIndex ≤ S.length)
    (hbuf : S.take r.output.readCount ++ r.output.buf = S.take r.nextIndex)
    (hstored : ∀ (k : Nat) (v : List UInt8), r.myMap[k]? = some v →
      r.nextIndex ≤ k ∧ ∃ c, v = [c] ∧ (k < M → S[k]? = some c)) : Rep M S r :=
  ⟨hc.next_eq, hle, hc.balance, hbuf, hc.outCap, hc.count, hstored⟩

/-- The stream may grow at its end. -/
theorem Rep.mono (h : Rep M S r) (hS : S <+: S') : Rep M S' r := by
  obtain ⟨t, rfl⟩ := hS
  have hread : r.output.readCount ≤ S.length := by
    have := h.balance; have := h.next_eq; have := h.next_le; omega
  refine ⟨h.next_eq, ?_, h.balance, ?_, h.outCap, h.count, ?_⟩
  · rw [List.length_append]; have := h.next_le; omega
  · rw [List.take_append_of_le_length hread, List.take_append_of_le_length h.next_le]; exact h.buf_eq
  · intro k v hv
    obtain ⟨hk, c, hc, hS⟩ := h.stored k v hv
    refine ⟨hk, c, hc, fun hM => ?_⟩
    have hold := hS hM
    rwa [List.getElem?_append_left (List.getElem?_eq_some_iff.mp hold).1]

theorem Rep.mark (h : Rep M S r) (b : Bool) : Rep M S (r.mark b) :=
  ⟨h.next_eq, h.next_le, h.balance, h.buf_eq, h.outCap, h.count, h.stored⟩

/-- Storing an excerpt that starts after `nextIndex`. -/
theorem Rep.storeLoop (h : Rep M S r) {index : Nat} {cs : List UInt8} (hidx : r.nextIndex < index)
    (hlt : index + cs.length ≤ 2 ^ 64) (hcs : Excerpt M S index cs) :
    Rep M S (storeLoop index 0 cs r) := by
  refine Rep.of_counted (h.counted.storeLoop index 0 cs) ?_ ?_ ?_
  · rw [storeLoop_nextIndex]; exact h.next_le
  · rw [storeLoop_output, storeLoop_nextIndex]; exact h.buf_eq
  · intro k v hv
    rw [storeLoop_lookup (by omega), Nat.add_zero, Option.or_eq_some_iff] at hv
    rw [storeLoop_nextIndex]
    rcases hv with hold | ⟨-, hnew⟩
    · exact h.stored k v hold
    · split_ifs at hnew with hk
      obtain ⟨c, hc, rfl⟩ := Option.map_eq_some_iff.mp hnew
      refine ⟨by omega, c, rfl, fun hM => ?_⟩
      have := hcs (k - index) c hc (by omega)
      rwa [show index + (k - index) = k by omega] at this

/-- Writing an excerpt at `nextIndex`. -/
theorem Rep.advance (h : Rep M S r) (hM : S.length < M) {cs : List UInt8} (ha : Advance r cs r₁)
    (hcs : Excerpt M S r.nextIndex cs) : Rep M S r₁ := by
  refine Rep.of_counted (h.counted.advance ha) ?_ ?_ ?_
  · rw [ha.nextIndex]
    exact hcs.length_le h.next_le hM
  · rw [ha.readCount, ha.buf, ha.nextIndex, ← List.append_assoc, h.buf_eq]
    exact hcs.take_append h.next_le hM
  · intro k v hv
    rw [ha.lookup] at hv
    split_ifs at hv with hk
    obtain ⟨hle, hc⟩ := h.stored k v hv
    exact ⟨by rw [ha.nextIndex]; omega, hc⟩

/-- Draining the map writes an excerpt, too. -/
theorem Rep.drain (h : Rep M S r) (hM : S.length < M) : Rep M S r.drain := by
  obtain ⟨cs, hadv, -, hget, -⟩ := advance_drain h.singles
  refine h.advance hM hadv ?_
  intro j c hj hlt
  obtain ⟨-, d, hd, hS⟩ := h.stored _ _ (hget j c hj)
  obtain rfl : c = d := by simpa using hd
  exact hS hlt

theorem Rep.finish (h : Rep M S r) : Rep M S r.finish := by
  obtain ⟨hb, -, hr, -, -, hn, -, hm, -⟩ := finish_frame r
  refine Rep.of_counted h.counted.finish ?_ ?_ ?_
  · rw [hn]; exact h.next_le
  · rw [hr, hb, hn]; exact h.buf_eq
  · rw [hm, hn]; exact h.stored

/-- The bytes written by an in-order push are an excerpt at `nextIndex`. -/
theorem fresh_excerpt {data : List UInt8} {index next : Nat} (hd : Excerpt M S index data)
    (hidx : index ≤ next) (k : Nat) : Excerpt M S next ((data.drop (next - index)).take k) := by
  have := (hd.drop (next - index)).take k
  rwa [show index + (next - index) = next by omega] at this

/-- The writing loop of an in-order push. -/
theorem advance_fresh {data : List UInt8} {index : Nat} (b : Bool) (hlt : index + data.length < 2 ^ 64)
    (hidx : index ≤ r.nextIndex) (hend : r.nextIndex ≤ index + data.length) :
    Advance (r.mark b) ((data.drop (r.nextIndex - index)).take r.output.remainingCapacity)
      (writeLoop r.nextIndex 0 ((data.drop (r.nextIndex - index)).take r.output.remainingCapacity)
        (r.mark b)) := by
  refine advance_writeLoop (by simp) ?_ ?_
  · rw [List.length_take, List.length_drop]; omega
  · rw [List.length_take, mark_output]; omega

/-- **Every push of an excerpt keeps the invariant**, wherever it lies. -/
theorem Rep.pushSubstring (h : Rep M S r) (hM : S.length < M) {data : List UInt8} {index : Nat}
    (eof : Bool) (hlt : index + data.length < 2 ^ 64) (hd : Excerpt M S index data) :
    Rep M S (r.pushSubstring data index eof) := by
  have hp := pushSubstring_cases r eof hlt
  generalize r.pushSubstring data index eof = r' at hp ⊢
  cases hp with
  | discarded _ => exact h
  | seen _ _ => exact h.mark _
  | stored hidx _ =>
      refine (h.mark _).storeLoop hidx ?_ (hd.take _)
      rw [List.length_take]; omega
  | written hidx hend =>
      refine Rep.finish (Rep.drain ?_ hM)
      exact (h.mark _).advance hM (advance_fresh _ hlt hidx hend) (fresh_excerpt hd hidx _)

/-! ## Reads -/

/-- What is read next are the next bytes of the stream. -/
theorem Rep.take_read (h : Rep M S r) (len : Nat) :
    S.take (r.output.read len).2.readCount = S.take r.output.readCount ++ r.output.buf.take len := by
  have hread : (S.take r.output.readCount).length = r.output.readCount := by
    have := h.balance; have := h.next_eq; have := h.next_le
    rw [List.length_take]; omega
  have hle : r.output.readCount + min len r.output.buf.length ≤ r.nextIndex := by
    have := h.balance; have := h.next_eq; omega
  have hcut := congrArg (List.take (r.output.readCount + min len r.output.buf.length)) h.buf_eq
  rw [List.take_take, Nat.min_eq_left hle, List.take_append, hread,
    List.take_of_length_le (by omega), Nat.add_sub_cancel_left] at hcut
  rw [ByteStream.read_readCount, ← hcut, ← List.take_eq_take_min]

theorem Rep.readOut (h : Rep M S r) (len : Nat) : Rep M S (r.readOut len) := by
  refine Rep.of_counted (h.counted.readOut len) h.next_le ?_ h.stored
  -- what is read moves from the front of the buffer to the bytes already read
  simp only [StreamReassembler.readOut, ByteStream.read_buf]
  rw [h.take_read len, List.append_assoc, List.take_append_drop, h.buf_eq]

/-- An error on the output changes nothing the invariant reads. -/
theorem Rep.setError (h : Rep M S r) : Rep M S { r with output := r.output.setError } :=
  ⟨h.next_eq, h.next_le, h.balance, h.buf_eq, h.outCap, h.count, h.stored⟩

end StreamReassembler

end Sponge
