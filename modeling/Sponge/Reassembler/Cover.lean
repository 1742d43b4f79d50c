import Sponge.Reassembler.Rep
import Sponge.Lib.Run
import Sponge.Lib.Coverage

/-!
# `Reassembler.Cover` — reassembly is complete and independent of order

A `Session` is a reassembler together with the bytes its owner has read so far. Its operations push
substrings of one stream `S` and read from the output. As long as every pushed substring ends inside the
window at the time of its push, the written bytes are exactly the longest initial part of `S` covered by
the pushes, and the map holds exactly the pushed indices beyond it (`reassembly_complete`).

The invariant is `Covered`: the pushed indices are those below `nextIndex` and those in the map, the index
`nextIndex` itself is not stored, and everything stored lies inside the window. The last clause is why the
draining loop never stops at a full output with a byte left behind.
-/

namespace Sponge

open Lib

/-- A byte stream whose positions are 64-bit indices. -/
structure Stream where
  bytes : List UInt8
  fits  : bytes.length < 2 ^ 64

/-- The substring `S[i .. i + k)`. -/
def Stream.slice (S : Stream) (i k : Nat) : List UInt8 := (S.bytes.drop i).take k

theorem Stream.length_slice {S : Stream} {i k : Nat} (h : i + k ≤ S.bytes.length) :
    (S.slice i k).length = k := by
  rw [Stream.slice, List.length_take, List.length_drop]; omega

/-- What the owner of a reassembler does: push `S[i .. i + k)`, or read. -/
inductive ReassemblerOp where
  | push (i k : Nat) (eof : Bool)
  | read (len : Nat)
deriving DecidableEq

/-- A reassembler and the bytes already read from its output. -/
structure Session where
  reassembler : StreamReassembler
  taken       : List UInt8

namespace Session

def ofCapacity (capacity : Nat) : Session := ⟨StreamReassembler.ofCapacity capacity, []⟩

/-- The bytes ever written to the output: those already read followed by those still buffered. -/
def written (s : Session) : List UInt8 := s.taken ++ s.reassembler.output.buf

def step (S : Stream) (s : Session) : ReassemblerOp → Session
  | .push i k eof => { s with reassembler := s.reassembler.pushSubstring (S.slice i k) i eof }
  | .read len =>
      { reassembler := s.reassembler.readOut len
        taken := s.taken ++ (s.reassembler.output.read len).1 }

/-- The substring exists and ends inside the window. -/
def InWindow (S : Stream) (s : Session) : ReassemblerOp → Prop
  | .push i k _ => i + k ≤ S.bytes.length ∧
      i + k ≤ s.reassembler.output.bytesRead + s.reassembler.capacity
  | .read _     => True

instance (S : Stream) (s : Session) : (op : ReassemblerOp) → Decidable (InWindow S s op)
  | .push i k _ =>
      inferInstanceAs (Decidable (i + k ≤ S.bytes.length ∧
        i + k ≤ s.reassembler.output.bytesRead + s.reassembler.capacity))
  | .read _ => inferInstanceAs (Decidable True)

end Session

/-- The indices covered by the pushes of a run. -/
def pushedIndices : List ReassemblerOp → Finset Nat
  | []                 => ∅
  | .push i k _ :: ops => Finset.Ico i (i + k) ∪ pushedIndices ops
  | .read _ :: ops     => pushedIndices ops

theorem mem_pushedIndices {ops : List ReassemblerOp} {x : Nat} :
    x ∈ pushedIndices ops ↔ ∃ i k eof, .push i k eof ∈ ops ∧ i ≤ x ∧ x < i + k := by
  induction ops with
  | nil => simp [pushedIndices]
  | cons op ops ih =>
      cases op with
      | push i k eof =>
          simp only [pushedIndices, Finset.mem_union, Finset.mem_Ico, ih, List.mem_cons]
          constructor
          · rintro (⟨h₁, h₂⟩ | ⟨i', k', e, hmem, h⟩)
            · exact ⟨i, k, eof, Or.inl rfl, h₁, h₂⟩
            · exact ⟨i', k', e, Or.inr hmem, h⟩
          · rintro ⟨i', k', e, heq | hmem, h⟩
            · obtain ⟨rfl, rfl, rfl⟩ := ReassemblerOp.push.inj heq
              exact Or.inl h
            · exact Or.inr ⟨i', k', e, hmem, h⟩
      | read len => simp [pushedIndices, ih]

namespace StreamReassembler

variable {S : Stream} {r r' : StreamReassembler}

/-! ## The invariant -/

/-- `r` holds exactly the indices `C`, some written, the others stored inside the window. -/
structure Covered (S : List UInt8) (C : Nat → Prop) (r : StreamReassembler) : Prop where
  rep    : Rep (2 ^ 64) S r
  held   : ∀ k, C k ↔ k < r.nextIndex ∨ k ∈ r.myMap
  free   : r.nextIndex ∉ r.myMap
  window : ∀ k ∈ r.myMap, k < r.output.readCount + r.capacity

theorem mem_storeLoop {index : Nat} {cs : List UInt8} (h : index + cs.length ≤ 2 ^ 64) (k : Nat) :
    k ∈ (storeLoop index 0 cs r).myMap ↔ k ∈ r.myMap ∨ (index ≤ k ∧ k < index + cs.length) := by
  rw [Std.ExtTreeMap.mem_iff_isSome_getElem?, Std.ExtTreeMap.mem_iff_isSome_getElem?,
    storeLoop_lookup (by omega), Nat.add_zero, Option.isSome_or, Bool.or_eq_true]
  apply or_congr_right
  split_ifs with hk
  · rw [Option.isSome_map, isSome_getElem?]
    omega
  · simp [hk]

section Steps

variable {C : Nat → Prop} {S : List UInt8}

theorem Covered.congr (h : Covered S C r) {D : Nat → Prop} (heq : ∀ k, D k ↔ C k) : Covered S D r :=
  ⟨h.rep, fun k => (heq k).trans (h.held k), h.free, h.window⟩

theorem Covered.mark (h : Covered S C r) (b : Bool) : Covered S C (r.mark b) :=
  ⟨h.rep.mark b, h.held, h.free, h.window⟩

/-- What was written already adds nothing. -/
theorem Covered.old (h : Covered S C r) {i n : Nat} (hold : ∀ k, i ≤ k → k < i + n → k < r.nextIndex) :
    Covered S (fun k => C k ∨ (i ≤ k ∧ k < i + n)) r := by
  refine h.congr fun k => ⟨?_, Or.inl⟩
  rintro (hk | ⟨hlo, hhi⟩)
  · exact hk
  · exact (h.held k).mpr (Or.inl (hold k hlo hhi))

theorem Covered.storeLoop (h : Covered S C r) {index : Nat} {cs : List UInt8} (hidx : r.nextIndex < index)
    (hlt : index + cs.length ≤ 2 ^ 64) (hcs : Excerpt (2 ^ 64) S index cs)
    (hwin : index + cs.length ≤ r.output.readCount + r.capacity) :
    Covered S (fun k => C k ∨ (index ≤ k ∧ k < index + cs.length)) (storeLoop index 0 cs r) := by
  refine ⟨h.rep.storeLoop hidx hlt hcs, fun k => ?_, ?_, ?_⟩
  · rw [storeLoop_nextIndex, mem_storeLoop hlt, h.held k, or_assoc]
  · rw [storeLoop_nextIndex, mem_storeLoop hlt]
    rintro (hk | ⟨hlo, -⟩)
    · exact h.free hk
    · omega
  · intro k hk
    rw [mem_storeLoop hlt] at hk
    rw [storeLoop_output, storeLoop_capacity]
    rcases hk with hk | ⟨-, hhi⟩
    · exact h.window k hk
    · omega

/-- Writing `fresh` at `nextIndex` and then draining the map. What the draining loop adds was stored, so only
    the indices of `fresh` are new. -/
theorem Covered.writeDrain (h : Covered S C r) {fresh : List UInt8} {r₁ : StreamReassembler}
    (hwrite : Advance r fresh r₁) (hrep : Rep (2 ^ 64) S r₁.drain.finish) :
    Covered S (fun k => C k ∨ k < r.nextIndex + fresh.length) r₁.drain.finish := by
  obtain ⟨cs, hdrain, -, hget, hstop⟩ := advance_drain (hwrite.singles h.rep.singles)
  have hall := hwrite.trans hdrain
  have hnext := hall.nextIndex
  have hmem := hall.mem_iff
  obtain ⟨-, -, hfr, -, hfc, hfn, -, hfm, -⟩ := finish_frame r₁.drain
  have hdrained : ∀ k, r.nextIndex + fresh.length ≤ k → k < r.nextIndex + (fresh ++ cs).length →
      k ∈ r.myMap := by
    intro k hlo hhi
    rw [List.length_append] at hhi
    have hj : k - (r.nextIndex + fresh.length) < cs.length := by omega
    have hstored := hget _ _ (List.getElem?_eq_getElem hj)
    have hidx : r₁.nextIndex + (k - (r.nextIndex + fresh.length)) = k := by
      rw [hwrite.nextIndex]; omega
    rw [hidx] at hstored
    have : k ∈ r₁.myMap := Std.ExtTreeMap.mem_iff_isSome_getElem?.mpr (by rw [hstored]; rfl)
    exact ((hwrite.mem_iff k).mp this).1
  refine ⟨hrep, fun k => ?_, ?_, ?_⟩
  · rw [hfn, hfm, hmem, hnext, h.held k]
    constructor
    · rintro ((hk | hk) | hk)
      · left; omega
      · by_cases hpast : k < r.nextIndex + (fresh ++ cs).length
        · exact Or.inl hpast
        · exact Or.inr ⟨hk, fun hin => hpast hin.2⟩
      · left; rw [List.length_append]; omega
    · rintro (hk | ⟨hk, -⟩)
      · by_cases hlo : r.nextIndex + fresh.length ≤ k
        · exact Or.inl (Or.inr (hdrained k hlo hk))
        · exact Or.inr (by omega)
      · exact Or.inl (Or.inr hk)
  · -- a byte left at `nextIndex` would mean a full output, hence a byte outside the window
    rw [hfn, hfm]
    intro hleft
    have hfull := hstop hleft
    have hin := h.window _ ((hmem _).mp hleft).1
    have hedge := h.rep.counted.edge
    have hrem := hall.remaining
    omega
  · intro k hk
    rw [hfm, hmem] at hk
    rw [hfr, hfc, hall.readCount, hall.capacity]
    exact h.window k hk.1

/-- A push whose end lies inside the window adds exactly its own indices. -/
theorem Covered.pushSubstring (h : Covered S C r)
    (hS : S.length < 2 ^ 64) {data : List UInt8} {index : Nat} (eof : Bool)
    (hd : Excerpt (2 ^ 64) S index data) (hend : index + data.length ≤ S.length)
    (hwin : index + data.length ≤ r.output.readCount + r.capacity) :
    Covered S (fun k => C k ∨ (index ≤ k ∧ k < index + data.length))
      (r.pushSubstring data index eof) := by
  have hlt : index + data.length < 2 ^ 64 := by omega
  have hedge := h.rep.counted.edge
  have hrem : r.output.remainingCapacity ≤ r.capacity := by
    rw [← h.rep.outCap]; exact Nat.sub_le _ _
  have hrep' := h.rep.pushSubstring hS eof hlt hd
  have hp := pushSubstring_cases r eof hlt
  generalize r.pushSubstring data index eof = r' at hp hrep' ⊢
  cases hp with
  | discarded hcase =>
      -- too far means empty, and too old means already written
      exact h.old fun k hlo hhi => by omega
  | seen hidx hfin => exact (h.mark _).old fun k hlo hhi => by rw [mark_nextIndex]; omega
  | stored hidx hfar =>
      -- the end lies inside the window, so nothing is cut off
      have htake : data.take r.output.remainingCapacity = data := List.take_of_length_le (by omega)
      rw [htake]
      exact (h.mark _).storeLoop hidx (by omega) hd hwin
  | written hidx hfin =>
      have hfresh : ((data.drop (r.nextIndex - index)).take r.output.remainingCapacity).length =
          index + data.length - r.nextIndex := by
        rw [List.length_take, List.length_drop]; omega
      refine ((h.mark _).writeDrain (advance_fresh _ hlt hidx hfin) hrep').congr fun k => ?_
      rw [hfresh, mark_nextIndex]
      -- an index below `nextIndex` was covered before
      have hbelow : k < r.nextIndex → C k := fun hk => (h.held k).mpr (Or.inl hk)
      constructor
      · rintro (hk | hk)
        · exact Or.inl hk
        · right; omega
      · rintro (hk | hk)
        · exact Or.inl hk
        · by_cases hlo : k < r.nextIndex
          · exact Or.inl (hbelow hlo)
          · right; omega

end Steps

theorem Covered.readOut {C : Nat → Prop} {S : List UInt8} (h : Covered S C r) (len : Nat) :
    Covered S C (r.readOut len) where
  rep := h.rep.readOut len
  held := h.held
  free := h.free
  window := by
    intro k hk
    have := h.window k hk
    simp only [StreamReassembler.readOut, ByteStream.read_readCount]
    omega

end StreamReassembler

namespace Session

open StreamReassembler

/-- The invariant of a session after the operations `ops`. -/
structure Inv (S : Stream) (ops : List ReassemblerOp) (s : Session) : Prop where
  covered : Covered S.bytes (· ∈ pushedIndices ops) s.reassembler
  taken   : s.taken = S.bytes.take s.reassembler.output.readCount

theorem Inv.init (S : Stream) (capacity : Nat) : Inv S [] (ofCapacity capacity) where
  covered := by
    refine ⟨Rep.init _ _ _, fun k => ?_, ?_, ?_⟩ <;>
      simp [pushedIndices, Session.ofCapacity, StreamReassembler.ofCapacity]
  taken := rfl

theorem pushedIndices_snoc (ops : List ReassemblerOp) (op : ReassemblerOp) (x : Nat) :
    x ∈ pushedIndices (ops ++ [op]) ↔ x ∈ pushedIndices ops ∨ x ∈ pushedIndices [op] := by
  simp only [mem_pushedIndices, List.mem_append]
  constructor
  · rintro ⟨i, k, e, hmem | hmem, hx⟩
    · exact Or.inl ⟨i, k, e, hmem, hx⟩
    · exact Or.inr ⟨i, k, e, hmem, hx⟩
  · rintro (⟨i, k, e, hmem, hx⟩ | ⟨i, k, e, hmem, hx⟩)
    · exact ⟨i, k, e, Or.inl hmem, hx⟩
    · exact ⟨i, k, e, Or.inr hmem, hx⟩

theorem Inv.step {S : Stream} {ops : List ReassemblerOp} {s : Session} {op : ReassemblerOp}
    (h : Inv S ops s) (hok : InWindow S s op) : Inv S (ops ++ [op]) (s.step S op) := by
  cases op with
  | push i k eof =>
      obtain ⟨hlen, hwin⟩ := hok
      have hk := Stream.length_slice hlen
      have hslice : Excerpt (2 ^ 64) S.bytes i (S.slice i k) := Excerpt.of_slice _ i k _
      have hpush := h.covered.pushSubstring S.fits eof hslice (by rw [hk]; exact hlen)
        (by rw [hk]; exact hwin)
      refine ⟨⟨hpush.rep, fun x => ?_, hpush.free, hpush.window⟩, ?_⟩
      · have hheld := hpush.held x
        rw [hk] at hheld
        refine Iff.trans ?_ hheld
        rw [pushedIndices_snoc]
        simp [pushedIndices]
      · rw [Session.step, (pushFrame_pushSubstring _ _ _ _).readCount]
        exact h.taken
  | read len =>
      have hread := h.covered.readOut len
      refine ⟨⟨hread.rep, fun x => ?_, hread.free, hread.window⟩, ?_⟩
      · rw [pushedIndices_snoc]
        have hheld := hread.held x
        simp only [pushedIndices, Finset.notMem_empty, or_false]
        exact hheld
      · -- the bytes read are the next ones of the stream
        have hrep := h.covered.rep
        have hfront := hrep.take_read len
        rw [Session.step, StreamReassembler.readOut, hfront, ← h.taken, ByteStream.read_fst]

/-- The frontier of the pushed indices is `nextIndex`. -/
theorem Inv.frontier_eq {S : Stream} {ops : List ReassemblerOp} {s : Session} (h : Inv S ops s) :
    frontier (pushedIndices ops) = s.reassembler.nextIndex := by
  refine Lib.frontier_eq (fun k hk => (h.covered.held k).mpr (Or.inl hk)) fun hmem => ?_
  rcases (h.covered.held _).mp hmem with hk | hk
  · exact lt_irrefl _ hk
  · exact h.covered.free hk

theorem Inv.written_eq {S : Stream} {ops : List ReassemblerOp} {s : Session} (h : Inv S ops s) :
    s.written = S.bytes.take (frontier (pushedIndices ops)) := by
  rw [Session.written, h.taken, h.frontier_eq]
  exact h.covered.rep.buf_eq

/-- The map holds the pushed indices from the frontier on, and nothing else. -/
theorem Inv.unassembled_eq {S : Stream} {ops : List ReassemblerOp} {s : Session} (h : Inv S ops s) :
    s.reassembler.unassembledBytes =
      ((pushedIndices ops).filter (frontier (pushedIndices ops) ≤ ·)).card := by
  rw [unassembledBytes, h.covered.rep.count]
  refine (card_eq_size fun k => ?_).symm
  rw [Finset.mem_filter, h.frontier_eq, h.covered.held k]
  constructor
  · rintro ⟨hk | hk, hle⟩
    · omega
    · exact hk
  · intro hk
    have hlook := Std.ExtTreeMap.getElem?_eq_some_getElem hk
    exact ⟨Or.inr hk, (h.covered.rep.stored k _ hlook).1⟩

/-- The state of a session after a run. -/
def after (S : Stream) (capacity : Nat) (ops : List ReassemblerOp) : Session :=
  run (step S) (ofCapacity capacity) ops

/-- Every push of the run is in the window at its time. -/
def AllInWindow (S : Stream) (capacity : Nat) (ops : List ReassemblerOp) : Prop :=
  Guarded (step S) (InWindow S) (ofCapacity capacity) ops

theorem inv_after {S : Stream} {capacity : Nat} {ops : List ReassemblerOp}
    (h : AllInWindow S capacity ops) : Inv S ops (after S capacity ops) :=
  h.history (Inv S) (Inv.init S capacity) fun _ _ _ hinv hok => hinv.step hok

/-- **Reassembly is complete and independent of order.** After every run of pushes that end inside the
    window, interleaved with reads, the bytes written are the longest initial part of the stream covered by
    the pushes, and the bytes waiting are the pushed indices beyond it. Two runs that push the same
    substrings, in whatever order and however often, end with the same bytes. -/
theorem reassembly_complete (S : Stream) (capacity : Nat) (ops : List ReassemblerOp)
    (h : AllInWindow S capacity ops) :
    (after S capacity ops).written = S.bytes.take (frontier (pushedIndices ops)) ∧
    (after S capacity ops).reassembler.unassembledBytes =
      ((pushedIndices ops).filter (frontier (pushedIndices ops) ≤ ·)).card ∧
    ∀ (capacity' : Nat) (ops' : List ReassemblerOp), AllInWindow S capacity' ops' →
      (∀ i k, (∃ eof, .push i k eof ∈ ops) ↔ ∃ eof, .push i k eof ∈ ops') →
      (after S capacity' ops').written = (after S capacity ops).written ∧
      (after S capacity' ops').reassembler.unassembledBytes =
        (after S capacity ops).reassembler.unassembledBytes := by
  have hinv := inv_after h
  refine ⟨hinv.written_eq, hinv.unassembled_eq, fun capacity' ops' h' hsame => ?_⟩
  have hinv' := inv_after h'
  -- both runs are determined by the set of indices they cover
  have hcover : pushedIndices ops' = pushedIndices ops := by
    ext x
    rw [mem_pushedIndices, mem_pushedIndices]
    constructor
    · rintro ⟨i, k, e, hmem, hx⟩
      obtain ⟨e', hmem'⟩ := (hsame i k).mpr ⟨e, hmem⟩
      exact ⟨i, k, e', hmem', hx⟩
    · rintro ⟨i, k, e, hmem, hx⟩
      obtain ⟨e', hmem'⟩ := (hsame i k).mp ⟨e, hmem⟩
      exact ⟨i, k, e', hmem', hx⟩
  rw [hinv.written_eq, hinv'.written_eq, hinv.unassembled_eq, hinv'.unassembled_eq, hcover]
  exact ⟨rfl, rfl⟩

instance (S : Stream) (capacity : Nat) (ops : List ReassemblerOp) :
    Decidable (AllInWindow S capacity ops) :=
  inferInstanceAs (Decidable (Guarded _ _ _ _))

/-- A hole filled late, an overlap and a read, in a window of four bytes. -/
theorem reassembly_complete_overlap :
    AllInWindow ⟨[97, 98, 99, 100, 101], by decide⟩ 4
      [.push 2 2 false, .push 0 1 false, .read 1, .push 0 3 false, .push 3 2 true] ∧
    (after ⟨[97, 98, 99, 100, 101], by decide⟩ 4
      [.push 2 2 false, .push 0 1 false, .read 1, .push 0 3 false, .push 3 2 true]).written =
      [97, 98, 99, 100, 101] := by
  refine ⟨by decide +kernel, ?_⟩
  rw [(reassembly_complete _ _ _ (by decide +kernel)).1, Lib.frontier_eq (n := 5) (by decide) (by decide)]
  rfl

end Session

end Sponge
