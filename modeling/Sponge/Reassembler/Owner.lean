import Sponge.Reassembler.Cover

/-!
# `Reassembler.Owner` — what holds whatever the owner does

The owner of a reassembler may push any string at any 64-bit index, in the window or far outside it, and
read or pop from the output. `Counted` survives all of that. If the pushed strings are excerpts of one stream,
then so is everything the reassembler holds, wherever the excerpts lie: the whole representation invariant
`Rep` (`holds_excerpts`).
-/

namespace Sponge

open Lib

/-- What the owner of a reassembler does: push a string, read, or pop without reading. -/
inductive StreamOp where
  | push (data : List UInt8) (index : UInt64) (eof : Bool)
  | read (len : Nat)
  | pop (len : Nat)
deriving DecidableEq

namespace StreamReassembler

variable {r : StreamReassembler}

/-- The owner pops `len` bytes from the reassembled stream. -/
def popOut (r : StreamReassembler) (len : Nat) : StreamReassembler :=
  { r with output := r.output.popOutput len }

def act (r : StreamReassembler) : StreamOp → StreamReassembler
  | .push data index eof => r.pushSubstring data index.toNat eof
  | .read len            => r.readOut len
  | .pop len             => r.popOut len

/-- A pop takes no more than is buffered. -/
def PopFits (r : StreamReassembler) : StreamOp → Prop
  | .pop len => len ≤ r.output.bufferSize
  | _        => True

instance (r : StreamReassembler) : (op : StreamOp) → Decidable (PopFits r op)
  | .pop len             => inferInstanceAs (Decidable (len ≤ r.output.bufferSize))
  | .push .. | .read _   => inferInstanceAs (Decidable True)

/-- Such a pop is a read whose result is thrown away. -/
theorem popOut_eq_readOut {len : Nat} (h : len ≤ r.output.bufferSize) : r.popOut len = r.readOut len := by
  have hlen : ¬ len > r.output.buf.length := Nat.not_lt.mpr h
  rw [popOut, readOut, ByteStream.read, if_neg hlen]

theorem Counted.act (h : Counted r) {op : StreamOp} (hok : PopFits r op) : Counted (r.act op) := by
  cases op with
  | push data index eof => exact h.pushSubstring data index.toNat eof
  | read len => exact h.readOut len
  | pop len =>
      rw [StreamReassembler.act, popOut_eq_readOut hok]
      exact h.readOut len

end StreamReassembler

namespace Session

open StreamReassembler

/-- The bytes an operation takes out of the output. -/
def took (s : Session) : StreamOp → List UInt8
  | .push ..  => []
  | .read len => (s.reassembler.output.read len).1
  | .pop len  => s.reassembler.output.peekOutput len

/-- The owner does what it wants. -/
def serve (s : Session) (op : StreamOp) : Session where
  reassembler := s.reassembler.act op
  taken       := s.taken ++ s.took op

/-- A pushed string is an excerpt of `S`, at any index, and its end is still a 64-bit number. -/
def Genuine (S : List UInt8) (s : Session) : StreamOp → Prop
  | .push data index _ =>
      data = (S.drop index.toNat).take data.length ∧ index.toNat + data.length < 2 ^ 64
  | .read _            => True
  | .pop len           => len ≤ s.reassembler.output.bufferSize

instance (S : List UInt8) (s : Session) : (op : StreamOp) → Decidable (Genuine S s op)
  | .push data index _ =>
      inferInstanceAs (Decidable (data = (S.drop index.toNat).take data.length ∧
        index.toNat + data.length < 2 ^ 64))
  | .read _            => inferInstanceAs (Decidable True)
  | .pop len           => inferInstanceAs (Decidable (len ≤ s.reassembler.output.bufferSize))

/-- The reassembler represents `S`, whatever the bound, and the bytes taken are its first ones. -/
structure Faithful (S : List UInt8) (s : Session) : Prop where
  rep   : ∀ M, S.length < M → Rep M S s.reassembler
  taken : s.taken = S.take s.reassembler.output.readCount

variable {S : List UInt8} {s : Session}

theorem Faithful.init (S : List UInt8) (capacity : Nat) : Faithful S (ofCapacity capacity) where
  rep   := fun M _ => Rep.init M S capacity
  taken := rfl

theorem Faithful.push (h : Faithful S s) {data : List UInt8} {index : UInt64} (eof : Bool)
    (hok : Genuine S s (.push data index eof)) : Faithful S (s.serve (.push data index eof)) := by
  obtain ⟨hdata, hlt⟩ := hok
  refine ⟨fun M hM => (h.rep M hM).pushSubstring hM eof hlt ?_, ?_⟩
  · rw [hdata]
    exact Excerpt.of_slice M index.toNat data.length S
  · have hframe := pushFrame_pushSubstring s.reassembler data index.toNat eof
    rw [serve, took, List.append_nil, h.taken, act, hframe.readCount]

theorem Faithful.read (h : Faithful S s) (len : Nat) : Faithful S (s.serve (.read len)) := by
  have hrep := h.rep (S.length + 1) (Nat.lt_succ_self _)
  refine ⟨fun M hM => (h.rep M hM).readOut len, ?_⟩
  -- the bytes read are the next ones of the stream
  rw [serve, took, h.taken, ByteStream.read_fst]
  exact (hrep.take_read len).symm

theorem Faithful.serve {op : StreamOp} (h : Faithful S s) (hok : Genuine S s op) :
    Faithful S (s.serve op) := by
  cases op with
  | push data index eof => exact h.push eof hok
  | read len => exact h.read len
  | pop len =>
      have hsame : s.serve (.pop len) = s.serve (.read len) := by
        rw [Session.serve, Session.serve, act, act, popOut_eq_readOut hok, took, took, ByteStream.read_fst]
        rfl
      rw [hsame]
      exact h.read len

/-- **The representation invariant.** After every run that pushes excerpts of a stream `S`, anywhere and with
    any `eof`, and reads and pops what is buffered: the next index is the number of bytes written, the bytes
    taken and those buffered are the first ones of `S`, the buffer is within the capacity, every stored byte
    is at or after the next index and is the byte of `S` there, and the counter of waiting bytes counts the
    entries of the map. -/
theorem holds_excerpts (S : List UInt8) (capacity : Nat) (ops : List StreamOp)
    (h : Guarded Session.serve (Genuine S) (ofCapacity capacity) ops) :
    let s := run Session.serve (ofCapacity capacity) ops
    s.reassembler.nextIndex = s.reassembler.streamOut.bytesWritten ∧
    s.reassembler.nextIndex ≤ S.length ∧
    s.taken ++ s.reassembler.streamOut.buf = S.take s.reassembler.nextIndex ∧
    s.reassembler.streamOut.bufferSize ≤ capacity ∧
    (∀ (k : Nat) (v : List UInt8), s.reassembler.myMap[k]? = some v →
      s.reassembler.nextIndex ≤ k ∧ ∃ c, S[k]? = some c ∧ v = [c]) ∧
    s.reassembler.bytesUnAssembled = s.reassembler.myMap.size := by
  intro s
  have hinv : Faithful S s ∧ s.reassembler.capacity = capacity := by
    refine h.invariant (fun s => Faithful S s ∧ s.reassembler.capacity = capacity)
      ⟨Faithful.init S capacity, rfl⟩ fun s op hs hok => ⟨hs.1.serve hok, ?_⟩
    rw [← hs.2]
    cases op with
    | push data index eof => exact (pushFrame_pushSubstring s.reassembler data index.toNat eof).capacity
    | read len => rfl
    | pop len => rfl
  have hrep := hinv.1.rep (S.length + 1) (Nat.lt_succ_self _)
  refine ⟨hrep.next_eq, hrep.next_le, ?_, ?_, fun k v hv => ?_, hrep.count⟩
  · rw [hinv.1.taken]
    exact hrep.buf_eq
  · have hfits := s.reassembler.output.fits
    rw [hrep.outCap, hinv.2] at hfits
    exact hfits
  · -- a bound beyond `k` shows what is stored there
    have hrep' := hinv.1.rep (max (S.length + 1) (k + 1)) (by omega)
    obtain ⟨hle, c, hv', hc⟩ := hrep'.stored k v hv
    exact ⟨hle, c, hc (by omega), hv'⟩

/-- An excerpt cut off by the window, an empty one far outside it, an overlap, a read and a pop. -/
def scattered : List StreamOp :=
  [.push [99, 100, 101] 2 true, .push [] 9 false, .push [97, 98] 0 false, .read 1, .pop 1,
    .push [98, 99, 100] 1 false]

theorem holds_excerpts_scattered :
    Guarded Session.serve (Genuine [97, 98, 99, 100, 101]) (ofCapacity 3) scattered ∧
    (run Session.serve (ofCapacity 3) scattered).taken ++
      (run Session.serve (ofCapacity 3) scattered).reassembler.streamOut.buf =
      [97, 98, 99, 100, 101].take (run Session.serve (ofCapacity 3) scattered).reassembler.nextIndex :=
  have hrun : Guarded Session.serve (Genuine [97, 98, 99, 100, 101]) (ofCapacity 3) scattered := by
    decide +kernel
  ⟨hrun, (holds_excerpts [97, 98, 99, 100, 101] 3 scattered hrun).2.2.1⟩

end Session

end Sponge
