import Sponge.ByteStream
import Sponge.Lib.Run

/-!
# `ByteStream.Accounting` — the counters, the buffer and the bytes

A `Ledger` keeps a stream together with the bytes it has accepted and those that have left it. Along any sequence of
operations the bytes that left followed by those in the buffer are the accepted ones, and what is buffered and what
is free add up to the capacity.

The counters are another matter. `pop_output` counts what it was asked for and not what it removed, so one pop of
more than is buffered makes the count of read bytes run ahead (`drift`), and nothing makes up for it later.
`accounting_iff` says that this is all that can go wrong.
-/

namespace Sponge

open Lib

namespace ByteStream

/-- The operations of the writer and the reader. A length is a `size_t`. -/
inductive Op where
  | write (data : List UInt8)
  | read (len : UInt64)
  | peekOutput (len : UInt64)
  | popOutput (len : UInt64)
  | endInput
deriving DecidableEq

/-- A stream, with the bytes it has accepted and those that have been removed from it. -/
structure Ledger where
  stream   : ByteStream
  accepted : List UInt8 := []
  removed  : List UInt8 := []
deriving DecidableEq

namespace Ledger

def ofCapacity (capacity : Nat) : Ledger := { stream := .ofCapacity capacity }

/-- An operation. What a write accepts is what it says it has accepted; what a pop removes is what a peek of the
    same length would have shown. -/
def step (l : Ledger) : Op → Ledger
  | .write data     =>
      { l with
        stream   := (l.stream.write data).1
        accepted := l.accepted ++ data.take (l.stream.write data).2 }
  | .read len       =>
      { l with
        stream  := (l.stream.read len.toNat).2
        removed := l.removed ++ (l.stream.read len.toNat).1 }
  | .peekOutput _   => l
  | .popOutput len  =>
      { l with
        stream  := l.stream.popOutput len.toNat
        removed := l.removed ++ l.stream.peekOutput len.toNat }
  | .endInput       => { l with stream := l.stream.endInput }

variable {capacity : Nat} {l : Ledger}

/-! ## What always holds -/

/-- The memory and the bytes are accounted for. -/
structure Kept (capacity : Nat) (l : Ledger) : Prop where
  room  : l.stream.bufferSize + l.stream.remainingCapacity = capacity
  bytes : l.removed ++ l.stream.buf = l.accepted

theorem room_iff (s : ByteStream) : s.bufferSize + s.remainingCapacity = capacity ↔ s.capacity = capacity := by
  have hfits := s.fits
  rw [bufferSize, remainingCapacity, Nat.add_sub_cancel' hfits]

theorem capacity_step (l : Ledger) (op : Op) : (l.step op).stream.capacity = l.stream.capacity := by
  cases op <;> rfl

theorem Kept.step (h : Kept capacity l) (op : Op) : Kept capacity (l.step op) := by
  refine ⟨?_, ?_⟩
  · rw [room_iff, capacity_step]
    exact room_iff l.stream |>.mp h.room
  · have hbytes := h.bytes
    cases op with
    | write data =>
        show l.removed ++ (l.stream.write data).1.buf = l.accepted ++ data.take (l.stream.write data).2
        rw [write_buf, write_snd, ← hbytes, List.append_assoc]
    | read len =>
        show l.removed ++ (l.stream.read len.toNat).1 ++ (l.stream.read len.toNat).2.buf = l.accepted
        rw [read_fst, read_buf, List.append_assoc, List.take_append_drop, hbytes]
    | peekOutput len => exact hbytes
    | popOutput len =>
        show l.removed ++ l.stream.buf.take len.toNat ++ l.stream.buf.drop len.toNat = l.accepted
        rw [List.append_assoc, List.take_append_drop, hbytes]
    | endInput => exact hbytes

theorem kept_run (capacity : Nat) (ops : List Op) : Kept capacity (run step (ofCapacity capacity) ops) :=
  run_invariant ops (Kept capacity) ⟨(room_iff _).mpr rfl, rfl⟩ fun _ op h => h.step op

end Ledger

/-- A write takes the longest prefix of the data for which there is room, and returns its length. -/
structure TakesLongest (s : ByteStream) (data : List UInt8) : Prop where
  taken   : (s.write data).1.buf = s.buf ++ data.take (s.write data).2
  le      : (s.write data).2 ≤ data.length
  longest : ∀ m, m ≤ data.length → (s.bufferSize + m ≤ s.capacity ↔ m ≤ (s.write data).2)

theorem write_takesLongest (s : ByteStream) (data : List UInt8) : TakesLongest s data := by
  have hfits := s.fits
  have hlen : (s.write data).2 = min data.length (s.capacity - s.buf.length) := s.writeLen_eq_min data.length
  refine ⟨rfl, ?_, ?_⟩
  · rw [hlen]
    exact Nat.min_le_left _ _
  · intro m hm
    rw [hlen, bufferSize]
    omega

namespace Ledger

/-! ## The counters -/

/-- How much more than there was an operation asked to remove. -/
def excess (l : Ledger) : Op → Nat
  | .popOutput len => len.toNat - l.stream.bufferSize
  | _              => 0

theorem excess_lt (l : Ledger) (op : Op) : l.excess op < 2 ^ 64 := by
  cases op with
  | popOutput len => exact lt_of_le_of_lt (Nat.sub_le _ _) len.toNat_lt
  | _ => exact Nat.two_pow_pos 64

/-- **What an operation does to the counters.** The bytes read and those in the buffer grow as the bytes written do,
    and by the excess. -/
theorem drift (l : Ledger) (op : Op) :
    (l.step op).stream.bytesRead + (l.step op).stream.bufferSize + l.stream.bytesWritten =
      l.stream.bytesRead + l.stream.bufferSize + (l.step op).stream.bytesWritten + l.excess op := by
  cases op with
  | write data =>
      have hlen := l.stream.writeLen_eq_min data.length
      have hbuf : (l.stream.write data).1.bufferSize = l.stream.bufferSize + l.stream.writeLen data.length := by
        rw [bufferSize, write_buf, List.length_append, List.length_take, bufferSize]
        omega
      show l.stream.readCount + (l.stream.write data).1.bufferSize + l.stream.writeCount =
        l.stream.readCount + l.stream.bufferSize + (l.stream.writeCount + l.stream.writeLen data.length) + 0
      omega
  | read len =>
      have hbuf : (l.stream.read len.toNat).2.bufferSize = l.stream.bufferSize - len.toNat := by
        rw [bufferSize, read_buf, List.length_drop, bufferSize]
      have hread : (l.stream.read len.toNat).2.bytesRead = l.stream.bytesRead + min len.toNat l.stream.bufferSize :=
        l.stream.read_readCount len.toNat
      show (l.stream.read len.toNat).2.bytesRead + (l.stream.read len.toNat).2.bufferSize + l.stream.bytesWritten =
        l.stream.bytesRead + l.stream.bufferSize + l.stream.bytesWritten + 0
      omega
  | peekOutput len => exact Nat.add_zero _
  | popOutput len =>
      have hbuf : (l.stream.popOutput len.toNat).bufferSize = l.stream.bufferSize - len.toNat := List.length_drop
      show l.stream.bytesRead + len.toNat + (l.stream.popOutput len.toNat).bufferSize + l.stream.bytesWritten =
        l.stream.bytesRead + l.stream.bufferSize + l.stream.bytesWritten + (len.toNat - l.stream.bufferSize)
      omega
  | endInput => exact Nat.add_zero _

/-- What was written has been read or is buffered. -/
def Balanced (l : Ledger) : Prop := l.stream.bytesWritten = l.stream.bytesRead + l.stream.bufferSize

/-- The same in the arithmetic of `size_t`, where the counters wrap around. -/
def BalancedMod (l : Ledger) : Prop :=
  l.stream.bytesWritten % 2 ^ 64 = uadd 64 (l.stream.bytesRead % 2 ^ 64) l.stream.bufferSize

/-- A pop takes no more than is buffered. -/
def PopFits (l : Ledger) : Op → Prop
  | .popOutput len => len.toNat ≤ l.stream.bufferSize
  | _              => True

instance (l : Ledger) : Decidable (Balanced l) := by unfold Balanced; infer_instance
instance (l : Ledger) : Decidable (BalancedMod l) := by unfold BalancedMod; infer_instance

theorem popFits_iff (l : Ledger) (op : Op) : PopFits l op ↔ l.excess op = 0 := by
  cases op with
  | popOutput len => exact Nat.sub_eq_zero_iff_le.symm
  | _ => exact iff_of_true trivial rfl

theorem Balanced.step (h : Balanced l) {op : Op} (hfits : PopFits l op) : Balanced (l.step op) := by
  have hdrift := l.drift op
  have hexcess := (l.popFits_iff op).mp hfits
  unfold Balanced at h ⊢
  omega

theorem Balanced.mod (h : Balanced l) : BalancedMod l := by
  rw [BalancedMod, uadd, h, Nat.mod_add_mod]

/-- Not even modulo `2 ^ 64` are the counters right on both sides of a pop that asks for too much. -/
theorem BalancedMod.popFits (h : BalancedMod l) {op : Op} (hnext : BalancedMod (l.step op)) : PopFits l op := by
  have hdrift := l.drift op
  have hlt := l.excess_lt op
  unfold BalancedMod uadd at h hnext
  rw [popFits_iff]
  omega

/-- **The accounting of a stream.** At every moment of every sequence of operations what is buffered and what is free
    add up to the capacity, and the bytes removed so far followed by the buffered ones are the accepted bytes; every
    write accepts the longest prefix that fits. The bytes written are the bytes read and the buffered ones at every
    moment if and only if no pop asks for more than is buffered, and counting modulo `2 ^ 64` makes no difference to
    that. -/
theorem accounting_iff (capacity : Nat) (ops : List Op) :
    (∀ hist, hist <+: ops → Kept capacity (run step (ofCapacity capacity) hist)) ∧
      (∀ hist data, hist ++ [.write data] <+: ops →
        TakesLongest (run step (ofCapacity capacity) hist).stream data) ∧
      ((∀ hist, hist <+: ops → Balanced (run step (ofCapacity capacity) hist)) ↔
        Guarded step PopFits (ofCapacity capacity) ops) ∧
      ((∀ hist, hist <+: ops → BalancedMod (run step (ofCapacity capacity) hist)) ↔
        Guarded step PopFits (ofCapacity capacity) ops) := by
  have hbalanced : Guarded step PopFits (ofCapacity capacity) ops →
      ∀ hist, hist <+: ops → Balanced (run step (ofCapacity capacity) hist) := by
    intro h hist hhist
    exact (h.of_isPrefix hhist).invariant Balanced rfl fun _ _ hl hok => hl.step hok
  have hguarded : (∀ hist, hist <+: ops → BalancedMod (run step (ofCapacity capacity) hist)) →
      Guarded step PopFits (ofCapacity capacity) ops := by
    intro h
    rw [Guarded.iff_forall]
    intro hist op hmoment
    have hbefore := h hist ((List.prefix_append hist [op]).trans hmoment)
    have hafter := h (hist ++ [op]) hmoment
    rw [run_append] at hafter
    exact hbefore.popFits hafter
  refine ⟨?_, ?_, ⟨?_, hbalanced⟩, hguarded, ?_⟩
  · intro hist _
    exact kept_run capacity hist
  · intro hist data _
    exact write_takesLongest _ data
  · intro h
    apply hguarded
    intro hist hhist
    exact (h hist hhist).mod
  · intro h hist hhist
    exact (hbalanced h hist hhist).mod

/-- One byte is popped from an empty stream: one byte counts as read, and none was ever written. -/
theorem accounting_fails_on_pop :
    let l := run step (ofCapacity 1) [.popOutput 1]
    l.stream.bytesWritten = 0 ∧ l.stream.bytesRead = 1 ∧ l.stream.bufferSize = 0 ∧ ¬ Balanced l ∧
      ¬ BalancedMod l := by decide

end Ledger

end ByteStream

end Sponge
