import Sponge.Lib.Machine

/-!
# `ByteStream` — an in-order byte stream with bounded memory

Bytes are written on the input side and read from the output side. The buffer never exceeds the
capacity, so the source's subtraction `_capacity - _buf.size()` never borrows: that is the field `fits`.
The two byte counters are exact numbers; a `size_t` would only wrap after `2 ^ 64` bytes.
-/

namespace Sponge

structure ByteStream where
  buf        : List UInt8
  capacity   : Nat
  writeCount : Nat
  readCount  : Nat
  isEof      : Bool
  error      : Bool
  fits       : buf.length ≤ capacity
deriving DecidableEq

namespace ByteStream

/-- Construct a stream with room for `capacity` bytes. -/
def ofCapacity (capacity : Nat) : ByteStream :=
  { buf := [], capacity, writeCount := 0, readCount := 0, isEof := false, error := false,
    fits := Nat.zero_le _ }

/-! ## Accessors -/

def bufferSize (s : ByteStream) : Nat := s.buf.length
def bufferEmpty (s : ByteStream) : Bool := s.buf.length == 0
def inputEnded (s : ByteStream) : Bool := s.isEof
def eof (s : ByteStream) : Bool := s.inputEnded && s.bufferEmpty
def bytesWritten (s : ByteStream) : Nat := s.writeCount
def bytesRead (s : ByteStream) : Nat := s.readCount
def remainingCapacity (s : ByteStream) : Nat := s.capacity - s.buf.length

/-! ## The writer's side -/

/-- How many of `n` bytes fit: the local `len` of `write`. -/
def writeLen (s : ByteStream) (n : Nat) : Nat :=
  if n > s.capacity - s.buf.length then s.capacity - s.buf.length else n

theorem writeLen_le (s : ByteStream) (n : Nat) : s.writeLen n ≤ s.capacity - s.buf.length := by
  unfold writeLen; split <;> omega

theorem writeLen_eq_min (s : ByteStream) (n : Nat) : s.writeLen n = min n s.remainingCapacity := by
  unfold writeLen remainingCapacity; split <;> omega

/-- Write as many bytes as will fit, and return how many were written. -/
def write (s : ByteStream) (data : List UInt8) : ByteStream × Nat :=
  let len := s.writeLen data.length
  ({ s with
      buf := s.buf ++ data.take len
      writeCount := s.writeCount + len
      fits := by
        have h := s.writeLen_le data.length
        have hs := s.fits
        simp only [List.length_append, List.length_take]
        omega }, len)

def endInput (s : ByteStream) : ByteStream := { s with isEof := true }
def setError (s : ByteStream) : ByteStream := { s with error := true }

/-! ## The reader's side -/

def peekOutput (s : ByteStream) (len : Nat) : List UInt8 := s.buf.take len

/-- Remove bytes from the buffer. The counter grows by `len` even when fewer bytes are buffered. -/
def popOutput (s : ByteStream) (len : Nat) : ByteStream :=
  { s with
    readCount := s.readCount + len
    buf := s.buf.drop len
    fits := by have hs := s.fits; simp only [List.length_drop]; omega }

/-- Read (copy and then pop) the next `len` bytes of the stream. -/
def read (s : ByteStream) (len : Nat) : List UInt8 × ByteStream :=
  let readLen := if len > s.buf.length then s.buf.length else len
  (s.peekOutput readLen, s.popOutput readLen)

/-! ## What each operation changes -/

section Fields

variable (s : ByteStream) (data : List UInt8) (len : Nat)

@[simp] theorem write_buf : (s.write data).1.buf = s.buf ++ data.take (s.writeLen data.length) := rfl
@[simp] theorem write_capacity : (s.write data).1.capacity = s.capacity := rfl
@[simp] theorem write_writeCount :
    (s.write data).1.writeCount = s.writeCount + s.writeLen data.length := rfl
@[simp] theorem write_readCount : (s.write data).1.readCount = s.readCount := rfl
@[simp] theorem write_isEof : (s.write data).1.isEof = s.isEof := rfl
@[simp] theorem write_error : (s.write data).1.error = s.error := rfl
@[simp] theorem write_snd : (s.write data).2 = s.writeLen data.length := rfl

@[simp] theorem endInput_buf : s.endInput.buf = s.buf := rfl
@[simp] theorem endInput_capacity : s.endInput.capacity = s.capacity := rfl
@[simp] theorem endInput_writeCount : s.endInput.writeCount = s.writeCount := rfl
@[simp] theorem endInput_readCount : s.endInput.readCount = s.readCount := rfl
@[simp] theorem endInput_isEof : s.endInput.isEof = true := rfl
@[simp] theorem endInput_error : s.endInput.error = s.error := rfl

@[simp] theorem setError_buf : s.setError.buf = s.buf := rfl
@[simp] theorem setError_capacity : s.setError.capacity = s.capacity := rfl
@[simp] theorem setError_writeCount : s.setError.writeCount = s.writeCount := rfl
@[simp] theorem setError_readCount : s.setError.readCount = s.readCount := rfl
@[simp] theorem setError_isEof : s.setError.isEof = s.isEof := rfl
@[simp] theorem setError_error : s.setError.error = true := rfl

theorem eof_iff : s.eof = true ↔ s.isEof = true ∧ s.buf = [] := by
  rw [eof, Bool.and_eq_true, bufferEmpty, beq_iff_eq, List.length_eq_zero_iff]
  rfl

theorem readLen_eq_min : (if len > s.buf.length then s.buf.length else len) = min len s.buf.length := by
  split <;> omega

@[simp] theorem read_fst : (s.read len).1 = s.buf.take len := by
  simp only [read, peekOutput, readLen_eq_min]
  exact List.take_eq_take_min.symm

@[simp] theorem read_buf : (s.read len).2.buf = s.buf.drop len := by
  simp only [read, popOutput, readLen_eq_min]
  exact List.drop_eq_drop_min.symm

@[simp] theorem read_readCount : (s.read len).2.readCount = s.readCount + min len s.buf.length := by
  simp only [read, popOutput, readLen_eq_min]

@[simp] theorem read_capacity : (s.read len).2.capacity = s.capacity := rfl
@[simp] theorem read_writeCount : (s.read len).2.writeCount = s.writeCount := rfl
@[simp] theorem read_isEof : (s.read len).2.isEof = s.isEof := rfl
@[simp] theorem read_error : (s.read len).2.error = s.error := rfl

end Fields

/-- Writing a single byte into a stream with room appends it. -/
theorem write_singleton {s : ByteStream} (c : UInt8) (h : 0 < s.remainingCapacity) :
    (s.write [c]).1.buf = s.buf ++ [c] ∧ (s.write [c]).1.writeCount = s.writeCount + 1 := by
  have hlen : s.writeLen 1 = 1 := by rw [writeLen_eq_min]; omega
  simp [hlen]

end ByteStream

end Sponge
