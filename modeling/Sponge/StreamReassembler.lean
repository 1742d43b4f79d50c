import Sponge.ByteStream
import Sponge.Lib.FiniteMap

/-!
# `StreamReassembler` — assemble excerpts of a byte stream into an in-order stream

`pushSubstring` follows the source branch by branch: two early discards, the `eof_flag` test, the
recursive call on the unseen suffix, the byte-wise storing loop, and the writing loop followed by the
draining of the map. Indices are 64-bit numbers, so the sums `index + data.size()` and `index + i` wrap.
The map is a finite ordered map from indices to one-byte strings.
-/

namespace Sponge

open Lib

structure StreamReassembler where
  output           : ByteStream
  capacity         : Nat
  nextIndex        : Nat
  bytesUnAssembled : Nat
  eofFlag          : Bool
  myMap            : Std.ExtTreeMap Nat (List UInt8)
deriving DecidableEq

namespace StreamReassembler

/-- Construct a reassembler that will store up to `capacity` bytes. -/
def ofCapacity (capacity : Nat) : StreamReassembler :=
  { output := ByteStream.ofCapacity capacity, capacity, nextIndex := 0, bytesUnAssembled := 0,
    eofFlag := false, myMap := ∅ }

def streamOut (r : StreamReassembler) : ByteStream := r.output
def unassembledBytes (r : StreamReassembler) : Nat := r.bytesUnAssembled
def empty (r : StreamReassembler) : Bool := r.bytesUnAssembled == 0

/-! ## The loops of `push_substring` -/

/-- One round of the storing loop: keep the byte unless its index is already stored. -/
def storeByte (r : StreamReassembler) (key : Nat) (c : UInt8) : StreamReassembler :=
  if key ∈ r.myMap then r
  else { r with
    myMap := r.myMap.insert key [c]
    bytesUnAssembled := r.bytesUnAssembled + 1 }

/-- The storing loop, from its counter `i` on: the list holds the bytes `data[i .. maxLen)`. -/
def storeLoop (index : Nat) : Nat → List UInt8 → StreamReassembler → StreamReassembler
  | _, [],      r => r
  | i, c :: cs, r => storeLoop index (i + 1) cs (r.storeByte (uadd 64 index i) c)

/-- One round of the writing loop: write the byte, advance, and forget a stored copy of it. -/
def writeByte (r : StreamReassembler) (key : Nat) (c : UInt8) : StreamReassembler :=
  let r := { r with output := (r.output.write [c]).1, nextIndex := r.nextIndex + 1 }
  if key ∈ r.myMap then
    { r with
      myMap := r.myMap.erase key
      bytesUnAssembled := usub 64 r.bytesUnAssembled 1 }
  else r

/-- The writing loop, from its counter `i` on. -/
def writeLoop (index : Nat) : Nat → List UInt8 → StreamReassembler → StreamReassembler
  | _, [],      r => r
  | i, c :: cs, r => writeLoop index (i + 1) cs (r.writeByte (uadd 64 index i) c)

/-- One round of the draining loop: the stored bytes at `nextIndex` go to the output. -/
def drainByte (r : StreamReassembler) (stored : List UInt8) : StreamReassembler :=
  { r with
    output := (r.output.write stored).1
    myMap := r.myMap.erase r.nextIndex
    nextIndex := r.nextIndex + 1
    bytesUnAssembled := usub 64 r.bytesUnAssembled 1 }

/-- The draining loop: while the next index is stored, write it; stop early when the output is full. -/
def drain (r : StreamReassembler) : StreamReassembler :=
  if h : r.nextIndex ∈ r.myMap then
    if 0 < r.output.remainingCapacity then drain (r.drainByte r.myMap[r.nextIndex]) else r
  else r
termination_by r.myMap.size
decreasing_by
  have := size_erase_of_mem h
  simp only [drainByte]
  omega

/-! ## `push_substring` -/

/-- The `eof_flag` test: remember an `eof` whose useful part is no longer than the capacity. -/
def markEof (r : StreamReassembler) (data : List UInt8) (index : Nat) (eof : Bool) : StreamReassembler :=
  if eof ∧ uadd 64 (usub 64 data.length r.nextIndex) index ≤ r.capacity then { r with eofFlag := true }
  else r

@[simp] theorem markEof_nextIndex (r : StreamReassembler) (data : List UInt8) (index : Nat) (eof : Bool) :
    (r.markEof data index eof).nextIndex = r.nextIndex := by
  unfold markEof; split <;> rfl

/-- The last statement of `push_substring`: end the output once nothing is waiting after an `eof`. -/
def finish (r : StreamReassembler) : StreamReassembler :=
  if r.eofFlag && r.empty then { r with output := r.output.endInput } else r

/-- Receive a substring and write any newly contiguous bytes into the stream. -/
def pushSubstring (r : StreamReassembler) (data : List UInt8) (index : Nat) (eof : Bool) :
    StreamReassembler :=
  -- too far ahead, or written before: discarded, and an `eof` with it
  if index > r.nextIndex ∧ index - r.nextIndex ≥ r.capacity then r
  else if uadd 64 index data.length < r.nextIndex then r
  else
    let marked := r.markEof data index eof
    let maxLen := min data.length marked.output.remainingCapacity
    if index < r.nextIndex then
      if uadd 64 index data.length > r.nextIndex then
        -- only the suffix is new; the `eof` test is made once more there
        pushSubstring marked (data.drop (r.nextIndex - index)) r.nextIndex eof
      else marked
    -- ahead of a hole: stored, and the end of the stream is not looked at
    else if index > r.nextIndex then storeLoop index 0 (data.take maxLen) marked
    else finish (drain (writeLoop index 0 (data.take maxLen) marked))
termination_by r.nextIndex - index
decreasing_by
  simp only [markEof_nextIndex]
  omega

end StreamReassembler

end Sponge
