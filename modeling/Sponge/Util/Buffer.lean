import Sponge.Lib.Pieces
import Sponge.Wire.Parser

/-!
# `Util.Buffer` — buffers as they are stored

For a parser a `Buffer` is the bytes in it. What is stored is a string, which other buffers may share, and the place
in it where the buffer starts; the string is let go of when it is used up. A string is never changed once a buffer
holds it, so the sharing cannot be seen, and strings stand here in place of pointers to them.

`removePrefix_bytes` says that a stored buffer behaves as its bytes do. The two loops that drop the front of a list,
of buffers and of views, are one loop over different pieces; both drop exactly what they are asked to
(`BufferList.removePrefix_ok`, `BufferViewList.removePrefix_ok`) or throw.
-/

namespace Sponge

open Lib

namespace Util

/-! ## Views -/

/-- A `string_view`: a string, where in it the view starts, and how long the view is. -/
structure StringView where
  data    : List UInt8 := []
  start   : Nat := 0
  size    : Nat := 0
  inRange : start + size ≤ data.length := by decide
deriving DecidableEq

namespace StringView

def bytes (v : StringView) : Sponge.Buffer := (v.data.drop v.start).take v.size

theorem length_bytes (v : StringView) : v.bytes.length = v.size := by
  have hrange := v.inRange
  rw [bytes, List.length_take, List.length_drop]
  omega

/-- `string_view::remove_prefix`. More than there is must not be removed. -/
def removePrefix (v : StringView) (n : Nat) (h : n ≤ v.size) : StringView where
  data    := v.data
  start   := v.start + n
  size    := v.size - n
  inRange := by have hrange := v.inRange; omega

theorem bytes_removePrefix (v : StringView) {n : Nat} (h : n ≤ v.size) :
    (v.removePrefix n h).bytes = v.bytes.drop n := by
  show (v.data.drop (v.start + n)).take (v.size - n) = _
  rw [bytes, List.drop_take, List.drop_drop]

end StringView

/-! ## Buffers -/

/-- A read-only string that can discard bytes from the front. -/
structure Buffer where
  storage        : Option (List UInt8) := none
  startingOffset : Nat := 0
  inRange        : ∀ s, storage = some s → startingOffset ≤ s.length := by simp

namespace Buffer

/-- Construct by taking ownership of a string. -/
def ofString (str : List UInt8) : Buffer := { storage := some str, inRange := fun _ _ => Nat.zero_le _ }

/-- The contents. -/
def str (b : Buffer) : StringView :=
  match h : b.storage with
  | none   => {}
  | some s =>
      { data    := s
        start   := b.startingOffset
        size    := s.length - b.startingOffset
        inRange := (Nat.add_sub_cancel' (b.inRange s h)).le }

def size (b : Buffer) : Nat := b.str.size

def bytes (b : Buffer) : Sponge.Buffer := b.str.bytes

theorem size_eq_length (b : Buffer) : b.size = b.bytes.length := b.str.length_bytes.symm

theorem bytes_eq (b : Buffer) : b.bytes = (b.storage.getD []).drop b.startingOffset := by
  obtain ⟨_ | s, offset, hrange⟩ := b
  · exact (List.drop_nil).symm
  · show (s.drop offset).take (s.length - offset) = s.drop offset
    exact List.take_of_length_le (List.length_drop).le

theorem le_of_size {b : Buffer} {n : Nat} (h : n ≤ b.size) {s : List UInt8} (hs : b.storage = some s) :
    b.startingOffset + n ≤ s.length := by
  have hrange := b.inRange s hs
  rw [size_eq_length, bytes_eq, hs, Option.getD_some, List.length_drop] at h
  omega

/-- Discard the first `n` bytes. Storage that is used up is released. -/
def removePrefix (b : Buffer) (n : Nat) : Except Exn Buffer :=
  if h : n > b.str.size then .error (.outOfRange "Buffer::remove_prefix")
  else .ok
    { storage        := b.storage.filter fun s => b.startingOffset + n != s.length
      startingOffset := b.startingOffset + n
      inRange        := fun _ hs => le_of_size (Nat.not_lt.mp h) (Option.filter_eq_some_iff.mp hs).1 }

/-- **A stored buffer behaves as its bytes.** -/
theorem removePrefix_bytes (b : Buffer) (n : Nat) : (b.removePrefix n).map bytes = b.bytes.removePrefix n := by
  have hsize : b.str.size = b.bytes.length := b.size_eq_length
  rw [removePrefix, Sponge.Buffer.removePrefix]
  by_cases h : n > b.str.size
  · rw [dif_pos h, if_pos (hsize ▸ h)]
    rfl
  · rw [dif_neg h, if_neg (hsize ▸ h)]
    refine congrArg Except.ok ?_
    rw [bytes_eq, bytes_eq, List.drop_drop]
    show ((b.storage.filter fun s => b.startingOffset + n != s.length).getD []).drop (b.startingOffset + n) = _
    cases b.storage with
    | none => rw [Option.filter_none]
    | some s =>
        rw [Option.filter_some]
        split
        · rfl
        · next hlen =>
            -- the storage is gone, and nothing was left in it
            have hend : b.startingOffset + n = s.length := by simpa using hlen
            rw [Option.getD_some, hend, List.drop_length]
            exact List.drop_nil

theorem cuts : Cuts bytes size (fun b n (_ : n < b.size) => b.removePrefix n) where
  size_eq := size_eq_length
  cut_eq  := by
    intro b n h
    rw [removePrefix_bytes, Sponge.Buffer.removePrefix, if_neg]
    rw [← size_eq_length]
    omega

end Buffer

/-! ## Lists of buffers -/

/-- A string in several buffers. -/
abbrev BufferList := List Buffer

namespace BufferList

def append (l other : BufferList) : BufferList := l ++ other
def concatenate (l : BufferList) : Sponge.Buffer := l.flatMap Buffer.bytes
def size (l : BufferList) : Nat := (l.map Buffer.size).sum

/-- Discard the first `n` bytes. -/
def removePrefix (l : BufferList) (n : Nat) : Except Exn BufferList :=
  dropFront Buffer.size (fun b n _ => b.removePrefix n) (.outOfRange "BufferList::remove_prefix") l n

theorem length_concatenate (l : BufferList) : l.concatenate.length = l.size := by
  rw [concatenate, List.length_flatMap, size]
  exact congrArg List.sum (List.map_congr_left fun b _ => b.size_eq_length.symm)

variable {l : BufferList} {n : Nat}

theorem removePrefix_ok (h : n ≤ l.size) :
    ∃ l' : BufferList, l.removePrefix n = .ok l' ∧ l'.concatenate = l.concatenate.drop n ∧ l'.size = l.size - n := by
  rw [← length_concatenate] at h
  obtain ⟨l', hl', hcontents⟩ := dropFront_ok Buffer.cuts (.outOfRange "BufferList::remove_prefix") h
  have hconcat : concatenate l' = l.concatenate.drop n := hcontents
  refine ⟨l', hl', hconcat, ?_⟩
  rw [← length_concatenate, hconcat, List.length_drop, length_concatenate]

theorem removePrefix_error_iff :
    l.removePrefix n = .error (.outOfRange "BufferList::remove_prefix") ↔ l.size < n := by
  rw [← length_concatenate]
  exact dropFront_error_iff Buffer.cuts _

end BufferList

/-! ## Lists of views -/

/-- An `iovec`: the memory from some place on, and how much of it is meant. -/
structure Iovec where
  iovBase : List UInt8
  iovLen  : Nat

/-- A temporary view of a string in several pieces. -/
abbrev BufferViewList := List StringView

namespace BufferViewList

def ofBufferList (buffers : BufferList) : BufferViewList := buffers.map Buffer.str
def size (l : BufferViewList) : Nat := (l.map StringView.size).sum
def asIovecs (l : BufferViewList) : List Iovec := l.map fun x => ⟨x.data.drop x.start, x.size⟩

/-- Discard the first `n` bytes. -/
def removePrefix (l : BufferViewList) (n : Nat) : Except Exn BufferViewList :=
  dropFront StringView.size (fun v n h => .ok (v.removePrefix n h.le)) (.outOfRange "BufferListView::remove_prefix") l n

/-- The bytes that are viewed. -/
def bytes (l : BufferViewList) : Sponge.Buffer := l.flatMap StringView.bytes

theorem length_bytes (l : BufferViewList) : l.bytes.length = l.size := by
  rw [bytes, List.length_flatMap, size]
  exact congrArg List.sum (List.map_congr_left fun v _ => v.length_bytes)

theorem bytes_ofBufferList (l : BufferList) : (ofBufferList l).bytes = l.concatenate :=
  List.flatMap_map Buffer.str StringView.bytes l

theorem size_ofBufferList (l : BufferList) : (ofBufferList l).size = l.size := by
  rw [← length_bytes, bytes_ofBufferList, BufferList.length_concatenate]

theorem cuts : Cuts (ε := Exn) StringView.bytes StringView.size fun v n h => .ok (v.removePrefix n h.le) where
  size_eq := fun v => v.length_bytes.symm
  cut_eq  := fun v _ h => congrArg Except.ok (v.bytes_removePrefix h.le)

variable {l : BufferViewList} {n : Nat}

theorem removePrefix_ok (h : n ≤ l.size) :
    ∃ l' : BufferViewList, l.removePrefix n = .ok l' ∧ l'.bytes = l.bytes.drop n ∧ l'.size = l.size - n := by
  rw [← length_bytes] at h
  obtain ⟨l', hl', hcontents⟩ := dropFront_ok cuts (.outOfRange "BufferListView::remove_prefix") h
  have hbytes : bytes l' = l.bytes.drop n := hcontents
  refine ⟨l', hl', hbytes, ?_⟩
  rw [← length_bytes, hbytes, List.length_drop, length_bytes]

theorem removePrefix_error_iff :
    l.removePrefix n = .error (.outOfRange "BufferListView::remove_prefix") ↔ l.size < n := by
  rw [← length_bytes]
  exact dropFront_error_iff cuts _

/-- What a removal that fails throws. -/
theorem exn_of_removePrefix {e : Exn} (h : l.removePrefix n = .error e) :
    e = .outOfRange "BufferListView::remove_prefix" := by
  rcases Nat.lt_or_ge l.size n with hlt | hle
  · rw [removePrefix_error_iff.mpr hlt] at h
    exact (Except.error.inj h).symm
  · obtain ⟨l', hl', -⟩ := removePrefix_ok hle
    rw [hl'] at h
    cases h

/-- What a removal that succeeds has done. -/
theorem of_removePrefix {rest : BufferViewList} (h : l.removePrefix n = .ok rest) :
    n ≤ l.size ∧ rest.bytes = l.bytes.drop n ∧ rest.size = l.size - n := by
  rcases Nat.lt_or_ge l.size n with hlt | hle
  · rw [removePrefix_error_iff.mpr hlt] at h
    exact nomatch h
  · obtain ⟨l', hl', hbytes, hsize⟩ := removePrefix_ok hle
    rw [h] at hl'
    obtain rfl : rest = l' := Except.ok.inj hl'
    exact ⟨hle, hbytes, hsize⟩

end BufferViewList

end Util

end Sponge
