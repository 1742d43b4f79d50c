import Sponge.Util.Buffer

/-!
# `Util.FileDescriptor` — writing until everything is written

`writev` may take less than it is given, and `FileDescriptor::write` calls it again with the rest. The kernel is a
parameter: a function from the number of the call and the `iovec`s to a return value and the value of `errno`. The
model keeps a record of the calls, which no function reads but the kernel.

A round of the loop that returns has removed from the buffer as many bytes as `writev` is believed to have taken,
at least one if there are any (`writeOnce_ok`), so the loop ends whatever the kernel does. What is believed is what is
left of a `ssize_t` after it went through the `int` of `SystemCall`; for a kernel that takes less than `2 ^ 31` bytes
in one call this is the truth, and then every byte is handed over once (`writes_everything`).
-/

namespace Sponge

open Lib

namespace Util

/-! ## System calls -/

/-- What a system call returns, and `errno` after it. -/
structure SysResult where
  ret   : Int64
  errno : Int32
deriving DecidableEq

/-- What is thrown by functions that make system calls. -/
inductive SysExn where
  | unixError (attempt : String) (error : Int32)
  | exn (e : Exn)
deriving DecidableEq

/-- `SystemCall` with its default mask. The return value of a system call is passed to it as an `int`. -/
def systemCall (attempt : String) (returnValue : Int32) (errno : Int32) : Except SysExn Int32 :=
  if returnValue ≥ 0 || errno == 0 then .ok returnValue else .error (.unixError attempt errno)

theorem systemCall_of_nonneg {returnValue : Int32} (h : 0 ≤ returnValue.toInt) (attempt : String) (errno : Int32) :
    systemCall attempt returnValue errno = .ok returnValue := by
  have hge : returnValue ≥ 0 := Int32.le_iff_toInt_le.mpr h
  rw [systemCall, if_pos (by rw [decide_eq_true hge, Bool.true_or])]

/-- A call of `writev` that was made. -/
structure WritevCall where
  iovecs : List Iovec
  ret    : Int64

/-- The bytes that some `iovec`s describe. -/
def gathered (iovecs : List Iovec) : Sponge.Buffer := iovecs.flatMap fun v => v.iovBase.take v.iovLen

namespace WritevCall

/-- The bytes that were handed over. -/
def given (c : WritevCall) : Sponge.Buffer := gathered c.iovecs

/-- How many of them were taken. -/
def count (c : WritevCall) : Nat := c.ret.toInt.toNat

/-- The bytes that were taken: the first ones. -/
def taken (c : WritevCall) : Sponge.Buffer := c.given.take c.count

end WritevCall

theorem gathered_asIovecs (l : BufferViewList) : gathered l.asIovecs = l.bytes := List.flatMap_map _ _ l

/-- What a kernel answers to a call of `writev`. This may depend on how many calls there were before. -/
abbrev Kernel := Nat → List Iovec → SysResult

/-! ## Writing -/

/-- A file descriptor: how often it was written to, and the calls of `writev` that were made. -/
structure FileDescriptor where
  writeCount : UInt32 := 0
  calls      : List WritevCall := []

namespace FileDescriptor

def registerWrite (fd : FileDescriptor) : FileDescriptor := { fd with writeCount := fd.writeCount + 1 }

/-- The body of the loop of `write`: the rest of the buffer, and what is added to the total. -/
def writeOnce (kernel : Kernel) (fd : FileDescriptor) (buffer : BufferViewList) :
    Except SysExn (BufferViewList × Nat) × FileDescriptor :=
  let iovecs := buffer.asIovecs
  let result := kernel fd.calls.length iovecs
  let fd := { fd with calls := fd.calls ++ [⟨iovecs, result.ret⟩] }
  match systemCall "writev" result.ret.toInt32 result.errno with
  | .error e => (.error e, fd)
  | .ok returned =>
      let bytesWritten : Int64 := returned.toInt64
      if bytesWritten == 0 && buffer.size != 0 then
        (.error (.exn (.runtimeError "write returned 0 given non-empty input buffer")), fd)
      else if bytesWritten.toInt > buffer.size then
        (.error (.exn (.runtimeError "write wrote more than length of input buffer")), fd)
      else
        -- a negative number becomes a huge one here
        match buffer.removePrefix bytesWritten.toUInt64.toNat with
        | .error e => (.error (.exn e), fd.registerWrite)
        | .ok rest => (.ok (rest, bytesWritten.toUInt64.toNat), fd.registerWrite)

variable {kernel : Kernel} {fd fd' : FileDescriptor} {buffer rest : BufferViewList} {n : Nat}

/-- **A round that returns** has removed what it counts, and something if there was anything. -/
theorem writeOnce_ok (h : writeOnce kernel fd buffer = (.ok (rest, n), fd')) :
    buffer.removePrefix n = .ok rest ∧ (buffer.size ≠ 0 → n ≠ 0) := by
  simp only [writeOnce] at h
  split at h
  · exact nomatch h
  · next returned _ =>
      split at h
      · exact nomatch h
      · next hzero =>
          split at h
          · exact nomatch h
          · split at h
            · exact nomatch h
            · next rest' hrest =>
                obtain ⟨rfl, rfl⟩ := Prod.mk.inj (Except.ok.inj (Prod.mk.inj h).1)
                refine ⟨hrest, ?_⟩
                intro hsize hn
                apply hzero
                have hreturned : returned.toInt64 = 0 :=
                  Int64.toBitVec_inj.mp (congrArg UInt64.toBitVec (UInt64.toNat_inj.mp hn))
                rw [hreturned, Bool.and_eq_true, bne_iff_ne]
                exact ⟨rfl, hsize⟩

theorem size_lt_of_writeOnce (h : writeOnce kernel fd buffer = (.ok (rest, n), fd')) (hrest : rest.size ≠ 0) :
    rest.size < buffer.size := by
  obtain ⟨hremove, hpos⟩ := writeOnce_ok h
  obtain ⟨hle, -, hsize⟩ := BufferViewList.of_removePrefix hremove
  have hn := hpos (by omega)
  omega

/-- The loop of `write`. -/
def writeLoop (kernel : Kernel) (writeAll : Bool) (fd : FileDescriptor) (buffer : BufferViewList) (total : Nat) :
    Except SysExn Nat × FileDescriptor :=
  match _h : writeOnce kernel fd buffer with
  | (.error e, fd)      => (.error e, fd)
  | (.ok (rest, n), fd) =>
      if writeAll && rest.size != 0 then writeLoop kernel writeAll fd rest (total + n)
      else (.ok (total + n), fd)
termination_by buffer.size
decreasing_by
  rename_i hgo
  rw [Bool.and_eq_true, bne_iff_ne] at hgo
  exact size_lt_of_writeOnce _h hgo.2

theorem writeLoop_of_ok (h : writeOnce kernel fd buffer = (.ok (rest, n), fd')) (writeAll : Bool) (total : Nat) :
    writeLoop kernel writeAll fd buffer total =
      if writeAll && rest.size != 0 then writeLoop kernel writeAll fd' rest (total + n)
      else (.ok (total + n), fd') := by
  rw [writeLoop, h]

/-- Write the buffer; with `writeAll`, until all of it is written. -/
def write (kernel : Kernel) (fd : FileDescriptor) (buffer : BufferViewList) (writeAll : Bool) :
    Except SysExn Nat × FileDescriptor :=
  writeLoop kernel writeAll fd buffer 0

end FileDescriptor

/-! ## A kernel that takes what it is given -/

/-- **What is assumed of `writev`.** It takes some of the bytes that it is given, from the front, and returns how
    many; it takes at least one if there are any. In one call it never takes more than fits into an `int`: on Linux it
    is at most `0x7ffff000`. -/
structure Kernel.TakesFront (kernel : Kernel) : Prop where
  nonneg : ∀ k iovecs, 0 ≤ (kernel k iovecs).ret.toInt
  le     : ∀ k iovecs, (kernel k iovecs).ret.toInt ≤ (gathered iovecs).length
  pos    : ∀ k iovecs, gathered iovecs ≠ [] → (kernel k iovecs).ret ≠ 0
  fits   : ∀ k iovecs, (kernel k iovecs).ret.toInt < 2 ^ 31

/-- The calls hand over the bytes once and in order: each of them is given what those before it have left, and the
    last one leaves nothing. -/
def HandsOnce : Sponge.Buffer → List WritevCall → Prop
  | bytes, []      => bytes = []
  | bytes, c :: cs => c.given = bytes ∧ HandsOnce (bytes.drop c.count) cs

/-- What was taken, one call after the other, is all of the bytes. -/
theorem HandsOnce.taken {bytes : Sponge.Buffer} {calls : List WritevCall} (h : HandsOnce bytes calls) :
    calls.flatMap WritevCall.taken = bytes := by
  induction calls generalizing bytes with
  | nil => exact h.symm
  | cons c calls ih =>
      rw [List.flatMap_cons, ih h.2, WritevCall.taken, h.1, List.take_append_drop]

namespace FileDescriptor

variable {kernel : Kernel}

/-- A round with such a kernel: what is counted is what was taken, and the rest stays in the buffer. -/
theorem writeOnce_takesFront (hkernel : kernel.TakesFront) (fd : FileDescriptor) (buffer : BufferViewList) :
    ∃ (rest : BufferViewList) (c : WritevCall),
      writeOnce kernel fd buffer = (.ok (rest, c.count), ⟨fd.writeCount + 1, fd.calls ++ [c]⟩) ∧
      c.given = buffer.bytes ∧ rest.bytes = buffer.bytes.drop c.count := by
  have hgathered := gathered_asIovecs buffer
  have hlength := buffer.length_bytes
  have hnonneg := hkernel.nonneg fd.calls.length buffer.asIovecs
  have hle := hkernel.le fd.calls.length buffer.asIovecs
  have hpos := hkernel.pos fd.calls.length buffer.asIovecs
  have hfits := hkernel.fits fd.calls.length buffer.asIovecs
  rw [hgathered] at hle hpos
  generalize hresult : kernel fd.calls.length buffer.asIovecs = result at hnonneg hle hpos hfits
  -- nothing is lost in the `int`, so none of the tests fails
  have hreturned : result.ret.toInt32.toInt64 = result.ret := toInt64_toInt32 hnonneg hfits
  have hcount : result.ret.toUInt64.toNat = result.ret.toInt.toNat := toNat_toUInt64 hnonneg
  have hcall : systemCall "writev" result.ret.toInt32 result.errno = .ok result.ret.toInt32 := by
    apply systemCall_of_nonneg
    rwa [← Int32.toInt_toInt64, hreturned]
  have hzero : ¬ (result.ret == 0 && buffer.size != 0) = true := by
    rw [Bool.and_eq_true, beq_iff_eq, bne_iff_ne]
    rintro ⟨hret, hsize⟩
    refine hpos (fun hnil => hsize ?_) hret
    rw [← hlength, hnil]
    rfl
  have hmore : ¬ result.ret.toInt > buffer.size := by omega
  obtain ⟨rest, hremove, hrest, -⟩ := BufferViewList.removePrefix_ok (l := buffer) (n := result.ret.toInt.toNat)
    (by omega)
  refine ⟨rest, ⟨buffer.asIovecs, result.ret⟩, ?_, hgathered, hrest⟩
  simp only [writeOnce, hresult, hcall, hreturned, if_neg hzero, if_neg hmore, hcount, hremove]
  rfl

/-- The loop with such a kernel. -/
theorem writeLoop_takesFront (hkernel : kernel.TakesFront) (fd : FileDescriptor) (buffer : BufferViewList)
    (total : Nat) :
    ∃ fd' calls, writeLoop kernel true fd buffer total = (.ok (total + buffer.size), fd') ∧
      fd'.calls = fd.calls ++ calls ∧ HandsOnce buffer.bytes calls ∧ calls.length ≤ max 1 buffer.size := by
  generalize hsize : buffer.size = m
  induction m using Nat.strong_induction_on generalizing fd buffer total with
  | _ m ih =>
      obtain ⟨rest, c, honce, hgiven, hrest⟩ := writeOnce_takesFront hkernel fd buffer
      obtain ⟨hremove, hpos⟩ := writeOnce_ok honce
      obtain ⟨hle, -, hrestSize⟩ := BufferViewList.of_removePrefix hremove
      by_cases hempty : rest.size = 0
      · refine ⟨⟨fd.writeCount + 1, fd.calls ++ [c]⟩, [c], ?_, rfl, ⟨hgiven, ?_⟩, Nat.le_max_left _ _⟩
        · have htotal : total + c.count = total + m := by omega
          rw [writeLoop_of_ok honce, hempty, htotal]
          rfl
        · rw [← hrest]
          exact List.length_eq_zero_iff.mp (rest.length_bytes.trans hempty)
      · have hn := hpos (by omega)
        obtain ⟨fd', calls, hloop, hcalls, hhands, hcount⟩ :=
          ih rest.size (by omega) ⟨fd.writeCount + 1, fd.calls ++ [c]⟩ rest (total + c.count) rfl
        refine ⟨fd', c :: calls, ?_, ?_, ⟨hgiven, hrest ▸ hhands⟩, ?_⟩
        · have htotal : total + c.count + rest.size = total + m := by omega
          rw [writeLoop_of_ok honce, if_pos (by simpa using hempty), hloop, htotal]
        · rw [hcalls, List.append_assoc, List.singleton_append]
        · rw [List.length_cons]
          omega

/-- **Buffer lists drop prefixes exactly, and partial writes lose nothing.** Dropping `n` bytes from a list of buffers
    or from the views of it throws if and only if there are fewer, and otherwise leaves the contents without the
    first `n` bytes. With `writeAll`, a write of the list returns its size after at most that many calls of `writev`
    (or one, if it is empty), which hand over the contents once and in order. -/
theorem writes_everything (l : BufferList) :
    (∀ n, (l.removePrefix n = .error (.outOfRange "BufferList::remove_prefix") ↔ l.size < n) ∧
      ((BufferViewList.ofBufferList l).removePrefix n = .error (.outOfRange "BufferListView::remove_prefix") ↔
        l.size < n) ∧
      (n ≤ l.size → ∃ (l' : BufferList) (v' : BufferViewList),
        l.removePrefix n = .ok l' ∧ l'.concatenate = l.concatenate.drop n ∧ l'.size = l.size - n ∧
        (BufferViewList.ofBufferList l).removePrefix n = .ok v' ∧ v'.bytes = l.concatenate.drop n ∧
          v'.size = l.size - n)) ∧
    ∀ kernel : Kernel, kernel.TakesFront → ∀ fd : FileDescriptor, ∃ fd' calls,
      write kernel fd (BufferViewList.ofBufferList l) true = (.ok l.size, fd') ∧ fd'.calls = fd.calls ++ calls ∧
      HandsOnce l.concatenate calls ∧ calls.flatMap WritevCall.taken = l.concatenate ∧
      calls.length ≤ max 1 l.size := by
  have hsize := BufferViewList.size_ofBufferList l
  have hbytes := BufferViewList.bytes_ofBufferList l
  refine ⟨fun n => ⟨?_, ?_, ?_⟩, ?_⟩
  · exact BufferList.removePrefix_error_iff
  · rw [BufferViewList.removePrefix_error_iff, hsize]
  · intro hle
    obtain ⟨l', hl', hconcat, hl'size⟩ := BufferList.removePrefix_ok hle
    obtain ⟨v', hv', hv'bytes, hv'size⟩ := BufferViewList.removePrefix_ok (hsize.symm ▸ hle)
    rw [hbytes] at hv'bytes
    rw [hsize] at hv'size
    exact ⟨l', v', hl', hconcat, hl'size, hv', hv'bytes, hv'size⟩
  · intro kernel hkernel fd
    obtain ⟨fd', calls, hwrite, hcalls, hhands, hcount⟩ :=
      writeLoop_takesFront hkernel fd (BufferViewList.ofBufferList l) 0
    rw [hsize, Nat.zero_add] at hwrite
    rw [hbytes] at hhands
    rw [hsize] at hcount
    exact ⟨fd', calls, hwrite, hcalls, hhands, hhands.taken, hcount⟩

/-- A kernel that takes at most two bytes at a time. -/
def twoAtATime : Kernel := fun _ iovecs => ⟨Int64.ofNat (min 2 (gathered iovecs).length), 0⟩

theorem takesFront_twoAtATime : twoAtATime.TakesFront := by
  have hret : ∀ k iovecs, (twoAtATime k iovecs).ret.toInt = (min 2 (gathered iovecs).length : Nat) := by
    intro k iovecs
    exact Int64.toInt_ofNat_of_lt (by omega)
  constructor
  case nonneg =>
    intro k iovecs
    rw [hret]
    omega
  case le =>
    intro k iovecs
    rw [hret]
    omega
  case pos =>
    intro k iovecs hne hzero
    have hlen := List.length_pos_iff.mpr hne
    have hret' := congrArg Int64.toInt hzero
    rw [hret, Int64.toInt_zero] at hret'
    omega
  case fits =>
    intro k iovecs
    rw [hret]
    omega

/-- Five bytes in three buffers, one of them empty, written two at a time. -/
theorem writes_everything_two_at_a_time : ∃ fd' calls,
    write twoAtATime {} (BufferViewList.ofBufferList [.ofString [1, 2, 3], .ofString [], .ofString [4, 5]]) true =
      (.ok 5, fd') ∧
    fd'.calls = calls ∧ calls.flatMap WritevCall.taken = [1, 2, 3, 4, 5] ∧ calls.length ≤ 5 := by
  obtain ⟨fd', calls, hwrite, hcalls, -, htaken, hcount⟩ :=
    (writes_everything [.ofString [1, 2, 3], .ofString [], .ofString [4, 5]]).2 twoAtATime takesFront_twoAtATime {}
  exact ⟨fd', calls, hwrite, hcalls, htaken, hcount⟩

end FileDescriptor

end Util

end Sponge
