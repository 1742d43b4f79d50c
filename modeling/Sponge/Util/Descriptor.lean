import Sponge.Lib.Outcome
import Sponge.Util.FileDescriptor

/-!
# `Util.Descriptor` — the flags and counters of a descriptor

All handles of a file descriptor share one `FDWrapper`. Reading sets its end-of-file flag, closing sets both flags, and
every read and write is counted, for the sake of the event loop. What a system call returns is a parameter here too;
`SysResult.Documented` and `ReadResult.Documented` say what the manual promises of it.

There is one lemma for each operation about what it does whatever the kernel answers (`read_ends`, `write_ends`), one
about what it throws (`read_throws`, `write_throws`), and some about what it does if the kernel keeps to the manual. The
bytes that were read are recorded in the descriptor, as the calls of `writev` are; no function looks at them.
-/

namespace Sponge

open Lib

namespace Util

/-- What is thrown by functions that work on descriptors: what `SystemCall` and the checks throw, and what
    `std::string::resize` throws if it is asked for a negative size. -/
inductive Failure where
  | sys (e : SysExn)
  | lengthError
deriving DecidableEq

def Failure.runtimeError (what : String) : Failure := .sys (.exn (.runtimeError what))

/-- The checks of what a system call has returned, by what they throw. -/
def resultChecks : List String :=
  ["read() read more than requested", "write returned 0 given non-empty input buffer",
    "write wrote more than length of input buffer", "recvfrom (oversized datagram)",
    "datagram payload too big for sendmsg()"]

/-- The exception is about a system call: the call has failed, or what it returned cannot be. -/
def Failure.ofCall : Failure → Bool
  | .sys (.unixError _ _)            => true
  | .sys (.exn (.outOfRange _))      => true
  | .sys (.exn (.runtimeError what)) => resultChecks.contains what
  | .lengthError                     => true

/-- How a socket is shut down. -/
inductive Shut where
  | rd | wr | rdwr
deriving DecidableEq

/-- What `read` or `recvfrom` returns, and the bytes that it has put into the buffer. -/
structure ReadResult extends SysResult where
  data : Sponge.Buffer := []
deriving DecidableEq

/-- The first `n` bytes of a buffer of zeros into which `data` was put. -/
def filled (data : Sponge.Buffer) (n : Nat) : Sponge.Buffer := (List.range n).map fun i => data.getD i 0

theorem length_filled (data : Sponge.Buffer) (n : Nat) : (filled data n).length = n := by
  rw [filled, List.length_map, List.length_range]

theorem filled_length (data : Sponge.Buffer) : filled data data.length = data := by
  apply List.ext_getElem
  · exact length_filled _ _
  · intro i h₁ h₂
    simp only [filled, List.getElem_map, List.getElem_range]
    rw [List.getD_eq_getElem?_getD, List.getElem?_eq_getElem h₂]
    rfl

/-- The views of a single string. -/
def BufferViewList.ofString (str : Sponge.Buffer) : BufferViewList :=
  [{ data := str, size := str.length, inRange := (Nat.zero_add _).le }]

theorem BufferViewList.bytes_ofString (str : Sponge.Buffer) : (ofString str).bytes = str := by
  rw [bytes, ofString, List.flatMap_singleton]
  exact List.take_length

theorem BufferViewList.size_ofString (str : Sponge.Buffer) : (ofString str).size = str.length := by
  rw [← length_bytes, bytes_ofString]

/-- What the manual promises of a call that is given room for, or handed, `size` bytes: it fails and says why, or it
    returns for how many of them it was done. -/
def SysResult.Documented (r : SysResult) (size : Nat) : Prop :=
  (r.ret = -1 ∧ r.errno ≠ 0) ∨ (0 ≤ r.ret.toInt ∧ r.ret.toInt ≤ size)

/-- For a call that reads, they are the bytes that were put into the buffer. -/
structure ReadResult.Documented (r : ReadResult) (size : Nat) : Prop where
  returns : r.toSysResult.Documented size
  length  : 0 ≤ r.ret.toInt → r.ret.toInt = r.data.length

theorem returned_eq {attempt : String} {returnValue errno returned : Int32}
    (h : systemCall attempt returnValue errno = .ok returned) : returned = returnValue := by
  unfold systemCall at h
  split at h
  · exact (Except.ok.inj h).symm
  · exact nomatch h

/-- The bytes that a call with this result is believed to have read. -/
def ReadResult.Yields (r : ReadResult) (data : Sponge.Buffer) : Prop :=
  ∃ n : Int64, n = r.ret.toInt32.toInt64 ∧ 0 ≤ n.toInt ∧ data = filled r.data n.toInt.toNat

/-- A number that the manual allows is not changed by the `int`. -/
theorem SysResult.Documented.ret_eq {r : SysResult} {size : Nat} (h : r.Documented size) (hsize : size < 2 ^ 31)
    (hnonneg : 0 ≤ r.ret.toInt32.toInt64.toInt) :
    r.ret.toInt32.toInt64 = r.ret ∧ 0 ≤ r.ret.toInt ∧ r.ret.toInt ≤ size := by
  rcases h with ⟨hret, -⟩ | ⟨hpos, hle⟩
  · rw [hret] at hnonneg
    exact absurd hnonneg (by decide)
  · exact ⟨toInt64_toInt32 hpos (by omega), hpos, hle⟩

/-- If the kernel keeps to the manual, these are the bytes that it has put into the buffer. -/
theorem ReadResult.Documented.data_eq {r : ReadResult} {size : Nat} {data : Sponge.Buffer} (h : r.Documented size)
    (hsize : size < 2 ^ 31) (hyields : r.Yields data) : data = r.data := by
  obtain ⟨n, rfl, hnonneg, rfl⟩ := hyields
  obtain ⟨hret, hpos, -⟩ := h.returns.ret_eq hsize hnonneg
  have hlen : r.ret.toInt.toNat = r.data.length := by
    have := h.length hpos
    omega
  rw [hret, hlen, filled_length]

/-! ## Operations -/

/-- The state that all handles of a descriptor share. -/
structure FDWrapper extends FileDescriptor where
  fdNum     : Int32 := 0
  eof       : Bool := false
  closed    : Bool := false
  readCount : UInt32 := 0
  received  : Sponge.Buffer := []

namespace FDWrapper

/-- The largest read that is made. -/
def bufferSize : Nat := 1024 * 1024

/-- A system call whose result is kept in a `ssize_t`. -/
def call {σ : Type} (attempt : String) (r : SysResult) : EStateM Failure σ Int64 :=
  match systemCall attempt r.ret.toInt32 r.errno with
  | .ok returned => pure returned.toInt64
  | .error e     => throw (.sys e)

def registerRead (fd : FDWrapper) : FDWrapper := { fd with readCount := fd.readCount + 1 }
def registerWrite (fd : FDWrapper) : FDWrapper := { fd with writeCount := fd.writeCount + 1 }

theorem readCount_registerRead_ne (fd : FDWrapper) : fd.registerRead.readCount ≠ fd.readCount := by
  intro h
  simp [registerRead] at h

/-- Read up to `limit` bytes. -/
def read (answer : Nat → ReadResult) (limit : Nat) : EStateM Failure FDWrapper Sponge.Buffer := do
  let sizeToRead := min bufferSize limit
  let r := answer sizeToRead
  let bytesRead ← call "read" r.toSysResult
  if limit > 0 && bytesRead == 0 then
    modify ({ · with eof := true })
  if bytesRead.toInt > sizeToRead then
    throw (.runtimeError "read() read more than requested")
  if bytesRead.toInt < 0 then
    throw .lengthError
  let str := filled r.data bytesRead.toInt.toNat
  modify fun fd => { fd.registerRead with received := fd.received ++ str }
  return str

/-- Write the buffer; with `writeAll`, until all of it is written. -/
def write (kernel : Kernel) (buffer : BufferViewList) (writeAll : Bool) : EStateM Failure FDWrapper Nat := fun fd =>
  match FileDescriptor.write kernel fd.toFileDescriptor buffer writeAll with
  | (.ok n, base)    => .ok n { fd with toFileDescriptor := base }
  | (.error e, base) => .error (.sys e) { fd with toFileDescriptor := base }

def close (r : SysResult) : EStateM Failure FDWrapper Unit := do
  let _ ← call "close" r
  modify ({ · with eof := true, closed := true })

/-- `Socket::shutdown`. -/
def shutdown (how : Shut) (r : SysResult) : EStateM Failure FDWrapper Unit := do
  let _ ← call "shutdown" r
  match how with
  | .rd   => modify registerRead
  | .wr   => modify registerWrite
  | .rdwr => modify fun fd => fd.registerRead.registerWrite

/-! ## What the operations do -/

variable {σ : Type} {fd : FDWrapper}

/-- A system call changes nothing here, and what it returns has gone through an `int`. -/
theorem call_ends (attempt : String) (r : SysResult) (s : σ) :
    Ends (call attempt r s) (fun n s' => s' = s ∧ n = r.ret.toInt32.toInt64) (fun _ s' => s' = s) := by
  unfold call
  cases hcall : systemCall attempt r.ret.toInt32 r.errno with
  | error e => exact rfl
  | ok returned => exact ⟨rfl, congrArg Int32.toInt64 (returned_eq hcall)⟩

/-- A system call that succeeds returns what an `int` can hold. -/
theorem call_of_nonneg {r : SysResult} (hpos : 0 ≤ r.ret.toInt) (hlt : r.ret.toInt < 2 ^ 31) (attempt : String)
    (s : σ) : call attempt r s = .ok r.ret s := by
  have hint := toInt64_toInt32 hpos hlt
  rw [call, systemCall_of_nonneg]
  · exact congrArg (EStateM.Result.ok · s) hint
  · rwa [← Int32.toInt_toInt64, hint]

/-- **Reading**, whatever the kernel answers: no more than was asked for, the end-of-file flag if nothing came, and one
    more read counted. A read that fails has changed nothing. -/
theorem read_ends (answer : Nat → ReadResult) (limit : Nat) (fd : FDWrapper) :
    Ends (read answer limit fd)
      (fun data fd' => data.length ≤ limit ∧ (answer (min bufferSize limit)).Yields data ∧
        fd' = { fd.registerRead with
          eof := fd.eof || (decide (0 < limit) && data.isEmpty), received := fd.received ++ data })
      (fun _ fd' => fd' = fd) := by
  unfold read
  refine (call_ends "read" _ fd).bind ?_
  rintro bytesRead _ ⟨rfl, hret⟩
  by_cases hzero : bytesRead = 0
  · -- the end of the file, if anything was asked for
    rw [hzero] at hret ⊢
    have hmore : ¬ (0 : Int64).toInt > (min bufferSize limit : Nat) := by rw [Int64.toInt_zero]; omega
    have hneg : ¬ (0 : Int64).toInt < 0 := by rw [Int64.toInt_zero]; omega
    simp only [beq_self_eq_true, Bool.and_true, if_neg hmore, if_neg hneg]
    by_cases hlimit : 0 < limit
    · simp only [gt_iff_lt, hlimit, decide_true, if_true]
      refine ⟨Nat.zero_le _, ⟨0, hret, le_refl _, rfl⟩, ?_⟩
      simp [filled, registerRead]
    · simp only [gt_iff_lt, hlimit, decide_false, Bool.false_eq_true, if_false]
      refine ⟨Nat.zero_le _, ⟨0, hret, le_refl _, rfl⟩, ?_⟩
      simp [registerRead]
  · have hbeq : (bytesRead == 0) = false := beq_eq_false_iff_ne.mpr hzero
    simp only [hbeq, Bool.and_false, Bool.false_eq_true, if_false]
    by_cases hmore : bytesRead.toInt > (min bufferSize limit : Nat)
    · rw [if_pos hmore]
      exact rfl
    · rw [if_neg hmore]
      by_cases hneg : bytesRead.toInt < 0
      · rw [if_pos hneg]
        exact rfl
      · rw [if_neg hneg]
        have hne : bytesRead.toInt ≠ 0 := fun h => hzero (Int64.toInt_inj.mp h)
        have hlen := length_filled (answer (min bufferSize limit)).data bytesRead.toInt.toNat
        refine ⟨?_, ⟨bytesRead, hret, by omega, rfl⟩, ?_⟩
        · rw [hlen]
          omega
        · have hsome : (filled (answer (min bufferSize limit)).data bytesRead.toInt.toNat).isEmpty = false := by
            rw [List.isEmpty_eq_false_iff, ← List.length_pos_iff, hlen]
            omega
          rw [hsome, Bool.and_false, Bool.or_false]
          rfl

/-- The two ways in which a round of the loop of `write` can end. -/
theorem writeOnce_cases (kernel : Kernel) (base : FileDescriptor) (buffer : BufferViewList) :
    ∃ c : WritevCall, c.given = buffer.bytes ∧ c.ret = (kernel base.calls.length buffer.asIovecs).ret ∧
      ((∃ rest n, FileDescriptor.writeOnce kernel base buffer =
          (.ok (rest, n), ⟨base.writeCount + 1, base.calls ++ [c]⟩) ∧
          n = c.ret.toInt32.toInt64.toUInt64.toNat) ∨
        ∃ e count, FileDescriptor.writeOnce kernel base buffer = (.error e, ⟨count, base.calls ++ [c]⟩)) := by
  refine ⟨⟨buffer.asIovecs, (kernel base.calls.length buffer.asIovecs).ret⟩, gathered_asIovecs buffer, rfl, ?_⟩
  simp only [FileDescriptor.writeOnce]
  cases hcall : systemCall "writev" (kernel base.calls.length buffer.asIovecs).ret.toInt32
      (kernel base.calls.length buffer.asIovecs).errno with
  | error e => exact Or.inr ⟨e, _, rfl⟩
  | ok returned =>
      obtain rfl := returned_eq hcall
      dsimp only
      split
      · exact Or.inr ⟨_, _, rfl⟩
      · split
        · exact Or.inr ⟨_, _, rfl⟩
        · split
          · exact Or.inr ⟨_, _, rfl⟩
          · exact Or.inl ⟨_, _, rfl, rfl⟩

/-- If the kernel keeps to the manual, as many bytes are believed to be taken as were. -/
theorem count_of_documented {r : SysResult} {size n : Nat} (h : r.Documented size) (hsize : size < 2 ^ 31)
    (hn : n = r.ret.toInt32.toInt64.toUInt64.toNat) (hle : n ≤ size) :
    0 ≤ r.ret.toInt ∧ n = r.ret.toInt.toNat := by
  rcases h with ⟨hret, -⟩ | ⟨hpos, hret⟩
  · have hhuge : (-1 : Int64).toInt32.toInt64.toUInt64.toNat = 2 ^ 64 - 1 := rfl
    rw [hret, hhuge] at hn
    omega
  · exact ⟨hpos, by rw [hn, toInt64_toInt32 hpos (by omega), toNat_toUInt64 hpos]⟩

/-- If the kernel keeps to the manual, a round that throws has not got rid of any byte. -/
theorem count_of_writeOnce_error {kernel : Kernel} {base base' : FileDescriptor} {buffer : BufferViewList} {e : SysExn}
    {c : WritevCall} (honce : FileDescriptor.writeOnce kernel base buffer = (.error e, base'))
    (hret : c.ret = (kernel base.calls.length buffer.asIovecs).ret)
    (h : (kernel base.calls.length buffer.asIovecs).Documented buffer.size) (hsize : buffer.size < 2 ^ 31) :
    c.count = 0 := by
  rw [WritevCall.count, hret]
  generalize hresult : kernel base.calls.length buffer.asIovecs = r at h
  rcases h with ⟨hfails, -⟩ | ⟨hpos, hle⟩
  · rw [hfails]
    rfl
  · by_contra hcount
    -- otherwise none of the tests fails
    have hreturned : r.ret.toInt32.toInt64 = r.ret := toInt64_toInt32 hpos (by omega)
    have hcall : systemCall "writev" r.ret.toInt32 r.errno = .ok r.ret.toInt32 := by
      apply systemCall_of_nonneg
      rwa [← Int32.toInt_toInt64, hreturned]
    have hzero : (r.ret == 0) = false := by
      rw [beq_eq_false_iff_ne]
      rintro hret
      rw [hret] at hcount
      exact hcount rfl
    have hmore : ¬ r.ret.toInt > buffer.size := by omega
    obtain ⟨rest, hremove, -⟩ := BufferViewList.removePrefix_ok (l := buffer) (n := r.ret.toInt.toNat) (by omega)
    simp only [FileDescriptor.writeOnce, hresult, hcall, hreturned, hzero, Bool.false_and, Bool.false_eq_true, if_false,
      if_neg hmore, toNat_toUInt64 hpos, hremove] at honce
    cases honce

/-- **Writing once**, whatever the kernel answers: the call is given the whole buffer, it is believed to have taken
    some of it, and one more write is counted. If the kernel keeps to the manual, what is believed is true, and a write
    that throws has not got rid of any byte. -/
theorem write_ends (kernel : Kernel) (buffer : BufferViewList) (fd : FDWrapper) :
    Ends (write kernel buffer false fd)
      (fun n fd' => n ≤ buffer.size ∧ ∃ c : WritevCall, c.given = buffer.bytes ∧
        fd' = { fd with writeCount := fd.writeCount + 1, calls := fd.calls ++ [c] } ∧
        ((kernel fd.calls.length buffer.asIovecs).Documented buffer.size → buffer.size < 2 ^ 31 → n = c.count))
      (fun _ fd' => ∃ (c : WritevCall) (count : UInt32),
        fd' = { fd with writeCount := count, calls := fd.calls ++ [c] } ∧
        ((kernel fd.calls.length buffer.asIovecs).Documented buffer.size → buffer.size < 2 ^ 31 → c.count = 0)) := by
  obtain ⟨c, hgiven, hret, ⟨rest, n, honce, hn⟩ | ⟨e, count, honce⟩⟩ :=
    writeOnce_cases kernel fd.toFileDescriptor buffer
  · obtain ⟨hremove, -⟩ := FileDescriptor.writeOnce_ok honce
    obtain ⟨hle, -, -⟩ := BufferViewList.of_removePrefix hremove
    have hwrite : FileDescriptor.write kernel fd.toFileDescriptor buffer false = _ :=
      FileDescriptor.writeLoop_of_ok honce false 0
    rw [Bool.false_and, if_neg Bool.false_ne_true, Nat.zero_add] at hwrite
    rw [write, hwrite]
    refine ⟨hle, c, hgiven, rfl, ?_⟩
    intro hdocumented hsize
    rw [hret] at hn
    rw [WritevCall.count, hret]
    exact (count_of_documented hdocumented hsize hn hle).2
  · have hwrite : FileDescriptor.write kernel fd.toFileDescriptor buffer false =
        (.error e, ⟨count, fd.calls ++ [c]⟩) := by
      rw [FileDescriptor.write, FileDescriptor.writeLoop, honce]
    rw [write, hwrite]
    exact ⟨c, count, rfl, fun hdocumented hsize => count_of_writeOnce_error honce hret hdocumented hsize⟩

/-- **Writing the front of a buffer once**: the bytes that are believed to be taken are the first ones, and a write that
    throws has taken none. -/
theorem write_front_ends {D : Prop} {kernel : Kernel} {limit : Nat} (hlimit : limit < 2 ^ 31)
    (hdoc : D → ∀ k iovecs, (gathered iovecs).length ≤ limit → (kernel k iovecs).Documented (gathered iovecs).length)
    (buf : Sponge.Buffer) (fd : FDWrapper) :
    Ends (write kernel (BufferViewList.ofString (buf.take (min limit buf.length))) false fd)
      (fun n fd' => n ≤ buf.length ∧ ∃ c : WritevCall,
        fd' = { fd with writeCount := fd.writeCount + 1, calls := fd.calls ++ [c] } ∧ (D → c.taken = buf.take n))
      (fun _ fd' => ∃ (c : WritevCall) (count : UInt32),
        fd' = { fd with writeCount := count, calls := fd.calls ++ [c] } ∧ (D → c.taken = [])) := by
  obtain ⟨front, hfront⟩ : ∃ front, front = buf.take (min limit buf.length) := ⟨_, rfl⟩
  rw [← hfront]
  have hsize : (BufferViewList.ofString front).size = min limit buf.length := by
    rw [BufferViewList.size_ofString, hfront, List.length_take]
    omega
  have hwritev (hD : D) : (kernel fd.calls.length (BufferViewList.ofString front).asIovecs).Documented
      (BufferViewList.ofString front).size := by
    have hlen := BufferViewList.length_bytes (BufferViewList.ofString front)
    rw [← gathered_asIovecs] at hlen
    rw [← hlen]
    exact hdoc hD _ _ (by omega)
  refine (write_ends kernel (BufferViewList.ofString front) fd).mono ?_ ?_
  · rintro n fd' ⟨hn, c, hgiven, hfd, hcount⟩
    refine ⟨by omega, c, hfd, fun hD => ?_⟩
    rw [WritevCall.taken, ← hcount (hwritev hD) (by omega), hgiven, BufferViewList.bytes_ofString, hfront,
      List.take_take]
    congr 1
    omega
  · rintro e fd' ⟨c, count, hfd, hzero⟩
    refine ⟨c, count, hfd, fun hD => ?_⟩
    rw [WritevCall.taken, hzero (hwritev hD) (by omega), List.take_zero]

/-- What is assumed of a device for datagrams: one that is not too long is taken as a whole, or the call fails. -/
def TakesWhole (kernel : Kernel) : Prop :=
  ∀ k iovecs, (gathered iovecs).length ≤ 65535 →
    ((kernel k iovecs).ret = -1 ∧ (kernel k iovecs).errno ≠ 0) ∨
      (kernel k iovecs).ret.toInt = (gathered iovecs).length

theorem TakesWhole.cases {kernel : Kernel} (h : TakesWhole kernel) (k : Nat) {buffer : BufferViewList}
    (hsize : buffer.size ≤ 65535) :
    ((kernel k buffer.asIovecs).ret = -1 ∧ (kernel k buffer.asIovecs).errno ≠ 0) ∨
      (kernel k buffer.asIovecs).ret.toInt = buffer.size := by
  have hlen : (gathered buffer.asIovecs).length = buffer.size := by
    rw [gathered_asIovecs, BufferViewList.length_bytes]
  have hcases := h k buffer.asIovecs (hlen.trans_le hsize)
  rwa [hlen] at hcases

/-- **Writing a datagram** as a whole takes one call. -/
theorem write_whole_ends {kernel : Kernel} (hkernel : TakesWhole kernel) {buffer : BufferViewList}
    (hsize : buffer.size ≤ 65535) (fd : FDWrapper) :
    ∃ c : WritevCall, c.given = buffer.bytes ∧
      Ends (write kernel buffer true fd) (fun _ fd' => fd'.calls = fd.calls ++ [c])
        (fun _ fd' => fd'.calls = fd.calls ++ [c]) := by
  obtain ⟨c, hgiven, hret, ⟨rest, n, honce, hn⟩ | ⟨e, count, honce⟩⟩ :=
    writeOnce_cases kernel fd.toFileDescriptor buffer
  · refine ⟨c, hgiven, ?_⟩
    obtain ⟨hremove, -⟩ := FileDescriptor.writeOnce_ok honce
    obtain ⟨hle, -, hrest⟩ := BufferViewList.of_removePrefix hremove
    -- nothing is left for a second round
    have hempty : rest.size = 0 := by
      have hcases := hkernel.cases fd.calls.length hsize
      have hdocumented : (kernel fd.calls.length buffer.asIovecs).Documented buffer.size :=
        hcases.imp_right fun h => ⟨by omega, h.le⟩
      rw [hret] at hn
      obtain ⟨hpos, hcount⟩ := count_of_documented hdocumented (by omega) hn hle
      rcases hcases with ⟨hfails, -⟩ | hwhole
      · rw [hfails] at hpos
        exact absurd hpos (by decide)
      · omega
    have hwrite : FileDescriptor.write kernel fd.toFileDescriptor buffer true = _ :=
      FileDescriptor.writeLoop_of_ok honce true 0
    rw [hempty, bne_self_eq_false, Bool.and_false, if_neg Bool.false_ne_true] at hwrite
    rw [write, hwrite]
    exact rfl
  · refine ⟨c, hgiven, ?_⟩
    have hwrite : FileDescriptor.write kernel fd.toFileDescriptor buffer true =
        (.error e, ⟨count, fd.calls ++ [c]⟩) := by
      rw [FileDescriptor.write, FileDescriptor.writeLoop, honce]
    rw [write, hwrite]
    exact rfl

/-- A shutdown of the writing side counts as a write. -/
theorem shutdown_wr_ends (r : SysResult) (fd : FDWrapper) :
    Ends (shutdown .wr r fd) (fun _ fd' => fd' = fd.registerWrite) (fun _ fd' => fd' = fd) := by
  refine (call_ends "shutdown" r fd).bind ?_
  rintro _ _ ⟨rfl, -⟩
  exact rfl

theorem close_ends (r : SysResult) (fd : FDWrapper) :
    Ends (close r fd) (fun _ fd' => fd' = { fd with eof := true, closed := true }) (fun _ fd' => fd' = fd) := by
  refine (call_ends "close" r fd).bind ?_
  rintro _ _ ⟨rfl, -⟩
  exact rfl

/-! ## What the operations throw -/

theorem ofCall_systemCall {attempt : String} {returnValue errno : Int32} {e : SysExn}
    (h : systemCall attempt returnValue errno = .error e) : (Failure.sys e).ofCall = true := by
  unfold systemCall at h
  split at h
  · cases h
  · obtain rfl := Except.error.inj h
    exact rfl

theorem call_throws (attempt : String) (r : SysResult) (s : σ) :
    Ends (call attempt r s) (fun _ _ => True) (fun e _ => e.ofCall = true) := by
  unfold call
  cases hcall : systemCall attempt r.ret.toInt32 r.errno with
  | error e => exact ofCall_systemCall hcall
  | ok returned => exact trivial

theorem read_throws (answer : Nat → ReadResult) (limit : Nat) (fd : FDWrapper) :
    Ends (read answer limit fd) (fun _ _ => True) (fun e _ => e.ofCall = true) := by
  unfold read
  refine (call_throws "read" _ fd).bind ?_
  rintro bytesRead fd' -
  -- whether the end-of-file flag was set or not, the same two checks follow
  dsimp only
  split
  all_goals
    show Ends ((if bytesRead.toInt > (min bufferSize limit : Nat) then _ else _ : EStateM Failure FDWrapper _) _) _ _
    split
    · exact (by decide : (Failure.runtimeError "read() read more than requested").ofCall = true)
    · show Ends ((if bytesRead.toInt < 0 then _ else _ : EStateM Failure FDWrapper _) _) _ _
      split
      · exact rfl
      · exact trivial

theorem ofCall_writeOnce {kernel : Kernel} {base base' : FileDescriptor} {buffer : BufferViewList} {e : SysExn}
    (h : FileDescriptor.writeOnce kernel base buffer = (.error e, base')) : (Failure.sys e).ofCall = true := by
  simp only [FileDescriptor.writeOnce] at h
  split at h
  · next hcall =>
      cases h
      exact ofCall_systemCall hcall
  · split at h
    · cases h
      decide
    · split at h
      · cases h
        decide
      · split at h
        · next hremove =>
            cases h
            rw [BufferViewList.exn_of_removePrefix hremove]
            rfl
        · cases h

/-- The loop throws what one of its rounds throws. -/
theorem ofCall_writeLoop {kernel : Kernel} {writeAll : Bool} {base base' : FileDescriptor} {buffer : BufferViewList}
    {total : Nat} {e : SysExn} (h : FileDescriptor.writeLoop kernel writeAll base buffer total = (.error e, base')) :
    (Failure.sys e).ofCall = true := by
  fun_induction FileDescriptor.writeLoop kernel writeAll base buffer total with
  | case1 base buffer total e fd honce =>
      cases h
      exact ofCall_writeOnce honce
  | case2 base buffer total rest n fd honce hgo ih => exact ih h
  | case3 base buffer total rest n fd honce hstop => cases h

theorem write_throws (kernel : Kernel) (buffer : BufferViewList) (writeAll : Bool) (fd : FDWrapper) :
    Ends (write kernel buffer writeAll fd) (fun _ _ => True) (fun e _ => e.ofCall = true) := by
  unfold write
  cases hwrite : FileDescriptor.write kernel fd.toFileDescriptor buffer writeAll with
  | mk result base =>
      cases result with
      | ok n => exact trivial
      | error e => exact ofCall_writeLoop hwrite

theorem shutdown_throws (how : Shut) (r : SysResult) (fd : FDWrapper) :
    Ends (shutdown how r fd) (fun _ _ => True) (fun e _ => e.ofCall = true) := by
  refine (call_throws "shutdown" r fd).bind ?_
  rintro _ fd' -
  cases how <;> exact trivial

theorem close_throws (r : SysResult) (fd : FDWrapper) :
    Ends (close r fd) (fun _ _ => True) (fun e _ => e.ofCall = true) :=
  (call_throws "close" r fd).bind fun _ _ _ => trivial

end FDWrapper

end Util

end Sponge
