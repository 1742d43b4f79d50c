import Sponge.StreamReassembler

/-!
# `Reassembler.Effect` — what one `push_substring` can do

Every proof about the reassembler starts from `pushSubstring_routed`: a push is discarded, only remembers
the `eof`, stores bytes ahead of `nextIndex`, or writes bytes at `nextIndex` and drains the map. It holds for
any arguments, with the sums of the source; `pushSubstring_cases` is the same where nothing overflows. The two
loops that write are described once by `Advance`: some bytes go to the output, `nextIndex` moves past
them, and the map forgets the indices passed over.
-/

namespace Sponge

open Lib

namespace StreamReassembler

variable {r r₁ r₂ : StreamReassembler}

/-! ## What no loop touches -/

/-- The parts of the state that none of the loops changes, and the written bytes, which only grow. -/
structure Frame (r r' : StreamReassembler) : Prop where
  written   : r.output.writeCount ≤ r'.output.writeCount
  readCount : r'.output.readCount = r.output.readCount
  outCap    : r'.output.capacity = r.output.capacity
  isEof     : r'.output.isEof = r.output.isEof
  error     : r'.output.error = r.output.error
  capacity  : r'.capacity = r.capacity
  eofFlag   : r'.eofFlag = r.eofFlag

theorem Frame.refl (r : StreamReassembler) : Frame r r :=
  ⟨le_refl _, rfl, rfl, rfl, rfl, rfl, rfl⟩

theorem Frame.trans (h₁ : Frame r r₁) (h₂ : Frame r₁ r₂) : Frame r r₂ :=
  ⟨h₁.written.trans h₂.written, h₂.readCount.trans h₁.readCount, h₂.outCap.trans h₁.outCap,
    h₂.isEof.trans h₁.isEof, h₂.error.trans h₁.error, h₂.capacity.trans h₁.capacity, h₂.eofFlag.trans h₁.eofFlag⟩

theorem frame_writeByte (key : Nat) (c : UInt8) : Frame r (r.writeByte key c) := by
  unfold writeByte
  simp only
  split <;> exact ⟨Nat.le_add_right _ _, rfl, rfl, rfl, rfl, rfl, rfl⟩

theorem frame_writeLoop (index i : Nat) (cs : List UInt8) : Frame r (writeLoop index i cs r) := by
  induction cs generalizing i r with
  | nil => exact Frame.refl r
  | cons c cs ih => exact (frame_writeByte _ c).trans (ih (i + 1))

theorem frame_drainByte (stored : List UInt8) : Frame r (r.drainByte stored) :=
  ⟨Nat.le_add_right _ _, rfl, rfl, rfl, rfl, rfl, rfl⟩

theorem frame_drain : Frame r r.drain := by
  induction r using drain.induct with
  | case1 r hmem hroom ih =>
      rw [drain, dif_pos hmem, if_pos hroom]
      exact (frame_drainByte _).trans ih
  | case2 r hmem hfull => rw [drain, dif_pos hmem, if_neg hfull]; exact Frame.refl r
  | case3 r hmem => rw [drain, dif_neg hmem]; exact Frame.refl r

/-! ## The storing loop -/

section Store

variable (index i : Nat) (cs : List UInt8) (r : StreamReassembler)

/-- Everything but the map and its counter. -/
theorem storeLoop_frame :
    (storeLoop index i cs r).output = r.output ∧ (storeLoop index i cs r).capacity = r.capacity ∧
      (storeLoop index i cs r).nextIndex = r.nextIndex ∧
      (storeLoop index i cs r).eofFlag = r.eofFlag := by
  induction cs generalizing i r with
  | nil => exact ⟨rfl, rfl, rfl, rfl⟩
  | cons c cs ih =>
      have hbyte : (r.storeByte (uadd 64 index i) c).output = r.output ∧
          (r.storeByte (uadd 64 index i) c).capacity = r.capacity ∧
          (r.storeByte (uadd 64 index i) c).nextIndex = r.nextIndex ∧
          (r.storeByte (uadd 64 index i) c).eofFlag = r.eofFlag := by
        unfold storeByte; split <;> exact ⟨rfl, rfl, rfl, rfl⟩
      have := ih (i + 1) (r.storeByte (uadd 64 index i) c)
      simp only [storeLoop, this, hbyte, and_self]

@[simp] theorem storeLoop_output : (storeLoop index i cs r).output = r.output :=
  (storeLoop_frame index i cs r).1
@[simp] theorem storeLoop_capacity : (storeLoop index i cs r).capacity = r.capacity :=
  (storeLoop_frame index i cs r).2.1
@[simp] theorem storeLoop_nextIndex : (storeLoop index i cs r).nextIndex = r.nextIndex :=
  (storeLoop_frame index i cs r).2.2.1
@[simp] theorem storeLoop_eofFlag : (storeLoop index i cs r).eofFlag = r.eofFlag :=
  (storeLoop_frame index i cs r).2.2.2

end Store

theorem storeByte_lookup (key k : Nat) (c : UInt8) :
    (r.storeByte key c).myMap[k]? = (r.myMap[k]?).or (if k = key then some [c] else none) := by
  unfold storeByte
  split <;> grind

/-- After the storing loop an index holds what it held before, or else the byte pushed for it. -/
theorem storeLoop_lookup {index i : Nat} {cs : List UInt8} (h : index + i + cs.length ≤ 2 ^ 64)
    (k : Nat) :
    (storeLoop index i cs r).myMap[k]? =
      (r.myMap[k]?).or (if index + i ≤ k then (cs[k - (index + i)]?).map ([·]) else none) := by
  induction cs generalizing i r with
  | nil => simp [storeLoop]
  | cons c cs ih =>
      simp only [List.length_cons] at h
      have hkey : uadd 64 index i = index + i := uadd_of_lt (by omega)
      rw [storeLoop, ih (by omega), storeByte_lookup, hkey, Option.or_assoc]
      congr 1
      rcases Nat.lt_trichotomy k (index + i) with hlt | heq | hgt
      · simp [show ¬ index + i ≤ k by omega, show ¬ index + (i + 1) ≤ k by omega, hlt.ne]
      · simp [heq]
      · obtain ⟨d, rfl⟩ : ∃ d, k = index + i + 1 + d := ⟨k - (index + i + 1), by omega⟩
        have hd : index + i + 1 + d - (index + (i + 1)) = d := by omega
        have hd' : index + i + 1 + d - (index + i) = d + 1 := by omega
        simp [show index + (i + 1) ≤ index + i + 1 + d by omega,
          show index + i ≤ index + i + 1 + d by omega, show index + i + 1 + d ≠ index + i by omega, hd, hd']

/-! ## Writing at `nextIndex` -/

/-- `r'` is `r` after the bytes `cs` have been written at `nextIndex`: they are appended to the output,
    the index moves past them, and the map forgets the indices passed over. -/
structure Advance (r : StreamReassembler) (cs : List UInt8) (r' : StreamReassembler) : Prop
    extends Frame r r' where
  buf        : r'.output.buf = r.output.buf ++ cs
  writeCount : r'.output.writeCount = r.output.writeCount + cs.length
  nextIndex  : r'.nextIndex = r.nextIndex + cs.length
  lookup     : ∀ k, r'.myMap[k]? =
    if r.nextIndex ≤ k ∧ k < r.nextIndex + cs.length then none else r.myMap[k]?
  count      : r.bytesUnAssembled = r.myMap.size → r'.bytesUnAssembled = r'.myMap.size

theorem Advance.refl (r : StreamReassembler) : Advance r [] r where
  toFrame := Frame.refl r
  buf := by simp
  writeCount := by simp
  nextIndex := by simp
  lookup := by intro k; rw [if_neg (by simp)]
  count := id

theorem Advance.trans {cs₁ cs₂ : List UInt8} (h₁ : Advance r cs₁ r₁) (h₂ : Advance r₁ cs₂ r₂) :
    Advance r (cs₁ ++ cs₂) r₂ where
  toFrame := h₁.toFrame.trans h₂.toFrame
  buf := by rw [h₂.buf, h₁.buf, List.append_assoc]
  writeCount := by rw [h₂.writeCount, h₁.writeCount, List.length_append]; omega
  nextIndex := by rw [h₂.nextIndex, h₁.nextIndex, List.length_append]; omega
  lookup := by
    intro k
    rw [h₂.lookup, h₁.lookup, h₁.nextIndex, List.length_append]
    split_ifs <;> first | rfl | omega
  count := fun h => h₂.count (h₁.count h)

/-- An index past the written bytes is untouched. -/
theorem Advance.mem_iff {cs : List UInt8} (h : Advance r cs r₁) (k : Nat) :
    k ∈ r₁.myMap ↔ k ∈ r.myMap ∧ ¬ (r.nextIndex ≤ k ∧ k < r.nextIndex + cs.length) := by
  rw [Std.ExtTreeMap.mem_iff_isSome_getElem?, Std.ExtTreeMap.mem_iff_isSome_getElem?, h.lookup]
  split_ifs with hk <;> simp [hk]

theorem Advance.remaining {cs : List UInt8} (h : Advance r cs r₁) :
    r₁.output.remainingCapacity = r.output.remainingCapacity - cs.length := by
  simp only [ByteStream.remainingCapacity, h.buf, h.outCap, List.length_append]
  omega

/-- One round of the writing loop, at the index it is called with. -/
theorem advance_writeByte (c : UInt8) (hroom : 0 < r.output.remainingCapacity) :
    Advance r [c] (r.writeByte r.nextIndex c) := by
  obtain ⟨hbuf, hcount⟩ := ByteStream.write_singleton c hroom
  have hframe := frame_writeByte (r := r) r.nextIndex c
  unfold writeByte at hframe ⊢
  by_cases hmem : r.nextIndex ∈ r.myMap
  · simp only [hmem, if_true] at hframe ⊢
    have hsize := size_erase_of_mem hmem
    refine ⟨hframe, hbuf, hcount, rfl, fun k => ?_, fun h => ?_⟩
    · by_cases hk : k = r.nextIndex
      · subst hk; simp
      · rw [if_neg (by simp; omega)]
        simp [Std.ExtTreeMap.getElem?_erase, Ne.symm hk]
    · simp only at h ⊢
      rw [usub_of_le (by omega)]
      omega
  · simp only [hmem, if_false] at hframe ⊢
    refine ⟨hframe, hbuf, hcount, rfl, fun k => ?_, id⟩
    by_cases hk : k = r.nextIndex
    · subst hk; simp [hmem]
    · rw [if_neg (by simp; omega)]

/-- The writing loop writes its bytes, as long as they fit. -/
theorem advance_writeLoop {index i : Nat} {cs : List UInt8} (hi : r.nextIndex = index + i)
    (hlt : index + i + cs.length ≤ 2 ^ 64) (hroom : cs.length ≤ r.output.remainingCapacity) :
    Advance r cs (writeLoop index i cs r) := by
  induction cs generalizing i r with
  | nil => exact Advance.refl r
  | cons c cs ih =>
      simp only [List.length_cons] at hlt hroom
      have hkey : uadd 64 index i = r.nextIndex := by rw [hi]; exact uadd_of_lt (by omega)
      have hbyte := advance_writeByte (r := r) c (by omega)
      have hrest : Advance (r.writeByte r.nextIndex c) cs
          (writeLoop index (i + 1) cs (r.writeByte r.nextIndex c)) := by
        refine ih ?_ (by omega) ?_
        · rw [hbyte.nextIndex, hi]; rfl
        · rw [hbyte.remaining, List.length_singleton]; omega
      rw [writeLoop, hkey]
      exact hbyte.trans hrest

/-- One round of the draining loop. -/
theorem advance_drainByte {c : UInt8} (hc : r.myMap[r.nextIndex]? = some [c])
    (hroom : 0 < r.output.remainingCapacity) : Advance r [c] (r.drainByte [c]) := by
  obtain ⟨hbuf, hcount⟩ := ByteStream.write_singleton c hroom
  have hmem : r.nextIndex ∈ r.myMap := by
    rw [Std.ExtTreeMap.mem_iff_isSome_getElem?, hc]; rfl
  have hsize := size_erase_of_mem hmem
  refine ⟨frame_drainByte _, hbuf, hcount, rfl, fun k => ?_, fun h => ?_⟩
  · by_cases hk : k = r.nextIndex
    · subst hk; simp [drainByte]
    · rw [if_neg (by simp; omega)]
      simp [drainByte, Std.ExtTreeMap.getElem?_erase, Ne.symm hk]
  · simp only [drainByte]
    rw [usub_of_le (by omega)]
    omega

/-- Every stored string is a single byte. -/
def Singles (r : StreamReassembler) : Prop :=
  ∀ (k : Nat) (v : List UInt8), r.myMap[k]? = some v → ∃ c, v = [c]

theorem Advance.singles {cs : List UInt8} (h : Advance r cs r₁) (hs : r.Singles) : r₁.Singles := by
  intro k v hv
  rw [h.lookup] at hv
  split_ifs at hv
  exact hs k v hv

/-- **The draining loop** writes the longest run of stored bytes that fits, and stops only when the
    next index is not stored or the output is full. -/
theorem advance_drain (hs : r.Singles) :
    ∃ cs, Advance r cs r.drain ∧ cs.length ≤ r.output.remainingCapacity ∧
      (∀ j c, cs[j]? = some c → r.myMap[r.nextIndex + j]? = some [c]) ∧
      (r.drain.nextIndex ∈ r.drain.myMap → r.drain.output.remainingCapacity = 0) := by
  induction r using drain.induct with
  | case1 r hmem hroom ih =>
      have hlook : r.myMap[r.nextIndex]? = some r.myMap[r.nextIndex] :=
        Std.ExtTreeMap.getElem?_eq_some_getElem hmem
      obtain ⟨c, hc⟩ := hs _ _ hlook
      rw [hc] at ih hlook
      have hbyte := advance_drainByte hlook hroom
      obtain ⟨cs, hadv, hlen, hget, hstop⟩ := ih (hbyte.singles hs)
      have hunfold : r.drain = (r.drainByte [c]).drain := by
        conv_lhs => rw [drain]
        rw [dif_pos hmem, if_pos hroom, hc]
      rw [hunfold]
      refine ⟨c :: cs, hbyte.trans hadv, ?_, ?_, hstop⟩
      · rw [hbyte.remaining] at hlen
        simp only [List.length_singleton] at hlen
        simp only [List.length_cons]
        omega
      · intro j d hj
        cases j with
        | zero =>
            rw [List.getElem?_cons_zero, Option.some.injEq] at hj
            rw [Nat.add_zero, hlook, hj]
        | succ j =>
            have hold := hget j d (by simpa using hj)
            rw [hbyte.lookup, hbyte.nextIndex, List.length_singleton] at hold
            rw [if_neg (by omega)] at hold
            rw [← hold]
            congr 1
            omega
  | case2 r hmem hfull =>
      have hunfold : r.drain = r := by rw [drain, dif_pos hmem, if_neg hfull]
      rw [hunfold]
      exact ⟨[], Advance.refl r, Nat.zero_le _, by simp, fun _ => by omega⟩
  | case3 r hmem =>
      have hunfold : r.drain = r := by rw [drain, dif_neg hmem]
      rw [hunfold]
      exact ⟨[], Advance.refl r, Nat.zero_le _, by simp, fun h => absurd h hmem⟩

/-! ## The four outcomes of a push -/

/-- `r` with the `eof_flag` raised if `b`. -/
def mark (r : StreamReassembler) (b : Bool) : StreamReassembler := { r with eofFlag := r.eofFlag || b }

section Mark

variable (r : StreamReassembler) (b : Bool)

@[simp] theorem mark_output : (r.mark b).output = r.output := rfl
@[simp] theorem mark_capacity : (r.mark b).capacity = r.capacity := rfl
@[simp] theorem mark_nextIndex : (r.mark b).nextIndex = r.nextIndex := rfl
@[simp] theorem mark_bytesUnAssembled : (r.mark b).bytesUnAssembled = r.bytesUnAssembled := rfl
@[simp] theorem mark_myMap : (r.mark b).myMap = r.myMap := rfl
@[simp] theorem mark_eofFlag : (r.mark b).eofFlag = (r.eofFlag || b) := rfl

theorem mark_mark (b' : Bool) : (r.mark b).mark b' = r.mark (b || b') := by simp [mark, Bool.or_assoc]

end Mark

/-- The verdict of the `eof_flag` test, in the wrapping arithmetic of the source. -/
def eofTest (r : StreamReassembler) (data : List UInt8) (index : Nat) (eof : Bool) : Bool :=
  eof && decide (uadd 64 (usub 64 data.length r.nextIndex) index ≤ r.capacity)

theorem markEof_eq_mark (data : List UInt8) (index : Nat) (eof : Bool) :
    r.markEof data index eof = r.mark (r.eofTest data index eof) := by
  unfold markEof eofTest mark
  cases eof with
  | false => simp
  | true =>
      by_cases hfit : uadd 64 (usub 64 data.length r.nextIndex) index ≤ r.capacity
      · simp [hfit]
      · simp [hfit]

theorem eof_of_eofTest {data : List UInt8} {index : Nat} {eof : Bool}
    (h : r.eofTest data index eof = true) : eof = true := by
  rw [eofTest, Bool.and_eq_true] at h
  exact h.1

/-- The pushed substring carries `eof` and ends no further than `capacity` past `nextIndex`. -/
def eofFits (r : StreamReassembler) (data : List UInt8) (index : Nat) (eof : Bool) : Bool :=
  eof && decide (index + data.length ≤ r.nextIndex + r.capacity)

/-- Without overflow the test is `eofFits`. -/
theorem eofTest_eq_eofFits {data : List UInt8} {index : Nat} (eof : Bool)
    (hlt : index + data.length < 2 ^ 64) (hle : r.nextIndex ≤ index + data.length) :
    r.eofTest data index eof = r.eofFits data index eof := by
  have hval : uadd 64 (usub 64 data.length r.nextIndex) index = index + data.length - r.nextIndex := by
    unfold uadd usub
    split <;> omega
  rw [eofTest, eofFits, hval]
  congr 1
  rw [decide_eq_decide]
  omega

theorem take_min_length (data : List UInt8) (n : Nat) : data.take (min data.length n) = data.take n := by
  rw [Nat.min_comm]; exact List.take_eq_take_min.symm

/-- The way a push takes, for any arguments at all, with the tests of the source that lead there. `b` is
    whether it raises the `eof_flag`: never without `eof`, and without overflow exactly if `eofFits`. -/
inductive Routed (r : StreamReassembler) (data : List UInt8) (index : Nat) (eof : Bool) :
    StreamReassembler → Prop where
  | discarded
      (h : r.nextIndex < index ∧ r.capacity ≤ index - r.nextIndex ∨
        uadd 64 index data.length < r.nextIndex) :
      Routed r data index eof r
  | seen (b : Bool) (hb : b = true → eof = true)
      (hfits : index + data.length < 2 ^ 64 → b = r.eofFits data index eof)
      (h : index < r.nextIndex) (hend : uadd 64 index data.length = r.nextIndex) :
      Routed r data index eof (r.mark b)
  | stored (b : Bool) (hb : b = true → eof = true)
      (hfits : index + data.length < 2 ^ 64 → b = r.eofFits data index eof)
      (h : r.nextIndex < index) (hnear : index - r.nextIndex < r.capacity)
      (hend : r.nextIndex ≤ uadd 64 index data.length) :
      Routed r data index eof
        (storeLoop index 0 (data.take r.output.remainingCapacity) (r.mark b))
  | written (b : Bool) (hb : b = true → eof = true)
      (hfits : index + data.length < 2 ^ 64 → b = r.eofFits data index eof)
      (h : index ≤ r.nextIndex) (hend : r.nextIndex ≤ uadd 64 index data.length)
      (hnew : index < r.nextIndex → r.nextIndex < uadd 64 index data.length) :
      Routed r data index eof
        (finish (drain (writeLoop r.nextIndex 0
          ((data.drop (r.nextIndex - index)).take r.output.remainingCapacity) (r.mark b))))

/-- The call with `index = nextIndex`, where the recursion ends. -/
theorem pushSubstring_next (data : List UInt8) (eof : Bool)
    (hend : r.nextIndex ≤ uadd 64 r.nextIndex data.length) :
    r.pushSubstring data r.nextIndex eof =
      finish (drain (writeLoop r.nextIndex 0 (data.take r.output.remainingCapacity)
        (r.mark (r.eofTest data r.nextIndex eof)))) := by
  rw [pushSubstring, if_neg (by omega), if_neg (by omega), markEof_eq_mark]
  simp only [mark_output, take_min_length, lt_irrefl, if_false]

/-- The suffix that is pushed again ends where the whole substring does. -/
theorem uadd_drop {data : List UInt8} {index next : Nat} (h : index < next)
    (hnew : next < uadd 64 index data.length) :
    next + (data.drop (next - index)).length = index + data.length := by
  -- the wrapped sum is at most the true one
  have hle : uadd 64 index data.length ≤ index + data.length := Nat.mod_le _ _
  rw [List.length_drop]
  omega

/-- **What a push can do**, for any arguments. -/
theorem pushSubstring_routed (r : StreamReassembler) (data : List UInt8) (index : Nat) (eof : Bool) :
    Routed r data index eof (r.pushSubstring data index eof) := by
  by_cases hfar : index > r.nextIndex ∧ index - r.nextIndex ≥ r.capacity
  · rw [pushSubstring, if_pos hfar]
    exact .discarded (Or.inl hfar)
  by_cases hold : uadd 64 index data.length < r.nextIndex
  · rw [pushSubstring, if_neg hfar, if_pos hold]
    exact .discarded (Or.inr hold)
  have hfits : index + data.length < 2 ^ 64 →
      r.eofTest data index eof = r.eofFits data index eof := by
    intro hlt
    rw [uadd_of_lt hlt] at hold
    exact eofTest_eq_eofFits eof hlt (by omega)
  rcases Nat.lt_trichotomy index r.nextIndex with hidx | hidx | hidx
  · by_cases hnew : uadd 64 index data.length > r.nextIndex
    · -- the suffix from `nextIndex` on is pushed again, with a second verdict on `eof`
      have hsum := uadd_drop hidx hnew
      have hrec := pushSubstring_next (r := r.mark (r.eofTest data index eof))
        (data.drop (r.nextIndex - index)) eof (by rw [mark_nextIndex, uadd, hsum]; exact hnew.le)
      rw [mark_nextIndex, mark_mark] at hrec
      rw [pushSubstring, if_neg hfar, if_neg hold, if_pos hidx, if_pos hnew, markEof_eq_mark, hrec]
      refine .written _ (fun hb => ?_) (fun hlt => ?_) hidx.le hnew.le fun _ => hnew
      · rw [Bool.or_eq_true] at hb
        exact hb.elim eof_of_eofTest eof_of_eofTest
      · have hagain : (r.mark (r.eofTest data index eof)).eofTest (data.drop (r.nextIndex - index))
            r.nextIndex eof = r.eofFits data index eof := by
          rw [eofTest_eq_eofFits eof (by rw [hsum]; exact hlt) (by rw [hsum, mark_nextIndex]; omega),
            eofFits, eofFits, hsum]
          rfl
        rw [hagain, hfits hlt, Bool.or_self]
    · rw [pushSubstring, if_neg hfar, if_neg hold, if_pos hidx, if_neg hnew, markEof_eq_mark]
      exact .seen _ eof_of_eofTest hfits hidx (by omega)
  · subst hidx
    rw [pushSubstring_next data eof (by omega)]
    have hw : Routed r data r.nextIndex eof _ :=
      .written _ eof_of_eofTest hfits (le_refl _) (by omega) fun h => absurd h (lt_irrefl _)
    simpa using hw
  · rw [pushSubstring, if_neg hfar, if_neg hold, markEof_eq_mark]
    simp only [mark_output, take_min_length, if_neg (show ¬ index < r.nextIndex by omega), if_pos hidx]
    exact .stored _ eof_of_eofTest hfits hidx (by omega) (by omega)

/-- The possible results of `pushSubstring r data index eof`, with the conditions that lead to them. -/
inductive Pushed (r : StreamReassembler) (data : List UInt8) (index : Nat) (eof : Bool) :
    StreamReassembler → Prop where
  | discarded
      (h : r.nextIndex < index ∧ r.nextIndex + r.capacity ≤ index ∨ index + data.length < r.nextIndex) :
      Pushed r data index eof r
  | seen (h : index < r.nextIndex) (hend : index + data.length = r.nextIndex) :
      Pushed r data index eof (r.mark (r.eofFits data index eof))
  | stored (h : r.nextIndex < index) (hwin : index < r.nextIndex + r.capacity) :
      Pushed r data index eof
        (storeLoop index 0 (data.take r.output.remainingCapacity) (r.mark (r.eofFits data index eof)))
  | written (h : index ≤ r.nextIndex) (hend : r.nextIndex ≤ index + data.length) :
      Pushed r data index eof
        (finish (drain (writeLoop r.nextIndex 0
          ((data.drop (r.nextIndex - index)).take r.output.remainingCapacity)
          (r.mark (r.eofFits data index eof)))))

/-- What a push can do, provided its end does not overflow: all sums are then what they seem. -/
theorem pushSubstring_cases (r : StreamReassembler) {data : List UInt8} {index : Nat} (eof : Bool)
    (hlt : index + data.length < 2 ^ 64) : Pushed r data index eof (r.pushSubstring data index eof) := by
  have hsum : uadd 64 index data.length = index + data.length := uadd_of_lt hlt
  have hp := pushSubstring_routed r data index eof
  generalize r.pushSubstring data index eof = r' at hp ⊢
  cases hp with
  | discarded h => exact .discarded (by omega)
  | seen b _ hfits h hend =>
      rw [hfits hlt]
      exact .seen h (by omega)
  | stored b _ hfits h hnear _ =>
      rw [hfits hlt]
      exact .stored h (by omega)
  | written b _ hfits h hend _ =>
      rw [hfits hlt]
      exact .written h (by omega)

/-! ## What a push never does, for any arguments at all -/

/-- The reader's side, the error flag and the capacities are left alone and the written bytes only grow; the
    `eof_flag` is raised only by an `eof`, and the output is ended only when the `eof_flag` is up. -/
structure PushFrame (r : StreamReassembler) (eof : Bool) (r' : StreamReassembler) : Prop where
  written   : r.output.writeCount ≤ r'.output.writeCount
  readCount : r'.output.readCount = r.output.readCount
  outCap    : r'.output.capacity = r.output.capacity
  error     : r'.output.error = r.output.error
  capacity  : r'.capacity = r.capacity
  eofFlag   : r'.eofFlag = r.eofFlag ∨ (eof = true ∧ r'.eofFlag = true)
  isEof     : r'.output.isEof = r.output.isEof ∨ (r'.eofFlag = true ∧ r'.output.isEof = true)

theorem PushFrame.refl (r : StreamReassembler) (eof : Bool) : PushFrame r eof r :=
  ⟨le_refl _, rfl, rfl, rfl, rfl, Or.inl rfl, Or.inl rfl⟩

theorem PushFrame.trans {eof : Bool} (h₁ : PushFrame r eof r₁) (h₂ : PushFrame r₁ eof r₂) :
    PushFrame r eof r₂ := by
  refine ⟨h₁.written.trans h₂.written, h₂.readCount.trans h₁.readCount, h₂.outCap.trans h₁.outCap,
    h₂.error.trans h₁.error, h₂.capacity.trans h₁.capacity, ?_, ?_⟩
  · rcases h₂.eofFlag with h | h
    · rw [h]; exact h₁.eofFlag
    · exact Or.inr h
  · rcases h₂.isEof with h | h
    · rw [h]
      rcases h₁.isEof with h' | ⟨hf, hi⟩
      · exact Or.inl h'
      · refine Or.inr ⟨?_, hi⟩
        rcases h₂.eofFlag with hk | hk
        · rw [hk]; exact hf
        · exact hk.2
    · exact Or.inr h

theorem Frame.pushFrame (h : Frame r r₁) (eof : Bool) : PushFrame r eof r₁ :=
  ⟨h.written, h.readCount, h.outCap, h.error, h.capacity, Or.inl h.eofFlag, Or.inl h.isEof⟩

theorem pushFrame_mark {b eof : Bool} (hb : b = true → eof = true) : PushFrame r eof (r.mark b) := by
  refine ⟨le_refl _, rfl, rfl, rfl, rfl, ?_, Or.inl rfl⟩
  cases b with
  | false => exact Or.inl (Bool.or_false _)
  | true => exact Or.inr ⟨hb rfl, Bool.or_true _⟩

theorem pushFrame_finish (eof : Bool) : PushFrame r eof r.finish := by
  unfold finish
  split
  · next h =>
      rw [Bool.and_eq_true] at h
      exact ⟨le_refl _, rfl, rfl, rfl, rfl, Or.inl rfl, Or.inr ⟨h.1, rfl⟩⟩
  · exact PushFrame.refl r eof

theorem pushFrame_pushSubstring (r : StreamReassembler) (data : List UInt8) (index : Nat) (eof : Bool) :
    PushFrame r eof (r.pushSubstring data index eof) := by
  have hp := pushSubstring_routed r data index eof
  generalize r.pushSubstring data index eof = r' at hp ⊢
  cases hp with
  | discarded _ => exact PushFrame.refl r eof
  | seen b hb _ _ _ => exact pushFrame_mark hb
  | stored b hb _ _ _ _ =>
      refine (pushFrame_mark hb).trans (Frame.pushFrame ⟨?_, ?_, ?_, ?_, ?_, ?_, ?_⟩ eof) <;> simp
  | written b hb _ _ _ _ =>
      exact ((pushFrame_mark hb).trans
        (((frame_writeLoop _ _ _).trans frame_drain).pushFrame eof)).trans (pushFrame_finish eof)

end StreamReassembler

end Sponge
