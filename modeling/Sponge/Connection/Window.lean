import Sponge.Connection.Reply
import Sponge.Receiver.Arrivals

/-!
# `Connection.Window` — the window that goes out

`sendseg` assigns `window_size()`, a `size_t`, to a header field of 16 bits, so what goes out is the window
modulo `2 ^ 16`. Everything an operation sends carries the window of the receiver as the operation leaves it
(`stamp_win`), so whether the peer learns the true window, or the largest the field can tell, depends on that
window alone (`advertisesWindow_iff`); it is always right exactly for a capacity that fits into the field.
-/

namespace Sponge

open Lib

/-- The low 16 bits tell the window, up to the largest number they can hold. -/
theorem toNat_ofNat_eq_min_iff (w : Nat) :
    (UInt16.ofNat w).toNat = min w 65535 ↔ w ≤ 65535 ∨ w % 65536 = 65535 := by
  have hmod : (UInt16.ofNat w).toNat = w % 65536 := by simp
  rw [hmod]
  omega

/-! ## A fresh reassembler -/

namespace StreamReassembler

variable {r : StreamReassembler}

/-- The first string pushed at the beginning of the stream is written if it fits. -/
theorem writeCount_push_init {capacity : Nat} {data : List UInt8} (eof : Bool) (hfits : data.length ≤ capacity)
    (hlt : data.length < 2 ^ 64) :
    ((ofCapacity capacity).pushSubstring data 0 eof).output.writeCount = data.length := by
  have hroom : (ofCapacity capacity).output.remainingCapacity = capacity := rfl
  have hend : (ofCapacity capacity).nextIndex ≤ uadd 64 (ofCapacity capacity).nextIndex data.length :=
    Nat.zero_le _
  have hpush := pushSubstring_next data eof hend
  generalize (ofCapacity capacity).eofTest data (ofCapacity capacity).nextIndex eof = b at hpush
  have hadv : Advance ((ofCapacity capacity).mark b) data
      (writeLoop (ofCapacity capacity).nextIndex 0 data ((ofCapacity capacity).mark b)) := by
    apply advance_writeLoop rfl
    · show 0 + 0 + data.length ≤ 2 ^ 64
      omega
    · exact hfits
  rw [hroom, List.take_of_length_le hfits] at hpush
  -- no byte is waiting, so nothing is drained
  have hnone : (writeLoop (ofCapacity capacity).nextIndex 0 data ((ofCapacity capacity).mark b)).nextIndex ∉
      (writeLoop (ofCapacity capacity).nextIndex 0 data ((ofCapacity capacity).mark b)).myMap := by
    rw [hadv.mem_iff]
    rintro ⟨hmem, -⟩
    exact Std.ExtTreeMap.not_mem_empty hmem
  show ((ofCapacity capacity).pushSubstring data (ofCapacity capacity).nextIndex eof).output.writeCount = _
  rw [hpush, (finish_frame _).2.1, drain, dif_neg hnone, hadv.writeCount]
  exact Nat.zero_add _

end StreamReassembler

namespace TCPConnection

variable {c c' : TCPConnection} {s : TCPSender} {r : TCPReceiver} {failed : Bool}

/-! ## The receiver of a connection -/

theorem Handled.windowSize (h : Handled c s r failed c') : c'.receiver.windowSize = r.windowSize := by
  rw [h.receiver]; cases failed <;> rfl

theorem Handled.ackno (h : Handled c s r failed c') : c'.receiver.ackno = r.ackno := by
  rw [h.receiver]; cases failed <;> rfl

theorem windowed_setError {capacity : Nat} (h : r.Windowed capacity) : r.setError.Windowed capacity :=
  ⟨⟨h.counted.next_eq, h.counted.balance, h.counted.outCap, h.counted.count, h.counted.singles⟩, h.outer,
    h.inner⟩

theorem windowed_receiverAfter {capacity : Nat} (op : Op) (h : c.receiver.Windowed capacity) :
    (c.receiverAfter op).Windowed capacity := by
  cases op with
  | segmentReceived seg =>
      simp only [receiverAfter]
      split
      · exact h.segmentReceived seg
      · exact h
  | readInbound len => exact h.readOut len
  | connect | write _ | endInputStream | tick _ => exact h

/-- In every run the counters of the receiver agree. -/
theorem windowed_run (cfg : TCPConfig) (randomIsn : WrappingInt32) (ops : List Op) :
    (run step (ofConfig cfg randomIsn) ops).receiver.Windowed cfg.recvCapacity := by
  refine run_invariant ops (fun c : TCPConnection => c.receiver.Windowed cfg.recvCapacity)
    (TCPReceiver.Windowed.init _) ?_
  intro c op h
  obtain ⟨failed, hh⟩ := handled_step c op
  rcases hh.receiver_cases with heq | heq
  · rw [heq]; exact windowed_receiverAfter op h
  · rw [heq]; exact windowed_setError (windowed_receiverAfter op h)

/-! ## What goes out -/

theorem stamp_win {ackno : WrappingInt32} (h : r.ackno = some ackno) (rst : Bool) (seg : TCPSegment) :
    (stamp r rst seg).header.win = UInt16.ofNat r.windowSize := by
  unfold stamp
  rw [h]
  cases rst <;> rfl

/-- Everything pushed from `c` to `c'` tells the window, as far as the field can, if the receiver has an
    acknowledgment number at all; so free space is never advertised as a zero window. -/
def AdvertisesWindow (c c' : TCPConnection) : Prop :=
  c'.receiver.ackno.isSome = true → ∀ seg ∈ c'.segmentsOut.drop c.segmentsOut.length,
    seg.header.win.toNat = min c'.receiver.windowSize 65535 ∧
    (0 < c'.receiver.windowSize → seg.header.win ≠ 0)

/-- **What a step advertises** is right if and only if nothing goes out, or there is no acknowledgment number
    yet, or the window fits into the field or looks like its largest value there. -/
theorem advertisesWindow_iff (c : TCPConnection) (op : Op) :
    AdvertisesWindow c (c.step op) ↔
      (c.step op).segmentsOut = c.segmentsOut ∨ (c.step op).receiver.ackno = none ∨
      (c.step op).receiver.windowSize ≤ 65535 ∨ (c.step op).receiver.windowSize % 65536 = 65535 := by
  obtain ⟨failed, hh⟩ := handled_step c op
  obtain ⟨new, hnew, hstamped⟩ := hh.pushed
  unfold AdvertisesWindow
  rw [hnew, List.drop_left, List.append_right_eq_self, ← toNat_ofNat_eq_min_iff, hh.windowSize, hh.ackno]
  cases hack : (c.receiverAfter op).ackno with
  | none => simp
  | some ackno =>
      have hwin : ∀ seg ∈ new, seg.header.win = UInt16.ofNat (c.receiverAfter op).windowSize := by
        intro seg hseg
        obtain ⟨base, rst, rfl, -⟩ := hstamped seg hseg
        exact stamp_win hack rst base
      constructor
      · intro hall
        by_cases hempty : new = []
        · exact Or.inl hempty
        · obtain ⟨seg, hseg⟩ := List.exists_mem_of_ne_nil new hempty
          have htold := (hall rfl seg hseg).1
          rw [hwin seg hseg] at htold
          exact Or.inr (Or.inr htold)
      · rintro (hempty | hnone | htold) _ seg hseg
        · rw [hempty] at hseg
          cases hseg
        · cases hnone
        · rw [hwin seg hseg]
          refine ⟨htold, fun hpos hzero => ?_⟩
          rw [hzero] at htold
          have hmin : min (c.receiverAfter op).windowSize 65535 = 0 := htold.symm
          omega

/-! ## The capacities for which it is always right -/

/-- The SYN of a peer that has sent some bytes with it. -/
def synWith (payload : List UInt8) : TCPSegment := { header := { syn := true }, payload }

section Syn

variable (cfg : TCPConfig) (randomIsn : WrappingInt32) (payload : List UInt8)

theorem receiverAfter_synWith : (ofConfig cfg randomIsn).receiverAfter (.segmentReceived (synWith payload)) =
    (TCPReceiver.ofCapacity cfg.recvCapacity).segmentReceived (synWith payload) := rfl

theorem ackno_synWith : ∃ ackno,
    ((TCPReceiver.ofCapacity cfg.recvCapacity).segmentReceived (synWith payload)).ackno = some ackno := by
  refine ⟨wrap ((TCPReceiver.ofCapacity cfg.recvCapacity).segmentReceived
    (synWith payload)).ackOffset (.ofRaw 0), ?_⟩
  rw [TCPReceiver.ackno_eq]
  rfl

/-- The SYN is answered. -/
theorem sent_synWith : ((ofConfig cfg randomIsn).step (.segmentReceived (synWith payload))).segmentsOut ≠
    (ofConfig cfg randomIsn).segmentsOut := by
  have hadm : (ofConfig cfg randomIsn).admits (synWith payload) = true := rfl
  obtain ⟨ackno, hack⟩ := ackno_synWith cfg payload
  have hack' : (((ofConfig cfg randomIsn).openPassive (synWith payload)).absorb
      (synWith payload)).receiver.ackno = some ackno := by
    rw [(Handled.absorb _ (synWith payload) rfl).ackno, openPassive_receiver]
    exact hack
  have hlen : 0 < (synWith payload).lengthInSequenceSpace := by
    simp [synWith, TCPSegment.lengthInSequenceSpace]
  obtain ⟨new, hnew, out, hout, -⟩ := answers_reply hlen hack' (Or.inl (by simp; rfl))
  show ((ofConfig cfg randomIsn).segmentReceived (synWith payload)).segmentsOut ≠ _
  rw [segmentReceived_of_admits hadm rfl, hnew, absorb_segmentsOut, openPassive_segmentsOut]
  intro hsame
  rw [List.append_right_eq_self.mp hsame] at hout
  cases hout

/-- What comes with the SYN is written, and the window shrinks by it. -/
theorem windowSize_synWith (hfits : payload.length ≤ cfg.recvCapacity) (hlt : payload.length < 2 ^ 64) :
    ((TCPReceiver.ofCapacity cfg.recvCapacity).segmentReceived (synWith payload)).windowSize =
      cfg.recvCapacity - payload.length := by
  have hw := (TCPReceiver.Windowed.init cfg.recvCapacity).segmentReceived (synWith payload)
  have hindex : (TCPReceiver.ofCapacity cfg.recvCapacity).pushIndex (synWith payload) = some 0 := by
    show some (usub 64 (unwrap ((WrappingInt32.ofRaw 0).add 1) (.ofRaw 0) 0) 1) = some 0
    decide +kernel
  have hpush : ((TCPReceiver.ofCapacity cfg.recvCapacity).segmentReceived (synWith payload)).reassembler =
      (StreamReassembler.ofCapacity cfg.recvCapacity).pushSubstring payload 0 false := by
    rw [TCPReceiver.reassembler_segmentReceived, hindex]
    rfl
  have hframe := StreamReassembler.pushFrame_pushSubstring
    (StreamReassembler.ofCapacity cfg.recvCapacity) payload 0 false
  rw [hw.windowSize_eq_sub, TCPReceiver.streamOut, ByteStream.bytesWritten, ByteStream.bytesRead, hpush,
    StreamReassembler.writeCount_push_init false hfits hlt, hframe.readCount]
  rfl

/-- If the answer tells the window, then the window after the SYN can be told. -/
theorem told_of_synWith (hfits : payload.length ≤ cfg.recvCapacity) (hlt : payload.length < 2 ^ 64)
    (h : AdvertisesWindow (ofConfig cfg randomIsn)
      ((ofConfig cfg randomIsn).step (.segmentReceived (synWith payload)))) :
    cfg.recvCapacity - payload.length ≤ 65535 ∨ (cfg.recvCapacity - payload.length) % 65536 = 65535 := by
  obtain ⟨failed, hh⟩ := handled_step (ofConfig cfg randomIsn) (.segmentReceived (synWith payload))
  obtain ⟨ackno, hack⟩ := ackno_synWith cfg payload
  have htold := (advertisesWindow_iff _ _).mp h
  rw [hh.ackno, hh.windowSize, receiverAfter_synWith, hack, windowSize_synWith cfg payload hfits hlt] at htold
  rcases htold with hsilent | hnone | htold
  · exact absurd hsilent (sent_synWith cfg randomIsn payload)
  · cases hnone
  · exact htold

end Syn

/-- **The advertised window.** What a step of a run sends tells the window of the receiver exactly if that window
    fits into the field or looks like its largest value there. All steps of all runs do if and only if the
    capacity fits. -/
theorem window_advertised_iff (cfg : TCPConfig) :
    (∀ (randomIsn : WrappingInt32) (ops : List Op) (op : Op),
      let c := run step (ofConfig cfg randomIsn) ops
      AdvertisesWindow c (c.step op) ↔
        (c.step op).segmentsOut = c.segmentsOut ∨ (c.step op).receiver.ackno = none ∨
        (c.step op).receiver.windowSize ≤ 65535 ∨ (c.step op).receiver.windowSize % 65536 = 65535) ∧
    ((∀ (randomIsn : WrappingInt32) (ops : List Op) (op : Op),
      let c := run step (ofConfig cfg randomIsn) ops
      AdvertisesWindow c (c.step op)) ↔ cfg.recvCapacity ≤ 65535) := by
  refine ⟨fun randomIsn ops op => advertisesWindow_iff _ op, ?_⟩
  constructor
  · intro hall
    by_contra hbig
    -- one of the windows after a bare SYN and after a SYN with one byte is told wrongly
    have hbare := told_of_synWith cfg (.ofRaw 0) [] (Nat.zero_le _) (by decide)
      (hall (.ofRaw 0) [] (.segmentReceived (synWith [])))
    have hbyte := told_of_synWith cfg (.ofRaw 0) [0] (by rw [List.length_singleton]; omega) (by decide)
      (hall (.ofRaw 0) [] (.segmentReceived (synWith [0])))
    rw [List.length_nil] at hbare
    rw [List.length_singleton] at hbyte
    omega
  · intro hfits randomIsn ops op
    apply (advertisesWindow_iff _ op).mpr
    have hw := windowed_run cfg randomIsn (ops ++ [op])
    rw [run_append] at hw
    have hle : ((run step (ofConfig cfg randomIsn) ops).step op).receiver.windowSize ≤ cfg.recvCapacity := by
      show (run step (run step (ofConfig cfg randomIsn) ops) [op]).receiver.windowSize ≤ _
      rw [hw.windowSize_eq_sub]
      exact Nat.sub_le _ _
    exact Or.inr (Or.inr (Or.inl (hle.trans hfits)))

/-- With room for `2 ^ 16` bytes the answer to the SYN advertises no window at all. -/
theorem window_advertised_as_zero : ¬ ∀ (cfg : TCPConfig) (randomIsn : WrappingInt32) (ops : List Op) (op : Op),
    AdvertisesWindow (run step (ofConfig cfg randomIsn) ops)
      ((run step (ofConfig cfg randomIsn) ops).step op) := by
  intro h
  have hall := h { recvCapacity := 65536 } (.ofRaw 0) [] (.segmentReceived (synWith [])) (by decide +kernel)
  revert hall
  decide +kernel

end TCPConnection

end Sponge
