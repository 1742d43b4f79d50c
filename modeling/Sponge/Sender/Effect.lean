import Sponge.TCPSender
import Sponge.Lib.Layout

/-!
# `Sender.Effect` — what each operation of the sender can do

One description per operation, from which the later modules derive their invariants without unfolding the
code again.

- `Fills s new s'`: what the loop of `fill_window` changes when it sends the segments `new`.
  `fillLoop_spec` adds how much it sends: the smaller of the free window and of what is there to send, in the
  32-bit arithmetic of the code.
- `fillWindow_loop`: what `fill_window` does around its loop, the only place where a zero window is widened and set
  back; `fillWindow_cases`: the three ways through it, and `fillWindow_sends`: what they have in common.
- `acceptAck`: the state in which `ack_received` calls `fill_window`, with one field lemma per update.
- `tick_cases`: nothing but the timer changes, or the oldest outstanding segment goes out again.
-/

namespace Sponge

open Lib

namespace SendEvent

/-- A segment sent for the first time. -/
@[simp] def first? : SendEvent → Option TCPSegment
  | .sent seg => some seg
  | _         => none

/-- A segment sent again. -/
@[simp] def again? : SendEvent → Option TCPSegment
  | .resent seg => some seg
  | _           => none

/-- A segment dropped from the queue as acknowledged. -/
@[simp] def dropped? : SendEvent → Option TCPSegment
  | .acked seg => some seg
  | _          => none

/-- A segment put into the outbound queue, for the first time or again. -/
@[simp] def queued? : SendEvent → Option TCPSegment
  | .sent seg   => some seg
  | .resent seg => some seg
  | .acked _    => none

end SendEvent

namespace TCPSegment

/-- The payloads of some segments, in order. -/
def payloads (segs : List TCPSegment) : List UInt8 := segs.flatMap payload

@[simp] theorem payloads_nil : payloads [] = [] := rfl

@[simp] theorem payloads_cons (seg : TCPSegment) (segs : List TCPSegment) :
    payloads (seg :: segs) = seg.payload ++ payloads segs := rfl

@[simp] theorem payloads_append (segs segs' : List TCPSegment) :
    payloads (segs ++ segs') = payloads segs ++ payloads segs' := List.flatMap_append

end TCPSegment

namespace TCPSender

open TCPSegment

/-! ## Reading the history -/

def firstSent (s : TCPSender) : List TCPSegment := s.log.filterMap SendEvent.first?
def sentAgain (s : TCPSender) : List TCPSegment := s.log.filterMap SendEvent.again?
def acked (s : TCPSender) : List TCPSegment := s.log.filterMap SendEvent.dropped?
def queued (s : TCPSender) : List TCPSegment := s.log.filterMap SendEvent.queued?

section SendSegment

variable (s : TCPSender) (seg : TCPSegment)

theorem firstSent_sendSegment : (s.sendSegment seg).firstSent = s.firstSent ++ [seg] := by
  simp [firstSent, sendSegment, List.filterMap_append]

theorem sentAgain_sendSegment : (s.sendSegment seg).sentAgain = s.sentAgain := by
  simp [sentAgain, sendSegment, List.filterMap_append]

theorem acked_sendSegment : (s.sendSegment seg).acked = s.acked := by
  simp [acked, sendSegment, List.filterMap_append]

end SendSegment

/-! ## The loop of `fill_window` -/

/-- What is there to send: the buffered bytes, and the FIN once the stream has ended. -/
def avail (s : TCPSender) : Nat := s.stream.buf.length + (if s.stream.isEof then 1 else 0)

/-- A segment as the loop of `fill_window` builds it. -/
structure DataSegment (seg : TCPSegment) : Prop where
  header : seg.header = { seqno := seg.header.seqno, fin := seg.header.fin }
  bound  : seg.payload.length ≤ TCPConfig.maxPayloadSize
  used   : seg.payload ≠ [] ∨ seg.header.fin = true

theorem DataSegment.syn {seg : TCPSegment} (h : DataSegment seg) : seg.header.syn = false := by
  rw [h.header]

theorem DataSegment.pos {seg : TCPSegment} (h : DataSegment seg) : 0 < seg.lengthInSequenceSpace := by
  unfold lengthInSequenceSpace
  rcases h.used with hne | hfin
  · have := List.length_pos_iff.mpr hne
    omega
  · rw [hfin, if_pos rfl]
    omega

/-- Segments without a SYN, at most the last one with a FIN: their extent is that of the payloads, plus one
    for the FIN. -/
theorem extent_of_noSyn {segs : List TCPSegment} (hsyn : ∀ seg ∈ segs, seg.header.syn = false)
    (hlast : segs.Pairwise fun seg _ => seg.header.fin = false) :
    extent lengthInSequenceSpace segs =
      (payloads segs).length + (if ∃ seg ∈ segs, seg.header.fin = true then 1 else 0) := by
  induction segs with
  | nil => simp
  | cons seg segs ih =>
      obtain ⟨hhead, htail⟩ := List.pairwise_cons.mp hlast
      have ih := ih (fun s hs => hsyn s (List.mem_cons_of_mem _ hs)) htail
      have hs := hsyn seg List.mem_cons_self
      rw [extent_cons, ih, payloads_cons, List.length_append, lengthInSequenceSpace, hs]
      cases segs with
      | nil => by_cases hf : seg.header.fin = true <;> simp [hf]
      | cons b segs =>
          have hf := hhead b List.mem_cons_self
          simp only [List.exists_mem_cons_iff, hf, Bool.false_eq_true, if_false, false_or]
          omega

/-- The loop of `fill_window` takes `s` to `s'` by sending `new`. -/
structure Fills (s : TCPSender) (new : List TCPSegment) (s' : TCPSender) : Prop where
  isn           : s'.isn = s.isn
  timeout       : s'.initialRetransmissionTimeout = s.initialRetransmissionTimeout
  ackGot        : s'.ackGot = s.ackGot
  retx          : s'.consecutiveRetransmission = s.consecutiveRetransmission
  synFlag       : s'.synFlag = s.synFlag
  segmentsOut   : s'.segmentsOut = s.segmentsOut ++ new
  outSegments   : s'.outSegments = s.outSegments ++ new
  nextSeqno     : s'.nextSeqno = s.nextSeqno + extent lengthInSequenceSpace new
  bytesInFlight : s'.bytesInFlight = s.bytesInFlight + extent lengthInSequenceSpace new
  log           : s'.log = s.log ++ new.map .sent
  window        : max 1 s'.trueWindowSize.toNat = max 1 s.trueWindowSize.toNat
  numbered      : Laid lengthInSequenceSpace (fun n seg => seg.header.seqno = wrap n s.isn) s.nextSeqno new
  shape         : ∀ seg ∈ new, DataSegment seg
  buf           : payloads new ++ s'.stream.buf = s.stream.buf
  readCount     : s'.stream.readCount = s.stream.readCount + (payloads new).length
  writeCount    : s'.stream.writeCount = s.stream.writeCount
  isEof         : s'.stream.isEof = s.stream.isEof
  error         : s'.stream.error = s.stream.error
  finLast       : new.Pairwise fun seg _ => seg.header.fin = false
  finFlag       : s'.finFlag = true ↔ s.finFlag = true ∨ ∃ seg ∈ new, seg.header.fin = true
  idle          : s.finFlag = true → new = []
  drained       : (∃ seg ∈ new, seg.header.fin = true) → s'.stream.eof = true

/-- Nothing is sent; only the timer may differ, and the window between zero and one. -/
theorem Fills.of_window (s : TCPSender) (w : UInt16)
    (h : max 1 w.toNat = max 1 s.trueWindowSize.toNat) : Fills s [] { s with trueWindowSize := w } := by
  constructor <;> simp [Laid, h]

theorem Fills.refl (s : TCPSender) : Fills s [] s := Fills.of_window s s.trueWindowSize rfl

theorem Fills.trans {s s₁ s' : TCPSender} {l l' : List TCPSegment} (h : Fills s l s₁)
    (h' : Fills s₁ l' s') : Fills s (l ++ l') s' := by
  -- a FIN in the first part means that the second part is empty
  have hstop : (∃ seg ∈ l, seg.header.fin = true) → l' = [] := fun hfin =>
    h'.idle (h.finFlag.mpr (Or.inr hfin))
  constructor
  case isn => rw [h'.isn, h.isn]
  case timeout => rw [h'.timeout, h.timeout]
  case ackGot => rw [h'.ackGot, h.ackGot]
  case retx => rw [h'.retx, h.retx]
  case synFlag => rw [h'.synFlag, h.synFlag]
  case segmentsOut => rw [h'.segmentsOut, h.segmentsOut, List.append_assoc]
  case outSegments => rw [h'.outSegments, h.outSegments, List.append_assoc]
  case nextSeqno => rw [h'.nextSeqno, h.nextSeqno, extent_append, Nat.add_assoc]
  case bytesInFlight => rw [h'.bytesInFlight, h.bytesInFlight, extent_append, Nat.add_assoc]
  case log => rw [h'.log, h.log, List.map_append, List.append_assoc]
  case window => rw [h'.window, h.window]
  case numbered =>
    have hn := h'.numbered
    rw [h.isn, h.nextSeqno] at hn
    exact laid_append.mpr ⟨h.numbered, hn⟩
  case shape =>
    intro seg hseg
    rcases List.mem_append.mp hseg with hl | hl
    · exact h.shape seg hl
    · exact h'.shape seg hl
  case buf => rw [payloads_append, List.append_assoc, h'.buf, h.buf]
  case readCount => rw [h'.readCount, h.readCount, payloads_append, List.length_append, Nat.add_assoc]
  case writeCount => rw [h'.writeCount, h.writeCount]
  case isEof => rw [h'.isEof, h.isEof]
  case error => rw [h'.error, h.error]
  case finLast =>
    refine List.pairwise_append.mpr ⟨h.finLast, h'.finLast, fun a ha b hb => ?_⟩
    by_contra hfin
    rw [hstop ⟨a, ha, by simpa using hfin⟩] at hb
    cases hb
  case finFlag =>
    rw [h'.finFlag, h.finFlag]
    simp only [List.mem_append, or_and_right, exists_or, or_assoc]
  case idle =>
    intro hf
    rw [h.idle hf, h'.idle (h.finFlag.mpr (Or.inl hf)), List.append_nil]
  case drained =>
    rintro ⟨seg, hseg, hfin⟩
    rcases List.mem_append.mp hseg with hl | hl
    · have hnil := hstop ⟨seg, hl, hfin⟩
      have heof := h.drained ⟨seg, hl, hfin⟩
      have hbuf := h'.buf
      rw [hnil, payloads_nil, List.nil_append] at hbuf
      rw [ByteStream.eof_iff] at heof ⊢
      exact ⟨h'.isEof.trans heof.1, hbuf.trans heof.2⟩
    · exact h'.drained ⟨seg, hl, hfin⟩

/-! ### One round -/

/-- The state after one full round of the loop. -/
def round (s : TCPSender) : TCPSender :=
  (s.takeSegment s.remain).1.sendSegment (s.takeSegment s.remain).2

theorem fills_round {s : TCPSender} (hfin : s.finFlag = false)
    (hne : (s.takeSegment s.remain).2.lengthInSequenceSpace ≠ 0) :
    Fills s [(s.takeSegment s.remain).2] s.round := by
  have hcases := takeSegment_cases s s.remain
  have hk : min s.remain TCPConfig.maxPayloadSize ≤ TCPConfig.maxPayloadSize := Nat.min_le_right _ _
  unfold round
  generalize min s.remain TCPConfig.maxPayloadSize = k at hcases hk
  have hlen : (s.stream.buf.take k).length ≤ TCPConfig.maxPayloadSize := by
    rw [List.length_take]; omega
  rcases hcases with ⟨heof, -, heq⟩ | ⟨-, heq⟩
  · rw [heq]
    constructor <;> simp [sendSegment, Laid, hfin, nextSeqno32]
    case shape => exact ⟨rfl, hlen, Or.inr rfl⟩
    case drained => exact heof
  · rw [heq] at hne ⊢
    have hpay : s.stream.buf.take k ≠ [] := by
      intro hnil
      simp [lengthInSequenceSpace, hnil] at hne
    constructor <;> simp [sendSegment, Laid, hfin, nextSeqno32]
    case shape => exact ⟨rfl, hlen, Or.inl hpay⟩

/-- The segment of a round is as long as the free window and what is there to send allow. -/
theorem takeSegment_length (s : TCPSender) (remain : Nat) :
    (s.takeSegment remain).2.lengthInSequenceSpace ≤ min remain s.avail := by
  unfold avail
  rcases takeSegment_cases s remain with ⟨heof, hroom, heq⟩ | ⟨-, heq⟩
  · have hend : s.stream.isEof = true := ((ByteStream.eof_iff _).mp heof).1
    rw [heq]
    rw [List.length_take] at hroom
    simp only [lengthInSequenceSpace, List.length_take, Bool.false_eq_true, if_false, if_true, hend]
    omega
  · rw [heq]
    simp only [lengthInSequenceSpace, List.length_take, Bool.false_eq_true, if_false]
    omega

/-- An empty segment is built only when there is nothing to send. -/
theorem avail_eq_zero {s : TCPSender} {remain : Nat} (hpos : 0 < remain)
    (h : (s.takeSegment remain).2.lengthInSequenceSpace = 0) : s.avail = 0 := by
  unfold avail
  rcases takeSegment_cases s remain with ⟨-, -, heq⟩ | ⟨hno, heq⟩
  · rw [heq] at h
    simp [lengthInSequenceSpace] at h
  · rw [heq] at h
    simp only [lengthInSequenceSpace, List.length_take, Bool.false_eq_true, if_false] at h
    have hmax : TCPConfig.maxPayloadSize = 1452 := rfl
    have hbuf : s.stream.buf = [] := List.length_eq_zero_iff.mp (by omega)
    have hend : s.stream.isEof = false := by
      by_contra hend
      refine hno ⟨(ByteStream.eof_iff _).mpr ⟨?_, ?_⟩, by simp [hbuf]; omega⟩
      · rw [ByteStream.read_isEof]
        simpa using hend
      · rw [ByteStream.read_buf, hbuf, List.drop_nil]
    simp [hbuf, hend]

/-- Sending uses up the free window. -/
theorem remain_of_fills {s s' : TCPSender} {new : List TCPSegment} (h : Fills s new s')
    (hw : s'.trueWindowSize = s.trueWindowSize)
    (hle : extent lengthInSequenceSpace new ≤ s.remain) :
    s'.remain = s.remain - extent lengthInSequenceSpace new := by
  have hwin : s.trueWindowSize.toNat < 2 ^ 32 := lt_trans s.trueWindowSize.toNat_lt (by decide)
  have hack := s.ackGot.isLt
  -- both subtractions as remainders, before and after
  have hflight : ∀ n, usub 32 (wrap n s.isn).rawValue s.ackGot.rawValue =
      ((n + s.isn.rawValue) % 2 ^ 32 + 2 ^ 32 - s.ackGot.rawValue) % 2 ^ 32 := by
    intro n
    rw [rawValue_wrap]
    exact usub_eq_mod (Nat.mod_lt _ (by decide)) hack.le
  have hfree : ∀ n, usub 32 s.trueWindowSize.toNat (n % 2 ^ 32) =
      (s.trueWindowSize.toNat + 2 ^ 32 - n % 2 ^ 32) % 2 ^ 32 :=
    fun n => usub_eq_mod hwin (Nat.mod_lt n (by decide)).le
  unfold remain nextSeqno32 at *
  rw [hflight, hfree] at hle ⊢
  rw [hw, h.nextSeqno, h.isn, h.ackGot, hflight, hfree]
  omega

/-- What is sent, and what is left to send unless a FIN was sent, is what was there to send. -/
theorem Fills.extent_add_avail {s s' : TCPSender} {new : List TCPSegment} (h : Fills s new s') :
    extent lengthInSequenceSpace new +
      (if ∃ seg ∈ new, seg.header.fin = true then 0 else s'.avail) = s.avail := by
  have hbuf := congrArg List.length h.buf
  rw [List.length_append] at hbuf
  rw [extent_of_noSyn (fun seg hseg => (h.shape seg hseg).syn) h.finLast]
  unfold avail
  split
  · next hfin =>
      obtain ⟨hend, hempty⟩ := (ByteStream.eof_iff _).mp (h.drained hfin)
      rw [hempty, List.length_nil] at hbuf
      rw [h.isEof] at hend
      rw [if_pos hend]
      omega
  · rw [h.isEof]
    omega

/-- A round leaves the window as it is and uses up as much of the room as its segment is long. -/
theorem trueWindowSize_round (s : TCPSender) : s.round.trueWindowSize = s.trueWindowSize := by
  unfold round
  rcases takeSegment_cases s s.remain with ⟨-, -, heq⟩ | ⟨-, heq⟩ <;> rw [heq] <;> rfl

theorem remain_round {s : TCPSender} (hfin : s.finFlag = false)
    (hne : (s.takeSegment s.remain).2.lengthInSequenceSpace ≠ 0) :
    s.round.remain = s.remain - (s.takeSegment s.remain).2.lengthInSequenceSpace := by
  have hle := takeSegment_length s s.remain
  have hext : extent lengthInSequenceSpace [(s.takeSegment s.remain).2] =
      (s.takeSegment s.remain).2.lengthInSequenceSpace := by simp
  have hremain := remain_of_fills (fills_round hfin hne) (trueWindowSize_round s) (by omega)
  rw [hremain, hext]

/-! ### The whole loop -/

/-- **The loop of `fill_window`.** It sends as much as the free window and the stream allow. -/
theorem fillLoop_spec (s : TCPSender) :
    ∃ new, Fills s new s.fillLoop.1 ∧ s.fillLoop.1.trueWindowSize = s.trueWindowSize ∧
      (s.finFlag = false → extent lengthInSequenceSpace new = min s.remain s.avail) := by
  induction s using fillLoop.induct with
  | case1 s hgo hempty =>
      -- left by the `return`: nothing was there to send, and the read took nothing
      have havail := avail_eq_zero (Nat.pos_of_ne_zero hgo.1) hempty
      have hbuf : s.stream.buf = [] := by
        unfold avail at havail
        exact List.length_eq_zero_iff.mp (by omega)
      rw [fillLoop, if_pos hgo, if_pos hempty]
      refine ⟨[], ?_, ?_, fun _ => by simp [havail]⟩
      · rcases takeSegment_cases s s.remain with ⟨-, -, heq⟩ | ⟨-, heq⟩
        · rw [heq] at hempty; simp [lengthInSequenceSpace] at hempty
        · rw [heq]
          constructor <;> simp [Laid, hbuf]
      · rcases takeSegment_cases s s.remain with ⟨-, -, heq⟩ | ⟨-, heq⟩ <;> rw [heq]
  | case2 s hgo hlen ih =>
      obtain ⟨new, hfills, hw, htotal⟩ := ih
      have hround := fills_round hgo.2 hlen
      have hle := takeSegment_length s s.remain
      have hext : extent lengthInSequenceSpace [(s.takeSegment s.remain).2] =
          (s.takeSegment s.remain).2.lengthInSequenceSpace := by simp
      have hremain := remain_round hgo.2 hlen
      have havail := hround.extent_add_avail
      rw [fillLoop, if_pos hgo, if_neg hlen]
      refine ⟨[(s.takeSegment s.remain).2] ++ new, hround.trans hfills,
        hw.trans (trueWindowSize_round s), fun _ => ?_⟩
      rw [extent_append, hext]
      rw [hext] at havail
      by_cases hfin : (s.takeSegment s.remain).2.header.fin = true
      · -- with the FIN everything is sent, and the next round does not happen
        have hflag : s.round.finFlag = true := hround.finFlag.mpr (Or.inr ⟨_, List.mem_cons_self, hfin⟩)
        rw [if_pos ⟨_, List.mem_cons_self, hfin⟩] at havail
        rw [hfills.idle hflag, extent_nil]
        omega
      · have hflag : s.round.finFlag = false := by
          by_contra hc
          rw [Bool.not_eq_false, hround.finFlag] at hc
          simp [hgo.2, hfin] at hc
        rw [if_neg (by simpa using hfin)] at havail
        have := htotal hflag
        change extent lengthInSequenceSpace new = min s.round.remain s.round.avail at this
        omega
  | case3 s hstop =>
      rw [fillLoop, if_neg hstop]
      refine ⟨[], Fills.refl s, rfl, fun hfin => ?_⟩
      have : s.remain = 0 := by
        by_contra hne
        exact hstop ⟨hne, hfin⟩
      simp [this]

/-! ## `fill_window` -/

/-- The free window as `fill_window` computes it: a zero window counts as one. -/
def room (s : TCPSender) : Nat :=
  usub 32 (max 1 s.trueWindowSize.toNat) (usub 32 s.nextSeqno32.rawValue s.ackGot.rawValue)

/-- The segment that opens the connection. -/
def synSegment (isn : WrappingInt32) : TCPSegment := { header := { seqno := isn, syn := true } }

/-- The sender inside the loop of `fill_window`: a zero window counts as one. -/
def widened (s : TCPSender) : TCPSender :=
  { s with trueWindowSize := if s.trueWindowSize = 0 then 1 else s.trueWindowSize }

theorem toNat_window_widened (s : TCPSender) :
    s.widened.trueWindowSize.toNat = max 1 s.trueWindowSize.toNat := by
  unfold widened
  dsimp only
  split
  · next hzero => rw [hzero]; rfl
  · next hzero =>
      have hpos : s.trueWindowSize.toNat ≠ 0 := fun h => hzero (UInt16.toNat_inj.mp h)
      omega

theorem remain_widened (s : TCPSender) : s.widened.remain = s.room := by
  rw [remain, room, toNat_window_widened]
  rfl

/-- The way through the loop. The `return` in it leaves a zero window at one. -/
theorem fillWindow_loop {s : TCPSender} (hfin : s.finFlag = false) (hsyn : s.synFlag = true) :
    s.fillWindow =
      { s.widened.fillLoop.1 with
        trueWindowSize :=
          if s.trueWindowSize = 0 ∧ s.widened.fillLoop.2 = false then 0 else s.widened.trueWindowSize } := by
  obtain ⟨-, -, hwindow, -⟩ := fillLoop_spec s.widened
  rw [fillWindow, if_neg (by simp [hfin]), if_neg (by simp [hsyn]), ← hwindow]
  by_cases hzero : s.trueWindowSize = 0
  · have hone : s.widened = { s with trueWindowSize := 1 } := by rw [widened, if_pos hzero]
    simp only [hone, hzero, beq_self_eq_true, if_true, Bool.true_and, true_and]
    cases (fillLoop { s with trueWindowSize := 1 }).2 <;> rfl
  · have hsame : s.widened = s := by rw [widened, if_neg hzero]
    simp only [hsame, beq_iff_eq, hzero, if_false, Bool.and_eq_true, false_and]

/-- The three ways through `fill_window`: nothing after the FIN, the SYN first, then the loop. -/
theorem fillWindow_cases (s : TCPSender) :
    (s.finFlag = true ∧ s.fillWindow = s) ∨
    (s.finFlag = false ∧ s.synFlag = false ∧
      s.fillWindow = sendSegment { s with synFlag := true } (synSegment s.nextSeqno32)) ∨
    (s.finFlag = false ∧ s.synFlag = true ∧
      ∃ new, Fills s new s.fillWindow ∧ extent lengthInSequenceSpace new = min s.room s.avail) := by
  by_cases hfin : s.finFlag = true
  · exact Or.inl ⟨hfin, by rw [fillWindow, if_pos hfin]⟩
  · by_cases hsyn : s.synFlag = false
    · refine Or.inr (Or.inl ⟨by simpa using hfin, hsyn, ?_⟩)
      rw [fillWindow, if_neg hfin, if_pos hsyn]
      rfl
    · rw [Bool.not_eq_true] at hfin
      rw [Bool.not_eq_false] at hsyn
      -- the window is widened, the loop runs, and the window may be set back
      obtain ⟨new, hfills, hw, htotal⟩ := fillLoop_spec s.widened
      have hopen : Fills s [] s.widened := by
        refine Fills.of_window s _ ?_
        have hnat := toNat_window_widened s
        change (if s.trueWindowSize = 0 then 1 else s.trueWindowSize).toNat = _ at hnat
        omega
      have hback : Fills s.widened.fillLoop.1 [] s.fillWindow := by
        rw [fillWindow_loop hfin hsyn]
        refine Fills.of_window _ _ ?_
        rw [hw]
        split
        · next hrestored =>
            rw [toNat_window_widened, hrestored.1]
            rfl
        · rfl
      have hall := (hopen.trans hfills).trans hback
      rw [List.append_nil, List.nil_append] at hall
      refine Or.inr (Or.inr ⟨hfin, hsyn, new, hall, ?_⟩)
      rw [htotal hfin, remain_widened]
      rfl

/-- What the three ways have in common: `new` is sent, and nothing else that is named here changes. -/
structure Sends (s : TCPSender) (new : List TCPSegment) (s' : TCPSender) : Prop where
  isn         : s'.isn = s.isn
  timeout     : s'.initialRetransmissionTimeout = s.initialRetransmissionTimeout
  ackGot      : s'.ackGot = s.ackGot
  retx        : s'.consecutiveRetransmission = s.consecutiveRetransmission
  segmentsOut : s'.segmentsOut = s.segmentsOut ++ new
  outSegments : s'.outSegments = s.outSegments ++ new
  nextSeqno   : s'.nextSeqno = s.nextSeqno + extent lengthInSequenceSpace new
  log         : s'.log = s.log ++ new.map .sent
  numbered    : Laid lengthInSequenceSpace (fun n seg => seg.header.seqno = wrap n s.isn) s.nextSeqno new
  pos         : ∀ seg ∈ new, 0 < seg.lengthInSequenceSpace
  buf         : payloads new ++ s'.stream.buf = s.stream.buf
  isEof       : s'.stream.isEof = s.stream.isEof
  error       : s'.stream.error = s.stream.error

theorem Fills.sends {s s' : TCPSender} {new : List TCPSegment} (h : Fills s new s') : Sends s new s' :=
  ⟨h.isn, h.timeout, h.ackGot, h.retx, h.segmentsOut, h.outSegments, h.nextSeqno, h.log, h.numbered,
    fun seg hseg => (h.shape seg hseg).pos, h.buf, h.isEof, h.error⟩

/-- **What `fill_window` does**, whichever way it takes. -/
theorem fillWindow_sends (s : TCPSender) : ∃ new, Sends s new s.fillWindow := by
  rcases fillWindow_cases s with ⟨-, heq⟩ | ⟨-, -, heq⟩ | ⟨-, -, new, hfills, -⟩
  · rw [heq]
    exact ⟨[], (Fills.refl s).sends⟩
  · refine ⟨[synSegment s.nextSeqno32], ?_⟩
    rw [heq]
    constructor <;> simp [sendSegment, Laid, synSegment, nextSeqno32, lengthInSequenceSpace, payloads]
  · exact ⟨new, hfills.sends⟩

section Sends

variable {s s' : TCPSender} {new : List TCPSegment}

theorem Sends.firstSent (h : Sends s new s') : s'.firstSent = s.firstSent ++ new := by
  simp [TCPSender.firstSent, h.log, List.filterMap_append, Function.comp_def]

theorem Sends.acked (h : Sends s new s') : s'.acked = s.acked := by
  simp [TCPSender.acked, h.log, List.filterMap_append]

theorem Sends.queued (h : Sends s new s') : s'.queued = s.queued ++ new := by
  simp [TCPSender.queued, h.log, List.filterMap_append, Function.comp_def]

end Sends

/-! ## `ack_received` -/

/-- The state in which `ack_received` calls `fill_window`. -/
def acceptAck (s : TCPSender) (ackno : WrappingInt32) (windowSize : UInt16) : TCPSender :=
  { (popLoop ackno s.outSegments s).recordAck ackno with trueWindowSize := windowSize }

theorem ackReceived_eq (s : TCPSender) (ackno : WrappingInt32) (windowSize : UInt16) :
    s.ackReceived ackno windowSize =
      if s.ackBeyond ackno then s else (s.acceptAck ackno windowSize).fillWindow := rfl

/-- The loop drops the longest acknowledged initial part of the queue. -/
theorem popLoop_eq {ackno : WrappingInt32} {segs : List TCPSegment} {s : TCPSender}
    (h : s.outSegments = segs) :
    popLoop ackno segs s =
      { s with
        bytesInFlight := (segs.takeWhile (fullyAcked ackno)).foldl
          (fun n seg => usub 64 n seg.lengthInSequenceSpace) s.bytesInFlight
        outSegments := segs.dropWhile (fullyAcked ackno)
        log := s.log ++ (segs.takeWhile (fullyAcked ackno)).map .acked } := by
  induction segs generalizing s with
  | nil =>
      cases s
      simp only at h
      simp [popLoop, h]
  | cons seg segs ih =>
      rw [popLoop]
      split
      · next hack => rw [ih rfl]; simp [hack]
      · next hack =>
          cases s
          simp only at h
          simp [hack, h]

section AcceptAck

variable (s : TCPSender) (ackno : WrappingInt32) (windowSize : UInt16)

/-- What `ack_received` changes before it fills the window. -/
theorem acceptAck_frame : s.acceptAck ackno windowSize =
    { s with
      bytesInFlight := (s.outSegments.takeWhile (fullyAcked ackno)).foldl
        (fun n seg => usub 64 n seg.lengthInSequenceSpace) s.bytesInFlight
      outSegments := s.outSegments.dropWhile (fullyAcked ackno)
      log := s.log ++ (s.outSegments.takeWhile (fullyAcked ackno)).map .acked
      ackGot := if s.ackNew ackno then ackno else s.ackGot
      timer := (s.acceptAck ackno windowSize).timer
      consecutiveRetransmission := (s.acceptAck ackno windowSize).consecutiveRetransmission
      trueWindowSize := windowSize } := by
  rw [acceptAck, popLoop_eq rfl, recordAck]
  split
  · next hnew =>
      have hnew' : s.ackNew ackno = true := hnew
      rw [if_pos hnew']
  · next hold =>
      have hold' : ¬ s.ackNew ackno = true := hold
      rw [if_neg hold']

@[simp] theorem acceptAck_isn : (s.acceptAck ackno windowSize).isn = s.isn := by rw [acceptAck_frame]

@[simp] theorem acceptAck_segmentsOut : (s.acceptAck ackno windowSize).segmentsOut = s.segmentsOut := by
  rw [acceptAck_frame]

@[simp] theorem acceptAck_timeout :
    (s.acceptAck ackno windowSize).initialRetransmissionTimeout = s.initialRetransmissionTimeout := by
  rw [acceptAck_frame]

@[simp] theorem acceptAck_stream : (s.acceptAck ackno windowSize).stream = s.stream := by
  rw [acceptAck_frame]

@[simp] theorem acceptAck_nextSeqno : (s.acceptAck ackno windowSize).nextSeqno = s.nextSeqno := by
  rw [acceptAck_frame]

@[simp] theorem acceptAck_synFlag : (s.acceptAck ackno windowSize).synFlag = s.synFlag := by
  rw [acceptAck_frame]

@[simp] theorem acceptAck_finFlag : (s.acceptAck ackno windowSize).finFlag = s.finFlag := by
  rw [acceptAck_frame]

@[simp] theorem acceptAck_outSegments :
    (s.acceptAck ackno windowSize).outSegments = s.outSegments.dropWhile (fullyAcked ackno) := by
  rw [acceptAck_frame]

@[simp] theorem acceptAck_log :
    (s.acceptAck ackno windowSize).log =
      s.log ++ (s.outSegments.takeWhile (fullyAcked ackno)).map .acked := by
  rw [acceptAck_frame]

theorem firstSent_acceptAck : (s.acceptAck ackno windowSize).firstSent = s.firstSent := by
  simp [firstSent, List.filterMap_append, Function.comp_def]

theorem sentAgain_acceptAck : (s.acceptAck ackno windowSize).sentAgain = s.sentAgain := by
  simp [sentAgain, List.filterMap_append, Function.comp_def]

theorem acked_acceptAck :
    (s.acceptAck ackno windowSize).acked = s.acked ++ s.outSegments.takeWhile (fullyAcked ackno) := by
  simp [acked, List.filterMap_append, Function.comp_def]

theorem queued_acceptAck : (s.acceptAck ackno windowSize).queued = s.queued := by
  simp [queued, List.filterMap_append, Function.comp_def]

@[simp] theorem acceptAck_bytesInFlight :
    (s.acceptAck ackno windowSize).bytesInFlight =
      (s.outSegments.takeWhile (fullyAcked ackno)).foldl
        (fun n seg => usub 64 n seg.lengthInSequenceSpace) s.bytesInFlight := by
  rw [acceptAck_frame]

@[simp] theorem acceptAck_ackGot :
    (s.acceptAck ackno windowSize).ackGot = if s.ackNew ackno then ackno else s.ackGot := by
  rw [acceptAck_frame]

@[simp] theorem acceptAck_trueWindowSize :
    (s.acceptAck ackno windowSize).trueWindowSize = windowSize := rfl

end AcceptAck

/-! ## `tick` -/

/-- Time passes without effect but for the timer, or the oldest outstanding segment goes out again. -/
theorem tick_cases (s : TCPSender) (ms : Nat) :
    (∃ timer, s.tick ms = { s with timer := timer }) ∨
    ∃ seg rest timer retx, s.outSegments = seg :: rest ∧
      s.tick ms = { s with
        segmentsOut := s.segmentsOut ++ [seg]
        log := s.log ++ [.resent seg]
        timer := timer
        consecutiveRetransmission := retx } := by
  unfold tick
  simp only
  split
  · exact Or.inl ⟨_, rfl⟩
  · next seg rest hq =>
      split
      · refine Or.inr ⟨seg, rest, ?_⟩
        simp only [retransmit]
        split
        · exact ⟨_, _, hq, rfl⟩
        · exact ⟨_, _, hq, rfl⟩
      · exact Or.inl ⟨_, rfl⟩

theorem firstSent_tick (s : TCPSender) (ms : Nat) : (s.tick ms).firstSent = s.firstSent := by
  rcases tick_cases s ms with ⟨_, heq⟩ | ⟨_, _, _, _, -, heq⟩
  · rw [heq]; rfl
  · rw [heq]
    simp [firstSent, List.filterMap_append]

theorem acked_tick (s : TCPSender) (ms : Nat) : (s.tick ms).acked = s.acked := by
  rcases tick_cases s ms with ⟨_, heq⟩ | ⟨_, _, _, _, -, heq⟩
  · rw [heq]; rfl
  · rw [heq]
    simp [acked, List.filterMap_append]

end TCPSender

end Sponge
