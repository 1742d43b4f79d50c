import Sponge.Sender.Accounting
import Sponge.Sender.Timer

/-!
# `Sender.ZeroWindow` — probing a closed window

`fill_window` counts a zero window as one while it runs and puts the zero back at its end, but not when it leaves the
loop by the `return` in the middle. It does so when the stream has less to offer than there is room and has not ended
(`fillLoop_returned_iff`). From then on the window counts as one until the next acknowledgment, and a retransmission
is counted and doubles the timeout as if the window were open.

`Probe` records what the last acknowledgment that was accepted advertised and whether every call of `fill_window`
since then has put the zero back. `backoff_iff` says that exactly then a zero window causes no backoff.
-/

namespace Sponge

open Lib TCPSegment

namespace TCPSender

variable {s : TCPSender} {accepted : List UInt8}

/-! ## The way out of the loop -/

/-- A round takes from the stream as much as from the room, unless the stream has ended. -/
theorem round_returns_iff (hgo : s.remain ≠ 0 ∧ s.finFlag = false)
    (hne : (s.takeSegment s.remain).2.lengthInSequenceSpace ≠ 0) :
    (s.round.finFlag = false ∧ s.round.stream.isEof = false ∧ s.round.stream.buf.length < s.round.remain) ↔
      (s.finFlag = false ∧ s.stream.isEof = false ∧ s.stream.buf.length < s.remain) := by
  have hround := fills_round hgo.2 hne
  have hremain := remain_round hgo.2 hne
  have hle := takeSegment_length s s.remain
  rw [hround.isEof]
  cases hend : s.stream.isEof with
  | true => simp
  | false =>
      have hnofin : ¬ ∃ seg ∈ [(s.takeSegment s.remain).2], seg.header.fin = true := by
        intro hfin
        have heof := (ByteStream.eof_iff _).mp (hround.drained hfin)
        rw [hround.isEof, hend] at heof
        cases heof.1
      have hflag : s.round.finFlag = false := by
        by_contra hc
        rw [Bool.not_eq_false, hround.finFlag, hgo.2] at hc
        exact hnofin (hc.resolve_left Bool.noConfusion)
      have havail := hround.extent_add_avail
      rw [if_neg hnofin, extent_cons, extent_nil, avail, avail, hround.isEof, hend] at havail
      rw [avail, hend] at hle
      simp only [Bool.false_eq_true, if_false, Nat.add_zero] at havail hle
      simp only [hflag, hgo.2, true_and]
      omega

/-- **When the loop is left by the `return`**: the FIN is not out, the stream has not ended, and there is more room
    than it has bytes. -/
theorem fillLoop_returned_iff (s : TCPSender) :
    s.fillLoop.2 = true ↔ s.finFlag = false ∧ s.stream.isEof = false ∧ s.stream.buf.length < s.remain := by
  induction s using fillLoop.induct with
  | case1 s hgo hempty =>
      have havail := avail_eq_zero (Nat.pos_of_ne_zero hgo.1) hempty
      have hpos := Nat.pos_of_ne_zero hgo.1
      rw [fillLoop, if_pos hgo, if_pos hempty]
      unfold avail at havail
      refine iff_of_true rfl ⟨hgo.2, ?_, by omega⟩
      by_contra hend
      rw [Bool.not_eq_false] at hend
      rw [if_pos hend] at havail
      omega
  | case2 s hgo hlen ih =>
      rw [fillLoop, if_pos hgo, if_neg hlen]
      exact ih.trans (round_returns_iff hgo hlen)
  | case3 s hstop =>
      rw [fillLoop, if_neg hstop]
      refine iff_of_false Bool.false_ne_true ?_
      rintro ⟨hfin, -, hlt⟩
      exact hstop ⟨by omega, hfin⟩

/-- A call of `fill_window` in this state leaves a zero window at zero: the FIN is out or the SYN is not, or the
    stream has ended or has as much to offer as there is room. -/
def keepsZero (s : TCPSender) : Bool :=
  s.finFlag || !s.synFlag || s.stream.isEof || decide (s.room ≤ s.stream.buf.length)

theorem keepsZero_eq_false_iff (s : TCPSender) : s.keepsZero = false ↔
    s.finFlag = false ∧ s.synFlag = true ∧ s.stream.isEof = false ∧ s.stream.buf.length < s.room := by
  simp only [keepsZero, Bool.or_eq_false_iff, Bool.not_eq_false', decide_eq_false_iff_not, Nat.not_le, and_assoc]

/-- **What `fill_window` does to the window**: a zero is lost in some states, nothing else is changed. -/
theorem trueWindowSize_fillWindow (s : TCPSender) :
    s.fillWindow.trueWindowSize = if s.trueWindowSize = 0 ∧ s.keepsZero = false then 1 else s.trueWindowSize := by
  rcases fillWindow_cases s with ⟨hfin, heq⟩ | ⟨-, hsyn, heq⟩ | ⟨hfin, hsyn, -⟩
  · rw [if_neg (by simp [keepsZero, hfin]), heq]
  · rw [if_neg (by simp [keepsZero, hsyn]), heq]
    rfl
  · have hreturned : s.widened.fillLoop.2 = true ↔ s.keepsZero = false := by
      rw [fillLoop_returned_iff, keepsZero_eq_false_iff, remain_widened]
      exact ⟨fun h => ⟨h.1, hsyn, h.2⟩, fun h => ⟨h.1, h.2.2⟩⟩
    rw [fillWindow_loop hfin hsyn]
    dsimp only
    by_cases hzero : s.trueWindowSize = 0
    · rw [widened, if_pos hzero] at hreturned ⊢
      simp only [hzero, true_and]
      cases hloop : (fillLoop { s with trueWindowSize := 1 }).2 with
      | true => rw [if_neg (by simp), if_pos (hreturned.mp hloop)]
      | false => rw [if_pos rfl, if_neg (fun hlost => by rw [hreturned.mpr hlost] at hloop; cases hloop)]
    · rw [widened, if_neg fun h => hzero h.1, if_neg hzero, if_neg fun h => hzero h.1]

/-! ## Retransmissions -/

/-- A retransmission leaves the count and the timeout as they are if and only if the window is zero and more than the
    SYN was sent: otherwise at least the count changes. -/
theorem retransmit_unchanged_iff {ms : Nat} (h : s.Retransmits ms) :
    ((s.tick ms).consecutiveRetransmission = s.consecutiveRetransmission ∧ (s.tick ms).timer.rto = s.timer.rto) ↔
      s.trueWindowSize = 0 ∧ s.nextSeqno ≠ 1 := by
  obtain ⟨seg, rest, -, heq⟩ := tick_of_retransmits h
  rw [heq, retransmit]
  dsimp only
  split
  · next hopen =>
      refine iff_of_false (fun hsame => ?_) (fun hclosed => ?_)
      · have hcount : (s.consecutiveRetransmission + 1) % 2 ^ 16 = s.consecutiveRetransmission := hsame.1
        omega
      · exact hopen.elim (· hclosed.1) (hclosed.2 ·)
  · next hclosed =>
      rw [not_or, not_not] at hclosed
      exact iff_of_true ⟨rfl, rto_passTime _ _⟩ hclosed

/-- Once the SYN is acknowledged and something is outstanding, more than the SYN was sent. -/
theorem SenderInv.nextSeqno_ne_one (h : SenderInv accepted s) (hacked : s.acked ≠ []) (hout : s.outSegments ≠ []) :
    s.nextSeqno ≠ 1 := by
  obtain ⟨first, acked, hfirst⟩ := List.exists_cons_of_ne_nil hacked
  obtain ⟨last, out, hlast⟩ := List.exists_cons_of_ne_nil hout
  have hqueue := h.queue
  rw [hfirst, hlast] at hqueue
  have hfirstPos : 0 < first.lengthInSequenceSpace := h.pos_of_mem (by rw [hqueue]; simp)
  have hlastPos : 0 < last.lengthInSequenceSpace := h.pos_of_mem (by rw [hqueue]; simp)
  rw [h.next, hqueue, extent_append, extent_cons, extent_cons]
  omega

end TCPSender

/-! ## Runs -/

/-- A sender, the window that the last accepted acknowledgment advertised, and whether every call of `fill_window`
    since then keeps a zero window. -/
structure Probe where
  feed       : Feed
  advertised : Option UInt16
  kept       : Bool

namespace Probe

open TCPSender

def ofConfig (capacity : Nat) (retxTimeout : UInt16) (isn : WrappingInt32) : Probe :=
  ⟨Feed.ofConfig capacity retxTimeout isn, none, true⟩

def step (p : Probe) (op : SenderOp WrappingInt32) : Probe where
  feed       := p.feed.step op
  advertised := match op with
    | .ackReceived ackno w => if p.feed.sender.ackBeyond ackno then p.advertised else some w
    | _                    => p.advertised
  kept       := match op with
    | .fillWindow          => p.kept && p.feed.sender.keepsZero
    | .ackReceived ackno w =>
      if p.feed.sender.ackBeyond ackno then p.kept else (p.feed.sender.acceptAck ackno w).keepsZero
    | _                    => p.kept

/-- The probe after a run. -/
def after (capacity : Nat) (retxTimeout : UInt16) (isn : WrappingInt32) (ops : List (SenderOp WrappingInt32)) : Probe :=
  run step (ofConfig capacity retxTimeout isn) ops

theorem feed_run (p : Probe) (ops : List (SenderOp WrappingInt32)) :
    (run step p ops).feed = run Feed.step p.feed ops := by
  induction ops generalizing p with
  | nil => rfl
  | cons op ops ih => exact ih (p.step op)

/-- The window the sender works with is the advertised one, but for a zero that was lost. -/
def Stored (p : Probe) : Prop :=
  p.advertised = some 0 → p.feed.sender.trueWindowSize = if p.kept then 0 else 1

theorem Stored.step {p : Probe} (h : Stored p) (op : SenderOp WrappingInt32) : Stored (p.step op) := by
  intro hzero
  cases op with
  | write data => exact h hzero
  | endInput => exact h hzero
  | fillWindow =>
      have hwindow := h hzero
      show p.feed.sender.fillWindow.trueWindowSize = if p.kept && p.feed.sender.keepsZero then 0 else 1
      rw [trueWindowSize_fillWindow, hwindow]
      cases p.kept <;> cases p.feed.sender.keepsZero <;> decide
  | ackReceived ackno w =>
      show (p.feed.sender.ackReceived ackno w).trueWindowSize = _
      rw [ackReceived_eq]
      cases hbeyond : p.feed.sender.ackBeyond ackno with
      | true =>
          simp only [Probe.step, hbeyond, if_true] at hzero ⊢
          exact h hzero
      | false =>
          simp only [Probe.step, hbeyond, Bool.false_eq_true, if_false, Option.some.injEq] at hzero ⊢
          rw [trueWindowSize_fillWindow, acceptAck_trueWindowSize, hzero]
          cases (p.feed.sender.acceptAck ackno 0).keepsZero <;> decide
  | tick ms =>
      show (p.feed.sender.tick ms).trueWindowSize = _
      rcases tick_cases p.feed.sender ms with ⟨_, heq⟩ | ⟨_, _, _, _, -, heq⟩ <;> rw [heq] <;> exact h hzero

theorem stored_after (capacity : Nat) (retxTimeout : UInt16) (isn : WrappingInt32)
    (ops : List (SenderOp WrappingInt32)) : Stored (after capacity retxTimeout isn ops) :=
  run_invariant ops Stored nofun fun _ op h => h.step op

/-- **A zero window and backoff.** Let the last accepted acknowledgment advertise a window of zero. Then a tick that
    retransmits leaves the count and the timeout as they are if and only if every call of `fill_window` since has put
    the zero back and more than the SYN was sent, which is so once the SYN is acknowledged. -/
theorem backoff_iff (capacity : Nat) (retxTimeout : UInt16) (isn : WrappingInt32)
    (ops : List (SenderOp WrappingInt32)) (ms : Nat)
    (hzero : (after capacity retxTimeout isn ops).advertised = some 0)
    (hretx : (Feed.after capacity retxTimeout isn ops).sender.Retransmits ms) :
    let s := (Feed.after capacity retxTimeout isn ops).sender
    (((s.tick ms).consecutiveRetransmission = s.consecutiveRetransmission ∧ (s.tick ms).timer.rto = s.timer.rto) ↔
      (after capacity retxTimeout isn ops).kept = true ∧ s.nextSeqno ≠ 1) ∧
    (s.acked ≠ [] → s.nextSeqno ≠ 1) := by
  intro s
  have hfeed : (after capacity retxTimeout isn ops).feed = Feed.after capacity retxTimeout isn ops :=
    feed_run (ofConfig capacity retxTimeout isn) ops
  have hwindow := stored_after capacity retxTimeout isn ops hzero
  rw [hfeed] at hwindow
  change s.trueWindowSize = _ at hwindow
  change s.Retransmits ms at hretx
  have hinv := (Feed.inv_after capacity retxTimeout isn ops).sender
  refine ⟨?_, fun hacked => hinv.nextSeqno_ne_one hacked ((s.retransmits_iff ms).mp hretx).1⟩
  rw [retransmit_unchanged_iff hretx, hwindow]
  cases (after capacity retxTimeout isn ops).kept <;> simp

/-- Two bytes are waiting when the window closes, and it is probed with the first of them: no backoff. -/
theorem backoff_none_with_data :
    let s := (Feed.after 64000 1000 (.ofRaw 5) [.fillWindow, .write [1, 2], .ackReceived (.ofRaw 6) 0]).sender
    s.Retransmits 1000 ∧ (s.tick 1000).consecutiveRetransmission = s.consecutiveRetransmission ∧
      (s.tick 1000).timer.rto = s.timer.rto := by
  intro s
  have hretx : s.Retransmits 1000 := by decide +kernel
  refine ⟨hretx, ?_⟩
  exact (backoff_iff 64000 1000 (.ofRaw 5) [.fillWindow, .write [1, 2], .ackReceived (.ofRaw 6) 0] 1000
    (by decide +kernel) hretx).1.mpr ⟨by decide +kernel, by decide +kernel⟩

/-- The window closes when there is nothing to send; the byte that is written later is counted against the peer. -/
theorem backoff_when_written_later : ¬ ∀ (capacity : Nat) (retxTimeout : UInt16) (isn : WrappingInt32)
    (ops : List (SenderOp WrappingInt32)) (ms : Nat),
    (after capacity retxTimeout isn ops).advertised = some 0 →
    (Feed.after capacity retxTimeout isn ops).sender.acked ≠ [] →
    (Feed.after capacity retxTimeout isn ops).sender.Retransmits ms →
    ((Feed.after capacity retxTimeout isn ops).sender.tick ms).consecutiveRetransmission =
      (Feed.after capacity retxTimeout isn ops).sender.consecutiveRetransmission := by
  intro h
  have hsame := h 64000 1000 (.ofRaw 5) [.fillWindow, .ackReceived (.ofRaw 6) 0, .write [1], .fillWindow] 1000
    (by decide +kernel) (by decide +kernel) (by decide +kernel)
  revert hsame
  decide +kernel

end Probe

end Sponge
