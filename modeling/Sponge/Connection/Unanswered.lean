import Sponge.Connection.Alive
import Sponge.Sender.ZeroWindow

/-!
# `Connection.Unanswered` — when nothing comes in any more

A connection does not wait for ever for a peer that is gone. While something is outstanding and the window is not
zero, the clock runs through at most nine timeouts, each twice as long as the one before, and then the connection
gives up (`unanswered_gives_up`); what the application does in the meantime changes nothing. And if there is nothing
left to wait for but the peer's retransmissions, the connection ends after ten timeouts (`lingers_out`).

What is spent is compared with what the timer and the count of retransmissions show (`Waiting`): a tick adds to the
timer, or takes the count one further.
-/

namespace Sponge

open Lib TCPSender

namespace TCPConnection

variable {c : TCPConnection} {timeout : UInt16} {d since spent : Nat}

/-! ## What every connection keeps -/

theorem timerInv_step (op : Op) (h : TimerInv c.sender) : TimerInv (c.step op).sender := by
  obtain ⟨failed, hh⟩ := handled_step c op
  refine hh.transport (P := TimerInv) (fun _ _ hs => ⟨hs.initial, hs.sound, hs.running⟩)
    (fun _ hs => ⟨hs.initial, hs.sound, hs.running⟩) ?_
  refine senderAfter_rule (P := TimerInv) op h (fun _ hs => hs.fillWindow) ?_ ?_ ?_ fun ms _ _ => h.tick ms
  · intro data _
    have hwrite : TimerInv (c.sender.write data) := ⟨h.initial, h.sound, h.running⟩
    exact hwrite.fillWindow
  · intro _
    have hend : TimerInv c.sender.endInput := ⟨h.initial, h.sound, h.running⟩
    exact hend.fillWindow
  · intro s seg _ _ hs
    rw [ackReceived_eq]
    split
    · exact hs
    · exact (hs.acceptAck _ _).fillWindow

/-- Every operation that may leave nothing outstanding ends with `fill_window`. -/
theorem filled_step (op : Op) (hp : Prompt c.sender) (h : Filled c.sender) : Filled (c.step op).sender := by
  obtain ⟨accepted, hinv⟩ := hp.inv
  obtain ⟨failed, hh⟩ := handled_step c op
  have hfill : ∀ s, Prompt s → Filled s.fillWindow := by
    intro s hs
    obtain ⟨_, hs'⟩ := hs.inv
    exact fillWindow_filled hs.ack hs'
  refine hh.transport (P := Filled) (fun _ _ hs => hs) (fun _ hs => hs) ?_
  refine (senderAfter_rule (P := fun s => Prompt s ∧ Filled s) op ⟨hp, h⟩ ?_ ?_ ?_ ?_ ?_).2
  · exact fun s hs => ⟨hs.1.fillWindow, hfill s hs.1⟩
  · intro data _
    have hack : AckBound (c.sender.write data) := hp.ack.congr rfl rfl rfl (le_refl _)
    exact ⟨Prompt.of_fillWindow (hinv.write data) hack hp.pruned, fillWindow_filled hack (hinv.write data)⟩
  · intro _
    have hack : AckBound c.sender.endInput := hp.ack.congr rfl rfl rfl (le_refl _)
    exact ⟨Prompt.of_fillWindow hinv.endInput hack hp.pruned, fillWindow_filled hack hinv.endInput⟩
  · intro s seg _ _ hs
    refine ⟨hs.1.ackReceived _ _, ?_⟩
    obtain ⟨_, hs'⟩ := hs.1.inv
    rw [ackReceived_eq]
    split
    · exact hs.2
    · next hb => exact fillWindow_filled (hs.1.ack.acceptAck hs' _ (by simpa using hb)) (hs'.acceptAck _ _)
  · intro ms _ _
    refine ⟨hp.tick ms, ?_⟩
    rcases tick_cases c.sender ms with ⟨_, heq⟩ | ⟨_, _, _, _, -, heq⟩ <;> rw [heq] <;> exact h

/-- What is known about a connection with that timeout, whatever has happened to it. -/
structure Sane (timeout : UInt16) (c : TCPConnection) : Prop where
  prompt  : Prompt c.sender
  filled  : Filled c.sender
  timer   : TimerInv c.sender
  budget  : Budget timeout c
  unreset : c.active = true → c.Unreset

theorem Sane.init (cfg : TCPConfig) (randomIsn : WrappingInt32) : Sane cfg.rtTimeout (ofConfig cfg randomIsn) where
  prompt  := Prompt.init ..
  filled  := fun h => nomatch h
  timer   := TimerInv.init ..
  budget  := Budget.init ..
  unreset := fun _ => ⟨rfl, fun _ h => nomatch h⟩

theorem Sane.step (h : Sane timeout c) (op : Op) : Sane timeout (c.step op) := by
  refine ⟨h.prompt.step op, filled_step op h.prompt h.filled, timerInv_step op h.timer, h.budget.step op, ?_⟩
  intro hact
  obtain ⟨accepted, hinv⟩ := h.prompt.inv
  have hafter := Endpoint.senderInv_after (e := ⟨c, accepted, []⟩) op hinv
  exact (h.unreset (active_of_step op hact)).step hafter hact

theorem sane_run (cfg : TCPConfig) (randomIsn : WrappingInt32) (ops : List Op) :
    Sane cfg.rtTimeout (run step (ofConfig cfg randomIsn) ops) :=
  run_invariant ops (Sane cfg.rtTimeout) (Sane.init cfg randomIsn) fun _ op h => h.step op

/-! ## The clock of the sender -/

section Clock

variable {s : TCPSender}

/-- Retransmissions are counted: the window is not zero, or only the SYN has been sent. -/
def Counts (s : TCPSender) : Prop := s.trueWindowSize ≠ 0 ∨ s.nextSeqno = 1

instance (s : TCPSender) : Decidable (Counts s) := inferInstanceAs (Decidable (_ ∨ _))

/-- Before the SYN is acknowledged the recorded acknowledgment number is the ISN. -/
theorem ackGot_of_syn {accepted : List UInt8} (hinv : SenderInv accepted s) (hack : AckBound s) (hpruned : Pruned s)
    (hbusy : s.outSegments ≠ []) (hone : s.nextSeqno = 1) : s.ackGot.rawValue = s.isn.rawValue := by
  have hacked : s.acked = [] := by
    by_contra hne
    exact hinv.nextSeqno_ne_one hne hbusy hone
  have hqueue : s.firstSent = s.outSegments := by rw [hinv.queue, hacked, List.nil_append]
  obtain ⟨seg, hmem⟩ := List.exists_mem_of_ne_nil _ hbusy
  obtain ⟨rest, hfirst, -⟩ := hinv.opened (hinv.synFlag_of_mem (hqueue ▸ hmem))
  have hsyn : synSegment s.isn ∈ s.outSegments := by
    rw [← hqueue, hfirst]
    exact List.mem_cons_self
  have hlow : s.isn.rawValue ≤ s.ackGot.rawValue := Nat.le_of_add_right_le hack.low
  have hlt := s.ackGot.isLt
  by_cases hfits : s.isn.rawValue + s.nextSeqno < 2 ^ 32
  · have hpast : s.isn.rawValue + 1 > s.ackGot.rawValue := of_decide_eq_true (hpruned hfits _ hsyn)
    omega
  · rw [hone] at hfits
    have hisn := s.isn.isLt
    omega

/-- So as long as retransmissions are counted they go on being counted. -/
theorem Counts.fillWindow {accepted : List UInt8} (h : Counts s) (hinv : SenderInv accepted s) (hack : AckBound s)
    (hpruned : Pruned s) (hbusy : s.outSegments ≠ []) : Counts s.fillWindow := by
  by_cases hwindow : s.trueWindowSize = 0
  · have hone := h.resolve_left (fun hne => hne hwindow)
    have hgot := ackGot_of_syn hinv hack hpruned hbusy hone
    have hroom : s.room = 0 := by
      have hused : usub 32 s.nextSeqno32.rawValue s.ackGot.rawValue = 1 := by
        rw [hgot, nextSeqno32, hone, usub_wrap]
        rfl
      rw [room, hused, hwindow]
      rfl
    right
    rcases fillWindow_cases s with ⟨-, heq⟩ | ⟨-, hsyn, -⟩ | ⟨-, -, new, hfills, htotal⟩
    · rw [heq, hone]
    · obtain ⟨seg, hmem⟩ := List.exists_mem_of_ne_nil _ hbusy
      rw [hinv.synFlag_of_mem (hinv.queue ▸ List.mem_append_right _ hmem)] at hsyn
      cases hsyn
    · rw [hfills.nextSeqno, htotal, hroom, hone, Nat.zero_min]
  · left
    rw [trueWindowSize_fillWindow, if_neg fun hzero => hwindow hzero.1]
    exact hwindow

/-- **A tick is added to the timer, or one more retransmission is counted.** -/
theorem tick_cases_of_counts (h : TimerInv s) (hbusy : s.outSegments ≠ []) (hcounts : Counts s) {ms : Nat}
    (hlt : s.timer.time + ms < 2 ^ 32) (hcount : s.consecutiveRetransmission + 1 < 2 ^ 16) :
    ((s.tick ms).timer.time = s.timer.time + ms ∧
        (s.tick ms).consecutiveRetransmission = s.consecutiveRetransmission) ∨
      ((s.tick ms).timer.time = 0 ∧
        (s.tick ms).consecutiveRetransmission = s.consecutiveRetransmission + 1) := by
  have hms : ms % 2 ^ 32 = ms := Nat.mod_eq_of_lt (by omega)
  by_cases hretx : s.Retransmits ms
  · right
    obtain ⟨seg, rest, -, heq⟩ := tick_of_retransmits hretx
    refine ⟨heq ▸ (timer_retransmit _ _).1, ?_⟩
    rw [heq, retransmit]
    dsimp only
    rw [if_pos (show s.trueWindowSize ≠ 0 ∨ s.nextSeqno = 1 from hcounts)]
    exact Nat.mod_eq_of_lt hcount
  · left
    rw [tick_of_not_retransmits hretx, hms]
    have hstill : (s.timer.passTime ms).isRunning ≠ false := by
      intro hoff
      exact hretx ((retransmits_iff s ms).mpr ⟨hbusy, hms.symm ▸ hoff⟩)
    rw [RETimer.passTime_of_running (h.running hbusy), uadd_of_lt hlt] at hstill ⊢
    split at hstill
    · exact absurd rfl hstill
    · next hbelow =>
        rw [if_neg hbelow]
        exact ⟨rfl, rfl⟩

/-- What is outstanding, with an open window, has waited that long if the clock ticks at least every `d`
    milliseconds. -/
structure Patient (timeout d spent : Nat) (s : TCPSender) : Prop where
  busy   : s.outSegments ≠ []
  counts : Counts s
  spent  : spent ≤ timeout * (2 ^ s.consecutiveRetransmission - 1) + s.consecutiveRetransmission * d + s.timer.time

/-- The timeouts up to the last one add up to less than twice the last one. -/
theorem sum_timeouts (t k : Nat) : t * (2 ^ k - 1) + t * 2 ^ k = t * (2 ^ (k + 1) - 1) := by
  have hpos : 0 < 2 ^ k := Nat.two_pow_pos k
  rw [← Nat.mul_add, Nat.pow_succ]
  congr 1
  omega

/-- The timer never shows more than the last timeout. -/
theorem time_le {timeout : Nat} (h : TimerInv s) (hbacks : Backs timeout s) :
    s.timer.time ≤ timeout * 2 ^ s.consecutiveRetransmission := by
  have hbelow := h.sound.below
  rw [hbacks.rto] at hbelow
  omega

theorem Patient.tick {timeout d spent ms : Nat} (hp : Patient timeout d spent s) (h : TimerInv s)
    (hbacks : Backs timeout s) (hms : ms ≤ d) (hlt : s.timer.time + ms < 2 ^ 32)
    (hcount : s.consecutiveRetransmission + 1 < 2 ^ 16) : Patient timeout d (spent + ms) (s.tick ms) := by
  have hspent := hp.spent
  have hcounts : Counts (s.tick ms) := by
    rcases tick_cases s ms with ⟨_, heq⟩ | ⟨_, _, _, _, -, heq⟩ <;> rw [heq] <;> exact hp.counts
  refine ⟨by rw [(outSegments_tick s ms).1]; exact hp.busy, hcounts, ?_⟩
  rcases tick_cases_of_counts h hp.busy hp.counts hlt hcount with ⟨htime, hsame⟩ | ⟨htime, hmore⟩
  · rw [htime, hsame]
    omega
  · have hlast := time_le h hbacks
    have hsum := sum_timeouts timeout s.consecutiveRetransmission
    rw [htime, hmore, Nat.add_mul, Nat.one_mul]
    omega

/-- Filling the window leaves a timer that runs as it is. -/
theorem Patient.fillWindow {timeout d spent : Nat} {accepted : List UInt8} (hp : Patient timeout d spent s)
    (h : TimerInv s) (hinv : SenderInv accepted s) (hack : AckBound s) (hpruned : Pruned s) :
    Patient timeout d spent s.fillWindow := by
  have htimer : s.fillWindow.outSegments ≠ [] ∧ s.fillWindow.timer = s.timer := by
    rcases timer_fillWindow s with ⟨hsegs, htimer⟩ | ⟨hsegs, htimer⟩
    · exact ⟨hsegs ▸ hp.busy, htimer⟩
    · exact ⟨hsegs, htimer.trans (RETimer.armed_of_running (h.running hp.busy))⟩
  refine ⟨htimer.1, hp.counts.fillWindow hinv hack hpruned hp.busy, ?_⟩
  rw [retx_fillWindow, htimer.2]
  exact hp.spent

end Clock

/-! ## Giving up -/

/-- How long the operation takes. -/
def Op.duration : Op → Nat
  | .tick ms => ms
  | _        => 0

/-- How long the operations take together. -/
def elapsed (ops : List Op) : Nat := (ops.map Op.duration).sum

/-- Nothing comes in, and the clock ticks at least every `d` milliseconds. -/
def Quiet (d : Nat) : Op → Prop
  | .segmentReceived _ => False
  | op                 => op.duration ≤ d

instance (d : Nat) : (op : Op) → Decidable (Quiet d op)
  | .segmentReceived _ => .isFalse id
  | .connect | .write _ | .endInputStream | .tick _ | .readInbound _ => Nat.decLe _ _

/-- The connection is still waiting for an answer after that time. -/
structure Waiting (timeout : UInt16) (d spent : Nat) (c : TCPConnection) : Prop where
  sane    : Sane timeout c
  active  : c.active = true
  patient : Patient timeout.toNat d spent c.sender

/-- What a connection can have waited. -/
theorem Waiting.bound (h : Waiting timeout d spent c) :
    spent ≤ timeout.toNat * (2 ^ (TCPConfig.maxRetxAttempts + 1) - 1) + TCPConfig.maxRetxAttempts * d := by
  have hspent := h.patient.spent
  have htime := time_le h.sane.timer h.sane.budget.backs
  have hcount := h.sane.budget.live h.active
  have hsum := sum_timeouts timeout.toNat c.sender.consecutiveRetransmission
  have hlast : timeout.toNat * (2 ^ (c.sender.consecutiveRetransmission + 1) - 1) ≤
      timeout.toNat * (2 ^ (TCPConfig.maxRetxAttempts + 1) - 1) :=
    Nat.mul_le_mul_left _ (Nat.sub_le_sub_right (Nat.pow_le_pow_right (by decide) (by omega)) 1)
  have hticks := Nat.mul_le_mul_right d hcount
  omega

/-- The queue and the error flag do not matter. -/
theorem Handled.patient {c' : TCPConnection} {s : TCPSender} {r : TCPReceiver} {failed : Bool} {n : Nat}
    (h : Handled c s r failed c') (hs : Patient n d spent s) : Patient n d spent c'.sender :=
  h.transport (P := Patient n d spent) (fun _ _ hs => ⟨hs.busy, hs.counts, hs.spent⟩)
    (fun _ hs => ⟨hs.busy, hs.counts, hs.spent⟩) hs

/-- What is outstanding keeps `sendseg` from stopping a connection. -/
theorem active_sendseg {accepted : List UInt8} (hact : c.active = true) (hrst : c.rstSet = false)
    (hinv : SenderInv accepted c.sender) (hbusy : c.sender.outSegments ≠ []) : c.sendseg.active = true := by
  by_contra hoff
  rcases (Handled.sendseg c).inactive (by simpa using hoff) with hold | hset | ⟨hall, -⟩
  · exact Bool.noConfusion (hact.symm.trans hold)
  · exact Bool.noConfusion (hrst.symm.trans hset)
  · exact not_done_of_busy hinv hbusy hall

theorem Waiting.tick (h : Waiting timeout d spent c) {ms : Nat} (hms : ms ≤ d) (hd : d ≤ 2 ^ 31) :
    Waiting timeout d (spent + ms) (c.tick ms) ∨ GivesUp c (c.tick ms) := by
  by_cases hstuck : stuck (c.sender.tick ms) = true
  · exact Or.inr (givesUp_tick h.active hstuck)
  · left
    obtain ⟨accepted, hinv⟩ := h.sane.prompt.inv
    have hmax : TCPConfig.maxRetxAttempts = 8 := rfl
    have hcount := h.sane.budget.live h.active
    have htime : c.sender.timer.time + ms < 2 ^ 32 := by
      have hle := time_le h.sane.timer h.sane.budget.backs
      have hlast : timeout.toNat * 2 ^ c.sender.consecutiveRetransmission ≤ timeout.toNat * 2 ^ 8 :=
        Nat.mul_le_mul_left _ (Nat.pow_le_pow_right (by decide) hcount)
      have hshort := timeout.toNat_lt
      omega
    refine ⟨h.sane.step (.tick ms), ?_, ?_⟩
    · exact active_tick_of_not_stuck h.active (h.sane.unreset h.active).flag hinv h.patient.busy (by simpa using hstuck)
    · obtain ⟨failed, hh⟩ := handled_step c (.tick ms)
      rw [senderAfter, if_pos h.active] at hh
      exact hh.patient (h.patient.tick h.sane.timer h.sane.budget.backs hms htime (by omega))

/-- An operation of the application: the connection sends what it can and goes on waiting. -/
theorem Waiting.sendseg (h : Waiting timeout d spent c) (op : Op) (c₁ : TCPConnection) (hop : c.step op = c₁.sendseg)
    (hact : c₁.active = c.active) (hrst : c₁.rstSet = c.rstSet) {accepted : List UInt8}
    (hinv : SenderInv accepted c₁.sender) (hpatient : Patient timeout.toNat d spent c₁.sender) :
    Waiting timeout d spent (c.step op) := by
  refine ⟨h.sane.step op, ?_, ?_⟩
  · rw [hop]
    exact active_sendseg (hact.trans h.active) (hrst.trans (h.sane.unreset h.active).flag) hinv hpatient.busy
  · rw [hop]
    exact (Handled.sendseg c₁).patient hpatient

/-- **Without an answer the connection goes on waiting or gives up.** -/
theorem Waiting.step (h : Waiting timeout d spent c) (hd : d ≤ 2 ^ 31) {op : Op} (hop : Quiet d op) :
    Waiting timeout d (spent + op.duration) (c.step op) ∨ GivesUp c (c.step op) := by
  obtain ⟨accepted, hinv⟩ := h.sane.prompt.inv
  cases op with
  | connect =>
      left
      exact h.sendseg .connect { c with sender := c.sender.fillWindow } rfl rfl rfl hinv.fillWindow
        (h.patient.fillWindow h.sane.timer hinv h.sane.prompt.ack h.sane.prompt.pruned)
  | write data =>
      left
      have hwrite : Patient timeout.toNat d spent (c.sender.write data) :=
        ⟨h.patient.busy, h.patient.counts, h.patient.spent⟩
      have htimer : TimerInv (c.sender.write data) := ⟨h.sane.timer.initial, h.sane.timer.sound, h.sane.timer.running⟩
      exact h.sendseg (.write data) { c with sender := (c.sender.write data).fillWindow } rfl rfl rfl
        (hinv.write data).fillWindow (hwrite.fillWindow htimer (hinv.write data)
          (h.sane.prompt.ack.congr rfl rfl rfl (le_refl _)) h.sane.prompt.pruned)
  | endInputStream =>
      left
      have hend : Patient timeout.toNat d spent c.sender.endInput := ⟨h.patient.busy, h.patient.counts, h.patient.spent⟩
      have htimer : TimerInv c.sender.endInput := ⟨h.sane.timer.initial, h.sane.timer.sound, h.sane.timer.running⟩
      exact h.sendseg .endInputStream
        { c with sender := c.sender.endInput.fillWindow, closedByApp := true } rfl rfl rfl
        hinv.endInput.fillWindow (hend.fillWindow htimer hinv.endInput
          (h.sane.prompt.ack.congr rfl rfl rfl (le_refl _)) h.sane.prompt.pruned)
  | tick ms => exact h.tick hop hd
  | segmentReceived seg => exact hop.elim
  | readInbound len => exact Or.inl ⟨h.sane.step _, h.active, h.patient⟩

/-- What has given up stays so. -/
theorem GivesUp.step {c' : TCPConnection} (h : GivesUp c c') (op : Op) : GivesUp c (c'.step op) := by
  obtain ⟨failed, hh⟩ := handled_step c' op
  have herror := (heard_receiverAfter c' op).error
  obtain ⟨new, hnew, hrst⟩ := h.reset
  obtain ⟨more, hmore⟩ := hh.kept
  refine ⟨active_step op h.inactive, ?_, ?_, new ++ more, ?_, ?_⟩
  · rw [hh.stream_error, (streamFlags_senderAfter op).2, h.outbound, Bool.or_true]
  · show (c'.step op).receiver.streamOut.error = true
    rw [hh.streamOut_error, herror]
    exact (congrArg _ h.inbound).trans (Bool.or_true _)
  · rw [← hmore, hnew, List.append_assoc]
  · obtain ⟨seg, hseg, hset⟩ := hrst
    exact ⟨seg, List.mem_append_left _ hseg, hset⟩

theorem GivesUp.of_step {c' : TCPConnection} {op : Op} (h : GivesUp (c.step op) c') : GivesUp c c' := by
  obtain ⟨failed, hh⟩ := handled_step c op
  obtain ⟨new, hnew, seg, hseg, hset⟩ := h.reset
  obtain ⟨more, hmore⟩ := hh.kept
  refine ⟨h.inactive, h.outbound, h.inbound, more ++ new, ?_, seg, List.mem_append_right _ hseg, hset⟩
  rw [hnew, ← hmore, List.append_assoc]

theorem waiting_run (h : Waiting timeout d spent c) (hd : d ≤ 2 ^ 31) {ops : List Op} (hops : ∀ op ∈ ops, Quiet d op) :
    Waiting timeout d (spent + elapsed ops) (run step c ops) ∨ GivesUp c (run step c ops) := by
  induction ops generalizing c spent with
  | nil => exact Or.inl h
  | cons op ops ih =>
      have hrest : ∀ op ∈ ops, Quiet d op := fun op' hmem => hops op' (List.mem_cons_of_mem _ hmem)
      rcases h.step hd (hops op List.mem_cons_self) with hwait | hgone
      · have helapsed : elapsed (op :: ops) = op.duration + elapsed ops := List.sum_cons
        rw [helapsed, ← Nat.add_assoc]
        exact (ih hwait hrest).imp id GivesUp.of_step
      · exact Or.inr (run_invariant ops (GivesUp c) hgone fun _ op hc => hc.step op)

/-- **A connection that is not answered gives up.** After any run, if the connection is active, something is
    outstanding and retransmissions are counted, and from then on nothing comes in: however the application writes,
    reads and closes, if the clock ticks at least every `d` milliseconds, with `d` at most `2 ^ 31`, the connection is
    reset, with RST, before the time of nine timeouts and eight ticks is over. -/
theorem unanswered_gives_up (cfg : TCPConfig) (randomIsn : WrappingInt32) (ops quiet : List Op) (d : Nat)
    (hd : d ≤ 2 ^ 31) (hquiet : ∀ op ∈ quiet, Quiet d op) :
    let c := run step (ofConfig cfg randomIsn) ops
    c.active = true → c.sender.outSegments ≠ [] → Counts c.sender →
      cfg.rtTimeout.toNat * (2 ^ (TCPConfig.maxRetxAttempts + 1) - 1) + TCPConfig.maxRetxAttempts * d <
        elapsed quiet →
      GivesUp c (run step c quiet) := by
  intro c hact hbusy hcounts hlong
  have hstart : Waiting cfg.rtTimeout d 0 c := ⟨sane_run cfg randomIsn ops, hact, hbusy, hcounts, Nat.zero_le _⟩
  refine (waiting_run hstart hd hquiet).resolve_left ?_
  intro hwait
  have hbound := hwait.bound
  rw [Nat.zero_add] at hbound
  exact absurd hbound (Nat.not_le.mpr hlong)

/-- The application writes and closes, and then the clock ticks every ten seconds. -/
def nobodyThere : List Op := [.write [1], .endInputStream] ++ List.replicate 60 (.tick 10000)

/-- A SYN that nobody answers. -/
theorem unanswered_gives_up_syn :
    let c := run step (ofConfig {} (.ofRaw 0)) [.connect]
    GivesUp c (run step c nobodyThere) := by
  intro c
  have h := unanswered_gives_up {} (.ofRaw 0) [.connect] nobodyThere 10000 (by decide) (by decide +kernel)
  exact h (by decide +kernel) (by decide +kernel) (by decide +kernel) (by decide +kernel)

/-! ## Lingering -/

/-- Everything is done, and nothing has come in for that long and `since` before. -/
structure Lingering (timeout : UInt16) (since spent : Nat) (c : TCPConnection) : Prop where
  sane   : Sane timeout c
  cfg    : c.cfg.rtTimeout = timeout
  active : c.active = true
  done   : StreamsDone c.sender c.receiver
  empty  : c.receiver.unassembledBytes = 0
  time   : c.timeSinceLastSegmentReceived = since + spent
  below  : spent = 0 ∨ spent < 10 * timeout.toNat

/-- The connection has ended, and not by a reset. -/
structure Closed (c : TCPConnection) : Prop where
  inactive : c.active = false
  flag     : c.rstSet = false

theorem Lingering.acked (h : Lingering timeout since spent c) : c.sender.outSegments = [] := by
  obtain ⟨accepted, hinv⟩ := h.sane.prompt.inv
  exact hinv.outSegments_eq_nil h.done.inFlight

theorem Lingering.fin (h : Lingering timeout since spent c) : c.sender.finFlag = true :=
  (h.sane.filled h.done.outbound).resolve_left fun hne => hne h.acked

/-- A sender that is done stays so. -/
theorem Lingering.done_after (h : Lingering timeout since spent c) {op : Op} (hop : Quiet d op) :
    StreamsDone (c.senderAfter op) (c.receiverAfter op) ∧ (c.receiverAfter op).unassembledBytes = 0 := by
  have hfill := fillWindow_of_fin h.fin
  cases op with
  | connect =>
      rw [senderAfter, hfill]
      exact ⟨h.done, h.empty⟩
  | write data =>
      have hwrite : (c.sender.write data).fillWindow = c.sender.write data := fillWindow_of_fin h.fin
      rw [senderAfter, hwrite]
      exact ⟨⟨h.done.inbound, h.done.outbound, h.done.inFlight⟩, h.empty⟩
  | endInputStream =>
      have hend : c.sender.endInput.fillWindow = c.sender.endInput := fillWindow_of_fin h.fin
      rw [senderAfter, hend]
      exact ⟨⟨h.done.inbound, rfl, h.done.inFlight⟩, h.empty⟩
  | tick ms =>
      rw [senderAfter, if_pos h.active]
      refine ⟨⟨h.done.inbound, ?_, ?_⟩, h.empty⟩
      · rw [stream_tick]
        exact h.done.outbound
      · rw [(outSegments_tick c.sender ms).2]
        exact h.done.inFlight
  | segmentReceived seg => exact hop.elim
  | readInbound len => exact ⟨⟨h.done.inbound, h.done.outbound, h.done.inFlight⟩, h.empty⟩

/-- The time to linger is over: `clean_shutdown` stops the connection. -/
theorem cleanShutdown_stops (hdone : StreamsDone c.sender c.receiver) (hempty : c.receiver.unassembledBytes = 0)
    (hqueue : c.sender.segmentsOut = []) (htime : 10 * c.cfg.rtTimeout.toNat ≤ c.timeSinceLastSegmentReceived) :
    c.cleanShutdown.active = false := by
  have hall : ∀ linger : Bool, c.receiver.unassembledBytes = 0 ∧ c.receiver.streamOut.inputEnded ∧
      c.sender.stream.inputEnded ∧ c.sender.segmentsOut.isEmpty ∧ c.sender.bytesInFlight = 0 ∧
      (c.timeSinceLastSegmentReceived ≥ 10 * c.cfg.rtTimeout.toNat ∨ linger = false) := by
    intro linger
    exact ⟨hempty, hdone.inbound, hdone.outbound, by rw [hqueue]; rfl, hdone.inFlight, Or.inl htime⟩
  unfold cleanShutdown
  dsimp only
  split
  · rw [if_pos (hall false)]
  · rw [if_pos (hall c.lingerAfterStreamsFinish)]

/-- And so does `sendseg`, whatever is still queued. -/
theorem sendseg_stops (hflag : c.rstSet = false) (hdone : StreamsDone c.sender c.receiver)
    (hempty : c.receiver.unassembledBytes = 0)
    (htime : 10 * c.cfg.rtTimeout.toNat ≤ c.timeSinceLastSegmentReceived) : c.sendseg.active = false := by
  rw [sendseg_eq]
  have hsender : ∀ queue, (c.afterSend queue).sender = { c.sender with segmentsOut := [] } := by
    intro queue
    rw [afterSend, hflag]
    rfl
  have hreceiver : ∀ queue, (c.afterSend queue).receiver = c.receiver := by
    intro queue
    rw [afterSend, hflag, if_neg Bool.false_ne_true]
  refine cleanShutdown_stops ?_ ?_ ?_ htime
  · rw [hsender, hreceiver]
    exact ⟨hdone.inbound, hdone.outbound, hdone.inFlight⟩
  · rw [hreceiver]
    exact hempty
  · rw [hsender]

/-- The clock of a sender with nothing outstanding changes only the timer. -/
theorem Lingering.not_stuck (h : Lingering timeout since spent c) (ms : Nat) : stuck (c.sender.tick ms) = false := by
  have hcount := h.sane.budget.live h.active
  have hidle : ¬ c.sender.Retransmits ms := fun hretx => ((retransmits_iff _ _).mp hretx).1 h.acked
  rw [tick_of_not_retransmits hidle]
  exact decide_eq_false (Nat.not_lt.mpr hcount)

/-- **The tick that ends the time to linger stops the connection**, after it has sent what was still queued. -/
theorem Lingering.tick_stops (h : Lingering timeout since spent c) {ms : Nat}
    (hlt : c.timeSinceLastSegmentReceived + ms < 2 ^ 64)
    (hover : 10 * timeout.toNat ≤ c.timeSinceLastSegmentReceived + ms) : (c.tick ms).active = false := by
  have hquiet : Quiet ms (.tick ms) := le_refl ms
  obtain ⟨hdone, hempty⟩ := h.done_after hquiet
  rw [senderAfter, if_pos h.active] at hdone
  have htime : 10 * (c.elapse ms).cfg.rtTimeout.toNat ≤ (c.elapse ms).timeSinceLastSegmentReceived := by
    show 10 * c.cfg.rtTimeout.toNat ≤ uadd 64 c.timeSinceLastSegmentReceived ms
    rw [h.cfg, uadd_of_lt hlt]
    exact hover
  rw [tick_not_stuck h.active (h.not_stuck ms)]
  split
  · next hqueue => exact cleanShutdown_stops hdone hempty (List.isEmpty_iff.mp hqueue) htime
  · have hflag : (c.elapse ms).cleanShutdown.rstSet = false :=
      (cleanShutdown_rstSet _).trans (h.sane.unreset h.active).flag
    have hwinds := Winds.cleanShutdown (c.elapse ms)
    refine sendseg_stops hflag ?_ ?_ ?_
    · rw [cleanShutdown_sender, cleanShutdown_receiver]
      exact hdone
    · rw [cleanShutdown_receiver]
      exact hempty
    · rw [hwinds.cfg, hwinds.time]
      exact htime

theorem Lingering.rstSet_step (h : Lingering timeout since spent c) {op : Op} (hop : Quiet d op) :
    (c.step op).rstSet = false := by
  have hflag := (h.sane.unreset h.active).flag
  cases op with
  | connect => exact (sendseg_rstSet _).trans hflag
  | write data => exact (sendseg_rstSet _).trans hflag
  | endInputStream => exact (sendseg_rstSet _).trans hflag
  | tick ms =>
      show (c.tick ms).rstSet = false
      rw [tick_not_stuck h.active (h.not_stuck ms)]
      split
      · exact (cleanShutdown_rstSet _).trans hflag
      · exact (sendseg_rstSet _).trans ((cleanShutdown_rstSet _).trans hflag)
  | segmentReceived seg => exact hop.elim
  | readInbound len => exact hflag

/-- **Without a segment the connection goes on lingering or has closed.** -/
theorem Lingering.step (h : Lingering timeout since spent c) {op : Op} (hop : Quiet d op)
    (hlt : c.timeSinceLastSegmentReceived + op.duration < 2 ^ 64) :
    Lingering timeout since (spent + op.duration) (c.step op) ∨ Closed (c.step op) := by
  cases hact : (c.step op).active with
  | false => exact Or.inr ⟨hact, h.rstSet_step hop⟩
  | true =>
      left
      obtain ⟨failed, hh⟩ := handled_step c op
      obtain ⟨hdone, hempty⟩ := h.done_after hop
      have hwinds := winds_step c op
      have htime : (c.step op).timeSinceLastSegmentReceived = c.timeSinceLastSegmentReceived + op.duration := by
        refine hwinds.time.trans ?_
        show c.timeAfter op = _
        cases op with
        | tick ms => exact (if_pos h.active).trans (uadd_of_lt hlt)
        | segmentReceived seg => exact hop.elim
        | connect | write _ | endInputStream | readInbound _ => rfl
      have hspent := h.time
      refine ⟨h.sane.step op, ?_, hact, ⟨?_, ?_, ?_⟩, ?_, by rw [htime, hspent, Nat.add_assoc], ?_⟩
      · exact (congrArg _ hwinds.cfg).trans h.cfg
      · exact hh.streamOut_isEof.trans hdone.inbound
      · exact hh.stream_isEof.trans hdone.outbound
      · have hflight : (c.step op).sender.bytesInFlight = (c.senderAfter op).bytesInFlight := by
          rw [hh.sender]
          cases failed <;> rfl
        exact hflight.trans hdone.inFlight
      · rcases hh.receiver_cases with heq | heq <;> rw [heq] <;> exact hempty
      · cases op with
        | tick ms =>
            right
            by_contra hover
            have hoff := h.tick_stops hlt (by
              show 10 * timeout.toNat ≤ c.timeSinceLastSegmentReceived + (Op.tick ms).duration
              omega)
            exact Bool.noConfusion (hact.symm.trans hoff)
        | segmentReceived seg => exact hop.elim
        | connect | write _ | endInputStream | readInbound _ => exact h.below

theorem Closed.step (h : Closed c) {op : Op} (hop : Quiet d op) : Closed (c.step op) := by
  refine ⟨active_step op h.inactive, ?_⟩
  cases op with
  | connect => exact (sendseg_rstSet _).trans h.flag
  | write data => exact (sendseg_rstSet _).trans h.flag
  | endInputStream => exact (sendseg_rstSet _).trans h.flag
  | tick ms =>
      show (c.tick ms).rstSet = false
      rw [tick_inactive h.inactive]
      exact h.flag
  | segmentReceived seg => exact hop.elim
  | readInbound len => exact h.flag

theorem lingering_run (h : Lingering timeout since spent c) {ops : List Op} (hops : ∀ op ∈ ops, Quiet d op)
    (hlt : since + spent + elapsed ops < 2 ^ 64) :
    Lingering timeout since (spent + elapsed ops) (run step c ops) ∨ Closed (run step c ops) := by
  induction ops generalizing c spent with
  | nil => exact Or.inl h
  | cons op ops ih =>
      have hrest : ∀ op ∈ ops, Quiet d op := fun op' hmem => hops op' (List.mem_cons_of_mem _ hmem)
      have hop := hops op List.mem_cons_self
      have helapsed : elapsed (op :: ops) = op.duration + elapsed ops := List.sum_cons
      rw [helapsed] at hlt ⊢
      have htime := h.time
      rcases h.step hop (by omega) with hlinger | hclosed
      · rw [← Nat.add_assoc]
        exact ih hlinger hrest (by omega)
      · right
        exact (Guarded.iff_forall.mpr fun _ op' hp => hrest op' (hp.subset (by simp))).invariant Closed hclosed
          fun _ _ hc hop' => hc.step hop'

/-- **A connection that is done does not linger for ever.** After any run, if the connection is active, both streams
    have ended and nothing is in flight or waits to be assembled, and from then on nothing comes in: when ten timeouts
    are over, and the clock has ticked at all, it has closed, without a reset. The time since the last segment has to
    stay below `2 ^ 64` milliseconds. -/
theorem lingers_out (cfg : TCPConfig) (randomIsn : WrappingInt32) (ops quiet : List Op) (d : Nat)
    (hquiet : ∀ op ∈ quiet, Quiet d op) :
    let c := run step (ofConfig cfg randomIsn) ops
    c.active = true → StreamsDone c.sender c.receiver → c.unassembledBytes = 0 →
      c.timeSinceLastSegmentReceived + elapsed quiet < 2 ^ 64 → 0 < elapsed quiet →
      10 * cfg.rtTimeout.toNat ≤ elapsed quiet → Closed (run step c quiet) := by
  intro c hact hdone hempty hlt hpos hlong
  have hcfg : c.cfg.rtTimeout = cfg.rtTimeout := congrArg _ (cfg_run cfg randomIsn ops)
  have hstart : Lingering cfg.rtTimeout c.timeSinceLastSegmentReceived 0 c :=
    ⟨sane_run cfg randomIsn ops, hcfg, hact, hdone, hempty, rfl, Or.inl rfl⟩
  refine (lingering_run hstart hquiet hlt).resolve_left ?_
  intro hlinger
  have hbelow := hlinger.below
  omega

/-- The active close, with ticks of a second while the application goes on reading. -/
theorem lingers_out_active_close :
    let c := run step (ofConfig {} (.ofRaw 0)) (activeClose ++ [.segmentReceived (finWithWindow 1000)])
    Closed (run step c (.readInbound 5 :: List.replicate 10 (.tick 1000))) := by
  intro c
  have h := lingers_out {} (.ofRaw 0) (activeClose ++ [.segmentReceived (finWithWindow 1000)])
    (.readInbound 5 :: List.replicate 10 (.tick 1000)) 1000 (by decide +kernel)
  exact h (by decide +kernel) ⟨by decide +kernel, by decide +kernel, by decide +kernel⟩ (by decide +kernel)
    (by decide +kernel) (by decide +kernel) (by decide +kernel)

end TCPConnection

end Sponge
