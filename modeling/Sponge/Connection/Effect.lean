import Sponge.TCPConnection
import Sponge.Reassembler.Rep
import Sponge.Sender.Partition

/-!
# `Connection.Effect` — what each operation of a connection can do

- `clean_shutdown` touches only the linger and active flags (`cleanShutdown_*`), and switches the connection
  off only when both streams are over (`cleanShutdown_inactive`).
- `sendseg` in closed form (`sendseg_eq`): everything pending goes out with the same stamp.
- `Handled c s r c'` is what all operations have in common: the connection's halves become `s` and `r` up to
  error flags, and what is appended to the outbound queue are pending segments of `s`, or an empty one,
  stamped with the acknowledgment and the window of `r`. There is one such lemma per operation.
-/

namespace Sponge

open Lib

namespace TCPConnection

/-! ## `clean_shutdown` -/

section CleanShutdown

variable (c : TCPConnection)

/-- Everything but the linger and the active flag stays. -/
theorem cleanShutdown_frame : c.cleanShutdown =
    { c with
      lingerAfterStreamsFinish := c.cleanShutdown.lingerAfterStreamsFinish
      active := c.cleanShutdown.active } := by
  unfold cleanShutdown; dsimp only; split_ifs <;> rfl

@[simp] theorem cleanShutdown_sender : c.cleanShutdown.sender = c.sender := by rw [cleanShutdown_frame]
@[simp] theorem cleanShutdown_receiver : c.cleanShutdown.receiver = c.receiver := by rw [cleanShutdown_frame]
@[simp] theorem cleanShutdown_segmentsOut : c.cleanShutdown.segmentsOut = c.segmentsOut := by
  rw [cleanShutdown_frame]
@[simp] theorem cleanShutdown_rstSet : c.cleanShutdown.rstSet = c.rstSet := by rw [cleanShutdown_frame]
@[simp] theorem cleanShutdown_synSet : c.cleanShutdown.synSet = c.synSet := by rw [cleanShutdown_frame]
@[simp] theorem cleanShutdown_finAckSent : c.cleanShutdown.finAckSent = c.finAckSent := by
  rw [cleanShutdown_frame]

/-- Both streams have ended and nothing is in flight: what `clean_shutdown` asks for. -/
structure StreamsDone (s : TCPSender) (r : TCPReceiver) : Prop where
  inbound  : r.streamOut.inputEnded = true
  outbound : s.stream.inputEnded = true
  inFlight : s.bytesInFlight = 0

/-- `clean_shutdown` switches a connection off only when everything has been received, sent and
    acknowledged. -/
theorem cleanShutdown_inactive (h : c.cleanShutdown.active = false) :
    c.active = false ∨ (StreamsDone c.sender c.receiver ∧ c.sender.segmentsOut = []) := by
  have hdone : c.receiver.unassembledBytes = 0 ∧ c.receiver.streamOut.inputEnded ∧
      c.sender.stream.inputEnded ∧ c.sender.segmentsOut.isEmpty ∧ c.sender.bytesInFlight = 0 →
      StreamsDone c.sender c.receiver ∧ c.sender.segmentsOut = [] := by
    rintro ⟨-, hin, hout, hqueue, hflight⟩
    exact ⟨⟨hin, hout, hflight⟩, List.isEmpty_iff.mp hqueue⟩
  unfold cleanShutdown at h
  dsimp only at h
  split_ifs at h with hlinger hall hall
  · exact Or.inr (hdone ⟨hall.1, hall.2.1, hall.2.2.1, hall.2.2.2.1, hall.2.2.2.2.1⟩)
  · exact Or.inl h
  · exact Or.inr (hdone ⟨hall.1, hall.2.1, hall.2.2.1, hall.2.2.2.1, hall.2.2.2.2.1⟩)
  · exact Or.inl h

end CleanShutdown

/-! ## `sendseg` -/

/-- What `sendseg` is about to send. -/
def pending (c : TCPConnection) : List TCPSegment :=
  if c.sender.segmentsOut.isEmpty then [{}] else c.sender.segmentsOut

theorem pending_ne_nil (c : TCPConnection) : c.pending ≠ [] := by
  unfold pending
  split
  · exact List.cons_ne_nil _ _
  · next hq => exact fun hnil => hq (by rw [hnil]; rfl)

/-- The connection after its loop has sent the segments `queue`. -/
def afterSend (c : TCPConnection) (queue : List TCPSegment) : TCPConnection :=
  { c with
    receiver := if c.rstSet then c.receiver.setError else c.receiver
    sender := { (if c.rstSet then c.sender.setError else c.sender) with segmentsOut := [] }
    segmentsOut := c.segmentsOut ++ queue.map (stamp c.receiver c.rstSet)
    active := c.active && !c.rstSet
    synSet := c.synSet || queue.any (·.header.syn)
    finAckSent := c.finAckSent || acksFin c.receiver c.recFinSeqno }

/-! An error flag changes neither the stamp nor the test for the FIN, so both are the same for the whole
queue. -/

@[simp] theorem stamp_setError (r : TCPReceiver) : stamp r.setError = stamp r := rfl
@[simp] theorem acksFin_setError (r : TCPReceiver) : acksFin r.setError = acksFin r := rfl
@[simp] theorem setError_setError (r : TCPReceiver) : r.setError.setError = r.setError := rfl

/-- One round of the loop, with the rest of the queue still to come. -/
theorem sendOne_eq (c : TCPConnection) (seg : TCPSegment) (rest : List TCPSegment) :
    sendOne { c with sender := { c.sender with segmentsOut := rest } } seg =
      { c.afterSend [seg] with
        sender := { (if c.rstSet then c.sender.setError else c.sender) with segmentsOut := rest } } := by
  cases hrst : c.rstSet with
  | false => simp [sendOne, afterSend, hrst]
  | true => simp [sendOne, afterSend, hrst, TCPSender.setError]

theorem afterSend_afterSend (c : TCPConnection) (seg : TCPSegment) (rest queue : List TCPSegment) :
    afterSend { c.afterSend [seg] with
      sender := { (if c.rstSet then c.sender.setError else c.sender) with segmentsOut := rest } } queue =
      c.afterSend (seg :: queue) := by
  cases hrst : c.rstSet with
  | false => simp [afterSend, hrst, Bool.or_assoc]
  | true => simp [afterSend, hrst, Bool.or_assoc, TCPSender.setError, ByteStream.setError]

theorem sendLoop_eq (c : TCPConnection) (seg : TCPSegment) (rest : List TCPSegment) :
    sendLoop (seg :: rest) c = c.afterSend (seg :: rest) := by
  induction rest generalizing c seg with
  | nil => rw [sendLoop, sendOne_eq, sendLoop]; rfl
  | cons seg' rest ih => rw [sendLoop, ih, sendOne_eq, afterSend_afterSend]

/-- **`sendseg` in closed form.** -/
theorem sendseg_eq (c : TCPConnection) : c.sendseg = (c.afterSend c.pending).cleanShutdown := by
  unfold sendseg pending
  dsimp only
  cases hq : c.sender.segmentsOut with
  | nil => rw [List.isEmpty_nil, if_pos rfl, sendLoop_eq]
  | cons seg rest => rw [List.isEmpty_cons, if_neg Bool.false_ne_true, sendLoop_eq]

theorem sendseg_segmentsOut (c : TCPConnection) :
    c.sendseg.segmentsOut = c.segmentsOut ++ c.pending.map (stamp c.receiver c.rstSet) := by
  rw [sendseg_eq, cleanShutdown_segmentsOut]
  rfl

/-! ## What all operations have in common -/

/-- From the base `c`, with the halves `s` and `r` made of its own by some sender and receiver operation,
    the connection comes to `c'`. `failed` tells whether the streams were put into error on the way. -/
structure Handled (c : TCPConnection) (s : TCPSender) (r : TCPReceiver) (failed : Bool)
    (c' : TCPConnection) : Prop where
  sender   : c'.sender = { (if failed then s.setError else s) with segmentsOut := c'.sender.segmentsOut }
  left     : ∀ seg ∈ c'.sender.segmentsOut, seg ∈ s.segmentsOut
  sent     : ∀ seg ∈ s.segmentsOut, seg ∈ c'.sender.segmentsOut ∨ ∃ rst, stamp r rst seg ∈ c'.segmentsOut
  receiver : c'.receiver = if failed then r.setError else r
  pushed   : ∃ new, c'.segmentsOut = c.segmentsOut ++ new ∧
    ∀ seg ∈ new, ∃ base rst, seg = stamp r rst base ∧ (base ∈ s.segmentsOut ∨ base = {})
  rst      : c'.rstSet = true → c.rstSet = true ∨ failed = true
  inactive : c'.active = false → c.active = false ∨ failed = true ∨
    (StreamsDone s r ∧ c'.sender.segmentsOut = [])
  syn      : c'.synSet = false → c.synSet = false ∧ r.isnSet = c.receiver.isnSet

section Pushed

variable {c c' : TCPConnection} {s : TCPSender} {r : TCPReceiver} {failed : Bool}

theorem Handled.kept (h : Handled c s r failed c') : c.segmentsOut <+: c'.segmentsOut := by
  obtain ⟨new, hnew, -⟩ := h.pushed
  exact ⟨new, hnew.symm⟩

theorem Handled.out (h : Handled c s r failed c') : ∀ seg ∈ c'.segmentsOut, seg ∈ c.segmentsOut ∨
    ∃ base rst, seg = stamp r rst base ∧ (base ∈ s.segmentsOut ∨ base = {}) := by
  obtain ⟨new, hnew, hstamped⟩ := h.pushed
  intro seg hseg
  rw [hnew] at hseg
  exact (List.mem_append.mp hseg).imp id (hstamped seg)

end Pushed

theorem Handled.refl (c : TCPConnection) : Handled c c.sender c.receiver false c where
  sender   := rfl
  left     := fun _ h => h
  sent     := fun _ h => Or.inl h
  receiver := rfl
  pushed   := ⟨[], by simp⟩
  rst      := Or.inl
  inactive := Or.inl
  syn      := fun h => ⟨h, rfl⟩

/-- The base matters only through its outbound queue and four flags. -/
theorem Handled.base {c₀ c c' : TCPConnection} {s : TCPSender} {r : TCPReceiver} {failed : Bool}
    (h : Handled c₀ s r failed c') (hout : c₀.segmentsOut = c.segmentsOut)
    (hrst : c₀.rstSet = true → c.rstSet = true ∨ failed = true) (hact : c₀.active = c.active)
    (hsyn : c₀.synSet = c.synSet) (hisn : c₀.receiver.isnSet = c.receiver.isnSet) :
    Handled c s r failed c' := by
  refine ⟨h.sender, h.left, h.sent, h.receiver, hout ▸ h.pushed, fun hr => ?_, hact ▸ h.inactive,
    hsyn ▸ hisn ▸ h.syn⟩
  exact (h.rst hr).elim hrst Or.inr

theorem Handled.cleanShutdown (c : TCPConnection) :
    Handled c c.sender c.receiver false c.cleanShutdown where
  sender   := by simp
  left     := by simp
  sent     := by simp +contextual
  receiver := by simp
  pushed   := ⟨[], by simp⟩
  rst      := by simp
  inactive := fun h => (cleanShutdown_inactive c h).imp id fun hdone => by simpa using hdone
  syn      := by simp

theorem Handled.trans {c c₁ c₂ : TCPConnection} {s : TCPSender} {r : TCPReceiver} {f₁ f₂ : Bool}
    (h₁ : Handled c s r f₁ c₁) (h₂ : Handled c₁ c₁.sender c₁.receiver f₂ c₂) :
    Handled c s r (f₁ || f₂) c₂ := by
  have hleft : ∀ seg ∈ c₁.sender.segmentsOut, seg ∈ s.segmentsOut := h₁.left
  have hstamp : stamp c₁.receiver = stamp r := by rw [h₁.receiver]; split <;> rfl
  have hs := h₁.sender
  have hr := h₁.receiver
  constructor
  case sender =>
    -- putting a stream into error twice is the same as once
    rw [h₂.sender, hs]
    cases f₁ <;> cases f₂ <;> simp [TCPSender.setError, ByteStream.setError]
  case left => exact fun seg hseg => hleft seg (h₂.left seg hseg)
  case sent =>
    intro seg hseg
    rcases h₁.sent seg hseg with hwait | ⟨rst, hout⟩
    · rw [← hstamp]
      exact h₂.sent seg hwait
    · exact Or.inr ⟨rst, h₂.kept.subset hout⟩
  case receiver =>
    rw [h₂.receiver, hr]
    cases f₁ <;> cases f₂ <;> simp
  case pushed =>
    obtain ⟨new₁, hnew₁, hall₁⟩ := h₁.pushed
    obtain ⟨new₂, hnew₂, hall₂⟩ := h₂.pushed
    refine ⟨new₁ ++ new₂, by rw [hnew₂, hnew₁, List.append_assoc], fun seg hseg => ?_⟩
    rcases List.mem_append.mp hseg with hold | hnew
    · exact hall₁ seg hold
    · obtain ⟨base, rst, heq, hbase⟩ := hall₂ seg hnew
      exact ⟨base, rst, by rw [heq, hstamp], hbase.imp (hleft base) id⟩
  case rst =>
    intro hrst
    rw [Bool.or_eq_true]
    rcases h₂.rst hrst with hold | hnew
    · exact (h₁.rst hold).imp id Or.inl
    · exact Or.inr (Or.inr hnew)
  case inactive =>
    intro hact
    rw [Bool.or_eq_true]
    rcases h₂.inactive hact with hold | hnew | ⟨hdone, hqueue⟩
    · rcases h₁.inactive hold with hwas | hfailed | ⟨hdone, hqueue⟩
      · exact Or.inl hwas
      · exact Or.inr (Or.inl (Or.inl hfailed))
      · -- a queue that was empty stays so
        refine Or.inr (Or.inr ⟨hdone, List.eq_nil_iff_forall_not_mem.mpr ?_⟩)
        intro seg hseg
        have hmem := h₂.left seg hseg
        rw [hqueue] at hmem
        cases hmem
    · exact Or.inr (Or.inl (Or.inr hnew))
    · refine Or.inr (Or.inr ⟨?_, hqueue⟩)
      rw [hs, hr] at hdone
      cases f₁ <;> exact ⟨hdone.inbound, hdone.outbound, hdone.inFlight⟩
  case syn =>
    intro hsyn
    obtain ⟨h₁s, h₂i⟩ := h₂.syn hsyn
    exact h₁.syn h₁s

theorem Handled.afterSend (c : TCPConnection) :
    Handled c c.sender c.receiver c.rstSet (c.afterSend c.pending) where
  sender   := rfl
  left     := by simp [TCPConnection.afterSend]
  sent     := by
    intro seg hseg
    have hpending : c.pending = c.sender.segmentsOut := by
      rw [pending, if_neg]
      rw [List.isEmpty_iff]
      exact List.ne_nil_of_mem hseg
    refine Or.inr ⟨c.rstSet, List.mem_append_right _ ?_⟩
    rw [hpending]
    exact List.mem_map_of_mem hseg
  receiver := rfl
  pushed   := by
    refine ⟨_, rfl, fun seg hseg => ?_⟩
    obtain ⟨base, hbase, rfl⟩ := List.mem_map.mp hseg
    refine ⟨base, c.rstSet, rfl, ?_⟩
    unfold pending at hbase
    split at hbase
    · exact Or.inr (List.mem_singleton.mp hbase)
    · exact Or.inl hbase
  rst      := Or.inl
  inactive := by
    intro h
    rw [TCPConnection.afterSend, Bool.and_eq_false_iff, Bool.not_eq_false'] at h
    exact h.imp id Or.inl
  syn      := by
    intro h
    rw [TCPConnection.afterSend, Bool.or_eq_false_iff] at h
    exact ⟨h.1, rfl⟩

theorem Handled.sendseg (c : TCPConnection) : Handled c c.sender c.receiver c.rstSet c.sendseg := by
  have h := (Handled.afterSend c).trans (Handled.cleanShutdown _)
  rw [Bool.or_false] at h
  rw [sendseg_eq]
  exact h

/-! ## The operations -/

/-- What the application, the clock and the network do to a connection. -/
inductive Op where
  | connect
  | write (data : List UInt8)
  | endInputStream
  | tick (msSinceLastTick : Nat)
  | segmentReceived (seg : TCPSegment)
  | readInbound (len : Nat)
deriving DecidableEq

def step (c : TCPConnection) : Op → TCPConnection
  | .connect             => c.connect
  | .write data          => (c.write data).1
  | .endInputStream      => c.endInputStream
  | .tick ms             => c.tick ms
  | .segmentReceived seg => c.segmentReceived seg
  | .readInbound len     => (c.readInbound len).2

/-- The segment that arrives is a SYN. -/
def Op.isSyn : Op → Bool
  | .segmentReceived seg => seg.header.syn
  | _                    => false

/-- The segment is looked at: the connection is active, and open or about to be opened. -/
def admits (c : TCPConnection) (seg : TCPSegment) : Bool := c.active && (c.synSet || seg.header.syn)

/-- The sender after the first SYN has opened the passive side. -/
def openedSender (c : TCPConnection) : TCPSender := if c.synSet then c.sender else c.sender.fillWindow

/-- The sender as the operation leaves it, before its queue is emptied. -/
def senderAfter (c : TCPConnection) : Op → TCPSender
  | .connect             => c.sender.fillWindow
  | .write data          => (c.sender.write data).fillWindow
  | .endInputStream      => c.sender.endInput.fillWindow
  | .tick ms             => if c.active then c.sender.tick ms else c.sender
  | .segmentReceived seg =>
    if c.admits seg then
      if !seg.header.rst && seg.header.ack then
        c.openedSender.ackReceived seg.header.ackno seg.header.win
      else c.openedSender
    else c.sender
  | .readInbound _       => c.sender

/-- The receiver as the operation leaves it. -/
def receiverAfter (c : TCPConnection) : Op → TCPReceiver
  | .segmentReceived seg =>
    if c.admits seg && !seg.header.rst then c.receiver.segmentReceived seg else c.receiver
  | .readInbound len     => { c.receiver with reassembler := c.receiver.reassembler.readOut len }
  | _                    => c.receiver

theorem Handled.absorb (c : TCPConnection) (seg : TCPSegment) (hsyn : c.synSet = true) :
    Handled c (if seg.header.ack then c.sender.ackReceived seg.header.ackno seg.header.win else c.sender)
      (c.receiver.segmentReceived seg) false (c.absorb seg) := by
  unfold TCPConnection.absorb
  dsimp only
  split
  · have h := Handled.cleanShutdown { c with
      receiver := c.receiver.segmentReceived seg
      sender := c.sender.ackReceived seg.header.ackno seg.header.win }
    exact ⟨h.sender, h.left, h.sent, h.receiver, h.pushed, h.rst, h.inactive,
      fun hs => by rw [cleanShutdown_synSet, hsyn] at hs; cases hs⟩
  · exact ⟨rfl, fun _ h => h, fun _ h => Or.inl h, rfl, ⟨[], by simp⟩, Or.inl, Or.inl,
      fun hs => by rw [hsyn] at hs; cases hs⟩

theorem Handled.reply (c : TCPConnection) (seg : TCPSegment) :
    ∃ failed, Handled c c.sender c.receiver failed (c.reply seg) := by
  unfold TCPConnection.reply
  split
  · exact ⟨false, Handled.refl c⟩
  · dsimp only
    have hmark : Handled c c.sender c.receiver false
        (if seg.header.fin then { c with recFinSeqno := some seg.header.seqno } else c) := by
      split
      · exact (Handled.refl { c with recFinSeqno := some seg.header.seqno }).base rfl Or.inl rfl rfl rfl
      · exact Handled.refl c
    generalize (if seg.header.fin then { c with recFinSeqno := some seg.header.seqno } else c) = c₁
      at hmark ⊢
    split
    · exact ⟨_, (hmark.trans (Handled.sendseg c₁)).trans (Handled.cleanShutdown _)⟩
    · exact ⟨_, hmark.trans (Handled.cleanShutdown _)⟩

theorem openPassive_synSet {c : TCPConnection} {seg : TCPSegment}
    (h : ¬ (c.synSet = false ∧ seg.header.syn = false)) : (c.openPassive seg).synSet = true := by
  unfold openPassive
  dsimp only
  cases hs : c.synSet <;> cases hg : seg.header.syn <;> simp_all

theorem openPassive_sender {c : TCPConnection} {seg : TCPSegment}
    (h : ¬ (c.synSet = false ∧ seg.header.syn = false)) :
    (c.openPassive seg).sender = c.openedSender := by
  unfold openPassive openedSender
  dsimp only
  cases hs : c.synSet <;> cases hg : seg.header.syn <;> simp_all

/-- Everything but the SYN flag, the sender and the clock stays. -/
theorem openPassive_frame (c : TCPConnection) (seg : TCPSegment) : c.openPassive seg =
    { c with
      synSet := (c.openPassive seg).synSet
      sender := (c.openPassive seg).sender
      timeSinceLastSegmentReceived := 0 } := by
  unfold openPassive; dsimp only; split <;> rfl

section OpenPassive

variable (c : TCPConnection) (seg : TCPSegment)

@[simp] theorem openPassive_cfg : (c.openPassive seg).cfg = c.cfg := by rw [openPassive_frame]
@[simp] theorem openPassive_receiver : (c.openPassive seg).receiver = c.receiver := by rw [openPassive_frame]
@[simp] theorem openPassive_segmentsOut : (c.openPassive seg).segmentsOut = c.segmentsOut := by
  rw [openPassive_frame]
@[simp] theorem openPassive_linger :
    (c.openPassive seg).lingerAfterStreamsFinish = c.lingerAfterStreamsFinish := by rw [openPassive_frame]
@[simp] theorem openPassive_rstSet : (c.openPassive seg).rstSet = c.rstSet := by rw [openPassive_frame]
@[simp] theorem openPassive_active : (c.openPassive seg).active = c.active := by rw [openPassive_frame]
@[simp] theorem openPassive_finAckSent : (c.openPassive seg).finAckSent = c.finAckSent := by
  rw [openPassive_frame]

end OpenPassive

theorem Handled.resetReceived (c : TCPConnection) :
    Handled c c.sender c.receiver true c.resetReceived where
  sender   := rfl
  left     := fun _ h => h
  sent     := fun _ h => Or.inl h
  receiver := rfl
  pushed   := ⟨[], by simp [TCPConnection.resetReceived]⟩
  rst      := fun _ => Or.inr rfl
  inactive := fun _ => Or.inr (Or.inl rfl)
  syn      := fun h => ⟨h, rfl⟩

/-- What is handled after `openPassive` is handled from the state before. The SYN flag is set by then, so the
    last clause is void. -/
theorem Handled.of_openPassive {c c' : TCPConnection} {seg : TCPSegment} {s : TCPSender} {r : TCPReceiver}
    {failed : Bool} (h : Handled (c.openPassive seg) s r failed c')
    (hopen : (c.openPassive seg).synSet = true) : Handled c s r failed c' where
  sender   := h.sender
  left     := h.left
  sent     := h.sent
  receiver := h.receiver
  pushed   := openPassive_segmentsOut c seg ▸ h.pushed
  rst      := openPassive_rstSet c seg ▸ h.rst
  inactive := openPassive_active c seg ▸ h.inactive
  syn      := fun hs => absurd hopen (by rw [(h.syn hs).1]; exact Bool.false_ne_true)

/-! ### The three ways of a segment: at the door, as a reset, and in earnest -/

section Ways

variable {c : TCPConnection} {seg : TCPSegment}

/-- A segment that is not let in changes nothing. -/
theorem segmentReceived_of_not_admits (h : c.admits seg = false) : c.segmentReceived seg = c := by
  unfold TCPConnection.segmentReceived
  by_cases hact : c.active = false
  · rw [if_pos hact]
  · rw [Bool.not_eq_false] at hact
    rw [admits, hact, Bool.true_and, Bool.or_eq_false_iff] at h
    rw [if_neg (by simp [hact]), if_pos h]

theorem senderAfter_of_not_admits (h : c.admits seg = false) :
    c.senderAfter (.segmentReceived seg) = c.sender := if_neg (by simp [h])

theorem receiverAfter_of_not_admits (h : c.admits seg = false) :
    c.receiverAfter (.segmentReceived seg) = c.receiver := if_neg (by simp [h])

theorem not_dropped_of_admits (h : c.admits seg = true) :
    ¬ (c.synSet = false ∧ seg.header.syn = false) := by
  rintro ⟨hs, hg⟩
  rw [admits, hs, hg, Bool.or_false, Bool.and_false] at h
  cases h

/-- A reset. The guard inside the source's branch is never met, since the SYN flag is set by then. -/
theorem segmentReceived_of_rst (h : c.admits seg = true) (hrst : seg.header.rst = true) :
    c.segmentReceived seg = (c.openPassive seg).resetReceived := by
  have hopen := not_dropped_of_admits h
  rw [admits, Bool.and_eq_true] at h
  rw [TCPConnection.segmentReceived, if_neg (by simp [h.1]), if_neg hopen]
  dsimp only
  rw [if_pos hrst, if_neg (by simp [openPassive_synSet hopen])]

theorem senderAfter_of_rst (h : c.admits seg = true) (hrst : seg.header.rst = true) :
    c.senderAfter (.segmentReceived seg) = c.openedSender := by
  rw [senderAfter, if_pos h, if_neg (by simp [hrst])]

theorem receiverAfter_of_rst (hrst : seg.header.rst = true) :
    c.receiverAfter (.segmentReceived seg) = c.receiver := if_neg (by simp [hrst])

/-- A segment without RST is absorbed and then answered or not. -/
theorem segmentReceived_of_admits (h : c.admits seg = true) (hrst : seg.header.rst = false) :
    c.segmentReceived seg = ((c.openPassive seg).absorb seg).reply seg := by
  have hopen := not_dropped_of_admits h
  rw [admits, Bool.and_eq_true] at h
  rw [TCPConnection.segmentReceived, if_neg (by simp [h.1]), if_neg hopen]
  dsimp only
  rw [if_neg (by simp [hrst])]

theorem senderAfter_of_admits (h : c.admits seg = true) (hrst : seg.header.rst = false) :
    c.senderAfter (.segmentReceived seg) =
      if seg.header.ack then c.openedSender.ackReceived seg.header.ackno seg.header.win
      else c.openedSender := by
  rw [senderAfter, if_pos h, hrst]
  rfl

theorem receiverAfter_of_admits (h : c.admits seg = true) (hrst : seg.header.rst = false) :
    c.receiverAfter (.segmentReceived seg) = c.receiver.segmentReceived seg :=
  if_pos (by rw [h, hrst]; rfl)

end Ways

theorem Handled.segmentReceived (c : TCPConnection) (seg : TCPSegment) :
    ∃ failed, Handled c (c.senderAfter (.segmentReceived seg)) (c.receiverAfter (.segmentReceived seg))
      failed (c.segmentReceived seg) := by
  cases hadm : c.admits seg with
  | false =>
      rw [segmentReceived_of_not_admits hadm, senderAfter_of_not_admits hadm,
        receiverAfter_of_not_admits hadm]
      exact ⟨false, Handled.refl c⟩
  | true =>
      have hopen := openPassive_synSet (not_dropped_of_admits hadm)
      have hsend := openPassive_sender (not_dropped_of_admits hadm)
      cases hrst : seg.header.rst with
      | true =>
          rw [segmentReceived_of_rst hadm hrst, senderAfter_of_rst hadm hrst, receiverAfter_of_rst hrst]
          have hreset := Handled.resetReceived (c.openPassive seg)
          rw [hsend, openPassive_receiver] at hreset
          exact ⟨true, hreset.of_openPassive hopen⟩
      | false =>
          rw [segmentReceived_of_admits hadm hrst, senderAfter_of_admits hadm hrst,
            receiverAfter_of_admits hadm hrst]
          have habs := Handled.absorb (c.openPassive seg) seg hopen
          rw [hsend, openPassive_receiver] at habs
          obtain ⟨failed, hrep⟩ := Handled.reply ((c.openPassive seg).absorb seg) seg
          exact ⟨_, (habs.trans hrep).of_openPassive hopen⟩

/-- Giving up after too many retransmissions: everything pending goes out with RST. -/
theorem Handled.resetIfStuck (c : TCPConnection) :
    ∃ failed, Handled c c.sender c.receiver failed c.resetIfStuck := by
  unfold TCPConnection.resetIfStuck
  split
  · exact ⟨true, (Handled.sendseg { c with rstSet := true }).base rfl (fun _ => Or.inr rfl) rfl rfl rfl⟩
  · exact ⟨false, Handled.refl c⟩

theorem Handled.tick (c : TCPConnection) (ms : Nat) :
    ∃ failed, Handled c (c.senderAfter (.tick ms)) (c.receiverAfter (.tick ms)) failed (c.tick ms) := by
  simp only [TCPConnection.tick, senderAfter, receiverAfter]
  by_cases hact : c.active = false
  · rw [if_pos hact, if_neg (by simp [hact])]
    exact ⟨false, Handled.refl c⟩
  · rw [if_neg hact, if_pos (by simpa using hact)]
    have hbase : Handled c (c.sender.tick ms) c.receiver false (c.elapse ms) :=
      (Handled.refl (c.elapse ms)).base rfl Or.inl rfl rfl rfl
    obtain ⟨failed, hreset⟩ := Handled.resetIfStuck (c.elapse ms)
    have hclean := (hbase.trans hreset).trans (Handled.cleanShutdown _)
    split
    · exact ⟨_, hclean⟩
    · split
      · exact ⟨_, hclean⟩
      · exact ⟨_, hclean.trans (Handled.sendseg _)⟩

/-- **What every operation of a connection does.** -/
theorem handled_step (c : TCPConnection) (op : Op) :
    ∃ failed, Handled c (c.senderAfter op) (c.receiverAfter op) failed (c.step op) := by
  cases op with
  | connect =>
      exact ⟨_, (Handled.sendseg { c with sender := c.sender.fillWindow }).base rfl Or.inl rfl rfl rfl⟩
  | write data =>
      exact ⟨_, (Handled.sendseg { c with sender := (c.sender.write data).fillWindow }).base rfl Or.inl rfl
        rfl rfl⟩
  | endInputStream =>
      exact ⟨_, (Handled.sendseg { c with
        sender := c.sender.endInput.fillWindow, closedByApp := true }).base rfl Or.inl rfl rfl rfl⟩
  | tick ms => exact Handled.tick c ms
  | segmentReceived seg => exact Handled.segmentReceived c seg
  | readInbound len =>
      exact ⟨false, (Handled.refl (c.readInbound len).2).base rfl Or.inl rfl rfl rfl⟩

end TCPConnection

end Sponge
