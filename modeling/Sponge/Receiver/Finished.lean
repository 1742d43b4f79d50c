import Sponge.Receiver.Arrivals

/-!
# `Receiver.Finished` — whether a finished inbound stream stays finished

`end_input` only raises a flag: `ByteStream::write` does not look at it, and neither does `push_substring`. So
what keeps a finished stream finished is what arrives. `Writes` says when a push writes (`advances_iff`); the
stream stays as it was when it ended if and only if none of the later pushes does
(`stays_finished_iff`), for a reassembler and for a receiver.

The argument is the same for both, so it is made once, for any machine with a byte stream in it (`Ending`).
-/

namespace Sponge

open Lib

/-! ## When a push writes -/

namespace StreamReassembler

variable {r : StreamReassembler}

/-- A push of `len` bytes at `index` writes: there is room, and the bytes reach past `nextIndex`, or they begin
    there and one byte at least is new or was waiting. -/
def Writes (r : StreamReassembler) (len index : Nat) : Prop :=
  0 < r.output.remainingCapacity ∧
    (index < r.nextIndex ∧ r.nextIndex < uadd 64 index len ∨
      index = r.nextIndex ∧ r.nextIndex ≤ uadd 64 index len ∧ (0 < len ∨ r.nextIndex ∈ r.myMap))

instance (r : StreamReassembler) (len index : Nat) : Decidable (Writes r len index) :=
  inferInstanceAs (Decidable (_ ∧ (_ ∧ _ ∨ _ ∧ _ ∧ (_ ∨ _))))

theorem writeLoop_nextIndex (index i : Nat) (cs : List UInt8) :
    (writeLoop index i cs r).nextIndex = r.nextIndex + cs.length := by
  induction cs generalizing i r with
  | nil => rfl
  | cons c cs ih =>
      rw [writeLoop, ih, writeByte_nextIndex, List.length_cons]
      omega

theorem le_drain_nextIndex (hs : r.Singles) : r.nextIndex ≤ r.drain.nextIndex := by
  obtain ⟨cs, hadv, -⟩ := advance_drain hs
  rw [hadv.nextIndex]
  exact Nat.le_add_right _ _

/-- The draining loop moves on exactly if the next byte is waiting and has room. -/
theorem drain_advances_iff (hs : r.Singles) :
    r.nextIndex < r.drain.nextIndex ↔ r.nextIndex ∈ r.myMap ∧ 0 < r.output.remainingCapacity := by
  obtain ⟨cs, hadv, hlen, hget, hstop⟩ := advance_drain hs
  constructor
  · intro hlt
    rw [hadv.nextIndex] at hlt
    cases cs with
    | nil => exact absurd hlt (lt_irrefl _)
    | cons c cs =>
        have hc := hget 0 c rfl
        rw [Nat.add_zero] at hc
        refine ⟨?_, lt_of_lt_of_le (Nat.succ_pos _) hlen⟩
        rw [Std.ExtTreeMap.mem_iff_isSome_getElem?, hc]
        rfl
  · rintro ⟨hmem, hroom⟩
    by_contra hstay
    -- if nothing was drained, the loop stopped at a byte that was waiting and had room
    have hcs : cs = [] := by
      rw [hadv.nextIndex] at hstay
      exact List.length_eq_zero_iff.mp (by omega)
    subst hcs
    have hmem' : r.drain.nextIndex ∈ r.drain.myMap := by
      rw [hadv.nextIndex, hadv.mem_iff]
      exact ⟨hmem, by simp⟩
    have hfull := hstop hmem'
    rw [hadv.remaining] at hfull
    exact absurd hfull (Nat.pos_iff_ne_zero.mp hroom)

/-- The two loops move on exactly if there is a byte to write, or one to drain. -/
theorem writeDrain_advances_iff {cs : List UInt8} (h : Counted r)
    (hfits : cs.length ≤ r.output.remainingCapacity) :
    r.nextIndex < (writeLoop r.nextIndex 0 cs r).drain.nextIndex ↔
      cs ≠ [] ∨ r.nextIndex ∈ r.myMap ∧ 0 < r.output.remainingCapacity := by
  cases cs with
  | nil =>
      show r.nextIndex < r.drain.nextIndex ↔ _
      rw [drain_advances_iff h.singles]
      simp
  | cons c cs =>
      have hloop : Counted (writeLoop r.nextIndex 0 (c :: cs) r) := h.writeLoop hfits
      have hdrain := le_drain_nextIndex hloop.singles
      rw [writeLoop_nextIndex, List.length_cons] at hdrain
      constructor
      · intro _
        exact Or.inl (List.cons_ne_nil c cs)
      · intro _
        omega

/-- **When a push writes.** -/
theorem advances_iff (h : Counted r) (data : List UInt8) (index : Nat) (eof : Bool) :
    r.nextIndex < (r.pushSubstring data index eof).nextIndex ↔ Writes r data.length index := by
  have hp := pushSubstring_routed r data index eof
  generalize r.pushSubstring data index eof = r' at hp ⊢
  -- the routes that do not write leave `nextIndex` alone, and their tests exclude `Writes`
  have hidle (hnext : r'.nextIndex = r.nextIndex) (hno : ¬ Writes r data.length index) :
      r.nextIndex < r'.nextIndex ↔ Writes r data.length index :=
    iff_of_false (by rw [hnext]; exact lt_irrefl _) hno
  cases hp with
  | discarded hout => exact hidle rfl fun hin => by unfold Writes at hin; omega
  | seen b _ _ hlt hend => exact hidle rfl fun hin => by unfold Writes at hin; omega
  | stored b _ _ hlt _ _ => exact hidle (storeLoop_nextIndex ..) fun hin => by unfold Writes at hin; omega
  | written b _ _ hle hend hnew =>
      have hfits : ((data.drop (r.nextIndex - index)).take r.output.remainingCapacity).length ≤
          r.output.remainingCapacity := by
        rw [List.length_take]
        exact Nat.min_le_left _ _
      have hiff := writeDrain_advances_iff (h.mark b) hfits
      rw [(finish_frame _).2.2.2.2.2.1]
      refine hiff.trans ?_
      rw [mark_nextIndex, mark_myMap, mark_output, ← List.length_pos_iff, List.length_take,
        Nat.lt_min, Writes]
      rcases Nat.lt_or_eq_of_le hle with hlt | rfl
      · -- a suffix is new
        have hdrop := uadd_drop hlt (hnew hlt)
        have hsum : uadd 64 index data.length ≤ index + data.length := Nat.mod_le _ _
        have hpast := hnew hlt
        constructor
        · rintro (⟨hroom, -⟩ | ⟨-, hroom⟩) <;> exact ⟨hroom, Or.inl ⟨hlt, hpast⟩⟩
        · rintro ⟨hroom, -⟩
          exact Or.inl ⟨hroom, by omega⟩
      · rw [Nat.sub_self, List.drop_zero]
        constructor
        · rintro (⟨hroom, hlen⟩ | ⟨hmem, hroom⟩)
          · exact ⟨hroom, Or.inr ⟨rfl, hend, Or.inl hlen⟩⟩
          · exact ⟨hroom, Or.inr ⟨rfl, hend, Or.inr hmem⟩⟩
        · rintro ⟨hroom, ⟨hlt, -⟩ | ⟨-, -, hlen | hmem⟩⟩
          · exact absurd hlt (lt_irrefl _)
          · exact Or.inl ⟨hroom, hlen⟩
          · exact Or.inr ⟨hmem, hroom⟩

theorem written_eq_iff (h : Counted r) (data : List UInt8) (index : Nat) (eof : Bool) :
    (r.pushSubstring data index eof).output.writeCount = r.output.writeCount ↔
      ¬ Writes r data.length index := by
  have hframe := pushFrame_pushSubstring r data index eof
  have hwritten := hframe.written
  rw [← advances_iff h data index eof, h.next_eq, (h.pushSubstring data index eof).next_eq]
  omega

end StreamReassembler

/-! ## A machine whose stream ends -/

section Ending

variable {σ ι : Type}

/-- After the stream of a machine has ended, nothing more is written to it, and once it is at its end it stays
    there. -/
def StaysFinished (step : σ → ι → σ) (out : σ → ByteStream) (s : σ) (ops : List ι) : Prop :=
  ∀ pre mid, pre ++ mid <+: ops → (out (run step s pre)).inputEnded = true →
    (out (run step s (pre ++ mid))).bytesWritten = (out (run step s pre)).bytesWritten ∧
    ((out (run step s pre)).eof = true → (out (run step s (pre ++ mid))).eof = true)

/-- What a step allowed by `ok` does to the stream, under an invariant: the end is not taken back, `writes` is
    exactly that bytes are written, the reader does not go back, and the counters tell what is buffered. -/
structure Ending (step : σ → ι → σ) (out : σ → ByteStream) (Inv : σ → Prop) (ok writes : σ → ι → Prop) :
    Prop where
  keeps  : ∀ s op, Inv s → ok s op → Inv (step s op)
  stays  : ∀ s op, (out s).isEof = true → (out (step s op)).isEof = true
  writes : ∀ s op, Inv s → ((out (step s op)).writeCount = (out s).writeCount ↔ ¬ writes s op)
  reads  : ∀ s op, (out s).readCount ≤ (out (step s op)).readCount
  counts : ∀ s, Inv s → (out s).readCount + (out s).buf.length = (out s).writeCount

/-- No write comes after the end. -/
def NoLateBytes (out : σ → ByteStream) (writes : σ → ι → Prop) (s : σ) (op : ι) : Prop :=
  (out s).inputEnded = true → ¬ writes s op

instance (out : σ → ByteStream) (writes : σ → ι → Prop) (s : σ) (op : ι) [Decidable (writes s op)] :
    Decidable (NoLateBytes out writes s op) :=
  inferInstanceAs (Decidable (_ → ¬ _))

variable {step : σ → ι → σ} {out : σ → ByteStream} {Inv : σ → Prop} {ok writes : σ → ι → Prop}

/-- An emptied buffer stays empty if nothing is written. -/
theorem Ending.eof_step (E : Ending step out Inv ok writes) {s : σ} {op : ι} (hi : Inv s) (hok : ok s op)
    (hsame : (out (step s op)).writeCount = (out s).writeCount) (heof : (out s).eof = true) :
    (out (step s op)).eof = true := by
  rw [ByteStream.eof_iff] at heof ⊢
  refine ⟨E.stays s op heof.1, List.length_eq_zero_iff.mp ?_⟩
  have hread := E.reads s op
  have hcount := E.counts s hi
  have hcount' := E.counts _ (E.keeps s op hi hok)
  rw [heof.2, List.length_nil] at hcount
  omega

/-- **A finished stream stays finished if and only if nothing is written late.** -/
theorem Ending.staysFinished_iff (E : Ending step out Inv ok writes) {s : σ} {ops : List ι} (hi : Inv s)
    (hok : Guarded step ok s ops) :
    StaysFinished step out s ops ↔ Guarded step (NoLateBytes out writes) s ops := by
  have hinv (pre : List ι) (hp : pre <+: ops) : Inv (run step s pre) :=
    (hok.of_isPrefix hp).invariant Inv hi E.keeps
  constructor
  · intro h
    rw [Guarded.iff_forall]
    intro hist op hp hend
    have hsame := (h hist [op] hp hend).1
    rw [run_append] at hsame
    exact (E.writes _ op (hinv hist ((List.prefix_append _ _).trans hp))).mp hsame
  · intro h pre mid hp hend
    obtain ⟨-, hmid⟩ := Guarded.append.mp (h.of_isPrefix hp)
    obtain ⟨-, hmid'⟩ := Guarded.append.mp (hok.of_isPrefix hp)
    rw [run_append]
    have hpre := hinv pre ((List.prefix_append _ _).trans hp)
    generalize run step s pre = t at hend hmid hmid' hpre ⊢
    -- induction over what follows the end
    clear hp hi hok h hinv
    induction mid generalizing t with
    | nil => exact ⟨rfl, id⟩
    | cons op mid ih =>
        have hsame := (E.writes t op hpre).mpr (hmid.1 hend)
        obtain ⟨hwritten, heof⟩ :=
          ih (step t op) (E.stays t op hend) hmid.2 hmid'.2 (E.keeps t op hpre hmid'.1)
        exact ⟨hwritten.trans hsame, fun h => heof (E.eof_step hpre hmid'.1 hsame h)⟩

end Ending

/-! ## The reassembler and the receiver -/

namespace StreamReassembler

/-- The operation writes to the stream. -/
def OpWrites (r : StreamReassembler) : StreamOp → Prop
  | .push data index _ => Writes r data.length index.toNat
  | _                  => False

instance (r : StreamReassembler) : (op : StreamOp) → Decidable (OpWrites r op)
  | .push data index _ => inferInstanceAs (Decidable (Writes r data.length index.toNat))
  | .read _ | .pop _   => inferInstanceAs (Decidable False)

theorem ending : Ending act streamOut Counted PopFits OpWrites where
  keeps  := fun _ _ h hok => h.act hok
  stays  := by
    intro r op h
    cases op with
    | push data index eof =>
        rcases (pushFrame_pushSubstring r data index.toNat eof).isEof with heq | ⟨-, hnew⟩
        · exact heq.trans h
        · exact hnew
    | read len => exact h
    | pop len => exact h
  writes := by
    intro r op h
    cases op with
    | push data index eof => exact written_eq_iff h data index.toNat eof
    | read len => exact iff_of_true (ByteStream.read_writeCount ..) not_false
    | pop len => exact iff_of_true rfl not_false
  reads  := by
    intro r op
    cases op with
    | push data index eof => exact le_of_eq (pushFrame_pushSubstring r data index.toNat eof).readCount.symm
    | read len =>
        show r.output.readCount ≤ (r.output.read len).2.readCount
        rw [ByteStream.read_readCount]
        exact Nat.le_add_right _ _
    | pop len => exact Nat.le_add_right _ _
  counts := fun _ h => h.balance

end StreamReassembler

namespace TCPReceiver

/-- The operation writes to the stream. -/
def OpWrites (r : TCPReceiver) : ReceiverOp → Prop
  | .segment seg => (r.pushIndex seg).elim False (r.reassembler.Writes seg.payload.length ·)
  | _            => False

instance (r : TCPReceiver) : (op : ReceiverOp) → Decidable (OpWrites r op)
  | .segment seg =>
      match h : r.pushIndex seg with
      | none       => .isFalse (by rw [OpWrites, h]; exact not_false)
      | some index => decidable_of_iff (r.reassembler.Writes seg.payload.length index) (by rw [OpWrites, h]; rfl)
  | .read _ | .pop _ => inferInstanceAs (Decidable False)

theorem ending (capacity : Nat) : Ending act streamOut (Windowed capacity) PopFits OpWrites where
  keeps  := fun _ _ h hok => h.act hok
  stays  := fun r op h => (heard_act r op).stays h
  writes := by
    intro r op h
    cases op with
    | segment seg =>
        show (r.segmentReceived seg).reassembler.output.writeCount = _ ↔ _
        rw [reassembler_segmentReceived, OpWrites]
        cases r.pushIndex seg with
        | none => exact iff_of_true rfl not_false
        | some index => exact StreamReassembler.written_eq_iff h.counted seg.payload index seg.header.fin
    | read len => exact iff_of_true (ByteStream.read_writeCount ..) not_false
    | pop len => exact iff_of_true rfl not_false
  reads  := bytesRead_le_act
  counts := fun _ h => h.counted.balance

end TCPReceiver

/-- **A finished inbound stream stays finished if and only if nothing is written late**, in every run of a
    reassembler with arbitrary pushes, and in every run of a receiver with arbitrary segments. -/
theorem stays_finished_iff (capacity : Nat) (ops : List StreamOp) (ops' : List ReceiverOp)
    (h : Guarded StreamReassembler.act StreamReassembler.PopFits (.ofCapacity capacity) ops)
    (h' : Guarded TCPReceiver.act TCPReceiver.PopFits (.ofCapacity capacity) ops') :
    (StaysFinished StreamReassembler.act StreamReassembler.streamOut (.ofCapacity capacity) ops ↔
      Guarded StreamReassembler.act
        (NoLateBytes StreamReassembler.streamOut StreamReassembler.OpWrites) (.ofCapacity capacity) ops) ∧
    (StaysFinished TCPReceiver.act TCPReceiver.streamOut (.ofCapacity capacity) ops' ↔
      Guarded TCPReceiver.act
        (NoLateBytes TCPReceiver.streamOut TCPReceiver.OpWrites) (.ofCapacity capacity) ops') :=
  ⟨StreamReassembler.ending.staysFinished_iff (StreamReassembler.Counted.init capacity) h,
    (TCPReceiver.ending capacity).staysFinished_iff (TCPReceiver.Windowed.init capacity) h'⟩

/-- The last byte with its `eof`, and then it all again. -/
def repeatedEnd : List StreamOp :=
  [.push [97] 0 false, .push [98] 1 true, .read 2, .push [97, 98] 0 true, .push [] 2 true]

/-- A SYN, a byte with the FIN, a read, and both again. -/
def repeatedFin : List ReceiverOp :=
  [.segment { header := { syn := true, seqno := .ofRaw 7 } },
    .segment { header := { seqno := .ofRaw 8, fin := true }, payload := [97] }, .read 1,
    .segment { header := { seqno := .ofRaw 8, fin := true }, payload := [97] },
    .segment { header := { syn := true, seqno := .ofRaw 7 } }]

theorem stays_finished_repeated :
    StaysFinished StreamReassembler.act StreamReassembler.streamOut (.ofCapacity 4) repeatedEnd ∧
    StaysFinished TCPReceiver.act TCPReceiver.streamOut (.ofCapacity 4) repeatedFin :=
  have h := stays_finished_iff 4 repeatedEnd repeatedFin (by decide +kernel) (by decide +kernel)
  ⟨h.1.mpr (by decide +kernel), h.2.mpr (by decide +kernel)⟩

/-- A byte in order after the end is written, and the stream is not at its end any more. -/
theorem stays_finished_not_always :
    (¬ ∀ (capacity : Nat) (ops : List StreamOp),
      Guarded StreamReassembler.act StreamReassembler.PopFits (.ofCapacity capacity) ops →
      StaysFinished StreamReassembler.act StreamReassembler.streamOut (.ofCapacity capacity) ops) ∧
    (¬ ∀ (capacity : Nat) (ops : List ReceiverOp),
      Guarded TCPReceiver.act TCPReceiver.PopFits (.ofCapacity capacity) ops →
      StaysFinished TCPReceiver.act TCPReceiver.streamOut (.ofCapacity capacity) ops) := by
  constructor
  · intro h
    have hfin := (h 4 [.push [] 0 true, .push [97] 0 false] (by decide +kernel)
      [.push [] 0 true] [.push [97] 0 false] (List.prefix_refl _) (by decide +kernel)).2
    exact absurd (hfin (by decide +kernel)) (by decide +kernel)
  · intro h
    have hfin := (h 4 [.segment { header := { syn := true, fin := true, seqno := .ofRaw 7 } },
        .segment { header := { seqno := .ofRaw 8 }, payload := [97] }] (by decide +kernel)
      [.segment { header := { syn := true, fin := true, seqno := .ofRaw 7 } }]
      [.segment { header := { seqno := .ofRaw 8 }, payload := [97] }]
      (List.prefix_refl _) (by decide +kernel)).2
    exact absurd (hfin (by decide +kernel)) (by decide +kernel)

end Sponge
