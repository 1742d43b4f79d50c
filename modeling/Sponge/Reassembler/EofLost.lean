import Sponge.Reassembler.Cover

/-!
# `Reassembler.EofLost` — when the end of the stream is lost, and when it is not

Only the writing branch of `push_substring` looks at the `eof_flag`. Two `eof` pushes inside the window never
get their due: one whose bytes are all written already raises the flag and returns before the output is ended,
and an empty one exactly `capacity` ahead of `nextIndex` is discarded as too far away.

`EofTaken` rules these out in the state before an `eof` push, as long as no earlier one has raised the flag.
In a run all of whose `eof` pushes meet it, the output is ended as soon as the stream is covered
(`end_never_lost`).
-/

namespace Sponge

open Lib

namespace StreamReassembler

variable {S : List UInt8} {r : StreamReassembler}

/-- The `eof` push of `[i, i + k)` to a stream of `n` bytes has its effect: the flag is up already, or the push
    is not discarded as too far ahead, and either a byte is still to be written or the push is empty. -/
def EofTaken (n : Nat) (r : StreamReassembler) (i k : Nat) : Prop :=
  r.eofFlag = true ∨
  ((i ≤ r.nextIndex ∨ i < r.nextIndex + r.capacity) ∧ (r.nextIndex < n ∨ k = 0))

instance (n : Nat) (r : StreamReassembler) (i k : Nat) : Decidable (r.EofTaken n i k) :=
  inferInstanceAs (Decidable (_ ∨ _))

/-- With the flag up and nothing waiting, the last statement of `push_substring` ends the output. -/
theorem finish_isEof (hflag : r.finish.eofFlag = true) (hempty : r.finish.bytesUnAssembled = 0) :
    r.finish.output.isEof = true := by
  obtain ⟨-, -, -, -, -, -, hu, -, hf, -⟩ := finish_frame r
  rw [hf] at hflag
  rw [hu] at hempty
  rw [finish, if_pos (by simp [hflag, empty, hempty])]
  rfl

/-- An `eof` push inside the window that has its effect leaves the flag up. -/
theorem eofFlag_push {data : List UInt8} {index : Nat} (hlt : index + data.length < 2 ^ 64)
    (hle : r.nextIndex ≤ index + data.length) (hfit : index + data.length ≤ r.nextIndex + r.capacity)
    (htaken : r.EofTaken (index + data.length) index data.length) :
    (r.pushSubstring data index true).eofFlag = true := by
  have hfits : r.eofFits data index true = true := by simp [eofFits, hfit]
  have hp := pushSubstring_cases r true hlt
  generalize r.pushSubstring data index true = r' at hp ⊢
  cases hp with
  | discarded hcase =>
      rcases htaken with hflag | ⟨hnear, -⟩
      · exact hflag
      · omega
  | seen _ _ => rw [mark_eofFlag, hfits, Bool.or_true]
  | stored _ _ => rw [storeLoop_eofFlag, mark_eofFlag, hfits, Bool.or_true]
  | written _ _ =>
      obtain ⟨-, -, -, -, -, -, -, -, hff, -⟩ := finish_frame (drain (writeLoop r.nextIndex 0
        ((data.drop (r.nextIndex - index)).take r.output.remainingCapacity)
        (r.mark (r.eofFits data index true))))
      rw [hff, ((frame_writeLoop _ _ _).trans frame_drain).eofFlag, mark_eofFlag, hfits, Bool.or_true]

/-- With the flag up, either a byte of the stream is still to be written or the output has been ended. -/
def Signals (n : Nat) (r : StreamReassembler) : Prop :=
  r.eofFlag = true → r.nextIndex < n ∨ r.output.isEof = true

/-- **A push inside the stream keeps this**, if an `eof` has its effect: the push that writes the last byte
    finds nothing waiting and ends the output. -/
theorem Signals.pushSubstring {n : Nat} (h : Signals n r) {data : List UInt8} {index : Nat} {eof : Bool}
    (hlt : index + data.length < 2 ^ 64) (hend : index + data.length ≤ n)
    (heof : eof = true → index + data.length = n ∧ r.EofTaken n index data.length)
    (hle : (r.pushSubstring data index eof).nextIndex ≤ n)
    (hall : (r.pushSubstring data index eof).nextIndex = n →
      (r.pushSubstring data index eof).bytesUnAssembled = 0) :
    Signals n (r.pushSubstring data index eof) := by
  intro hflag
  have hp := pushSubstring_cases r eof hlt
  generalize r.pushSubstring data index eof = r' at hp hflag hle hall ⊢
  cases hp with
  | discarded _ => exact h hflag
  | seen hidx hfin =>
      rw [mark_eofFlag, Bool.or_eq_true] at hflag
      rcases hflag with hold | hnew
      · exact h hold
      · -- all bytes are old: only a flag that was up before can have made this push harmless
        rw [eofFits, Bool.and_eq_true] at hnew
        obtain ⟨hlast, hup | ⟨-, hopen | hempty⟩⟩ := heof hnew.1
        · exact h hup
        · omega
        · omega
  | stored hidx _ =>
      rw [storeLoop_nextIndex, mark_nextIndex]
      left
      omega
  | written _ _ =>
      rcases Nat.lt_or_eq_of_le hle with hless | hsame
      · exact Or.inl hless
      · exact Or.inr (finish_isEof hflag (hall hsame))

end StreamReassembler

namespace Session

open StreamReassembler

/-- A push inside the stream and the window, with `eof` only at the end of the stream. -/
def InWindowEof (S : Stream) (s : Session) : ReassemblerOp → Prop
  | .push i k eof => InWindow S s (.push i k eof) ∧ (eof = true → i + k = S.bytes.length)
  | .read _       => True

/-- Such a push whose `eof`, if any, has its effect. -/
def EndTaken (S : Stream) (s : Session) : ReassemblerOp → Prop
  | .push i k eof => InWindow S s (.push i k eof) ∧
      (eof = true → i + k = S.bytes.length ∧ s.reassembler.EofTaken S.bytes.length i k)
  | .read _       => True

instance (S : Stream) (s : Session) : (op : ReassemblerOp) → Decidable (InWindowEof S s op)
  | .push i k eof =>
      inferInstanceAs (Decidable (InWindow S s (.push i k eof) ∧ (eof = true → i + k = S.bytes.length)))
  | .read _       => inferInstanceAs (Decidable True)

instance (S : Stream) (s : Session) : (op : ReassemblerOp) → Decidable (EndTaken S s op)
  | .push i k eof =>
      inferInstanceAs (Decidable (InWindow S s (.push i k eof) ∧
        (eof = true → i + k = S.bytes.length ∧ s.reassembler.EofTaken S.bytes.length i k)))
  | .read _       => inferInstanceAs (Decidable True)

/-- An `eof` has been pushed. -/
def EofPushed (ops : List ReassemblerOp) : Prop := ∃ i k, .push i k true ∈ ops

/-- The invariant after the operations `ops`: what is covered lies in the stream, a pushed `eof` has raised the
    flag, and the flag has its consequence. -/
structure EndInv (S : Stream) (ops : List ReassemblerOp) (s : Session) : Prop where
  inv     : Inv S ops s
  within  : ∀ x ∈ pushedIndices ops, x < S.bytes.length
  raised  : EofPushed ops → s.reassembler.eofFlag = true
  signals : Signals S.bytes.length s.reassembler

theorem EndInv.init (S : Stream) (capacity : Nat) : EndInv S [] (ofCapacity capacity) where
  inv     := Inv.init S capacity
  within  := by intro x hx; simp [pushedIndices] at hx
  raised  := by rintro ⟨i, k, hmem⟩; cases hmem
  signals := by intro h; cases h

/-- Once all bytes are written nothing is waiting. -/
theorem Inv.empty_of_all {S : Stream} {ops : List ReassemblerOp} {s : Session} (h : Inv S ops s)
    (hin : ∀ x ∈ pushedIndices ops, x < S.bytes.length)
    (hnext : s.reassembler.nextIndex = S.bytes.length) : s.reassembler.bytesUnAssembled = 0 := by
  have hrep := h.covered.rep
  -- a stored index would be at or after the end and before it
  have hsize : s.reassembler.myMap.size ≤ S.bytes.length - S.bytes.length := by
    refine size_le_of_image (f := id) fun k hk => ?_
    have hlook := Std.ExtTreeMap.getElem?_eq_some_getElem hk
    have hge := (hrep.stored k _ hlook).1
    rw [hnext] at hge
    exact ⟨k, rfl, hge, hin k ((h.covered.held k).mpr (Or.inr hk))⟩
  rw [hrep.count]
  omega

section Step

variable {S : Stream} {ops : List ReassemblerOp} {s : Session} {i k : Nat} {eof : Bool}

theorem EndInv.within_push (h : EndInv S ops s) (hlen : i + k ≤ S.bytes.length) :
    ∀ x ∈ pushedIndices (ops ++ [.push i k eof]), x < S.bytes.length := by
  intro x hx
  rw [pushedIndices_snoc] at hx
  rcases hx with hold | hnew
  · exact h.within x hold
  · simp only [pushedIndices, Finset.mem_union, Finset.mem_Ico, Finset.notMem_empty, or_false] at hnew
    omega

/-- An `eof` that has been pushed before leaves the flag up, and one that is pushed now raises it. -/
theorem EndInv.raised_push (h : EndInv S ops s) (hok : EndTaken S s (.push i k eof))
    (hpushed : EofPushed (ops ++ [.push i k eof])) :
    (s.step S (.push i k eof)).reassembler.eofFlag = true := by
  obtain ⟨⟨hlen, hedge⟩, heof⟩ := hok
  obtain ⟨i', k', hmem⟩ := hpushed
  rcases List.mem_append.mp hmem with hold | hnew
  · have hup := h.raised ⟨i', k', hold⟩
    rcases (pushFrame_pushSubstring s.reassembler (S.slice i k) i eof).eofFlag with hsame | hnew
    · exact hsame.trans hup
    · exact hnew.2
  · obtain ⟨rfl, rfl, rfl⟩ := ReassemblerOp.push.inj (List.mem_singleton.mp hnew)
    have hk := Stream.length_slice hlen
    have hfits := S.fits
    have hrep := h.inv.covered.rep
    have hle := hrep.next_le
    have hright := hrep.counted.edge
    obtain ⟨hend, htaken⟩ := heof rfl
    unfold ByteStream.bytesRead at hedge
    have hwritten := hrep.next_eq
    have hbalance := hrep.balance
    apply eofFlag_push
    · rw [hk]; omega
    · rw [hk]; omega
    · rw [hk]; omega
    · rw [hk, hend]; exact htaken

theorem EndInv.push (h : EndInv S ops s) (hok : EndTaken S s (.push i k eof)) :
    EndInv S (ops ++ [.push i k eof]) (s.step S (.push i k eof)) := by
  have hinv := h.inv.step hok.1
  have hlen := hok.1.1
  have hk := Stream.length_slice hlen
  have hfits := S.fits
  have hwithin : ∀ x ∈ pushedIndices (ops ++ [.push i k eof]), x < S.bytes.length := h.within_push hlen
  refine ⟨hinv, hwithin, h.raised_push hok, ?_⟩
  apply h.signals.pushSubstring
  · rw [hk]; omega
  · rw [hk]; exact hlen
  · rw [hk]; exact hok.2
  · exact hinv.covered.rep.next_le
  · exact hinv.empty_of_all hwithin

theorem EndInv.read (h : EndInv S ops s) (len : Nat) : EndInv S (ops ++ [.read len]) (s.step S (.read len)) := by
  refine ⟨h.inv.step trivial, fun x hx => h.within x ?_, fun hpushed => h.raised ?_, h.signals⟩
  · rw [pushedIndices_snoc] at hx
    simpa [pushedIndices] using hx
  · obtain ⟨i, k, hmem⟩ := hpushed
    rcases List.mem_append.mp hmem with hold | hnew
    · exact ⟨i, k, hold⟩
    · cases List.mem_singleton.mp hnew

theorem EndInv.step {op : ReassemblerOp} (h : EndInv S ops s) (hok : EndTaken S s op) :
    EndInv S (ops ++ [op]) (s.step S op) := by
  cases op with
  | push i k eof => exact h.push hok
  | read len => exact h.read len

end Step

/-- **The end of the stream is not lost** in any run of pushes inside the window whose `eof` pushes have their
    effect: as soon as the pushed substrings cover the stream and one of them carried `eof`, the output has
    been ended. -/
theorem end_never_lost (S : Stream) (capacity : Nat) (ops : List ReassemblerOp)
    (h : Guarded (step S) (EndTaken S) (ofCapacity capacity) ops) :
    ∀ pre, pre <+: ops → (∀ x < S.bytes.length, x ∈ pushedIndices pre) → EofPushed pre →
      (after S capacity pre).reassembler.streamOut.inputEnded = true := by
  intro pre hpre hcover hpushed
  have hinv : EndInv S pre (after S capacity pre) :=
    (h.of_isPrefix hpre).history (EndInv S) (EndInv.init S capacity) fun _ _ _ hi hok => hi.step hok
  have hfront : S.bytes.length ≤ (after S capacity pre).reassembler.nextIndex := by
    rw [← hinv.inv.frontier_eq]
    exact le_frontier.mpr hcover
  rcases hinv.signals (hinv.raised hpushed) with hopen | hended
  · omega
  · exact hended

/-- The last byte of three with its `eof` first, then the rest, then the last byte once more. -/
def lastTwice : List ReassemblerOp := [.push 2 1 true, .push 0 2 false, .push 2 1 true]

theorem end_never_lost_again :
    Guarded (step ⟨[97, 98, 99], by decide⟩) (EndTaken ⟨[97, 98, 99], by decide⟩) (ofCapacity 4) lastTwice ∧
    (after ⟨[97, 98, 99], by decide⟩ 4 lastTwice).reassembler.streamOut.inputEnded = true :=
  have hrun : Guarded (step ⟨[97, 98, 99], by decide⟩) (EndTaken ⟨[97, 98, 99], by decide⟩) (ofCapacity 4)
      lastTwice := by decide +kernel
  ⟨hrun, end_never_lost _ 4 lastTwice hrun lastTwice (List.prefix_refl _) (by decide) ⟨2, 1, List.mem_cons_self⟩⟩

/-- The two bytes are written, and the second comes again with the `eof`: the output is not ended. -/
theorem end_lost_on_old_bytes :
    ¬ ∀ (S : Stream) (capacity : Nat) (ops : List ReassemblerOp),
      Guarded (step S) (InWindowEof S) (ofCapacity capacity) ops →
      (∀ x < S.bytes.length, x ∈ pushedIndices ops) → EofPushed ops →
      (after S capacity ops).reassembler.streamOut.inputEnded = true := by
  intro h
  have hended := h ⟨[97, 98], by decide⟩ 10 [.push 0 2 false, .push 1 1 true] (by decide +kernel) (by decide)
    ⟨1, 1, by decide⟩
  revert hended
  decide +kernel

/-- The other way to lose it: the empty substring with the `eof` comes first, two bytes ahead of a window of
    two. -/
example :
    Guarded (step ⟨[97, 98], by decide⟩) (InWindowEof ⟨[97, 98], by decide⟩) (ofCapacity 2)
      [.push 2 0 true, .push 0 2 false] ∧
    (after ⟨[97, 98], by decide⟩ 2 [.push 2 0 true, .push 0 2 false]).reassembler.streamOut.inputEnded
      = false := by
  decide +kernel

end Session

end Sponge
