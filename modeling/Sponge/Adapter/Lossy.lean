import Sponge.Adapter

/-!
# `Adapter.Lossy` — an adapter that drops segments on purpose

`LossyFdAdapter` looks up a loss rate in the configuration of the adapter below at each read and each write, and draws a
number unless the rate is zero. A segment is read before it is dropped, so the adapter below has seen it: one that
listens is connected to the sender of a SYN that was dropped. A segment that is dropped on its way out is not seen by
the adapter below at all. All other calls are passed on, also those that change the rates.

To the outside all this is the plain adapter on a link with losses (`lossy_is_plain_with_losses`).
-/

namespace Sponge

open Lib Util

/-- A generator of random numbers. -/
class Generator (γ : Type) where
  next : γ → UInt32 × γ

/-- The loss rate in a direction. -/
def FdAdapterConfig.loss (config : FdAdapterConfig) (uplink : Bool) : UInt16 :=
  if uplink then config.lossRateUp else config.lossRateDn

structure LossyFdAdapter (γ α : Type) where
  rand    : γ
  adapter : α

namespace LossyFdAdapter

variable {γ α : Type} [Generator γ] [FdAdapter α]

/-- Decide whether a read or a write is dropped. -/
def shouldDrop (uplink : Bool) : EStateM Failure (LossyFdAdapter γ α) Bool := do
  let a ← get
  let loss := (FdAdapter.config a.adapter).loss uplink
  if loss != 0 then
    let (number, rand) := Generator.next a.rand
    set { a with rand }
    return number.toUInt16 < loss
  else
    return false

/-- Work on the adapter below. -/
def below {β : Type} (m : EStateM Failure α β) : EStateM Failure (LossyFdAdapter γ α) β :=
  zoom adapter (fun adapter a => { a with adapter }) m

/-- Read a segment, and maybe drop it. -/
def read (net : NetAnswers) : EStateM Failure (LossyFdAdapter γ α) (Option TCPSegment) := do
  let ret ← below (FdAdapter.read net)
  if ← shouldDrop false then
    return none
  return ret

/-- Drop the segment, or write it. -/
def write (net : NetAnswers) (seg : TCPSegment) : EStateM Failure (LossyFdAdapter γ α) Unit := do
  if ← shouldDrop true then
    return ()
  below (FdAdapter.write net seg)

instance : FdAdapter (LossyFdAdapter γ α) where
  fd           := fun a => FdAdapter.fd a.adapter
  config       := fun a => FdAdapter.config a.adapter
  setConfig    := fun config a => { a with adapter := FdAdapter.setConfig config a.adapter }
  setListening := fun listening a => { a with adapter := FdAdapter.setListening listening a.adapter }
  tick         := fun ms a => { a with adapter := FdAdapter.tick ms a.adapter }
  read         := read
  write        := write

variable {net : NetAnswers} {seg : Option TCPSegment} {a : LossyFdAdapter γ α} {b : α}

/-- A draw changes only the generator, and drops nothing at a loss rate of zero. -/
theorem shouldDrop_eq (uplink : Bool) (a : LossyFdAdapter γ α) :
    ∃ lost rand, shouldDrop uplink a = .ok lost { a with rand } ∧
      (lost = true → (FdAdapter.config a.adapter).loss uplink ≠ 0) := by
  by_cases hloss : (FdAdapter.config a.adapter).loss uplink = 0
  · refine ⟨false, a.rand, ?_, fun h => nomatch h⟩
    show (if (FdAdapter.config a.adapter).loss uplink != 0 then _ else _ : EStateM Failure (LossyFdAdapter γ α) Bool) a
      = _
    rw [hloss]
    rfl
  · refine ⟨decide ((Generator.next a.rand).1.toUInt16 < (FdAdapter.config a.adapter).loss uplink),
      (Generator.next a.rand).2, ?_, fun _ => hloss⟩
    show (if (FdAdapter.config a.adapter).loss uplink != 0 then _ else _ : EStateM Failure (LossyFdAdapter γ α) Bool) a
      = _
    rw [if_pos (bne_iff_ne.mpr hloss)]
    rfl

/-- What is read by the adapter below is returned or dropped. -/
theorem read_of_ok (h : FdAdapter.read net a.adapter = .ok seg b) :
    ∃ lost rand, read net a = .ok (if lost then none else seg) { adapter := b, rand } ∧
      (lost = true → (FdAdapter.config b).loss false ≠ 0) := by
  obtain ⟨lost, rand, hdrop, hrate⟩ := shouldDrop_eq false { a with adapter := b }
  refine ⟨lost, rand, ?_, hrate⟩
  have hbelow : below (FdAdapter.read net) a = .ok seg { a with adapter := b } := by rw [below, zoom, h]
  show EStateM.bind (below (FdAdapter.read net)) _ a = _
  unfold EStateM.bind
  rw [hbelow]
  show EStateM.bind (shouldDrop false) _ _ = _
  unfold EStateM.bind
  rw [hdrop]
  cases lost <;> rfl

theorem read_of_error {e : Failure} (h : FdAdapter.read net a.adapter = .error e b) :
    read net a = .error e { a with adapter := b } := by
  have hbelow : below (FdAdapter.read net) a = .error e { a with adapter := b } := by rw [below, zoom, h]
  show EStateM.bind (below (FdAdapter.read net)) _ a = _
  unfold EStateM.bind
  rw [hbelow]

/-- What is written is dropped, or written by the adapter below. -/
theorem write_cases (net : NetAnswers) (seg : TCPSegment) (a : LossyFdAdapter γ α) :
    (∃ rand, write net seg a = .ok () { a with rand } ∧ (FdAdapter.config a.adapter).loss true ≠ 0) ∨
      ∃ rand, write net seg a = below (FdAdapter.write net seg) { a with rand } := by
  obtain ⟨lost, rand, hdrop, hrate⟩ := shouldDrop_eq true a
  have hwrite : write net seg a = EStateM.bind (shouldDrop true) _ a := rfl
  unfold EStateM.bind at hwrite
  rw [hdrop] at hwrite
  cases lost with
  | true => exact Or.inl ⟨rand, hwrite, hrate rfl⟩
  | false => exact Or.inr ⟨rand, hwrite⟩

end LossyFdAdapter

/-! ## Losses -/

/-- A call of an adapter. What is done through the reference that `config_mut` returns is a `change`. -/
inductive AdapterCall where
  | read (net : NetAnswers)
  | write (net : NetAnswers) (seg : TCPSegment)
  | setListening (l : Bool)
  | config
  | configMut (change : FdAdapterConfig → FdAdapterConfig)
  | tick (msSinceLastTick : Nat)

/-- What a call returns. -/
inductive AdapterReply where
  | segment (seg : Option TCPSegment)
  | config (config : FdAdapterConfig)
  | done

namespace AdapterCall

variable {α : Type} [FdAdapter α]

/-- Make a call. -/
def perform : AdapterCall → EStateM Failure α AdapterReply
  | .read net         => do
    let ret ← FdAdapter.read net
    return .segment ret
  | .write net seg    => do
    FdAdapter.write net seg
    return .done
  | .setListening l   => do
    modify (FdAdapter.setListening l)
    return .done
  | .config           => do
    return .config (FdAdapter.config (← get))
  | .configMut change => do
    modify fun a => FdAdapter.setConfig (change (FdAdapter.config a)) a
    return .done
  | .tick ms          => do
    modify (FdAdapter.tick ms)
    return .done

/-- A segment that is `lost` on the link is gone only if the loss rate at that time is not zero. -/
def gone (lost uplink : Bool) : EStateM Failure α Bool := do
  return lost && (FdAdapter.config (← get)).loss uplink != 0

/-- Make a call over a link that may lose the segment: behind the adapter on the way in, before it on the way out. -/
def performOver (lost : Bool) : AdapterCall → EStateM Failure α AdapterReply
  | .read net      => do
    let ret ← FdAdapter.read net
    if ← gone lost false then
      return .segment none
    return .segment ret
  | .write net seg => do
    unless ← gone lost true do
      FdAdapter.write net seg
    return .done
  | call           => call.perform

/-- Make several calls. -/
def performs : List AdapterCall → EStateM Failure α (List AdapterReply)
  | []            => pure []
  | call :: calls => do
    let ret ← call.perform
    let rets ← performs calls
    return ret :: rets

/-- Make several calls over a link that loses some of the segments. -/
def performsOver : List (AdapterCall × Bool) → EStateM Failure α (List AdapterReply)
  | []                    => pure []
  | (call, lost) :: calls => do
    let ret ← call.performOver lost
    let rets ← performsOver calls
    return ret :: rets

end AdapterCall

namespace LossyFdAdapter

open AdapterCall

variable {γ α : Type} [Generator γ] [FdAdapter α]

/-- A result, as far as the adapter below is concerned. -/
def forget {β : Type} : EStateM.Result Failure (LossyFdAdapter γ α) β → EStateM.Result Failure α β
  | .ok b a    => .ok b a.adapter
  | .error e a => .error e a.adapter

/-- A read is the same read of the adapter below, over a link that may lose the segment. -/
theorem perform_read (net : NetAnswers) (a : LossyFdAdapter γ α) :
    ∃ lost, forget ((AdapterCall.read net).perform a) = (AdapterCall.read net).performOver lost a.adapter := by
  cases hread : FdAdapter.read net a.adapter with
  | ok seg b =>
      obtain ⟨lost, rand, hlossy, hrate⟩ := read_of_ok hread
      refine ⟨lost, ?_⟩
      show forget (EStateM.bind (read net) _ a) = EStateM.bind (FdAdapter.read net) _ a.adapter
      unfold EStateM.bind
      rw [hlossy, hread]
      show _ = (if lost && (FdAdapter.config b).loss false != 0 then _ else _ : EStateM Failure α AdapterReply) b
      cases lost with
      | false => rfl
      | true =>
          rw [Bool.true_and, if_pos (bne_iff_ne.mpr (hrate rfl))]
          rfl
  | error e b =>
      refine ⟨false, ?_⟩
      show forget (EStateM.bind (read net) _ a) = EStateM.bind (FdAdapter.read net) _ a.adapter
      unfold EStateM.bind
      rw [read_of_error hread, hread]
      rfl

/-- The same of a write. -/
theorem perform_write (net : NetAnswers) (seg : TCPSegment) (a : LossyFdAdapter γ α) :
    ∃ lost, forget ((AdapterCall.write net seg).perform a) =
      (AdapterCall.write net seg).performOver lost a.adapter := by
  rcases write_cases net seg a with ⟨rand, hlossy, hrate⟩ | ⟨rand, hlossy⟩
  · refine ⟨true, ?_⟩
    show forget (EStateM.bind (write net seg) _ a) =
      (if true && (FdAdapter.config a.adapter).loss true != 0 then _ else _ : EStateM Failure α AdapterReply) a.adapter
    unfold EStateM.bind
    rw [hlossy, Bool.true_and, if_pos (bne_iff_ne.mpr hrate)]
    rfl
  · refine ⟨false, ?_⟩
    show forget (EStateM.bind (write net seg) _ a) = EStateM.bind (FdAdapter.write net seg) _ a.adapter
    unfold EStateM.bind
    rw [hlossy, below, zoom]
    cases FdAdapter.write net seg a.adapter <;> rfl

/-- **A call is the same call of the adapter below**, over a link that may lose the segment. -/
theorem perform_eq (call : AdapterCall) (a : LossyFdAdapter γ α) :
    ∃ lost, forget (call.perform a) = call.performOver lost a.adapter := by
  cases call with
  | read net => exact perform_read net a
  | write net seg => exact perform_write net seg a
  | setListening l => exact ⟨false, rfl⟩
  | config => exact ⟨false, rfl⟩
  | configMut change => exact ⟨false, rfl⟩
  | tick ms => exact ⟨false, rfl⟩

/-- **A lossy adapter is the plain one on a link with losses.** Whatever calls are made, also of those that change the
    configuration, they return and throw what they return and throw for the plain adapter if the link loses some of the
    segments, and they leave the adapter below in the same state. While the loss rate for a direction is zero, nothing
    is lost there. -/
theorem lossy_is_plain_with_losses (a : LossyFdAdapter γ α) (calls : List AdapterCall) :
    ∃ lost : List Bool, lost.length = calls.length ∧
      forget (performs calls a) = performsOver (calls.zip lost) a.adapter := by
  induction calls generalizing a with
  | nil => exact ⟨[], rfl, rfl⟩
  | cons call calls ih =>
      obtain ⟨first, hfirst⟩ := perform_eq call a
      cases hcall : call.perform a with
      | error e a' =>
          -- no call follows, so it does not matter what the link would do
          refine ⟨first :: List.replicate calls.length false, by simp, ?_⟩
          show forget (EStateM.bind call.perform _ a) = EStateM.bind (call.performOver first) _ a.adapter
          unfold EStateM.bind
          rw [← hfirst, hcall]
          rfl
      | ok ret a' =>
          rw [hcall] at hfirst
          obtain ⟨lost, hlength, hrest⟩ := ih a'
          refine ⟨first :: lost, by simp [hlength], ?_⟩
          show forget (EStateM.bind call.perform _ a) = EStateM.bind (call.performOver first) _ a.adapter
          unfold EStateM.bind
          rw [← hfirst, hcall]
          show forget (EStateM.bind (performs calls) _ a') = EStateM.bind (performsOver (calls.zip lost)) _ a'.adapter
          unfold EStateM.bind
          rw [← hrest]
          cases performs calls a' <;> rfl

/-! ## The adapter as a carrier -/

/-- What holds of a read of the adapter below, whether the segment is returned or not, holds of a read. -/
theorem read_ends {net : NetAnswers} {a : LossyFdAdapter γ α} {Q : Option TCPSegment → α → Prop}
    {E : Failure → α → Prop} (h : Ends (FdAdapter.read net a.adapter) Q E)
    (hdropped : ∀ r b, Q r b → Q none b) :
    Ends (read net a) (fun r a' => Q r a'.adapter) (fun e a' => E e a'.adapter) := by
  cases hread : FdAdapter.read net a.adapter with
  | ok seg b =>
      obtain ⟨lost, rand, hlossy, -⟩ := read_of_ok hread
      rw [hread] at h
      rw [hlossy]
      cases lost with
      | true => exact hdropped seg b h
      | false => exact h
  | error e b =>
      rw [hread] at h
      rw [read_of_error hread]
      exact h

/-- What holds of a write of the adapter below, and of a segment that is dropped, holds of a write. -/
theorem write_ends {net : NetAnswers} {seg : TCPSegment} {a : LossyFdAdapter γ α} {Q : Unit → α → Prop}
    {E : Failure → α → Prop} (h : Ends (FdAdapter.write net seg a.adapter) Q E) (hdropped : Q () a.adapter) :
    Ends (write net seg a) (fun r a' => Q r a'.adapter) (fun e a' => E e a'.adapter) := by
  rcases write_cases net seg a with ⟨rand, hlossy, -⟩ | ⟨rand, hlossy⟩
  · rw [hlossy]
    exact hdropped
  · rw [hlossy]
    refine (Ends.zoom (fun adapter (a : LossyFdAdapter γ α) => { a with adapter }) { a with rand } h).mono ?_ ?_
    · rintro _ _ ⟨b, rfl, hb⟩
      exact hb
    · rintro _ _ ⟨b, rfl, hb⟩
      exact hb

instance {β : Type} [Carrier β] : Carrier (LossyFdAdapter γ β) where
  sent        := fun a => Carrier.sent a.adapter
  arrived     := Carrier.arrived β
  encodes     := Carrier.encodes β
  decodes     := Carrier.decodes β
  documented  := Carrier.documented β
  read_ends   := by
    intro net a hnet
    refine read_ends (Carrier.read_ends net a.adapter hnet) ?_
    rintro r b ⟨hsent, -⟩
    refine ⟨hsent, ?_⟩
    intro _ h
    cases h
  write_ends  := by
    intro net seg a hnet hfits
    refine write_ends (Carrier.write_ends net seg a.adapter hnet hfits) ⟨[], (List.append_nil _).symm, ?_⟩
    intro _ h
    cases h
  codec       := Carrier.codec
  sent_setConfig    := fun config a => Carrier.sent_setConfig config a.adapter
  sent_setListening := fun listening a => Carrier.sent_setListening listening a.adapter
  sent_tick         := fun ms a => Carrier.sent_tick ms a.adapter
  counts_read       := by
    intro net a
    exact read_ends (Carrier.counts_read net a.adapter) fun _ _ h => h
  read_throws       := by
    intro net a
    exact read_ends (Carrier.read_throws net a.adapter) fun _ _ h => h
  write_throws      := by
    intro net seg a hfits
    exact write_ends (Carrier.write_throws net seg a.adapter hfits) trivial

end LossyFdAdapter

end Sponge
