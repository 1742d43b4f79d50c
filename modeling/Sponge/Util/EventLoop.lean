import Sponge.Util.Descriptor

/-!
# `Util.EventLoop` — waiting for events on file descriptors

A loop holds rules. Each call of `wait_next_event` walks over them twice: once to drop the rules whose descriptor is
done with and to ask the others whether they are interested, and once more, after `poll`, to serve those that are
ready. The callbacks of a rule work on a state `σ` that all rules share, and so do the handles of the descriptors.

Between the moment a rule says that it is interested and the moment it is served, the rules before it are served, and
the cancel callbacks of others may run. So what a callback may rely on is not its interest, but what is left of it by
then. `Keeps` says what a set of rules has to satisfy for an invariant, and `waitNextEvent_keeps` is the rule for a
whole call. It also says that the loop does not accuse any rule of waiting busily.
-/

namespace Sponge

open Lib

namespace Util

/-- Interest in reading or in writing. -/
inductive Direction where
  | input | output
deriving DecidableEq

/-- The events that `poll` reports. -/
structure Events where
  pollin   : Bool := false
  pollout  : Bool := false
  pollerr  : Bool := false
  pollhup  : Bool := false
  pollnval : Bool := false
deriving DecidableEq

/-- The descriptor is readable, or writable. -/
def Events.has (e : Events) : Direction → Bool
  | .input  => e.pollin
  | .output => e.pollout

/-- There is an error on the descriptor, or it is not open. -/
def Events.faulty (e : Events) : Bool := e.pollerr || e.pollnval

/-- An entry for `poll`. Without interest nothing is asked for, and only errors are reported. -/
structure PollFd where
  fd      : Int32
  events  : Option Direction
  revents : Events := {}
deriving DecidableEq

/-- What was asked for has happened. -/
def PollFd.ready (p : PollFd) : Bool := p.events.any p.revents.has

/-- A condition and a callback. -/
structure Rule (σ : Type) where
  fd        : σ → FDWrapper
  direction : Direction
  callback  : EStateM Failure σ Unit
  interest  : σ → Bool := fun _ => true
  cancel    : EStateM Failure σ Unit := pure ()

structure EventLoop (σ : Type) where
  rules : List (Rule σ) := []

/-- What a call of `wait_next_event` returns. -/
inductive EventLoop.Result where
  | success | timeout | exit
deriving DecidableEq

/-- What `poll` returns, and the events it reports for each entry. -/
structure PollResult where
  ret     : Int32
  errno   : Int32 := 0
  revents : Nat → Events := fun _ => {}

/-- The error of a system call that was interrupted by a signal. -/
def eintr : Int32 := 4

/-- The result of a call that ends with `poll`: the time is up, or a signal was caught. An error of another kind is
    caught and forgotten. -/
def PollResult.verdict (r : PollResult) : Option EventLoop.Result :=
  match systemCall "poll" r.ret r.errno with
  | .ok returned                => if returned == 0 then some .timeout else none
  | .error (.unixError _ error) => if error == eintr then some .exit else none
  | .error _                    => none

variable {σ : Type}

namespace Rule

/-- How often the descriptor was read or written. -/
def serviceCount (rule : Rule σ) (s : σ) : UInt32 :=
  match rule.direction with
  | .input  => (rule.fd s).readCount
  | .output => (rule.fd s).writeCount

/-- The descriptor is at its end, for reading, or closed. -/
def exhausted (rule : Rule σ) (s : σ) : Bool :=
  (rule.direction == .input && (rule.fd s).eof) || (rule.fd s).closed

/-- The entry for `poll`. -/
def pollFd (rule : Rule σ) (s : σ) : PollFd where
  fd     := (rule.fd s).fdNum
  events := if rule.interest s then some rule.direction else none

/-- What a rule is accused of that has done nothing and wants to be called again. -/
def busyWait : Failure :=
  .runtimeError "EventLoop: busy wait detected: callback did not read/write fd and is still interested"

/-- Call the callback of a rule that is ready. A callback that has not touched its descriptor and is still interested
    would be called again at once. -/
def serve (rule : Rule σ) : EStateM Failure σ Unit := do
  let countBefore := rule.serviceCount (← get)
  rule.callback
  let s ← get
  if countBefore == rule.serviceCount s && rule.interest s then
    throw busyWait

end Rule

namespace EventLoop

def addRule (loop : EventLoop σ) (rule : Rule σ) : EventLoop σ := { loop with rules := loop.rules ++ [rule] }

/-- Rules are kept in the order in which they are added. -/
theorem foldl_addRule {τ : Type} (f : τ → Rule σ) (l : List τ) (loop : EventLoop σ) :
    l.foldl (fun loop x => loop.addRule (f x)) loop = ⟨loop.rules ++ l.map f⟩ := by
  induction l generalizing loop with
  | nil => rw [List.foldl_nil, List.map_nil, List.append_nil]
  | cons x l ih => rw [List.foldl_cons, ih, addRule, List.append_assoc, List.map_cons, List.singleton_append]

/-- The first pass: the rules that are left, and their entries for `poll`. -/
def setUp : List (Rule σ) → EStateM Failure σ (List (Rule σ) × List PollFd)
  | []           => pure ([], [])
  | rule :: rest => do
    let s ← get
    if rule.exhausted s then
      rule.cancel
      setUp rest
    else
      let (rules, pollfds) ← setUp rest
      return (rule :: rules, rule.pollFd s :: pollfds)

/-- What is thrown if there is an error on a descriptor. -/
def pollError : Failure := .runtimeError "EventLoop: error on polled file descriptor"

/-- The second pass, over the rules and their entries: the rules that are left. -/
def serveAll : List (Rule σ) → List PollFd → EStateM Failure σ (List (Rule σ))
  | rule :: rest, pollfd :: pollfds => do
    if pollfd.revents.faulty then
      throw pollError
    if pollfd.revents.pollhup && pollfd.events.isSome && !pollfd.ready then
      -- a hangup and nothing else: there will be nothing to read or write any more
      rule.cancel
      serveAll rest pollfds
    else
      if pollfd.ready then
        rule.serve
      let rules ← serveAll rest pollfds
      return rule :: rules
  | rules, _ => pure rules

/-- The entries for `poll` with the events that it reports. -/
def polled (r : PollResult) (pollfds : List PollFd) : List PollFd :=
  pollfds.mapIdx fun idx p => { p with revents := r.revents idx }

/-- Wait for an event and serve the rules that are ready. -/
def waitNextEvent (poll : List PollFd → PollResult) (loop : EventLoop σ) :
    EStateM Failure σ (Result × EventLoop σ) := do
  let (rules, pollfds) ← setUp loop.rules
  -- quit if there is nothing left to poll
  if !pollfds.any (·.events.isSome) then
    return (.exit, ⟨rules⟩)
  else
    match (poll pollfds).verdict with
    | some result => return (result, ⟨rules⟩)
    | none        => return (.success, ⟨← serveAll rules (polled (poll pollfds) pollfds)⟩)

/-! ## The rule for invariants -/

section Invariant

variable {I K : σ → Prop} {L J M : Rule σ → σ → Prop} {X : Failure → σ → Prop} {rules : List (Rule σ)} {s : σ}

/-- What is said of `rule` survives the callback `m` of another. -/
def Spares (I : σ → Prop) (R : Rule σ → σ → Prop) (m : EStateM Failure σ Unit) (rule : Rule σ) : Prop :=
  ∀ s s', I s → R rule s → m s = .ok () s' → R rule s'

/-- Two rules do not get into each other's way. What `rule` relies on when it is served does not matter any more when
    `later` is served. -/
structure Apart (I : σ → Prop) (L J : Rule σ → σ → Prop) (rule later : Rule σ) : Prop where
  served   : Spares I L rule.callback later ∧ Spares I J rule.callback later
  before   : Spares I L later.callback rule
  canceled : Spares I L rule.cancel later ∧ Spares I J rule.cancel later
  cancels  : Spares I L later.cancel rule ∧ Spares I J later.cancel rule

/-- What a list of rules has to satisfy in order to keep `I`. As long as a rule is there, `L` holds of it, and once it
    is cancelled, `M`. It relies on `J` when it is served: its interest establishes that. Neither the callbacks nor the
    cancel callbacks of others destroy what a rule needs. A callback uses its descriptor or is not interested any more.
    When a callback throws, `X` holds. -/
structure Keeps (I : σ → Prop) (L J M : Rule σ → σ → Prop) (X : Failure → σ → Prop) (rules : List (Rule σ)) :
    Prop where
  interest : ∀ rule ∈ rules, ∀ s, I s → L rule s → rule.exhausted s = false → rule.interest s = true → J rule s
  callback : ∀ rule ∈ rules, ∀ s, I s → L rule s → J rule s → Ends (rule.callback s)
    (fun _ s' => I s' ∧ L rule s' ∧ (rule.serviceCount s' ≠ rule.serviceCount s ∨ rule.interest s' = false)) X
  cancel   : ∀ rule ∈ rules, ∀ s, I s → Ends (rule.cancel s) (fun _ s' => I s' ∧ M rule s') X
  apart    : rules.Pairwise (Apart I L J)
  gone     : ∀ rule ∈ rules, ∀ other ∈ rules, Spares I M other.callback rule ∧ Spares I M other.cancel rule

theorem Keeps.sublist {rules' : List (Rule σ)} (h : Keeps I L J M X rules) (hsub : rules'.Sublist rules) :
    Keeps I L J M X rules' where
  interest := fun rule hmem => h.interest rule (hsub.subset hmem)
  callback := fun rule hmem => h.callback rule (hsub.subset hmem)
  cancel   := fun rule hmem => h.cancel rule (hsub.subset hmem)
  apart    := h.apart.sublist hsub
  gone     := fun rule hmem other hother => h.gone rule (hsub.subset hmem) other (hsub.subset hother)

/-- What none of the callbacks destroys may be added to the invariant. -/
theorem Keeps.and {P : σ → Prop} (h : Keeps I L J M X rules)
    (hcallback : ∀ rule ∈ rules, ∀ s s', I s → P s → rule.callback s = .ok () s' → P s')
    (hcancel : ∀ rule ∈ rules, ∀ s s', I s → P s → rule.cancel s = .ok () s' → P s') :
    Keeps (fun s => I s ∧ P s) L J M X rules := by
  have hspares {R : Rule σ → σ → Prop} {m : EStateM Failure σ Unit} {rule : Rule σ} (hm : Spares I R m rule) :
      Spares (fun s => I s ∧ P s) R m rule := fun s s' hs => hm s s' hs.1
  constructor
  · exact fun rule hmem s hs => h.interest rule hmem s hs.1
  · intro rule hmem s hs hL hJ
    refine (h.callback rule hmem s hs.1 hL hJ).and_self.mono ?_ fun _ _ he => he.1
    rintro _ s' ⟨⟨hI', hL', hserved⟩, hran⟩
    exact ⟨⟨hI', hcallback rule hmem s s' hs.1 hs.2 hran⟩, hL', hserved⟩
  · intro rule hmem s hs
    refine (h.cancel rule hmem s hs.1).and_self.mono ?_ fun _ _ he => he.1
    rintro _ s' ⟨⟨hI', hM'⟩, hran⟩
    exact ⟨⟨hI', hcancel rule hmem s s' hs.1 hs.2 hran⟩, hM'⟩
  · refine h.apart.imp fun ha => ⟨?_, hspares ha.before, ?_, ?_⟩
    · exact ⟨hspares ha.served.1, hspares ha.served.2⟩
    · exact ⟨hspares ha.canceled.1, hspares ha.canceled.2⟩
    · exact ⟨hspares ha.cancels.1, hspares ha.cancels.2⟩
  · intro rule hmem other hother
    obtain ⟨hcallback, hcancel⟩ := h.gone rule hmem other hother
    exact ⟨hspares hcallback, hspares hcancel⟩

/-- The first rule of a list, as long as it is there, is a part of the invariant of the others. -/
theorem Keeps.tail {rule : Rule σ} {rest : List (Rule σ)} (h : Keeps I L J M X (rule :: rest)) :
    Keeps (fun s => I s ∧ L rule s) L J M X rest := by
  have hapart := (List.pairwise_cons.mp h.apart).1
  refine (h.sublist (List.sublist_cons_self rule rest)).and ?_ ?_
  · exact fun later hmem => (hapart later hmem).before
  · exact fun later hmem => (hapart later hmem).cancels.1

/-- Each of the rules is kept or was cancelled. -/
def Accounted (M : Rule σ → σ → Prop) (rules kept : List (Rule σ)) (s : σ) : Prop :=
  ∀ rule ∈ rules, rule ∈ kept ∨ M rule s

theorem Accounted.trans {kept kept' : List (Rule σ)} (h : Accounted M rules kept s) (h' : Accounted M kept kept' s) :
    Accounted M rules kept' s :=
  fun rule hmem => (h rule hmem).elim (h' rule) Or.inr

theorem accounted_of_cancel {rule : Rule σ} {rest : List (Rule σ)} (h : M rule s) : Accounted M (rule :: rest) rest s :=
  List.forall_mem_cons.mpr ⟨Or.inr h, fun _ => Or.inl⟩

theorem Accounted.cons {kept : List (Rule σ)} (h : Accounted M rules kept s) (rule : Rule σ) :
    Accounted M (rule :: rules) (rule :: kept) s :=
  List.forall_mem_cons.mpr ⟨Or.inl List.mem_cons_self,
    fun later hmem => (h later hmem).imp (List.mem_cons_of_mem rule) id⟩

/-- Rules that were cancelled stay so. -/
theorem Keeps.and_accounted {rules' kept : List (Rule σ)} (h : Keeps I L J M X rules) (hsub : rules'.Sublist rules) :
    Keeps (fun s => I s ∧ Accounted M rules kept s) L J M X rules' := by
  refine (h.sublist hsub).and ?_ ?_
  · intro other hother s s' hI hall hran rule hmem
    exact (hall rule hmem).imp id fun hM => (h.gone rule hmem other (hsub.subset hother)).1 s s' hI hM hran
  · intro other hother s s' hI hall hran rule hmem
    exact (hall rule hmem).imp id fun hM => (h.gone rule hmem other (hsub.subset hother)).2 s s' hI hM hran

/-- What every cancel callback keeps, the first pass keeps. -/
theorem setUp_invariant (hcancel : ∀ rule ∈ rules, ∀ s, K s → Ends (rule.cancel s) (fun _ s' => K s') X) (h : K s) :
    Ends (setUp rules s) (fun _ s' => K s') X := by
  induction rules generalizing s with
  | nil => exact h
  | cons rule rest ih =>
      have hrest := fun s (hs : K s) =>
        ih (s := s) (fun r hr => hcancel r (List.mem_cons_of_mem rule hr)) hs
      show Ends ((if rule.exhausted s then _ else _ : EStateM Failure σ _) s) _ _
      split
      · exact (hcancel rule List.mem_cons_self s h).bind fun _ s' hs' => hrest s' hs'
      · exact (hrest s h).bind fun _ s' hs' => hs'

/-- The entries for `poll` stand in `R` to their rules. -/
def Standing (R : Rule σ → PollFd → σ → Prop) (s : σ) (rules : List (Rule σ)) (pollfds : List PollFd) : Prop :=
  List.Forall₂ (fun rule p => R rule p s) rules pollfds

theorem Standing.mono {R : Rule σ → PollFd → σ → Prop} {s' : σ} {pollfds : List PollFd}
    (h : Standing R s rules pollfds) (hmono : ∀ rule ∈ rules, ∀ p, R rule p s → R rule p s') :
    Standing R s' rules pollfds := by
  induction h with
  | nil => exact List.Forall₂.nil
  | cons hhead _ ih =>
      exact List.Forall₂.cons (hmono _ List.mem_cons_self _ hhead)
        (ih fun rule hmem => hmono rule (List.mem_cons_of_mem _ hmem))

theorem Standing.forall_left {R : Rule σ → PollFd → σ → Prop} {P : Rule σ → Prop} {pollfds : List PollFd}
    (h : Standing R s rules pollfds) (hP : ∀ rule, ∀ p ∈ pollfds, R rule p s → P rule) : ∀ rule ∈ rules, P rule := by
  induction h with
  | nil => exact fun _ hmem => nomatch hmem
  | cons hhead _ ih =>
      rintro rule hmem
      rcases List.mem_cons.mp hmem with rfl | hmem
      · exact hP _ _ List.mem_cons_self hhead
      · exact ih (fun rule p hp => hP rule p (List.mem_cons_of_mem _ hp)) rule hmem

/-- **The first pass.** What holds of a rule and its entry when the rule is looked at, and outlives the cancel callbacks
    of the rules after it, holds of all rules and entries at the end. -/
theorem setUp_standing {R : Rule σ → PollFd → σ → Prop}
    (hentry : ∀ rule ∈ rules, ∀ s, K s → L rule s → rule.exhausted s = false → R rule (rule.pollFd s) s)
    (hcancel : ∀ rule ∈ rules, ∀ s, K s → Ends (rule.cancel s) (fun _ s' => K s') X)
    (hapart : rules.Pairwise fun rule later => Spares K L rule.cancel later ∧
      ∀ p s s', K s → R rule p s → later.cancel s = .ok () s' → R rule p s')
    (h : K s) (hleft : ∀ rule ∈ rules, L rule s) :
    Ends (setUp rules s) (fun r s' => K s' ∧ r.1.Sublist rules ∧ Standing R s' r.1 r.2) X := by
  induction rules generalizing s with
  | nil => exact ⟨h, List.Sublist.refl _, List.Forall₂.nil⟩
  | cons rule rest ih =>
      have hcancel' (later : Rule σ) (hlater : later ∈ rest) := hcancel later (List.mem_cons_of_mem rule hlater)
      have hapart' := (List.pairwise_cons.mp hapart).1
      have hrest {s : σ} (hK : K s) (hL : ∀ later ∈ rest, L later s) :=
        ih (s := s) (fun later hlater => hentry later (List.mem_cons_of_mem rule hlater))
          hcancel' (List.pairwise_cons.mp hapart).2 hK hL
      have hleft' : ∀ later ∈ rest, L later s := fun later hlater => hleft later (List.mem_cons_of_mem rule hlater)
      show Ends ((if rule.exhausted s then _ else _ : EStateM Failure σ _) s) _ _
      split
      · refine (hcancel rule List.mem_cons_self s h).and_self.mono (fun _ _ h => h) (fun _ _ he => he.1) |>.bind ?_
        rintro _ s₁ ⟨h₁, hran⟩
        refine (hrest h₁ fun later hlater => (hapart' later hlater).1 s s₁ h (hleft' later hlater) hran).mono ?_
          (fun _ _ h => h)
        rintro r s₂ ⟨h₂, hsub, hstanding⟩
        exact ⟨h₂, hsub.cons rule, hstanding⟩
      · next hlive =>
          have hR := hentry rule List.mem_cons_self s h (hleft rule List.mem_cons_self) (by simpa using hlive)
          have hkept : Ends (setUp rest s) (fun _ s' => K s' ∧ R rule (rule.pollFd s) s') X := by
            refine setUp_invariant ?_ ⟨h, hR⟩
            rintro later hlater s₁ ⟨h₁, hR₁⟩
            refine (hcancel' later hlater s₁ h₁).and_self.mono ?_ (fun _ _ h => h.1)
            rintro _ s₂ ⟨h₂, hran⟩
            exact ⟨h₂, (hapart' later hlater).2 _ s₁ s₂ h₁ hR₁ hran⟩
          refine ((hrest h hleft').and hkept).bind ?_
          rintro ⟨rules, pollfds⟩ s' ⟨⟨h', hsub, hstanding⟩, -, hR'⟩
          exact ⟨h', hsub.cons_cons rule, List.Forall₂.cons hR' hstanding⟩

/-- A rule that is there, and if it asked for something, has what it relies on. -/
def Relying (L J : Rule σ → σ → Prop) (rule : Rule σ) (p : PollFd) (s : σ) : Prop :=
  L rule s ∧ (p.events.isSome = true → J rule s)

/-- Rules that a callback spares stand as they did. -/
theorem Standing.spared {pollfds : List PollFd} {m : EStateM Failure σ Unit} {s' : σ}
    (h : Standing (Relying L J) s rules pollfds) (hspares : ∀ rule ∈ rules, Spares I L m rule ∧ Spares I J m rule)
    (hI : I s) (hran : m s = .ok () s') : Standing (Relying L J) s' rules pollfds := by
  refine Standing.mono h fun rule hmem p hrelying => ?_
  obtain ⟨hL, hJ⟩ := hspares rule hmem
  exact ⟨hL s s' hI hrelying.1 hran, fun hsome => hJ s s' hI (hrelying.2 hsome) hran⟩

/-- A rule that the first pass drops was cancelled. -/
theorem setUp_accounted (h : Keeps I L J M X rules) (hI : I s) :
    Ends (setUp rules s) (fun r s' => Accounted M rules r.1 s') X := by
  induction rules generalizing s I with
  | nil => exact fun _ hmem => nomatch hmem
  | cons rule rest ih =>
      have hrest := h.sublist (List.sublist_cons_self rule rest)
      show Ends ((if rule.exhausted s then _ else _ : EStateM Failure σ _) s) _ _
      split
      · refine (h.cancel rule List.mem_cons_self s hI).bind ?_
        rintro _ s₁ ⟨hI₁, hM₁⟩
        -- that it was cancelled outlives the cancel callbacks of the others
        have hkeeps : Keeps (fun s => I s ∧ Accounted M (rule :: rest) rest s) L J M X rest :=
          h.and_accounted (List.sublist_cons_self rule rest)
        have hkept := setUp_invariant
          (fun later hmem s hs => (hkeeps.cancel later hmem s hs).mono (fun _ _ h => h.1) fun _ _ h => h)
          ⟨hI₁, accounted_of_cancel hM₁⟩
        refine ((ih hrest hI₁).and hkept).mono ?_ fun _ _ h => h
        rintro r s₂ ⟨hall, -, hmore⟩
        exact hmore.trans hall
      · refine (ih hrest hI).bind ?_
        rintro ⟨rules, pollfds⟩ s' hall
        exact hall.cons rule

theorem setUp_keeps (h : Keeps I L J M X rules) (hI : I s) (hleft : ∀ rule ∈ rules, L rule s) :
    Ends (setUp rules s) (fun r s' => I s' ∧ r.1.Sublist rules ∧ Standing (Relying L J) s' r.1 r.2) X := by
  refine setUp_standing ?_
    (fun rule hmem s hs => (h.cancel rule hmem s hs).mono (fun _ _ h => h.1) fun _ _ h => h) (h.apart.imp ?_) hI hleft
  · intro rule hmem s hI hL hlive
    refine ⟨hL, fun hsome => h.interest rule hmem s hI hL hlive ?_⟩
    unfold Rule.pollFd at hsome
    split at hsome
    · assumption
    · cases hsome
  · intro rule later ha
    refine ⟨ha.canceled.1, ?_⟩
    rintro p s s' hI ⟨hL, hrelies⟩ hran
    exact ⟨ha.cancels.1 s s' hI hL hran, fun hsome => ha.cancels.2 s s' hI (hrelies hsome) hran⟩

/-- A rule that is served keeps the invariant, and is not accused of waiting busily. -/
theorem serve_keeps {rule : Rule σ} (h : Keeps I L J M X rules) (hmem : rule ∈ rules) (hI : I s) (hL : L rule s)
    (hJ : J rule s) :
    Ends (rule.serve s) (fun _ s' => I s' ∧ L rule s' ∧ rule.callback s = .ok () s') X := by
  have hcallback := h.callback rule hmem s hI hL hJ
  show Ends ((rule.callback >>= _) s) _ _
  refine (hcallback.and (Ends.self _)).bind ?_
  rintro _ s' ⟨⟨hI', hL', hserved⟩, hrun⟩
  show Ends ((if _ then _ else _ : EStateM Failure σ Unit) s') _ _
  rw [if_neg]
  · exact ⟨hI', hL', hrun⟩
  · rw [Bool.and_eq_true, beq_iff_eq, not_and_or]
    rcases hserved with hcount | hinterest
    · exact Or.inl (Ne.symm hcount)
    · exact Or.inr (by rw [hinterest]; exact Bool.false_ne_true)

/-- **The second pass.** -/
theorem serveAll_keeps {pollfds : List PollFd} (h : Keeps I L J M X rules) (hI : I s)
    (hstanding : Standing (Relying L J) s rules pollfds) :
    Ends (serveAll rules pollfds s)
      (fun rules' s' => I s' ∧ rules'.Sublist rules ∧ (∀ rule ∈ rules', L rule s') ∧ Accounted M rules rules' s')
      (fun e s' => X e s' ∨ (I s' ∧ e = pollError ∧ ∃ p ∈ pollfds, p.revents.faulty = true)) := by
  induction rules generalizing pollfds s I with
  | nil =>
      cases hstanding
      exact ⟨hI, List.Sublist.refl _, fun _ => (nomatch ·), fun _ => (nomatch ·)⟩
  | cons rule rest ih =>
      cases hstanding with
      | @cons _ pollfd _ pollfds hhead htail =>
          have hapart := (List.pairwise_cons.mp h.apart).1
          rw [serveAll]
          split
          · next hfaulty => exact Or.inr ⟨hI, rfl, pollfd, List.mem_cons_self, hfaulty⟩
          · split
            · -- a hangup
              have hcancel := (h.cancel rule List.mem_cons_self s hI).and_self
              refine (hcancel.mono (fun _ _ h => h) fun e s' he => Or.inl he.1).bind ?_
              rintro _ s' ⟨⟨hI', hM'⟩, hran⟩
              have hstill := Standing.spared htail (fun later hmem => (hapart later hmem).canceled) hI hran
              have hkeeps : Keeps (fun s => I s ∧ Accounted M (rule :: rest) rest s) L J M X rest :=
                h.and_accounted (List.sublist_cons_self rule rest)
              refine (ih hkeeps ⟨hI', accounted_of_cancel hM'⟩ hstill).mono ?_
                fun e s' he => he.imp id fun h => ⟨h.1.1, h.2.imp_right List.exists_mem_cons_of_exists⟩
              rintro rules' s'' ⟨⟨hI'', hmore⟩, hsub, hleft, hall⟩
              exact ⟨hI'', hsub.cons rule, hleft, hmore.trans hall⟩
            · -- the first rule stays, and what holds of it is a part of the invariant of the others
              have hgo {s' : σ} (hI' : I s') (hL' : L rule s') (hstill : Standing (Relying L J) s' rest pollfds) :
                  Ends ((serveAll rest pollfds >>= fun rules => pure (rule :: rules)) s')
                    (fun rules' s' => I s' ∧ rules'.Sublist (rule :: rest) ∧ (∀ rule ∈ rules', L rule s') ∧
                      Accounted M (rule :: rest) rules' s')
                    (fun e s' => X e s' ∨
                      (I s' ∧ e = pollError ∧ ∃ p ∈ pollfd :: pollfds, p.revents.faulty = true)) := by
                refine ((ih h.tail ⟨hI', hL'⟩ hstill).mono (fun _ _ h => h) ?_).bind ?_
                · exact fun e s'' he => he.imp id fun h => ⟨h.1.1, h.2.imp_right List.exists_mem_cons_of_exists⟩
                · rintro rules' s'' ⟨hI'', hsub, hleft, hall⟩
                  exact ⟨hI''.1, hsub.cons_cons rule, List.forall_mem_cons.mpr ⟨hI''.2, hleft⟩, hall.cons rule⟩
              dsimp only
              split
              · next hready =>
                  have hserve := serve_keeps h List.mem_cons_self hI hhead.1 (hhead.2 (Option.isSome_of_any hready))
                  refine (hserve.mono (fun _ _ h => h) fun e s' he => Or.inl he).bind ?_
                  rintro _ s' ⟨hI', hL', hran⟩
                  exact hgo hI' hL' (Standing.spared htail (fun later hmem => (hapart later hmem).served) hI hran)
              · exact hgo hI hhead.1 htail

/-- What is reported does not change what was asked for. -/
theorem Standing.polled {pollfds : List PollFd} (h : Standing (Relying L J) s rules pollfds) (r : PollResult) :
    Standing (Relying L J) s rules (polled r pollfds) := by
  have hlen := h.length_eq
  rw [Standing, List.forall₂_iff_get] at h ⊢
  refine ⟨by rw [EventLoop.polled, List.length_mapIdx]; exact hlen, ?_⟩
  intro i h₁ h₂
  simpa [EventLoop.polled, Relying] using h.2 i h₁ (hlen ▸ h₁)

/-- `poll` reports an error on one of the descriptors. -/
def Reported (poll : List PollFd → PollResult) : Prop :=
  ∃ pollfds i, i < pollfds.length ∧ ((poll pollfds).revents i).faulty = true

/-- **The rule for a call of `wait_next_event`.** -/
theorem waitNextEvent_keeps (poll : List PollFd → PollResult) {loop : EventLoop σ} (h : Keeps I L J M X loop.rules)
    (hI : I s) (hleft : ∀ rule ∈ loop.rules, L rule s) :
    Ends (waitNextEvent poll loop s)
      (fun r s' => I s' ∧ r.2.rules.Sublist loop.rules ∧ (∀ rule ∈ r.2.rules, L rule s') ∧
        Accounted M loop.rules r.2.rules s')
      (fun e s' => X e s' ∨ (I s' ∧ e = pollError ∧ Reported poll)) := by
  unfold waitNextEvent
  refine (((setUp_keeps h hI hleft).and (setUp_accounted h hI)).mono (fun _ _ h => h) fun e s' he => Or.inl he).bind ?_
  rintro ⟨rules, pollfds⟩ s' ⟨⟨hI', hsub, hstanding⟩, hall⟩
  dsimp only at hsub hstanding hall ⊢
  have hleft' : ∀ rule ∈ rules, L rule s' := hstanding.forall_left fun _ _ _ hR => hR.1
  split
  · exact ⟨hI', hsub, hleft', hall⟩
  · cases (poll pollfds).verdict with
    | some result => exact ⟨hI', hsub, hleft', hall⟩
    | none =>
        have hserve := serveAll_keeps (h.and_accounted hsub) ⟨hI', hall⟩ (hstanding.polled (poll pollfds))
        have hreported : (∃ p ∈ polled (poll pollfds) pollfds, p.revents.faulty = true) → Reported poll := by
          rintro ⟨p, hp, hfaulty⟩
          obtain ⟨i, hi, rfl⟩ := List.mem_mapIdx.mp hp
          exact ⟨pollfds, i, hi, hfaulty⟩
        refine (hserve.mono (fun _ _ h => h) fun e s' he => he.imp id fun h =>
          ⟨h.1.1, h.2.imp_right hreported⟩).bind ?_
        rintro rules' s'' ⟨⟨hI'', hmore⟩, hsub', hleft'', hall'⟩
        exact ⟨hI'', hsub'.trans hsub, hleft'', hmore.trans hall'⟩

/-! ## Which rules are left, and when the loop is over -/

section Left

variable {keep : List (Rule σ)}

/-- The first pass keeps the rules whose descriptors are not done with. -/
theorem setUp_retains (hcancel : ∀ rule ∈ rules, ∀ s, K s → Ends (rule.cancel s) (fun _ s' => K s') X)
    (hkeep : keep.Sublist rules) (hlive : ∀ rule ∈ keep, ∀ s, K s → rule.exhausted s = false) (h : K s) :
    Ends (setUp rules s) (fun r _ => keep.Sublist r.1) X := by
  induction rules generalizing keep s with
  | nil => exact hkeep
  | cons rule rest ih =>
      have hrest {keep : List (Rule σ)} {s : σ} (hkeep : keep.Sublist rest)
          (hlive : ∀ rule ∈ keep, ∀ s, K s → rule.exhausted s = false) (h : K s) :
          Ends (setUp rest s) (fun r _ => keep.Sublist r.1) X :=
        ih (fun later hlater => hcancel later (List.mem_cons_of_mem rule hlater)) hkeep hlive h
      show Ends ((if rule.exhausted s then _ else _ : EStateM Failure σ _) s) _ _
      cases hkeep with
      | cons _ hkeep =>
          split
          · exact (hcancel rule List.mem_cons_self s h).bind fun _ s₁ h₁ => hrest hkeep hlive h₁
          · exact (hrest hkeep hlive h).bind fun _ _ hsub => hsub.cons rule
      | cons_cons _ hkeep =>
          rw [hlive rule List.mem_cons_self s h, if_neg Bool.false_ne_true]
          have hlive' := fun later hlater => hlive later (List.mem_cons_of_mem rule hlater)
          exact (hrest hkeep hlive' h).bind fun _ _ hsub => hsub.cons_cons rule

/-- The second pass keeps all of them if there is no hangup. -/
theorem serveAll_retains {pollfds : List PollFd} (hup : ∀ p ∈ pollfds, p.revents.pollhup = false) (s : σ) :
    Ends (serveAll rules pollfds s) (fun rules' _ => rules' = rules) (fun _ _ => True) := by
  induction rules generalizing pollfds s with
  | nil => cases pollfds <;> exact rfl
  | cons rule rest ih =>
      cases pollfds with
      | nil => exact rfl
      | cons p pollfds =>
          have hrest (s : σ) : Ends ((serveAll rest pollfds >>= fun rules => pure (rule :: rules)) s)
              (fun rules' _ => rules' = rule :: rest) (fun _ _ => True) :=
            (ih (fun q hq => hup q (List.mem_cons_of_mem p hq)) s).bind fun _ _ h => congrArg (rule :: ·) h
          rw [serveAll]
          split
          · trivial
          · split
            · next hhangup =>
                rw [hup p List.mem_cons_self, Bool.false_and, Bool.false_and] at hhangup
                cases hhangup
            · dsimp only
              split
              · exact Ends.bind (Q := fun _ _ => True) (by cases rule.serve s <;> trivial) fun _ s' _ => hrest s'
              · exact hrest s

/-- **Rules stay** in the loop as long as their descriptors are not done with and there is no hangup. -/
theorem waitNextEvent_retains {poll : List PollFd → PollResult} {loop : EventLoop σ}
    (hcancel : ∀ rule ∈ loop.rules, ∀ s, K s → Ends (rule.cancel s) (fun _ s' => K s') X)
    (hkeep : keep.Sublist loop.rules) (hlive : ∀ rule ∈ keep, ∀ s, K s → rule.exhausted s = false)
    (hup : ∀ pollfds i, ((poll pollfds).revents i).pollhup = false) (h : K s) :
    Ends (waitNextEvent poll loop s) (fun r _ => keep.Sublist r.2.rules) (fun _ _ => True) := by
  refine ((setUp_retains hcancel hkeep hlive h).mono (fun _ _ h => h) fun _ _ _ => trivial).bind ?_
  rintro ⟨rules, pollfds⟩ s' hsub
  dsimp only at hsub ⊢
  split
  · exact hsub
  · cases (poll pollfds).verdict with
    | some result => exact hsub
    | none =>
        refine Ends.bind (serveAll_retains ?_ s') fun rules' _ hrules => ?_
        · intro p hp
          obtain ⟨i, hi, rfl⟩ := List.mem_mapIdx.mp hp
          exact hup pollfds i
        · rw [hrules]
          exact hsub

/-- **The loop is over** only if no rule that is left is interested, or a signal was caught. -/
theorem waitNextEvent_exit {poll : List PollFd → PollResult} {loop : EventLoop σ}
    (hcancel : ∀ rule ∈ loop.rules, ∀ s, K s → Ends (rule.cancel s) (fun _ s' => K s') X)
    (hapart : loop.rules.Pairwise fun rule later =>
      ∀ s s', K s → rule.interest s = false → later.cancel s = .ok () s' → rule.interest s' = false)
    (hsignal : ∀ pollfds, (poll pollfds).verdict ≠ some .exit) (h : K s) :
    Ends (waitNextEvent poll loop s)
      (fun r s' => r.1 = .exit → K s' ∧ ∀ rule ∈ r.2.rules, rule.interest s' = false) (fun _ _ => True) := by
  have hsetUp := setUp_standing (L := fun _ _ => True)
    (R := fun rule p s => p.events.isSome = false → rule.interest s = false) ?_ hcancel
    (hapart.imp fun hquiet => ⟨fun _ _ _ _ _ => trivial,
      fun p s s' hK hR hran hnone => hquiet s s' hK (hR hnone) hran⟩) h fun _ _ => trivial
  · refine (hsetUp.mono (fun _ _ h => h) fun _ _ _ => trivial).bind ?_
    rintro ⟨rules, pollfds⟩ s' ⟨hK, -, hstanding⟩
    dsimp only at hstanding ⊢
    split
    · next hidle =>
        intro _
        refine ⟨hK, ?_⟩
        refine hstanding.forall_left fun rule p hp hquiet => hquiet ?_
        rw [Bool.not_eq_true', List.any_eq_false] at hidle
        simpa using hidle p hp
    · cases hverdict : (poll pollfds).verdict with
      | some result =>
          rintro rfl
          exact absurd hverdict (hsignal pollfds)
      | none =>
          exact Ends.bind (Q := fun _ _ => True) (by cases serveAll rules _ s' <;> trivial)
            fun _ _ _ hexit => nomatch hexit
  · intro rule _ s _ _ _ hnone
    unfold Rule.pollFd at hnone
    split at hnone
    · cases hnone
    · next hinterest => simpa using hinterest

end Left

end Invariant

end EventLoop

end Util

end Sponge
