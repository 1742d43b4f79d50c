import Sponge.Util.EventLoop

/-!
# `Util.Served` — which rules an event loop serves

The rules of a loop are made to keep a record of the callbacks that run, each with the state that it has left. From
this record one can tell in which state every rule was looked at (`look`), whether its descriptor was done with then
and whether it was interested. So what a call has to put into the record can be said in full: `cancels` for the first
pass and `due` for the second.

Over a whole run of a loop, with any rules, any answers of `poll` and anything that happens to the state between two
calls, a call that returns has done exactly this, and a call that throws has done it up to the callback that is to blame
or to the first error that `poll` reports (`serves_ready_rules`). In particular a rule that was cancelled is left alone
for good.
-/

namespace Sponge

open Lib

namespace Util

/-- An entry of the record: the callback or the cancel callback of the rule with this number was called. -/
inductive Served where
  | ran (number : Nat)
  | cancelled (number : Nat)
deriving DecidableEq

def Served.number : Served → Nat
  | ran i       => i
  | cancelled i => i

/-- The callbacks that were called, in order, and the states that they have left. -/
abbrev Record (σ : Type) := List (Served × σ)

def Record.entries {σ : Type} (log : Record σ) : List Served := log.map Prod.fst

/-- The state that the last of the callbacks has left, or `s` if none was called. -/
def Record.last {σ : Type} (s : σ) : Record σ → σ
  | []            => s
  | (_, t) :: log => Record.last t log

namespace EventLoop

variable {σ : Type}

theorem entries_append (log new : Record σ) : (log ++ new).entries = log.entries ++ new.entries := List.map_append

theorem last_append (s : σ) (log new : Record σ) : (log ++ new).last s = new.last (log.last s) := by
  induction log generalizing s with
  | nil => rfl
  | cons first log ih => exact ih first.2

/-- The state and the record after the callbacks in `new`. -/
def extended (s : σ × Record σ) (new : Record σ) : σ × Record σ := (new.last s.1, s.2 ++ new)

theorem extended_nil (s : σ × Record σ) : extended s [] = s := Prod.ext rfl (List.append_nil s.2)

theorem extended_append (s : σ × Record σ) (log new : Record σ) :
    extended (extended s log) new = extended s (log ++ new) :=
  Prod.ext (last_append s.1 log new).symm (List.append_assoc s.2 log new)

/-- Do the work on the state proper, and make an entry. -/
def recorded (entry : Served) (m : EStateM Failure σ Unit) : EStateM Failure (σ × Record σ) Unit :=
  zoom Prod.fst (fun t s => (t, s.2 ++ [(entry, t)])) m

/-- A rule that keeps a record. -/
def traced (x : Rule σ × Nat) : Rule (σ × Record σ) where
  fd        := fun s => x.1.fd s.1
  direction := x.1.direction
  callback  := recorded (.ran x.2) x.1.callback
  interest  := fun s => x.1.interest s.1
  cancel    := recorded (.cancelled x.2) x.1.cancel

/-- The loop to which the rules were added one after the other. They keep a record, each under its place in the
    order. -/
def tracedLoop (rules : List (Rule σ)) : EventLoop (σ × Record σ) :=
  rules.zipIdx.foldl (fun loop x => loop.addRule (traced x)) {}

/-- Calls of `wait_next_event`, one after the other, each with its own answer of `poll`. Before each of them the state
    may be changed from outside. -/
def waits : List ((σ → σ) × PollResult) → EventLoop (σ × Record σ) →
    EStateM Failure (σ × Record σ) (EventLoop (σ × Record σ))
  | [],                  loop => pure loop
  | (change, r) :: rest, loop => do
    modify fun s => (change s.1, s.2)
    let (_, loop) ← waitNextEvent (fun _ => r) loop
    waits rest loop

/-! ## What a call has to do -/

/-- The rules that are not cancelled in the record. -/
def alive (l : List (Rule σ × Nat)) (log : List Served) : List (Rule σ × Nat) :=
  l.filter fun x => decide (.cancelled x.2 ∉ log)

/-- The state in which the rule with number `i` is looked at, in a pass that begins in `s` and puts `new` into the
    record: the one that the last of the rules before it has left. -/
def look (s : σ) : Record σ → Nat → σ
  | [],                _ => s
  | (entry, t) :: new, i => if entry.number < i then look t new i else s

/-- A rule in the state in which it is looked at. -/
structure View (σ : Type) where
  rule   : Rule σ
  number : Nat
  state  : σ

namespace View

def exhausted (v : View σ) : Bool := v.rule.exhausted v.state
def interested (v : View σ) : Bool := v.rule.interest v.state
def pollFd (v : View σ) : PollFd := v.rule.pollFd v.state

/-- What is due to the rule when `poll` reports `e` for it. It has to have asked: then its callback is called if the
    report has its direction, and its cancel callback if there is a hangup instead. -/
def due (v : View σ) (e : Events) : Option Served :=
  if v.interested then
    if e.has v.rule.direction then some (.ran v.number)
    else if e.pollhup then some (.cancelled v.number)
    else none
  else none

end View

/-- The rules `l` in the states in which the first pass looks at them, if it begins in `s` and cancels `gone`. -/
def views (l : List (Rule σ × Nat)) (s : σ) (gone : Record σ) : List (View σ) :=
  l.map fun x => ⟨x.1, x.2, look s gone x.2⟩

/-- The rules whose descriptors are not done with. -/
def kept (vs : List (View σ)) : List (View σ) := vs.filter fun v => !v.exhausted

/-- The first pass: the rules whose descriptors are done with are cancelled. -/
def cancels (vs : List (View σ)) : List Served := (vs.filter View.exhausted).map fun v => .cancelled v.number

/-- There is a second pass if a rule is interested and `poll` does not end the call. -/
def serving (vs : List (View σ)) (r : PollResult) : Bool := (kept vs).any View.interested && r.verdict.isNone

/-- The rules that are left, each with the report for its own entry. -/
def reported (vs : List (View σ)) (r : PollResult) : List (View σ × Events) :=
  (kept vs).zipIdx.map fun p => (p.1, r.revents p.2)

/-- The second pass: each of these rules gets what is due to it, up to the first one with an error. -/
def due (vs : List (View σ)) (r : PollResult) : List Served :=
  if serving vs r then
    ((reported vs r).takeWhile fun p => !p.2.faulty).filterMap fun p => p.1.due p.2
  else []

/-- The second pass comes to a rule with an error. -/
def faulted (vs : List (View σ)) (r : PollResult) : Bool :=
  serving vs r && (reported vs r).any fun p => p.2.faulty

/-- What is returned. -/
def outcome (vs : List (View σ)) (r : PollResult) : Result :=
  if (kept vs).any View.interested then r.verdict.getD .success else .exit

/-- The rules that were never cancelled, as they are seen in a call that begins in `s`. -/
def viewed (rules : List (Rule σ)) (s : σ × Record σ) (gone : Record σ) : List (View σ) :=
  views (alive rules.zipIdx s.2.entries) s.1 gone

/-- A call that returns has done everything. -/
def Completed (rules : List (Rule σ)) (r : PollResult) (s s' : σ × Record σ) (result : Result) : Prop :=
  ∃ gone served : Record σ, s' = extended s (gone ++ served) ∧ gone.entries = cancels (viewed rules s gone) ∧
    served.entries = due (viewed rules s gone) r ∧ faulted (viewed rules s gone) r = false ∧
    result = outcome (viewed rules s gone) r

/-- The last callback in a record that begins in `s`, of one of the rules `l`, has thrown `e` in the state in which it
    was called, or it has not touched its descriptor and is still interested. -/
inductive Blamed (l : List (Rule σ × Nat)) (e : Failure) (s : σ) : Record σ → Prop where
  | cancel {x : Rule σ × Nat} {t : σ} {p : Record σ} (mem : x ∈ l) (threw : x.1.cancel (p.last s) = .error e t) :
      Blamed l e s (p ++ [(.cancelled x.2, t)])
  | callback {x : Rule σ × Nat} {t : σ} {p : Record σ} (mem : x ∈ l) (threw : x.1.callback (p.last s) = .error e t) :
      Blamed l e s (p ++ [(.ran x.2, t)])
  | busy {x : Rule σ × Nat} {t : σ} {p : Record σ} (mem : x ∈ l) (ran : x.1.callback (p.last s) = .ok () t)
      (count : x.1.serviceCount (p.last s) = x.1.serviceCount t) (interest : x.1.interest t = true)
      (accused : e = Rule.busyWait) : Blamed l e s (p ++ [(.ran x.2, t)])

/-- A call that throws has done it up to the callback that is to blame, in the first pass or in the second one, or up to
    the first rule for which `poll` reports an error. -/
def BrokenOff (rules : List (Rule σ)) (r : PollResult) (s s' : σ × Record σ) (e : Failure) : Prop :=
  ∃ gone served : Record σ, s' = extended s (gone ++ served) ∧
    ((gone.entries <+: cancels (viewed rules s gone) ∧ served = [] ∧
        Blamed (alive rules.zipIdx s.2.entries) e s.1 gone) ∨
      (gone.entries = cancels (viewed rules s gone) ∧
        ((served.entries <+: due (viewed rules s gone) r ∧
            Blamed (alive rules.zipIdx (s.2 ++ gone).entries) e (gone.last s.1) served) ∨
          (served.entries = due (viewed rules s gone) r ∧ faulted (viewed rules s gone) r = true ∧ e = pollError))))

/-! ## The rules that are left -/

section Alive

variable {l rest : List (Rule σ × Nat)} {x : Rule σ × Nat} {new : List Served}

theorem alive_append (l : List (Rule σ × Nat)) (log log' : List Served) :
    alive (alive l log) log' = alive l (log ++ log') := by
  unfold alive
  rw [List.filter_filter]
  refine List.filter_congr fun x _ => ?_
  rw [← Bool.decide_and]
  refine decide_eq_decide.mpr ?_
  rw [List.mem_append, not_or, and_comm]

/-- A rule of another number does not count. -/
theorem alive_cons_of_ne {entry : Served} (h : ∀ y ∈ l, entry ≠ .cancelled y.2) :
    alive l (entry :: new) = alive l new := by
  refine List.filter_congr fun y hy => decide_eq_decide.mpr (not_congr ?_)
  rw [List.mem_cons, or_iff_right]
  exact fun heq => h y hy heq.symm

theorem alive_cons_of_notMem (h : .cancelled x.2 ∉ new) : alive (x :: rest) new = x :: alive rest new :=
  List.filter_cons_of_pos (decide_eq_true h)

theorem alive_cons_of_mem (h : .cancelled x.2 ∈ new) : alive (x :: rest) new = alive rest new :=
  List.filter_cons_of_neg (by simpa using h)

theorem ne_of_numbers (hx : x.2 ∉ rest.map Prod.snd) {entry : Served} (hentry : entry.number = x.2) :
    ∀ y ∈ rest, entry ≠ .cancelled y.2 := by
  rintro y hy rfl
  have hnumber : y.2 = x.2 := hentry
  exact hx (hnumber ▸ List.mem_map_of_mem (f := Prod.snd) hy)

/-- The numbers go up along the rules. -/
def Ascending (l : List (Rule σ × Nat)) : Prop := l.Pairwise fun x y => x.2 < y.2

theorem Ascending.nodup (h : Ascending l) : (l.map Prod.snd).Nodup := by
  rw [List.Nodup, List.pairwise_map]
  exact h.imp Nat.ne_of_lt

theorem ascending_alive (rules : List (Rule σ)) (log : List Served) : Ascending (alive rules.zipIdx log) := by
  refine List.Pairwise.filter _ (List.pairwise_iff_getElem.mpr ?_)
  intro i j hi hj hlt
  rw [List.getElem_zipIdx, List.getElem_zipIdx]
  omega

end Alive

/-! ## The first pass -/

section FirstPass

variable {l rest : List (Rule σ × Nat)} {x : Rule σ × Nat} {s t : σ} {new : Record σ}

/-- Before the first entry nothing has changed. -/
theorem look_of_le {i : Nat} (h : ∀ entry ∈ new.entries, i ≤ entry.number) : look s new i = s := by
  cases new with
  | nil => rfl
  | cons first new => rw [look, if_neg (Nat.not_lt.mpr (h first.1 List.mem_cons_self))]

/-- After an entry of an earlier rule, the pass goes on from the state that this one has left. -/
theorem views_of_lt {entry : Served} (h : ∀ y ∈ rest, entry.number < y.2) :
    views rest s ((entry, t) :: new) = views rest t new := by
  refine List.map_congr_left fun y hy => ?_
  rw [look, if_pos (h y hy)]

theorem number_of_mem_cancels {vs : List (View σ)} {entry : Served} (h : entry ∈ cancels vs) :
    ∃ v ∈ vs, entry = .cancelled v.number := by
  obtain ⟨v, hv, rfl⟩ := List.mem_map.mp h
  exact ⟨v, (List.mem_filter.mp hv).1, rfl⟩

/-- What the pass does with the rules after `x` does not matter for `x`. -/
theorem look_of_cancels (hx : ∀ y ∈ rest, x.2 < y.2) {s' : σ} {gone : Record σ}
    (h : gone.entries <+: cancels (views rest s' gone)) : look s gone x.2 = s := by
  refine look_of_le fun entry hentry => ?_
  obtain ⟨v, hv, rfl⟩ := number_of_mem_cancels (h.subset hentry)
  obtain ⟨y, hy, rfl⟩ := List.mem_map.mp hv
  exact (hx y hy).le

theorem cancels_cons_of_exhausted {v : View σ} {vs : List (View σ)} (h : v.exhausted = true) :
    cancels (v :: vs) = .cancelled v.number :: cancels vs ∧ kept (v :: vs) = kept vs := by
  constructor
  · rw [cancels, List.filter_cons_of_pos h]
    rfl
  · exact List.filter_cons_of_neg (by simpa using h)

theorem cancels_cons_of_live {v : View σ} {vs : List (View σ)} (h : v.exhausted = false) :
    cancels (v :: vs) = cancels vs ∧ kept (v :: vs) = v :: kept vs := by
  constructor
  · rw [cancels, List.filter_cons_of_neg (by simpa using h)]
    rfl
  · exact List.filter_cons_of_pos (by simpa using h)

theorem Blamed.mono {l' : List (Rule σ × Nat)} {e : Failure} {log : Record σ} (h : Blamed l e s log)
    (hmem : ∀ x ∈ l, x ∈ l') : Blamed l' e s log := by
  cases h with
  | cancel mem threw => exact .cancel (hmem _ mem) threw
  | callback mem threw => exact .callback (hmem _ mem) threw
  | busy mem ran count interest accused => exact .busy (hmem _ mem) ran count interest accused

theorem Blamed.cons {e : Failure} {log : Record σ} (entry : Served) (h : Blamed l e t log) :
    Blamed l e s ((entry, t) :: log) := by
  cases h with
  | @cancel x _ p mem threw => exact .cancel (p := (entry, t) :: p) mem threw
  | @callback x _ p mem threw => exact .callback (p := (entry, t) :: p) mem threw
  | @busy x _ p mem ran count interest accused => exact .busy (p := (entry, t) :: p) mem ran count interest accused

theorem recorded_ends (entry : Served) (m : EStateM Failure σ Unit) (s : σ × Record σ) :
    Ends (recorded entry m s) (fun _ s' => s' = extended s [(entry, s'.1)] ∧ m s.1 = .ok () s'.1)
      (fun e s' => s' = extended s [(entry, s'.1)] ∧ m s.1 = .error e s'.1) := by
  refine (Ends.zoom (fun t s => (t, s.2 ++ [(entry, t)])) s (Ends.self (m s.1))).mono ?_ ?_
  · rintro _ _ ⟨t, rfl, hm⟩
    exact ⟨rfl, hm⟩
  · rintro _ _ ⟨t, rfl, hm⟩
    exact ⟨rfl, hm⟩

theorem extended_entry {s s₁ : σ × Record σ} {entry : Served} (h : s₁ = extended s [(entry, s₁.1)]) (new : Record σ) :
    extended s₁ new = extended s ((entry, s₁.1) :: new) := by
  conv_lhs => rw [h]
  exact extended_append s [(entry, s₁.1)] new

/-- A rule whose descriptor is done with is the first to be cancelled, whatever comes after it. -/
theorem cancels_views_of_exhausted (hx : ∀ y ∈ rest, x.2 < y.2) (h : x.1.exhausted s = true) (t : σ) (gone : Record σ) :
    cancels (views (x :: rest) s ((.cancelled x.2, t) :: gone)) = .cancelled x.2 :: cancels (views rest t gone) ∧
      kept (views (x :: rest) s ((.cancelled x.2, t) :: gone)) = kept (views rest t gone) := by
  have hlook : look s ((.cancelled x.2, t) :: gone) x.2 = s := if_neg (Nat.lt_irrefl _)
  have hhead : (View.mk x.1 x.2 s).exhausted = true := h
  rw [views, List.map_cons, hlook, ← views, views_of_lt hx]
  exact cancels_cons_of_exhausted hhead

/-- Any other rule is kept, and the pass goes on in the same state. -/
theorem cancels_views_of_live (hx : ∀ y ∈ rest, x.2 < y.2) (h : x.1.exhausted s = false) {gone : Record σ}
    (hgone : gone.entries <+: cancels (views rest s gone)) :
    cancels (views (x :: rest) s gone) = cancels (views rest s gone) ∧
      kept (views (x :: rest) s gone) = ⟨x.1, x.2, s⟩ :: kept (views rest s gone) := by
  have hhead : (View.mk x.1 x.2 s).exhausted = false := h
  rw [views, List.map_cons, look_of_cancels hx hgone, ← views]
  exact cancels_cons_of_live hhead

/-- **The first pass** cancels the rules whose descriptors are done with, and has entries for `poll` made by the
    others, each in the state in which it is looked at. -/
theorem setUp_traced (hl : Ascending l) (s : σ × Record σ) :
    Ends (setUp (l.map traced) s)
      (fun r s' => ∃ gone : Record σ, s' = extended s gone ∧ gone.entries = cancels (views l s.1 gone) ∧
        r.1 = (kept (views l s.1 gone)).map (fun v => traced (v.rule, v.number)) ∧
        r.2 = (kept (views l s.1 gone)).map View.pollFd)
      (fun e s' => ∃ gone : Record σ, s' = extended s gone ∧ gone.entries <+: cancels (views l s.1 gone) ∧
        Blamed l e s.1 gone) := by
  induction l generalizing s with
  | nil => exact ⟨[], (extended_nil s).symm, rfl, rfl, rfl⟩
  | cons x rest ih =>
      obtain ⟨hx, hrest⟩ := List.pairwise_cons.mp hl
      show Ends ((if (traced x).exhausted s then _ else _ : EStateM Failure _ _) s) _ _
      split
      · next hexhausted =>
          have hfirst := cancels_views_of_exhausted hx hexhausted
          refine ((recorded_ends (.cancelled x.2) x.1.cancel s).mono (fun _ _ h => h) ?_).bind ?_
          · rintro e s' ⟨hlog, hthrew⟩
            refine ⟨[(.cancelled x.2, s'.1)], hlog, ?_, .cancel (p := []) List.mem_cons_self hthrew⟩
            rw [(hfirst s'.1 []).1]
            exact List.prefix_append [_] _
          · rintro _ s₁ ⟨hlog, -⟩
            refine (ih hrest s₁).mono ?_ ?_
            · rintro r s' ⟨gone, hlog', hgone, hrules, hpollfds⟩
              obtain ⟨hcancels, hkept⟩ := hfirst s₁.1 gone
              refine ⟨(.cancelled x.2, s₁.1) :: gone, hlog'.trans (extended_entry hlog gone), ?_, ?_, ?_⟩
              · rw [hcancels, ← hgone]
                rfl
              · rw [hrules, hkept]
              · rw [hpollfds, hkept]
            · rintro e s' ⟨gone, hlog', hgone, hblamed⟩
              refine ⟨(.cancelled x.2, s₁.1) :: gone, hlog'.trans (extended_entry hlog gone), ?_, ?_⟩
              · rw [(hfirst s₁.1 gone).1]
                exact List.cons_prefix_cons.mpr ⟨rfl, hgone⟩
              · exact (hblamed.mono fun y => List.mem_cons_of_mem x).cons _
      · next hlive =>
          have hlive' : x.1.exhausted s.1 = false := (Bool.not_eq_true _).mp hlive
          refine ((ih hrest s).mono (fun _ _ h => h) ?_).bind ?_
          · rintro e s' ⟨gone, hlog, hgone, hblamed⟩
            refine ⟨gone, hlog, ?_, hblamed.mono fun y => List.mem_cons_of_mem x⟩
            rwa [(cancels_views_of_live hx hlive' hgone).1]
          · rintro ⟨rules, pollfds⟩ s' ⟨gone, hlog, hgone, hrules, hpollfds⟩
            dsimp only at hrules hpollfds
            obtain ⟨hcancels, hkept⟩ := cancels_views_of_live hx hlive' ⟨[], (List.append_nil _).trans hgone⟩
            refine ⟨gone, hlog, by rw [hgone, hcancels], ?_, ?_⟩
            · show traced x :: rules = _
              rw [hrules, hkept]
              rfl
            · show (traced x).pollFd s :: pollfds = _
              rw [hpollfds, hkept]
              rfl

/-- Those that are kept are those that were not cancelled. -/
theorem alive_cancels (hl : Ascending l) (s : σ) (gone : Record σ) :
    alive l (cancels (views l s gone)) = (kept (views l s gone)).map fun v => (v.rule, v.number) := by
  have hkept : (kept (views l s gone)).map (fun v => (v.rule, v.number)) =
      l.filter fun x => !x.1.exhausted (look s gone x.2) := by
    rw [kept, views, List.filter_map, List.map_map]
    exact List.map_id _
  rw [hkept]
  refine List.filter_congr fun x hx => ?_
  have hmem : .cancelled x.2 ∈ cancels (views l s gone) ↔ x.1.exhausted (look s gone x.2) = true := by
    constructor
    · intro h
      obtain ⟨v, hv, heq⟩ := List.mem_map.mp h
      obtain ⟨hv, hexhausted⟩ := List.mem_filter.mp hv
      obtain ⟨y, hy, rfl⟩ := List.mem_map.mp hv
      obtain rfl : y = x := List.inj_on_of_nodup_map hl.nodup hy hx (Served.cancelled.inj heq)
      exact hexhausted
    · intro h
      exact List.mem_map.mpr ⟨⟨x.1, x.2, look s gone x.2⟩,
        List.mem_filter.mpr ⟨List.mem_map.mpr ⟨x, hx, rfl⟩, h⟩, rfl⟩
  rw [Bool.eq_iff_iff, decide_eq_true_iff, hmem, Bool.not_eq_true', Bool.not_eq_true]

end FirstPass

/-! ## The second pass -/

/-- What the second pass does with a rule and its entry. -/
def answer (q : (Rule σ × Nat) × PollFd) : Option Served :=
  if q.2.ready then some (.ran q.1.2)
  else if q.2.revents.pollhup && q.2.events.isSome then some (.cancelled q.1.2)
  else none

section SecondPass

variable {q : (Rule σ × Nat) × PollFd} {qs : List ((Rule σ × Nat) × PollFd)} {entry : Served}

theorem number_of_answer (h : answer q = some entry) : entry.number = q.1.2 := by
  unfold answer at h
  split at h
  · rw [← Option.some.inj h]
    rfl
  · split at h
    · rw [← Option.some.inj h]
      rfl
    · cases h

/-- What is done with the others does not concern the first rule. -/
theorem notMem_answers (hq : q.1.2 ∉ qs.map fun q => q.1.2) : .cancelled q.1.2 ∉ qs.filterMap answer := by
  intro hmem
  obtain ⟨q', hq', hanswer⟩ := List.mem_filterMap.mp hmem
  have hnumber : q.1.2 = q'.1.2 := number_of_answer hanswer
  exact hq (hnumber ▸ List.mem_map_of_mem (f := fun q => q.1.2) hq')

theorem serve_traced (x : Rule σ × Nat) (s : σ × Record σ) :
    Ends ((traced x).serve s) (fun _ s' => s' = extended s [(.ran x.2, s'.1)])
      (fun e s' => s' = extended s [(.ran x.2, s'.1)] ∧ Blamed [x] e s.1 [(.ran x.2, s'.1)]) := by
  show Ends (((traced x).callback >>= _) s) _ _
  refine ((recorded_ends (.ran x.2) x.1.callback s).mono (fun _ _ h => h) ?_).bind ?_
  · rintro e s' ⟨hlog, hthrew⟩
    exact ⟨hlog, .callback (p := []) List.mem_cons_self hthrew⟩
  · rintro _ s' ⟨hlog, hran⟩
    show Ends ((if _ then _ else _ : EStateM Failure _ Unit) s') _ _
    split
    · next hbusy =>
        rw [Bool.and_eq_true, beq_iff_eq] at hbusy
        exact ⟨hlog, .busy (p := []) List.mem_cons_self hran hbusy.1 hbusy.2 rfl⟩
    · exact hlog

/-- What the second pass does with the rules before the first entry with an error. -/
def answers (qs : List ((Rule σ × Nat) × PollFd)) : List Served :=
  (qs.takeWhile fun q => !q.2.revents.faulty).filterMap answer

/-- The second pass has done with every rule, in order, what its entry says, and these rules are left. -/
def Answered (qs : List ((Rule σ × Nat) × PollFd)) (s s' : σ × Record σ) (rules : List (Rule (σ × Record σ))) : Prop :=
  ∃ new : Record σ, s' = extended s new ∧ new.entries = qs.filterMap answer ∧
    (∀ q ∈ qs, q.2.revents.faulty = false) ∧ rules = (alive (qs.map Prod.fst) new.entries).map traced

/-- The second pass has come to a callback that is to blame, or to the first entry with an error. -/
def Stopped (qs : List ((Rule σ × Nat) × PollFd)) (s s' : σ × Record σ) (e : Failure) : Prop :=
  ∃ new : Record σ, s' = extended s new ∧
    ((new.entries <+: answers qs ∧ Blamed (qs.map Prod.fst) e s.1 new) ∨
      (new.entries = answers qs ∧ (∃ q ∈ qs, q.2.revents.faulty = true) ∧ e = pollError))

variable {s s₁ s' : σ × Record σ} {rules : List (Rule (σ × Record σ))} {e : Failure}

theorem answers_of_faulty (h : q.2.revents.faulty = true) : answers (q :: qs) = [] := by
  rw [answers, List.takeWhile_cons_of_neg (by simp [h])]
  rfl

theorem answers_of_some (hsound : q.2.revents.faulty = false) (hanswer : answer q = some entry) :
    answers (q :: qs) = entry :: answers qs := by
  rw [answers, List.takeWhile_cons_of_pos (by simp [hsound]), List.filterMap_cons_some hanswer]
  rfl

theorem answers_of_none (hsound : q.2.revents.faulty = false) (hanswer : answer q = none) :
    answers (q :: qs) = answers qs := by
  rw [answers, List.takeWhile_cons_of_pos (by simp [hsound]), List.filterMap_cons_none hanswer]
  rfl

theorem Answered.cancel (hq : q.1.2 ∉ qs.map fun q => q.1.2) (hsound : q.2.revents.faulty = false)
    (hanswer : answer q = some (.cancelled q.1.2)) (hlog : s₁ = extended s [(.cancelled q.1.2, s₁.1)])
    (h : Answered qs s₁ s' rules) : Answered (q :: qs) s s' rules := by
  obtain ⟨new, hlog', hnew, hall, rfl⟩ := h
  have hq' : q.1.2 ∉ (qs.map Prod.fst).map Prod.snd := by rwa [List.map_map]
  refine ⟨_, hlog'.trans (extended_entry hlog new), ?_, List.forall_mem_cons.mpr ⟨hsound, hall⟩, ?_⟩
  · rw [List.filterMap_cons_some hanswer, ← hnew]
    rfl
  · show _ = (alive (q.1 :: qs.map Prod.fst) (.cancelled q.1.2 :: new.entries)).map traced
    rw [alive_cons_of_mem List.mem_cons_self, alive_cons_of_ne (ne_of_numbers hq' rfl)]

theorem Answered.serve (hq : q.1.2 ∉ qs.map fun q => q.1.2) (hsound : q.2.revents.faulty = false)
    (hanswer : answer q = some (.ran q.1.2)) (hlog : s₁ = extended s [(.ran q.1.2, s₁.1)])
    (h : Answered qs s₁ s' rules) : Answered (q :: qs) s s' (traced q.1 :: rules) := by
  obtain ⟨new, hlog', hnew, hall, rfl⟩ := h
  have hq' : q.1.2 ∉ (qs.map Prod.fst).map Prod.snd := by rwa [List.map_map]
  have hleft : .cancelled q.1.2 ∉ Served.ran q.1.2 :: new.entries := by
    rw [hnew, List.mem_cons, not_or]
    exact ⟨Served.noConfusion, notMem_answers hq⟩
  refine ⟨_, hlog'.trans (extended_entry hlog new), ?_, List.forall_mem_cons.mpr ⟨hsound, hall⟩, ?_⟩
  · rw [List.filterMap_cons_some hanswer, ← hnew]
    rfl
  · show _ = (alive (q.1 :: qs.map Prod.fst) (.ran q.1.2 :: new.entries)).map traced
    rw [alive_cons_of_notMem hleft, alive_cons_of_ne (ne_of_numbers hq' rfl), List.map_cons]

theorem Answered.skip (hq : q.1.2 ∉ qs.map fun q => q.1.2) (hsound : q.2.revents.faulty = false)
    (hanswer : answer q = none) (h : Answered qs s s' rules) : Answered (q :: qs) s s' (traced q.1 :: rules) := by
  obtain ⟨new, hlog, hnew, hall, rfl⟩ := h
  have hleft : .cancelled q.1.2 ∉ new.entries := hnew ▸ notMem_answers hq
  refine ⟨new, hlog, hnew.trans (List.filterMap_cons_none hanswer).symm,
    List.forall_mem_cons.mpr ⟨hsound, hall⟩, ?_⟩
  rw [List.map_cons, alive_cons_of_notMem hleft, List.map_cons]

theorem Stopped.faulty (h : q.2.revents.faulty = true) : Stopped (q :: qs) s s pollError :=
  ⟨[], (extended_nil s).symm, Or.inr ⟨(answers_of_faulty h).symm, ⟨q, List.mem_cons_self, h⟩, rfl⟩⟩

theorem Stopped.here (hsound : q.2.revents.faulty = false) (hanswer : answer q = some entry)
    (hlog : s' = extended s [(entry, s'.1)]) (hblamed : Blamed [q.1] e s.1 [(entry, s'.1)]) :
    Stopped (q :: qs) s s' e := by
  refine ⟨_, hlog, Or.inl ⟨?_, hblamed.mono fun y hy => List.mem_singleton.mp hy ▸ List.mem_cons_self⟩⟩
  rw [answers_of_some hsound hanswer]
  exact List.prefix_append [entry] _

theorem Stopped.after (hsound : q.2.revents.faulty = false) (hanswer : answer q = some entry)
    (hlog : s₁ = extended s [(entry, s₁.1)]) (h : Stopped qs s₁ s' e) : Stopped (q :: qs) s s' e := by
  obtain ⟨new, hlog', hwhy⟩ := h
  refine ⟨_, hlog'.trans (extended_entry hlog new), ?_⟩
  rw [answers_of_some hsound hanswer]
  rcases hwhy with ⟨hnew, hblamed⟩ | ⟨hnew, hfaulty, he⟩
  · refine Or.inl ⟨List.cons_prefix_cons.mpr ⟨rfl, hnew⟩, ?_⟩
    exact (hblamed.mono fun y => List.mem_cons_of_mem q.1).cons entry
  · exact Or.inr ⟨congrArg (entry :: ·) hnew, List.exists_mem_cons_of_exists hfaulty, he⟩

theorem Stopped.skip (hsound : q.2.revents.faulty = false) (hanswer : answer q = none) (h : Stopped qs s s' e) :
    Stopped (q :: qs) s s' e := by
  obtain ⟨new, hlog, hwhy⟩ := h
  refine ⟨new, hlog, ?_⟩
  rw [answers_of_none hsound hanswer]
  exact hwhy.imp (fun h => ⟨h.1, h.2.mono fun y => List.mem_cons_of_mem q.1⟩)
    fun h => ⟨h.1, List.exists_mem_cons_of_exists h.2.1, h.2.2⟩

/-- **The second pass**, over the rules with their entries. -/
theorem serveAll_traced (hnodup : (qs.map fun q => q.1.2).Nodup) (s : σ × Record σ) :
    Ends (serveAll (qs.map fun q => traced q.1) (qs.map Prod.snd) s) (fun rules s' => Answered qs s s' rules)
      (fun e s' => Stopped qs s s' e) := by
  induction qs generalizing s with
  | nil => exact ⟨[], (extended_nil s).symm, rfl, fun _ => (nomatch ·), rfl⟩
  | cons q qs ih =>
      obtain ⟨hq, hrest⟩ := List.nodup_cons.mp hnodup
      rw [List.map_cons, List.map_cons, serveAll]
      split
      · next hfaulty => exact Stopped.faulty hfaulty
      · next hfaulty =>
        have hsound : q.2.revents.faulty = false := Bool.eq_false_of_not_eq_true hfaulty
        split
        · next hhup =>
            -- a hangup and nothing else
            rw [Bool.and_eq_true, Bool.and_eq_true, Bool.not_eq_true'] at hhup
            obtain ⟨⟨hup, hasked⟩, hready⟩ := hhup
            have hanswer : answer q = some (.cancelled q.1.2) := by
              rw [answer, hready, hup, hasked]
              rfl
            refine ((recorded_ends (.cancelled q.1.2) q.1.1.cancel s).mono (fun _ _ h => h) ?_).bind ?_
            · rintro e s' ⟨hlog, hthrew⟩
              exact Stopped.here hsound hanswer hlog (.cancel (p := []) List.mem_cons_self hthrew)
            · rintro _ s₁ ⟨hlog, -⟩
              exact (ih hrest s₁).mono (fun _ _ h => h.cancel hq hsound hanswer hlog)
                fun _ _ h => h.after hsound hanswer hlog
        · next hstays =>
            dsimp only
            split
            · next hready =>
                have hanswer : answer q = some (.ran q.1.2) := if_pos hready
                refine ((serve_traced q.1 s).mono (fun _ _ h => h) ?_).bind ?_
                · rintro e s' ⟨hlog, hblamed⟩
                  exact Stopped.here hsound hanswer hlog hblamed
                · intro _ s₁ hlog
                  refine ((ih hrest s₁).mono (fun _ _ h => h) fun _ _ h => h.after hsound hanswer hlog).bind ?_
                  exact fun _ _ h => h.serve hq hsound hanswer hlog
            · next hready =>
                have hanswer : answer q = none := by
                  rw [Bool.not_eq_true] at hready
                  rw [hready, Bool.not_false, Bool.and_true, Bool.not_eq_true] at hstays
                  rw [answer, hready, hstays]
                  rfl
                refine ((ih hrest s).mono (fun _ _ h => h) fun _ _ h => h.skip hsound hanswer).bind ?_
                exact fun _ _ h => h.skip hq hsound hanswer

end SecondPass

/-! ## A call -/

section Call

variable {rules : List (Rule σ)} {r : PollResult} {s s' : σ × Record σ} {gone served : Record σ}

theorem isSome_events_pollFd (v : View σ) : v.pollFd.events.isSome = v.interested := by
  show (if v.interested then some v.rule.direction else none).isSome = v.interested
  cases v.interested <;> rfl

/-- With the report in its entry, a rule gets what is due to it. -/
theorem answer_pollFd (v : View σ) (e : Events) :
    answer ((v.rule, v.number), { v.pollFd with revents := e }) = v.due e := by
  have hevents : v.pollFd.events = if v.interested then some v.rule.direction else none := rfl
  unfold answer View.due PollFd.ready
  dsimp only
  rw [hevents]
  cases v.interested with
  | true => simp
  | false => simp

/-- The rules that are left with their entries, as the second pass is given them. -/
def entered (r : PollResult) (vs : List (View σ)) : List ((Rule σ × Nat) × PollFd) :=
  (reported vs r).map fun p => ((p.1.rule, p.1.number), { p.1.pollFd with revents := p.2 })

theorem entered_fst (r : PollResult) (vs : List (View σ)) :
    (entered r vs).map Prod.fst = (kept vs).map fun v => (v.rule, v.number) := by
  rw [entered, reported, List.map_map, List.map_map, ← List.zipIdx_map_fst 0 (kept vs), List.map_map,
    List.zipIdx_map_fst]
  rfl

theorem entered_snd (r : PollResult) (vs : List (View σ)) :
    (entered r vs).map Prod.snd = polled r ((kept vs).map View.pollFd) := by
  rw [entered, reported, List.map_map, List.map_map, polled, List.mapIdx_eq_zipIdx_map, List.zipIdx_map, List.map_map]
  rfl

theorem answers_entered {vs : List (View σ)} (hserving : serving vs r = true) : answers (entered r vs) = due vs r := by
  rw [due, if_pos hserving, answers, entered, List.takeWhile_map, List.filterMap_map]
  exact List.filterMap_congr fun p _ => answer_pollFd p.1 p.2

theorem any_entered {vs : List (View σ)} (hserving : serving vs r = true) :
    ((entered r vs).any fun q => q.2.revents.faulty) = faulted vs r := by
  rw [faulted, hserving, Bool.true_and, entered, List.any_map]
  rfl

theorem alive_viewed (hgone : gone.entries = cancels (viewed rules s gone)) :
    (kept (viewed rules s gone)).map (fun v => (v.rule, v.number)) =
      alive rules.zipIdx (s.2 ++ gone).entries := by
  rw [viewed, ← alive_cancels (ascending_alive rules s.2.entries), ← viewed, ← hgone, alive_append, entries_append]

theorem traced_viewed (hgone : gone.entries = cancels (viewed rules s gone)) :
    (kept (viewed rules s gone)).map (fun v => traced (v.rule, v.number)) =
      (alive rules.zipIdx (extended s gone).2.entries).map traced := by
  rw [extended, ← alive_viewed hgone, List.map_map]
  rfl

/-- The second pass of a call, after one that has cancelled `gone`. -/
theorem serveAll_viewed (hgone : gone.entries = cancels (viewed rules s gone))
    (hasked : (kept (viewed rules s gone)).any View.interested = true) (hverdict : r.verdict = none) :
    Ends (serveAll ((alive rules.zipIdx (extended s gone).2.entries).map traced)
        (polled r ((kept (viewed rules s gone)).map View.pollFd)) (extended s gone))
      (fun rules' s' => rules' = (alive rules.zipIdx s'.2.entries).map traced ∧ Completed rules r s s' .success)
      (fun e s' => BrokenOff rules r s s' e) := by
  have hserving : serving (viewed rules s gone) r = true := by
    rw [serving, hasked, hverdict]
    rfl
  have hleft : (entered r (viewed rules s gone)).map Prod.fst = alive rules.zipIdx (s.2 ++ gone).entries := by
    rw [entered_fst, alive_viewed hgone]
  have hnodup : ((entered r (viewed rules s gone)).map fun q => q.1.2).Nodup := by
    have hnumbers := (ascending_alive rules (s.2 ++ gone).entries).nodup
    rwa [← hleft, List.map_map] at hnumbers
  have hrules : (entered r (viewed rules s gone)).map (fun q => traced q.1) =
      (alive rules.zipIdx (extended s gone).2.entries).map traced := by
    rw [extended, ← hleft, List.map_map]
    rfl
  rw [← hrules, ← entered_snd]
  refine (serveAll_traced hnodup (extended s gone)).mono ?_ ?_
  · rintro rules' _ ⟨served, rfl, hserved, hsound, hrules'⟩
    refine ⟨?_, gone, served, extended_append s gone served, hgone, ?_, ?_, ?_⟩
    · rw [hrules', hleft, alive_append, ← entries_append]
      rfl
    · rw [hserved, ← answers_entered hserving, answers, List.takeWhile_eq_self_iff.mpr]
      exact fun q hq => by rw [hsound q hq]; rfl
    · rw [← any_entered hserving, List.any_eq_false]
      exact fun q hq => by rw [hsound q hq]; exact Bool.false_ne_true
    · rw [outcome, hasked, hverdict]
      rfl
  · rintro e _ ⟨served, rfl, hwhy⟩
    rw [answers_entered hserving, hleft] at hwhy
    refine ⟨gone, served, extended_append s gone served, Or.inr ⟨hgone, hwhy.imp (fun h => h) ?_⟩⟩
    rintro ⟨hserved, hfaulty, he⟩
    exact ⟨hserved, by rw [← any_entered hserving, List.any_eq_true]; exact hfaulty, he⟩

/-- **One call** of a loop from which the cancelled rules are gone. -/
theorem waitNextEvent_traced (rules : List (Rule σ)) (r : PollResult) (s : σ × Record σ) :
    Ends (waitNextEvent (fun _ => r) ⟨(alive rules.zipIdx s.2.entries).map traced⟩ s)
      (fun res s' => res.2 = ⟨(alive rules.zipIdx s'.2.entries).map traced⟩ ∧ Completed rules r s s' res.1)
      (fun e s' => BrokenOff rules r s s' e) := by
  unfold waitNextEvent
  refine ((setUp_traced (ascending_alive rules s.2.entries) s).mono (fun _ _ h => h) ?_).bind ?_
  · rintro e s' ⟨gone, hlog, hgone, hblamed⟩
    exact ⟨gone, [], by rw [hlog, List.append_nil], Or.inl ⟨hgone, rfl, hblamed⟩⟩
  · rintro ⟨rules', pollfds⟩ _ ⟨gone, rfl, hgone, hrules, hpollfds⟩
    rw [← viewed] at hgone hrules hpollfds
    dsimp only at hrules hpollfds ⊢
    rw [traced_viewed hgone] at hrules
    subst hrules hpollfds
    have hany : ((kept (viewed rules s gone)).map View.pollFd).any (·.events.isSome) =
        (kept (viewed rules s gone)).any View.interested := by
      rw [List.any_map]
      exact congrArg _ (funext isSome_events_pollFd)
    rw [hany]
    -- the call ends before the second pass
    have hquiet {result : Result} (hserving : serving (viewed rules s gone) r = false)
        (hresult : result = outcome (viewed rules s gone) r) : Completed rules r s (extended s gone) result := by
      refine ⟨gone, [], by rw [List.append_nil], hgone, ?_, ?_, hresult⟩
      · rw [due, hserving]
        rfl
      · rw [faulted, hserving, Bool.false_and]
    cases hasked : (kept (viewed rules s gone)).any View.interested with
    | false =>
        refine ⟨rfl, hquiet ?_ ?_⟩
        · rw [serving, hasked, Bool.false_and]
        · rw [outcome, hasked]
          rfl
    | true =>
        cases hverdict : r.verdict with
        | some result =>
            refine ⟨rfl, hquiet ?_ ?_⟩
            · rw [serving, hverdict, Option.isNone_some, Bool.and_false]
            · rw [outcome, hasked, hverdict]
              rfl
        | none =>
            refine (serveAll_viewed hgone hasked hverdict).bind ?_
            rintro rules'' s'' ⟨rfl, hcompleted⟩
            exact ⟨rfl, hcompleted⟩

end Call

/-- **An event loop serves exactly the rules that are ready and have asked for it, in the order in which they were
    added, and leaves alone what was cancelled.** Whatever the rules do, whatever `poll` reports and whatever happens to
    the state between the calls: as long as none of them has thrown, the next call, in any state `t`, keeps to this. If
    it throws, it has done so up to the callback that is to blame, or to the first descriptor with an error. -/
theorem serves_ready_rules (rules : List (Rule σ)) (s : σ) (rounds : List ((σ → σ) × PollResult)) (t : σ)
    (r : PollResult) :
    Ends (waits rounds (tracedLoop rules) (s, []))
      (fun loop s => Ends (waitNextEvent (fun _ => r) loop (t, s.2)) (fun res s' => Completed rules r (t, s.2) s' res.1)
        (fun e s' => BrokenOff rules r (t, s.2) s' e))
      (fun _ _ => True) := by
  -- the loop holds the rules that were not cancelled, before every call
  have hrun : ∀ (loop : EventLoop (σ × Record σ)) (s : σ × Record σ),
      loop = ⟨(alive rules.zipIdx s.2.entries).map traced⟩ →
      Ends (waits rounds loop s) (fun loop s => loop = ⟨(alive rules.zipIdx s.2.entries).map traced⟩)
        (fun _ _ => True) := by
    induction rounds with
    | nil => exact fun loop s h => h
    | cons round rest ih =>
        rintro _ s rfl
        refine ((waitNextEvent_traced rules round.2 (round.1 s.1, s.2)).mono (fun _ _ h => h)
          fun _ _ _ => trivial).bind ?_
        rintro ⟨_, loop⟩ s' ⟨hloop, -⟩
        exact ih loop s' hloop
  have hinit : tracedLoop rules = ⟨(alive rules.zipIdx []).map traced⟩ := by
    rw [tracedLoop, foldl_addRule, alive, List.filter_eq_self.mpr fun _ _ => by simp, List.nil_append]
  refine (hrun (tracedLoop rules) (s, []) hinit).mono ?_ fun _ _ h => h
  rintro loop s' rfl
  exact (waitNextEvent_traced rules r (t, s'.2)).mono (fun _ _ h => h.2) fun _ _ h => h

end EventLoop

end Util

end Sponge
