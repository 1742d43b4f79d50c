import Sponge.Socket.Rounds

/-!
# `Socket.Discipline` — a socket uses its connection as it should

The results about connections ask something of the layer above: that nothing is written after `end_input_stream`, or
that a connection is used by the calls of its interface and in no other way. Here this is shown of the socket, through
any rounds and whatever the kernel answers (`uses_connection_well`). A thread that fails does so by an exception from a
call in one of its rounds; the checks by which the socket and the event loop guard against themselves never fail.
-/

namespace Sponge

open Lib Util TCPConnection TCPSender

namespace TCPSpongeSocket

variable {α : Type} [Carrier α]

/-- A new socket. -/
theorem Inv.init (D : Prop) (cfg : TCPConfig) (isn : WrappingInt32) {a : α} (ha : D → Carrier.sent a = []) :
    Inv D cfg isn {} [] (initializeTCP cfg isn a) where
  tcp        := rfl
  accepted   := rfl
  unended    := fun _ h => nomatch h
  discipline := List.Pairwise.nil
  popped     := Nat.le_refl _
  told       := fun h => nomatch h
  unclosed   := rfl
  taken      := fun _ => rfl
  sent       := by
    intro hD b hb
    have hnil : Carrier.sent (initializeTCP cfg isn a).datagramAdapter = [] := ha hD
    rw [hnil] at hb
    cases hb
  round      := rfl
  new        := ⟨[], rfl, fun _ _ h => nomatch h⟩

variable {D : Prop} {a : α}

theorem inv_listenAndAccept (cfg : TCPConfig) (config : FdAdapterConfig) (isn : WrappingInt32) (now : Nat)
    (ha : D → Carrier.sent a = []) : (listenAndAccept cfg config isn a now).Inv D cfg isn := by
  refine ⟨⟨{}, [], Inv.init D cfg isn ?_⟩, rules_eventloop (α := α) ▸ List.Sublist.refl _⟩
  intro hD
  rw [Carrier.sent_setListening, Carrier.sent_setConfig, ha hD]

/-- The thread that connects, before its loop. -/
def connecting (cfg : TCPConfig) (config : FdAdapterConfig) (isn : WrappingInt32) (a : α) (now : Nat) : Thread α where
  socket   := { initializeTCP cfg isn (FdAdapter.setConfig config a) with
    tcp := (TCPConnection.ofConfig cfg isn).step .connect, ops := [.connect] }
  loop     := eventloop
  baseTime := now
  stage    := .connecting

/-- Connecting does not throw: the connection is in the state that is expected. -/
theorem connect_eq (cfg : TCPConfig) (config : FdAdapterConfig) (isn : WrappingInt32) (a : α) (now : Nat) :
    connect cfg config isn a now = .ok (connecting cfg config isn a now) := rfl

theorem inv_connecting (cfg : TCPConfig) (config : FdAdapterConfig) (isn : WrappingInt32) (now : Nat)
    (ha : D → Carrier.sent a = []) : (connecting cfg config isn a now).Inv D cfg isn := by
  have hinit := Inv.init D cfg isn (a := FdAdapter.setConfig config a)
    fun hD => (Carrier.sent_setConfig config a).trans (ha hD)
  exact ⟨⟨{}, [], hinit.perform .connect {} false (fun _ => ⟨rfl, fun hop => nomatch hop⟩) (fun hop => nomatch hop) rfl
    rfl (fun _ => rfl) fun _ _ hop => nomatch hop⟩, rules_eventloop (α := α) ▸ List.Sublist.refl _⟩

end TCPSpongeSocket

namespace Thread

open TCPSpongeSocket

variable {α : Type} [Carrier α]

/-- A thread that has failed does nothing any more. -/
theorem advance_of_failed {t : Thread α} {e : Failure} (h : t.stage = .failed e) (r : Round) : t.advance r = t := by
  have hcontinues : t.continues = false := by rw [continues, h]
  rw [advance, if_neg (Bool.eq_false_iff.mp hcontinues), leave, h]

/-- If the thread has failed, then by an exception from one of these rounds. -/
def Blames (rounds : List Round) (t : Thread α) : Prop :=
  ∀ e, t.stage = .failed e → ∃ r ∈ rounds, Thrown r e t.socket

theorem Blames.advance {cfg : TCPConfig} {isn : WrappingInt32} {t : Thread α} {rounds : List Round}
    (h : Blames rounds t) (hinv : t.Inv False cfg isn) (r : Round) : Blames (rounds ++ [r]) (t.advance r) := by
  intro e hfailed
  by_cases hrunning : ∀ e, t.stage ≠ .failed e
  · exact ⟨r, List.mem_append_right rounds List.mem_cons_self, hinv.thrown False.elim hrunning hfailed⟩
  · obtain ⟨e', he'⟩ := not_forall_not.mp hrunning
    rw [advance_of_failed he'] at hfailed ⊢
    obtain ⟨r', hr', hthrown⟩ := h e hfailed
    exact ⟨r', List.mem_append_left [r] hr', hthrown⟩

/-- Without assumptions about the kernel, over any rounds. -/
theorem Inv.run {cfg : TCPConfig} {isn : WrappingInt32} {t : Thread α} (h : t.Inv False cfg isn)
    (hstart : ∀ e, t.stage ≠ .failed e) (rounds : List Round) :
    (run Thread.advance t rounds).Inv False cfg isn ∧ Blames rounds (run Thread.advance t rounds) := by
  refine run_history rounds (fun hist (t : Thread α) => t.Inv False cfg isn ∧ Blames hist t) ⟨h, ?_⟩ ?_
  · exact fun e hfailed => absurd hfailed (hstart e)
  · rintro hist t r ⟨hinv, hblames⟩ -
    exact ⟨(hinv.advance False.elim).1, hblames.advance hinv r⟩

/-- **A socket uses its connection as it should**, whatever the kernel answers and through any rounds. `connect` does
    not throw. The connection is what the operations that were called have made of a new one; nothing is written after
    `end_input_stream`; and what the connection has accepted is what was read from the owner. A thread that fails does
    so by an exception that a call in one of its rounds has thrown, of a descriptor, of the adapter or of `poll`: the
    socket never finds that less was accepted than was offered, and the event loop never finds a rule that waits
    busily. -/
theorem uses_connection_well (cfg : TCPConfig) (config : FdAdapterConfig) (isn : WrappingInt32) (a : α) (now : Nat) :
    ∃ started, connect cfg config isn a now = .ok started ∧
      ∀ t ∈ [started, listenAndAccept cfg config isn a now], ∀ rounds : List Round,
        let t' := run Thread.advance t rounds
        let e := run Endpoint.step (Endpoint.ofConfig cfg isn) t'.socket.ops
        t'.socket.tcp = e.conn ∧ NoWriteAfterEnd t'.socket.ops ∧ e.accepted = t'.socket.threadData.received ∧
        ∀ failure, t'.stage = .failed failure →
          (∃ r ∈ rounds, Thrown r failure t'.socket) ∧ failure ≠ Rule.busyWait ∧ failure ≠ acceptedLess := by
  refine ⟨connecting cfg config isn a now, connect_eq .., ?_⟩
  intro t ht rounds t' e
  have hstart : t.Inv False cfg isn ∧ ∀ e, t.stage ≠ .failed e := by
    simp only [List.mem_cons, List.not_mem_nil, or_false] at ht
    rcases ht with rfl | rfl
    · exact ⟨inv_connecting cfg config isn now False.elim, fun _ h => nomatch h⟩
    · exact ⟨inv_listenAndAccept cfg config isn now False.elim, fun _ h => nomatch h⟩
  obtain ⟨hI, hblames⟩ := hstart.1.run hstart.2 rounds
  obtain ⟨r, before, hsocket⟩ := hI.socket
  refine ⟨hsocket.tcp, hsocket.discipline, hsocket.accepted, ?_⟩
  intro failure hfailed
  obtain ⟨r', hr', hthrown⟩ := hblames failure hfailed
  exact ⟨⟨r', hr', hthrown⟩, hthrown.innocent hsocket.fits⟩

end Thread

end Sponge
