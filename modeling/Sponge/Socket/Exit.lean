import Sponge.Connection.Silent
import Sponge.Socket.EndToEnd

/-!
# `Socket.Exit` — a thread that is done has done everything

The main loop of a socket ends when no rule is interested any more. This comes down to the end of the connection: the
rule that reads datagrams is interested as long as the connection is active. But rules can be lost on the way, and the
loop can also be left for other reasons, so this is about rounds in which the owner does not abort, no signal is caught,
and no descriptor hangs up (`Calm`). Then all segments of the connection have been sent, the owner has got every byte
of the inbound stream and has been told of its end, and the connection is closed or was reset
(`finishes_when_over`).
-/

namespace Sponge

open Lib Util TCPConnection TCPSpongeSocket

variable {α : Type} [Carrier α]

/-- Nothing ends the loop from outside, and no rule is lost but the one that reads from the owner. -/
structure Calm (t : Thread α) (r : Round) : Prop where
  documented : r.Documented α
  abort      : r.abort = false
  signal     : ∀ pollfds, (r.poll pollfds).verdict ≠ some .exit
  hangup     : ∀ pollfds i, ((r.poll pollfds).revents i).pollhup = false
  eof        : (FdAdapter.fd t.socket.datagramAdapter).eof = false
  closed     : (FdAdapter.fd t.socket.datagramAdapter).closed = false

/-- The rules that are never lost. -/
def lasting : List (Rule (TCPSpongeSocket α)) := [datagramIn, ownerOut, datagramOut]

theorem lasting_sublist : lasting.Sublist (rules (α := α)) :=
  ((List.Sublist.refl [ownerOut, datagramOut]).cons ownerIn).cons_cons datagramIn

/-- What holds of a socket when the main loop is over. -/
structure Finished (s : TCPSpongeSocket α) : Prop where
  inactive : s.tcp.active = false
  sent     : s.segmentsOut = []
  drained  : s.tcp.inboundStream.buf = []
  told     : s.tcp.inboundStream.isEof = true ∨ s.tcp.inboundStream.error = true → s.inboundShutdown = true

theorem Finished.of_quiet {s : TCPSpongeSocket α} {rules : List (Rule (TCPSpongeSocket α))}
    (hlasting : lasting.Sublist rules) (hquiet : ∀ rule ∈ rules, rule.interest s = false) : Finished s := by
  have hin := hquiet datagramIn (hlasting.subset (by simp [lasting]))
  have howner := hquiet ownerOut (hlasting.subset (by simp [lasting]))
  have hout := hquiet datagramOut (hlasting.subset (by simp [lasting]))
  simp only [ownerOut, Bool.or_eq_false_iff, Bool.not_eq_false', Bool.and_eq_false_iff] at howner
  have hempty : s.tcp.inboundStream.buf = [] := by
    simpa [ByteStream.bufferEmpty] using howner.1
  refine ⟨hin, by simpa [datagramOut] using hout, hempty, ?_⟩
  intro hover
  rcases howner.2 with hnot | htold
  · rcases hover with hend | herror
    · rw [(ByteStream.eof_iff _).mpr ⟨hend, hempty⟩] at hnot
      cases hnot.1
    · rw [herror] at hnot
      cases hnot.2
  · exact htold

section Round

variable {cfg : TCPConfig} {isn : WrappingInt32} {r : Round} {before : List Op} {s : TCPSpongeSocket α}
  {loop : EventLoop (TCPSpongeSocket α)}

/-- Cancelling a rule changes neither the adapter nor the socket to the owner. -/
theorem cancel_ends {rule : Rule (TCPSpongeSocket α)} (hrule : rule ∈ rules) {a : α}
    (h : Inv True cfg isn r before s ∧ s.datagramAdapter = a) :
    Ends (rule.cancel s) (fun _ s' => Inv True cfg isn r before s' ∧ s'.datagramAdapter = a) (fun _ _ => True) := by
  simp only [rules, List.mem_cons, List.not_mem_nil, or_false] at hrule
  rcases hrule with rfl | rfl | rfl | rfl
  · exact h
  · exact ⟨(endOutbound_ends h.1).1, h.2⟩
  · exact h
  · exact h

/-- A rule that is not interested does not become so when another one is cancelled. -/
theorem quiet_apart {K : TCPSpongeSocket α → Prop} :
    (rules (α := α)).Pairwise fun rule later =>
      ∀ s s', K s → rule.interest s = false → later.cancel s = .ok () s' → rule.interest s' = false := by
  have hpure {rule later : Rule (TCPSpongeSocket α)} (hlater : later.cancel = pure ()) :
      ∀ s s', K s → rule.interest s = false → later.cancel s = .ok () s' → rule.interest s' = false := by
    intro s s' _ hinterest hran
    rw [hlater] at hran
    injection hran with _ hstate
    exact hstate ▸ hinterest
  refine List.pairwise_cons.mpr ⟨?_, List.pairwise_cons.mpr ⟨?_, List.pairwise_pair.mpr (hpure rfl)⟩⟩
  · intro later hlater
    simp only [List.mem_cons, List.not_mem_nil, or_false] at hlater
    rcases hlater with rfl | rfl | rfl
    · intro s s' _ hinactive hran
      injection hran with _ hstate
      rw [← hstate]
      exact active_step .endInputStream hinactive
    · exact hpure rfl
    · exact hpure rfl
  · intro later hlater
    simp only [List.mem_cons, List.not_mem_nil, or_false] at hlater
    rcases hlater with rfl | rfl
    · exact hpure rfl
    · exact hpure rfl

/-- **A calm round** loses none of the lasting rules, and if it is the last one everything is done. -/
theorem tcpRound_calm {t : Thread α} {r₀ : Round} (hcalm : Calm t r) (h : Inv True cfg isn r₀ before t.socket)
    (hrules : t.loop.rules.Sublist rules) (hlasting : lasting.Sublist t.loop.rules) :
    Ends (tcpRound r t.loop t.baseTime t.socket)
      (fun out s' => lasting.Sublist out.2.1.rules ∧ (out.1 = true → Finished s')) (fun _ _ => True) := by
  have hbegin : Inv True cfg isn r t.socket.ops { t.socket with round := r } ∧
      t.socket.datagramAdapter = t.socket.datagramAdapter := ⟨h.begin, rfl⟩
  have hcancel : ∀ rule ∈ t.loop.rules, ∀ s, (Inv True cfg isn r t.socket.ops s ∧
      s.datagramAdapter = t.socket.datagramAdapter) → Ends (rule.cancel s)
        (fun _ s' => Inv True cfg isn r t.socket.ops s' ∧ s'.datagramAdapter = t.socket.datagramAdapter)
        (fun _ _ => True) := fun rule hrule s hs => cancel_ends (hrules.subset hrule) hs
  have hlive : ∀ rule ∈ lasting, ∀ s, (Inv True cfg isn r t.socket.ops s ∧
      s.datagramAdapter = t.socket.datagramAdapter) → rule.exhausted s = false := by
    rintro rule hrule s ⟨hs, hsame⟩
    simp only [lasting, List.mem_cons, List.not_mem_nil, or_false] at hrule
    rcases hrule with rfl | rfl | rfl
    · simp [Rule.exhausted, datagramIn, hsame, hcalm.eof, hcalm.closed]
    · simp [Rule.exhausted, ownerOut, hs.unclosed]
    · simp [Rule.exhausted, datagramOut, hsame, hcalm.closed]
  have hretains := EventLoop.waitNextEvent_retains hcancel hlasting hlive hcalm.hangup hbegin
  have hexit := EventLoop.waitNextEvent_exit hcancel (quiet_apart.sublist hrules) hcalm.signal hbegin
  refine (hretains.and hexit).bind ?_
  rintro ⟨ret, loop'⟩ s' ⟨hkeep, hquiet⟩
  show Ends ((if ret == .exit || r.abort then _ else _ : EStateM Failure (TCPSpongeSocket α) _) s') _ _
  split
  · next hover =>
      rw [hcalm.abort, Bool.or_false, beq_iff_eq] at hover
      exact ⟨hkeep, fun _ => Finished.of_quiet hkeep (hquiet hover).2⟩
  · show Ends ((if s'.tcp.active then _ else _ : EStateM Failure (TCPSpongeSocket α) _) s') _ _
    split
    · refine ⟨hkeep, ?_⟩
      intro hover
      cases hover
    · refine ⟨hkeep, ?_⟩
      intro hover
      cases hover

end Round

/-- What calm rounds keep: the lasting rules, and a thread that is done has done everything. -/
structure Kept (t : Thread α) : Prop where
  rules : lasting.Sublist t.loop.rules
  done  : t.stage = .done → Finished t.socket

section Advance

variable {cfg : TCPConfig} {isn : WrappingInt32} {t : Thread α} {r : Round}

/-- Leaving a loop, the main one only if everything is done. -/
theorem Kept.leave (hrules : lasting.Sublist t.loop.rules)
    (hdone : t.stage = .main ∨ t.stage = .done → Finished t.socket) : Kept (t.leave r) := by
  unfold Thread.leave
  cases hstage : t.stage with
  | main =>
      have hfinished := hdone (Or.inl hstage)
      dsimp only
      cases FDWrapper.shutdown .rdwr r.ownerShutdown t.socket.toFDWrapper with
      | ok u fd => exact ⟨hrules, fun _ => { hfinished with }⟩
      | error e fd => exact ⟨hrules, fun hstage => nomatch hstage⟩
  | done => exact ⟨hrules, fun _ => hdone (Or.inr hstage)⟩
  | connecting | listening => exact ⟨hrules, fun hstage => nomatch hstage⟩
  | failed e => exact ⟨hrules, fun hstage' => nomatch hstage.symm.trans hstage'⟩

/-- **A calm round of a thread.** -/
theorem Kept.advance (h : Kept t) (hinv : t.Inv True cfg isn) (hcalm : Calm t r) : Kept (t.advance r) := by
  obtain ⟨r₀, before, hI⟩ := hinv.socket
  have hround := tcpRound_calm hcalm hI hinv.rules h.rules
  unfold Thread.advance
  split
  · next hcontinues =>
      have hopen : t.stage ≠ .done := by
        intro hdone
        rw [Thread.continues, hdone] at hcontinues
        cases hcontinues
      cases hres : tcpRound r t.loop t.baseTime t.socket with
      | ok out socket =>
          obtain ⟨finished, loop, baseTime⟩ := out
          rw [hres] at hround
          cases finished with
          | false => exact ⟨hround.1, fun hdone => absurd hdone hopen⟩
          | true => exact Kept.leave hround.1 fun _ => hround.2 rfl
      | error e socket =>
          refine ⟨h.rules, ?_⟩
          intro hdone
          cases hdone
  · next hcontinues =>
      refine Kept.leave h.rules ?_
      rintro (hmain | hdone)
      · rw [Thread.continues, hmain] at hcontinues
        exact absurd rfl hcontinues
      · exact h.done hdone

end Advance

/-! ## The end -/

section End

variable {cfg : TCPConfig} {isn : WrappingInt32}

/-- The owner of a socket whose connection is over has been told, and has got everything. -/
theorem Finished.owner {s : TCPSpongeSocket α} {r : Round} {before : List Op} (h : Finished s)
    (hI : TCPSpongeSocket.Inv True cfg isn r before s) :
    s.inboundShutdown = true ∧ s.threadData.calls.flatMap WritevCall.taken = (s.endpoint cfg isn).delivered := by
  have hfinal := Endpoint.finalInv_run cfg isn s.ops hI.discipline
  have htcp : s.tcp = (run Endpoint.step (Endpoint.ofConfig cfg isn) s.ops).conn := hI.tcp
  constructor
  · apply h.told
    rw [htcp]
    rcases hfinal.stopped (htcp ▸ h.inactive) with herror | ⟨hover, -⟩
    · exact Or.inr (hfinal.errors ▸ herror)
    · exact Or.inl hover.inbound
  · have hdrained : (s.endpoint cfg isn).conn.inboundStream.buf = [] := hI.tcp ▸ h.drained
    rw [← hI.taken trivial, Endpoint.delivered, hdrained, List.append_nil]

/-- An inactive connection without an error is closed, and everything was acknowledged. -/
theorem Finished.clean {s : TCPSpongeSocket α} {r : Round} {before : List Op} (h : Finished s)
    (hI : TCPSpongeSocket.Inv True cfg isn r before s) (herror : s.tcp.inboundStream.error = false) :
    s.tcp.state = TCPState.ofState .closed ∧ s.outboundShutdown = true ∧
      (s.endpoint cfg isn).conn.sender.sentBytes = s.threadData.received ∧
      (s.endpoint cfg isn).conn.sender.acked = (s.endpoint cfg isn).conn.sender.firstSent := by
  have hfinal : Endpoint.FinalInv s.ops (s.endpoint cfg isn) := Endpoint.finalInv_run cfg isn s.ops hI.discipline
  have hinactive : (s.endpoint cfg isn).conn.active = false := hI.tcp ▸ h.inactive
  have hnone : (s.endpoint cfg isn).conn.sender.stream.error = false := by
    rw [hfinal.errors]
    exact hI.tcp ▸ herror
  rcases hfinal.stopped hinactive with hset | ⟨hover, -⟩
  · rw [hnone] at hset
    cases hset
  · obtain ⟨-, hacked, hbytes, -, -⟩ := hfinal.settled.inv.finished hfinal.settled.drained hover.fin hover.acked
    refine ⟨hI.tcp ▸ hfinal.state_closed hinactive hnone hover, ?_, hbytes.trans hI.accepted, hacked⟩
    by_contra hopen
    exact hI.unended (by simpa using hopen) (hfinal.closed (hfinal.settled.inv.ended hover.fin))

theorem Finished.final {s : TCPSpongeSocket α} {r : Round} {before : List Op} (h : Finished s)
    (hI : TCPSpongeSocket.Inv True cfg isn r before s) :
    s.tcp.state = TCPState.ofState .closed ∨ s.tcp.state = TCPState.ofState .reset := by
  cases herror : s.tcp.inboundStream.error with
  | false => exact Or.inl (h.clean hI herror).1
  | true =>
      have hfinal : Endpoint.FinalInv s.ops (s.endpoint cfg isn) := Endpoint.finalInv_run cfg isn s.ops hI.discipline
      refine Or.inr (hI.tcp ▸ hfinal.state_reset (hI.tcp ▸ h.inactive) ?_)
      rw [hfinal.errors]
      exact hI.tcp ▸ herror

/-- **A thread that is done has done everything.** If nothing ends its loop from outside and no descriptor hangs up, the
    thread of a socket is done only when its connection is closed or was reset. Then every segment of the connection has
    been handed to the adapter, the owner has got all bytes of the inbound stream, and has been told of its end. If
    there was no error, the connection is closed, the owner has ended the outbound stream, and everything the owner has
    written was sent and acknowledged. -/
theorem finishes_when_over (cfg : TCPConfig) (config : FdAdapterConfig) (isn : WrappingInt32) (a : α) (now : Nat)
    (ha : Carrier.sent a = []) {client : Thread α} (hclient : connect cfg config isn a now = .ok client)
    {t : Thread α} (ht : t = client ∨ t = listenAndAccept cfg config isn a now) (rounds : List Round)
    (hcalm : Guarded Thread.advance Calm t rounds) :
    let t' := run Thread.advance t rounds
    let e := run Endpoint.step (Endpoint.ofConfig cfg isn) t'.socket.ops
    t'.stage = .done →
      (t'.socket.tcp.state = TCPState.ofState .closed ∨ t'.socket.tcp.state = TCPState.ofState .reset) ∧
      t'.socket.segmentsOut = [] ∧ t'.toOwner = e.delivered ∧ t'.socket.inboundShutdown = true ∧
      (t'.socket.tcp.inboundStream.error = false →
        t'.socket.tcp.state = TCPState.ofState .closed ∧ t'.socket.outboundShutdown = true ∧
        e.conn.sender.sentBytes = t'.fromOwner ∧ e.conn.sender.acked = e.conn.sender.firstSent) := by
  intro t' e hdone
  have hstart : t.Inv True cfg isn ∧ Kept t := by
    obtain rfl := Except.ok.inj ((connect_eq cfg config isn a now).symm.trans hclient)
    rcases ht with rfl | rfl
    · exact ⟨inv_connecting cfg config isn now fun _ => ha, lasting_sublist, fun hstage => nomatch hstage⟩
    · exact ⟨inv_listenAndAccept cfg config isn now fun _ => ha, lasting_sublist, fun hstage => nomatch hstage⟩
  have hend : t'.Inv True cfg isn ∧ Kept t' := hcalm.invariant (fun t => t.Inv True cfg isn ∧ Kept t) hstart
    fun t r h hr => ⟨(h.1.advance fun _ => hr.documented).1, h.2.advance h.1 hr⟩
  obtain ⟨r, before, hI⟩ := hend.1.socket
  have hfinished := hend.2.done hdone
  obtain ⟨htold, hgot⟩ := hfinished.owner hI
  exact ⟨hfinished.final hI, hfinished.sent, hgot, htold, hfinished.clean hI⟩

end End

/-- The datagrams of the server's FIN, and of its acknowledgment for the client's FIN. -/
def finDatagram : Buffer := [0, 80, 19, 136, 0, 0, 0, 101, 0, 0, 0, 1, 80, 17, 3, 232, 151, 200, 0, 0]
def lastAckDatagram : Buffer := [0, 80, 19, 136, 0, 0, 0, 102, 0, 0, 0, 2, 80, 16, 3, 232, 151, 199, 0, 0]

/-- A client connects, the server ends its stream, and then the owner of the client does the same. -/
def closingUDP : List Round :=
  [busy serverAddress [] none,
    busy serverAddress synAckDatagram none,
    busy serverAddress [] none,
    busy serverAddress finDatagram none,
    busy serverAddress [] (some []),
    busy serverAddress [] none,
    busy serverAddress lastAckDatagram none,
    busy serverAddress [] none]

theorem calm_busy {t : Thread TCPOverUDPSocketAdapter} {dgram : Buffer} (hlen : dgram.length ≤ 65535)
    (data : Option Buffer) (hfd : (FdAdapter.fd t.socket.datagramAdapter).eof = false ∧
      (FdAdapter.fd t.socket.datagramAdapter).closed = false) : Calm t (busy serverAddress dgram data) where
  documented := documented_busy serverAddress hlen data
  abort      := rfl
  signal     := fun _ hverdict => nomatch hverdict
  hangup     := fun _ _ => rfl
  eof        := hfd.1
  closed     := hfd.2

theorem calm_closingUDP : Guarded Thread.advance Calm pairUDP.a closingUDP :=
  ⟨calm_busy (by decide) _ (by decide +kernel), calm_busy (by decide) _ (by decide +kernel),
    calm_busy (by decide) _ (by decide +kernel), calm_busy (by decide) _ (by decide +kernel),
    calm_busy (by decide) _ (by decide +kernel), calm_busy (by decide) _ (by decide +kernel),
    calm_busy (by decide) _ (by decide +kernel), calm_busy (by decide) _ (by decide +kernel), trivial⟩

theorem finishes_when_over_udp :
    (run Thread.advance pairUDP.a closingUDP).stage = .done ∧
      (run Thread.advance pairUDP.a closingUDP).socket.tcp.state = TCPState.ofState .closed ∧
      (run Thread.advance pairUDP.a closingUDP).socket.inboundShutdown = true := by
  have hdone : (run Thread.advance pairUDP.a closingUDP).stage = .done := by decide +kernel
  obtain ⟨-, -, -, htold, hclean⟩ := finishes_when_over {} { source := clientAddress, destination := serverAddress }
    (.ofRaw 0) ({} : TCPOverUDPSocketAdapter) 0 rfl (connect_eq ..) (Or.inl rfl) closingUDP calm_closingUDP hdone
  exact ⟨hdone, (hclean (by decide +kernel)).1, htold⟩

end Sponge
