import Sponge.Wire.Accept
import Sponge.Wire.TCPOverIP

/-!
# `Wire.Peer` — an adapter locks onto one peer

`unwrap_tcp_in_ip` looks at the addresses before the payload is parsed and at the ports after it, asks for different
things while it listens, and rewrites its configuration before the last test. For a payload in one piece this comes
down to one decision about the segment that is carried (`unwrapTcpInIp_single`): it is taken, and then the adapter is
connected to the ends of that segment, or it is not, and then nothing has changed.

`exchanges` are the calls for a sequence of datagrams. A connected adapter takes the segments between its two ends
and stays as it is (`exchanges_connected`), so a listening one is done with choosing at the first segment it returns
(`locks_onto_peer`).
-/

namespace Sponge

open Lib

namespace TCPOverIPv4Adapter

/-! ## One datagram -/

/-- The segment in a datagram, if it is marked as TCP and parses. -/
def carried (ipDgram : IPv4Datagram) : Option TCPSegment :=
  if ipDgram.header.proto = IPv4Header.protoTcp then
    match TCPSegment.parse {} ipDgram.payload.concatenate ipDgram.header.pseudoCksum with
    | .ok (.noError, seg) => some seg
    | _                   => none
  else none

variable {a : TCPOverIPv4Adapter} {ipDgram : IPv4Datagram} {b : Buffer}

section Parsed

variable {r : ParseResult} {seg : TCPSegment}

theorem unwrapTcpInIp_of_proto (h : ipDgram.header.proto ≠ IPv4Header.protoTcp) :
    a.unwrapTcpInIp ipDgram = .ok (none, a) := by
  have hproto : (ipDgram.header.proto != IPv4Header.protoTcp) = true := bne_iff_ne.mpr h
  rw [unwrapTcpInIp]
  simp only [hproto, if_true]
  split
  · rfl
  · split <;> rfl

/-- A payload that does not parse is not looked at any further. -/
theorem unwrapTcpInIp_of_error (hbuffer : ipDgram.payload.toBuffer = .ok b)
    (hparse : TCPSegment.parse {} b ipDgram.header.pseudoCksum = .ok (r, seg)) (hr : r ≠ .noError) :
    a.unwrapTcpInIp ipDgram = .ok (none, a) := by
  have herr : (r != .noError) = true := bne_iff_ne.mpr hr
  rw [unwrapTcpInIp]
  simp only [hbuffer, hparse, bind, Except.bind, herr, if_true]
  split
  · rfl
  · split
    · rfl
    · split <;> rfl

end Parsed

/-- **What the adapter does with a datagram in one piece.** It never throws. -/
theorem unwrapTcpInIp_single (hsingle : ipDgram.payload = [b]) :
    a.unwrapTcpInIp ipDgram = .ok (((carried ipDgram).map (a.verdict ipDgram)).getD (none, a)) := by
  have hbuffer : ipDgram.payload.toBuffer = .ok b := by rw [hsingle]; rfl
  have hconcat : ipDgram.payload.concatenate = b := by rw [hsingle]; exact List.flatten_singleton
  obtain ⟨r, seg, hparse, -⟩ := TCPSegment.parse_outcome {} b ipDgram.header.pseudoCksum
  by_cases hproto : ipDgram.header.proto = IPv4Header.protoTcp
  · by_cases hr : r = .noError
    · rw [hr] at hparse
      have hcarried : carried ipDgram = some seg := by rw [carried, if_pos hproto, hconcat, hparse]
      rw [hcarried]
      exact a.unwrapTcpInIp_of_parse hproto hbuffer hparse
    · have hcarried : carried ipDgram = none := by
        rw [carried, if_pos hproto, hconcat, hparse]
        cases r <;> first | rfl | exact absurd rfl hr
      rw [hcarried]
      exact unwrapTcpInIp_of_error hbuffer hparse hr
  · have hcarried : carried ipDgram = none := by rw [carried, if_neg hproto]
    rw [hcarried]
    exact unwrapTcpInIp_of_proto hproto

/-- The same by cases: nothing is returned and nothing has changed, or a segment is taken. -/
theorem unwrapTcpInIp_cases (a : TCPOverIPv4Adapter) (hsingle : ∃ b, ipDgram.payload = [b]) :
    a.unwrapTcpInIp ipDgram = .ok (none, a) ∨
      ∃ seg, a.Takes ipDgram seg ∧ a.unwrapTcpInIp ipDgram = .ok (some seg, ⟨endsOf a.config ipDgram seg, false⟩) := by
  obtain ⟨b, hb⟩ := hsingle
  rw [unwrapTcpInIp_single hb]
  cases carried ipDgram with
  | none => exact Or.inl rfl
  | some seg =>
      rw [Option.map_some, Option.getD_some, verdict]
      split
      · next htakes => exact Or.inr ⟨seg, htakes, rfl⟩
      · exact Or.inl rfl

/-! ## Many datagrams -/

/-- A call of `unwrapTcpInIp`: the adapter before it, the datagram, what is returned, and the adapter after it. -/
structure Exchange where
  before : TCPOverIPv4Adapter
  dgram  : IPv4Datagram
  out    : Option TCPSegment
  after  : TCPOverIPv4Adapter

/-- The calls for one datagram after the other. -/
def exchanges (a : TCPOverIPv4Adapter) : List IPv4Datagram → Except Exn (List Exchange)
  | []      => .ok []
  | d :: ds => do
    let (out, a') ← a.unwrapTcpInIp d
    let rest ← a'.exchanges ds
    return ⟨a, d, out, a'⟩ :: rest

theorem exchanges_cons {a a' : TCPOverIPv4Adapter} {d : IPv4Datagram} {out : Option TCPSegment}
    (hd : a.unwrapTcpInIp d = .ok (out, a')) (ds : List IPv4Datagram) :
    a.exchanges (d :: ds) = (a'.exchanges ds).map (⟨a, d, out, a'⟩ :: ·) := by
  rw [exchanges, hd]
  show (a'.exchanges ds >>= _) = _
  cases a'.exchanges ds <;> rfl

theorem exchanges_head {a a' : TCPOverIPv4Adapter} {d : IPv4Datagram} {ds : List IPv4Datagram}
    {out : Option TCPSegment} {x : Exchange} {xs : List Exchange} (hd : a.unwrapTcpInIp d = .ok (out, a'))
    (h : a.exchanges (d :: ds) = .ok (x :: xs)) : x = ⟨a, d, out, a'⟩ := by
  rw [exchanges_cons hd] at h
  cases hrest : a'.exchanges ds with
  | error e =>
      rw [hrest] at h
      exact nomatch h
  | ok rest =>
      rw [hrest] at h
      exact (List.cons.inj (Except.ok.inj h)).1.symm

/-- The adapter is connected to `config` before and after the call, and returns only what belongs there. -/
structure Exchange.Within (config : FdAdapterConfig) (x : Exchange) : Prop where
  before : x.before = ⟨config, false⟩
  after  : x.after = ⟨config, false⟩
  ends   : ∀ seg, x.out = some seg → endsOf config x.dgram seg = config

/-- A connected adapter does not change, since what it takes comes from where it is connected to. -/
theorem unwrapTcpInIp_connected (config : FdAdapterConfig) (hsingle : ∃ b, ipDgram.payload = [b]) :
    ∃ out, unwrapTcpInIp ⟨config, false⟩ ipDgram = .ok (out, ⟨config, false⟩) ∧
      ∀ seg, out = some seg → endsOf config ipDgram seg = config := by
  rcases unwrapTcpInIp_cases ⟨config, false⟩ hsingle with hnone | ⟨seg, htakes, hsome⟩
  · refine ⟨none, hnone, ?_⟩
    intro seg hseg
    exact nomatch hseg
  · have hends : endsOf config ipDgram seg = config := htakes
    rw [hends] at hsome
    refine ⟨some seg, hsome, ?_⟩
    intro seg' hseg
    rw [← Option.some.inj hseg, hends]

/-- **A connected adapter stays connected**, whatever arrives. -/
theorem exchanges_connected (config : FdAdapterConfig) {ds : List IPv4Datagram}
    (hsingle : ∀ d ∈ ds, ∃ b, d.payload = [b]) :
    ∃ xs, exchanges ⟨config, false⟩ ds = .ok xs ∧ xs.map Exchange.dgram = ds ∧ ∀ x ∈ xs, x.Within config := by
  induction ds with
  | nil => exact ⟨[], rfl, rfl, by simp⟩
  | cons d ds ih =>
      obtain ⟨out, hout, hends⟩ := unwrapTcpInIp_connected config (hsingle d List.mem_cons_self)
      obtain ⟨xs, hxs, hdgram, hwithin⟩ := ih fun d' hd' => hsingle d' (List.mem_cons_of_mem _ hd')
      refine ⟨_, by rw [exchanges_cons hout, hxs]; rfl, by rw [List.map_cons, hdgram], ?_⟩
      intro x hx
      rcases List.mem_cons.mp hx with rfl | hx
      · exact ⟨rfl, rfl, hends⟩
      · exact hwithin x hx

/-- A call that returns nothing and changes nothing. -/
structure Exchange.Idle (a : TCPOverIPv4Adapter) (x : Exchange) : Prop where
  before : x.before = a
  out    : x.out = none
  after  : x.after = a

/-- The call that ends the listening: a SYN is taken, and the adapter is connected to its ends. -/
structure Exchange.Locks (a : TCPOverIPv4Adapter) (x : Exchange) (seg : TCPSegment) : Prop where
  before : x.before = a
  out    : x.out = some seg
  syn    : seg.header.syn = true
  rst    : seg.header.rst = false
  dport  : seg.header.dport = a.config.source.port
  after  : x.after = ⟨endsOf a.config x.dgram seg, false⟩

/-- A listening adapter is idle until it locks onto a peer. -/
theorem exchanges_listening (hlisten : a.listening = true) {ds : List IPv4Datagram}
    (hsingle : ∀ d ∈ ds, ∃ b, d.payload = [b]) :
    ∃ waiting rest, a.exchanges ds = .ok (waiting ++ rest) ∧ (waiting ++ rest).map Exchange.dgram = ds ∧
      (∀ x ∈ waiting, x.Idle a) ∧
      ∀ first later, rest = first :: later →
        ∃ seg, first.Locks a seg ∧ ∀ x ∈ later, x.Within (endsOf a.config first.dgram seg) := by
  induction ds with
  | nil => exact ⟨[], [], rfl, rfl, by simp, by simp⟩
  | cons d ds ih =>
      have htail : ∀ d' ∈ ds, ∃ b, d'.payload = [b] := fun d' hd' => hsingle d' (List.mem_cons_of_mem _ hd')
      rcases unwrapTcpInIp_cases a (hsingle d List.mem_cons_self) with hnone | ⟨seg, htakes, hsome⟩
      · obtain ⟨waiting, rest, hxs, hdgram, hidle, hlocked⟩ := ih htail
        refine ⟨_ :: waiting, rest, by rw [exchanges_cons hnone, hxs]; rfl, ?_, ?_, hlocked⟩
        · rw [List.cons_append, List.map_cons, hdgram]
        · intro x hx
          rcases List.mem_cons.mp hx with rfl | hx
          · exact ⟨rfl, rfl, rfl⟩
          · exact hidle x hx
      · obtain ⟨xs, hxs, hdgram, hwithin⟩ := exchanges_connected (endsOf a.config d seg) htail
        refine ⟨[], _ :: xs, by rw [exchanges_cons hsome, hxs]; rfl, ?_, by simp, ?_⟩
        · rw [List.nil_append, List.map_cons, hdgram]
        · intro first later h
          obtain ⟨rfl, rfl⟩ := List.cons.inj h
          rw [Takes, if_pos hlisten] at htakes
          exact ⟨seg, ⟨rfl, rfl, htakes.2.1, htakes.2.2, htakes.1, rfl⟩, hwithin⟩

/-- **The adapter locks onto one peer.** Datagrams in one piece are passed to a listening adapter. Nothing throws, and
    a call that returns nothing changes nothing. There is a number of calls that return nothing and leave the adapter
    as it was; if another one follows, it returns a segment to the configured port with SYN and without RST. From then
    on the adapter does not change, and everything it returns has the addresses and ports of that segment. -/
theorem locks_onto_peer (a : TCPOverIPv4Adapter) (hlisten : a.listening = true) (ds : List IPv4Datagram)
    (hsingle : ∀ d ∈ ds, ∃ b, d.payload = [b]) :
    ∃ waiting rest, a.exchanges ds = .ok (waiting ++ rest) ∧ (waiting ++ rest).map Exchange.dgram = ds ∧
      (∀ x ∈ waiting ++ rest, x.out = none → x.after = x.before) ∧
      (∀ x ∈ waiting, x.before = a ∧ x.out = none ∧ x.after = a) ∧
      ∀ first later, rest = first :: later →
        ∃ seg, first.before = a ∧ first.out = some seg ∧
          seg.header.syn = true ∧ seg.header.rst = false ∧ seg.header.dport = a.config.source.port ∧
          ∀ x ∈ later, x.before = first.after ∧ x.after = first.after ∧
            ∀ seg', x.out = some seg' →
              x.dgram.header.src = first.dgram.header.src ∧ seg'.header.sport = seg.header.sport ∧
              x.dgram.header.dst = first.dgram.header.dst ∧ seg'.header.dport = seg.header.dport := by
  obtain ⟨waiting, rest, hxs, hdgram, hidle, hlocked⟩ := exchanges_listening hlisten hsingle
  refine ⟨waiting, rest, hxs, hdgram, ?_, ?_, ?_⟩
  · intro x hx hnone
    rcases List.mem_append.mp hx with hwaiting | hx
    · rw [(hidle x hwaiting).before, (hidle x hwaiting).after]
    · cases rest with
      | nil => simp at hx
      | cons first later =>
          obtain ⟨seg, hfirst, hlater⟩ := hlocked first later rfl
          rcases List.mem_cons.mp hx with rfl | hx
          · rw [hfirst.out] at hnone
            exact absurd hnone (Option.some_ne_none seg)
          · rw [(hlater x hx).before, (hlater x hx).after]
  · intro x hx
    exact ⟨(hidle x hx).before, (hidle x hx).out, (hidle x hx).after⟩
  · intro first later hrest
    obtain ⟨seg, hfirst, hlater⟩ := hlocked first later hrest
    refine ⟨seg, hfirst.before, hfirst.out, hfirst.syn, hfirst.rst, hfirst.dport, ?_⟩
    intro x hx
    have hwithin := hlater x hx
    refine ⟨by rw [hwithin.before, hfirst.after], by rw [hwithin.after, hfirst.after], ?_⟩
    intro seg' hout
    obtain ⟨hdst, hsrc, hdport, hsport⟩ := endsOf_eq_iff.mp (hwithin.ends seg' hout)
    exact ⟨hsrc, hsport, hdst, hdport⟩

/-- A SYN to port 80 of `10.0.0.2`, as a datagram in one piece. -/
def synFrom (source : Address) : IPv4Datagram :=
  let client : TCPOverIPv4Adapter := { config := { source, destination := ⟨0x0a000002, 80⟩ } }
  ⟨(client.datagram { header := { syn := true } }).headerOut,
    [(client.datagram { header := { syn := true } }).payload.concatenate]⟩

/-- Two hosts send a SYN to a listening adapter: the first is let in, the second is not. -/
theorem locks_onto_peer_two_hosts :
    ∃ x y, exchanges { config := { source := ⟨0, 80⟩ }, listening := true }
        [synFrom ⟨0x0a000001, 5000⟩, synFrom ⟨0x0a000003, 5000⟩] = .ok [x, y] ∧
      x.out.isSome = true ∧ y.out = none ∧ y.after = x.after := by
  obtain ⟨waiting, rest, hxs, hdgram, -, hwaiting, hlocked⟩ :=
    locks_onto_peer { config := { source := ⟨0, 80⟩ }, listening := true } rfl
      [synFrom ⟨0x0a000001, 5000⟩, synFrom ⟨0x0a000003, 5000⟩]
      (by
        intro d hd
        simp only [List.mem_cons, List.not_mem_nil, or_false] at hd
        rcases hd with rfl | rfl <;> exact ⟨_, rfl⟩)
  have hopens : Accepts { config := { source := ⟨0x0a000001, 5000⟩, destination := ⟨0x0a000002, 80⟩ } }
      { config := { source := ⟨0, 80⟩ }, listening := true } { header := { syn := true } } := ⟨rfl, rfl, rfl, rfl⟩
  obtain ⟨b', hfirst, -⟩ := unwrapTcpInIp_eq (by decide) (by decide) (by decide) (Or.inr hopens)
  cases waiting with
  | cons w waiting =>
      -- the first call returns a segment, so it is not one of those that wait
      have hout := (hwaiting w List.mem_cons_self).2.1
      rw [exchanges_head hfirst hxs] at hout
      exact nomatch hout
  | nil =>
      rw [List.nil_append] at hxs hdgram
      obtain ⟨x, tail, rfl, hx, htail⟩ := List.map_eq_cons_iff.mp hdgram
      obtain ⟨y, tail, rfl, hy, hnil⟩ := List.map_eq_cons_iff.mp htail
      obtain rfl := List.map_eq_nil_iff.mp hnil
      obtain ⟨seg, -, hout, -, -, -, hlater⟩ := hlocked x [y] rfl
      obtain ⟨-, hafter, hpeer⟩ := hlater y List.mem_cons_self
      refine ⟨x, y, hxs, by rw [hout]; rfl, ?_, hafter⟩
      cases hsecond : y.out with
      | none => rfl
      | some seg' =>
          have hsrc := (hpeer seg' hsecond).1
          rw [hx, hy] at hsrc
          have hne : (0x0a000003 : UInt32) ≠ 0x0a000001 := by decide
          exact absurd hsrc hne

end TCPOverIPv4Adapter

end Sponge
