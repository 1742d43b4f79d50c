import Sponge.Adapter
import Sponge.Wire.Peer

/-!
# `Adapter.Tun` — segments in IPv4 datagrams, over a TUN device

Each `read` of the device gives one datagram, and each `write` takes one. Which segments are taken out of the
datagrams is decided by `TCPOverIPv4Adapter`; here it is connected to the device. `TakesWhole` is what is assumed of
the device: if it took part of a datagram, `write` would hand it the rest as another one.
-/

namespace Sponge

open Lib Util

/-- An adapter for IPv4 datagrams that are read from and written to a TUN device. -/
structure TCPOverIPv4OverTunFdAdapter extends TCPOverIPv4Adapter where
  tun : FDWrapper := {}

namespace TCPOverIPv4OverTunFdAdapter

open TCPOverIPv4Adapter (sealed datagram)

/-- Work on the device. -/
def onTun {β : Type} (m : EStateM Failure FDWrapper β) : EStateM Failure TCPOverIPv4OverTunFdAdapter β :=
  zoom tun (fun tun a => { a with tun }) m

/-- Read a datagram, and take the segment out of it if it is for us. -/
def read (net : NetAnswers) : EStateM Failure TCPOverIPv4OverTunFdAdapter (Option TCPSegment) := do
  let bytes ← onTun (FDWrapper.read net.read (2 ^ 64 - 1))
  let (result, ipDgram) ← throwing (IPv4Datagram.parse {} bytes)
  if result != .noError then
    return none
  let a ← get
  let (seg, base) ← throwing (a.unwrapTcpInIp ipDgram)
  set { a with toTCPOverIPv4Adapter := base }
  return seg

/-- Write a segment in a datagram. -/
def write (net : NetAnswers) (seg : TCPSegment) : EStateM Failure TCPOverIPv4OverTunFdAdapter Unit := do
  let (ipDgram, _) ← throwing ((← get).wrapTcpInIp seg)
  let bytes ← throwing ipDgram.serialize
  let _ ← onTun (FDWrapper.write net.writev bytes.views true)

instance : FdAdapter TCPOverIPv4OverTunFdAdapter where
  fd           := tun
  config       := fun a => a.config
  setConfig    := fun config a => { a with config }
  setListening := fun listening a => { a with listening }
  tick         := fun _ a => a
  read         := read
  write        := write

/-- The datagrams that were written. -/
def sent (a : TCPOverIPv4OverTunFdAdapter) : List Buffer := a.tun.calls.map WritevCall.given

/-- The bytes of the datagram that an adapter makes of a segment. -/
def wireBytes (base : TCPOverIPv4Adapter) (seg : TCPSegment) : Buffer :=
  BufferList.concatenate ((base.datagram seg).headerBytes :: (base.datagram seg).payload)

/-! ## What is read was written -/

variable {base : TCPOverIPv4Adapter} {ipDgram : IPv4Datagram} {seg seg' : TCPSegment}

/-- The segment that is returned is the one in the datagram. -/
theorem carried_of_unwrap {b : Buffer} {base' : TCPOverIPv4Adapter} (hsingle : ipDgram.payload = [b])
    (h : base.unwrapTcpInIp ipDgram = .ok (some seg, base')) : TCPOverIPv4Adapter.carried ipDgram = some seg := by
  rw [TCPOverIPv4Adapter.unwrapTcpInIp_single hsingle] at h
  cases hcarried : TCPOverIPv4Adapter.carried ipDgram with
  | none =>
      rw [hcarried] at h
      cases h
  | some seg' =>
      rw [hcarried, Option.map_some, Option.getD_some, TCPOverIPv4Adapter.verdict] at h
      split at h
      · rw [Except.ok.injEq, Prod.mk.injEq] at h
        exact h.1
      · cases h

/-- What an adapter gets out of the bytes that another one has made of a segment, whatever their configurations. -/
theorem sealed_of_unwrap {received : IPv4Datagram} {reader reader' : TCPOverIPv4Adapter} (hfits : FitsDatagram seg)
    (hparse : IPv4Datagram.parse {} (wireBytes base seg) = .ok (.noError, received))
    (hunwrap : reader.unwrapTcpInIp received = .ok (some seg', reader')) : seg' = base.sealed seg := by
  have hbytes := IPv4Datagram.parse_bytes (TCPOverIPv4Adapter.fits_datagram base seg)
    (TCPOverIPv4Adapter.len_datagram hfits.doff_ge hfits.size_ip) {}
  obtain rfl : received = _ := (Prod.mk.inj (Except.ok.inj (hparse.symm.trans hbytes))).2
  -- the adapter at the other end takes it
  obtain ⟨peer, hpeer, -⟩ := TCPOverIPv4Adapter.unwrapTcpInIp_eq (a := base)
    (b := { config := { source := base.config.destination, destination := base.config.source } }) hfits.doff_ge
    hfits.doff_le hfits.size_ip (Or.inl ⟨rfl, rfl, rfl⟩)
  exact Option.some.inj ((carried_of_unwrap rfl hunwrap).symm.trans (carried_of_unwrap rfl hpeer))

/-- **Reading**, whatever the kernel answers. -/
theorem read_ends (net : NetAnswers) (a : TCPOverIPv4OverTunFdAdapter) :
    Ends (read net a)
      (fun r a' => a'.sent = a.sent ∧ a'.tun.readCount = a.tun.registerRead.readCount ∧
        ∀ seg, r = some seg → ∃ bytes ipDgram base base',
          (net.read FDWrapper.bufferSize).Yields bytes ∧ IPv4Datagram.parse {} bytes = .ok (.noError, ipDgram) ∧
          TCPOverIPv4Adapter.unwrapTcpInIp base ipDgram = .ok (some seg, base'))
      (fun _ a' => a'.sent = a.sent) := by
  have hread := Ends.zoom (fun tun (a : TCPOverIPv4OverTunFdAdapter) => { a with tun }) a
    (FDWrapper.read_ends net.read (2 ^ 64 - 1) a.tun)
  refine (hread.mono (fun _ _ h => h) ?_).bind ?_
  · rintro _ _ ⟨tun, rfl, rfl⟩
    exact rfl
  · rintro bytes _ ⟨tun, rfl, -, hyields, rfl⟩
    show Ends (EStateM.bind (throwing (IPv4Datagram.parse {} bytes)) _ _) _ _
    unfold EStateM.bind
    cases hparse : IPv4Datagram.parse {} bytes with
    | error e => exact rfl
    | ok r =>
        obtain ⟨result, ipDgram⟩ := r
        show Ends ((if _ then _ else _ : EStateM Failure TCPOverIPv4OverTunFdAdapter _) _) _ _
        split
        · exact ⟨rfl, rfl, fun _ h => nomatch h⟩
        · next hresult =>
            have hok : result = .noError := by simpa using hresult
            show Ends (EStateM.bind (throwing (a.unwrapTcpInIp ipDgram)) _ _) _ _
            unfold EStateM.bind
            cases hunwrap : a.unwrapTcpInIp ipDgram with
            | error e => exact rfl
            | ok r =>
                obtain ⟨out, base⟩ := r
                refine ⟨rfl, rfl, ?_⟩
                rintro seg rfl
                exact ⟨bytes, ipDgram, _, base, hyields, by rw [hparse, hok], hunwrap⟩

/-- The datagram of a segment that fits is serialized without an exception. -/
theorem write_of_fits (net : NetAnswers) (hfits : FitsDatagram seg) (a : TCPOverIPv4OverTunFdAdapter) :
    write net seg a = (onTun (FDWrapper.write net.writev
      (BufferList.views ((a.datagram seg).headerBytes :: (a.datagram seg).payload)) true) >>= fun _ => pure ()) a := by
  have hserialize := IPv4Datagram.serialize_eq (TCPOverIPv4Adapter.fits_datagram a.toTCPOverIPv4Adapter seg)
    (TCPOverIPv4Adapter.len_datagram hfits.doff_ge hfits.size_ip)
  show EStateM.bind (throwing (a.wrapTcpInIp seg)) _ a = _
  rw [TCPOverIPv4Adapter.wrapTcpInIp_eq hfits.doff_ge]
  show EStateM.bind (throwing (a.datagram seg).serialize) _ a = _
  rw [hserialize]
  rfl

/-- **Writing** hands the device the datagram of the segment, and nothing else. -/
theorem write_ends {net : NetAnswers} (hnet : FDWrapper.TakesWhole net.writev) (hfits : FitsDatagram seg)
    (a : TCPOverIPv4OverTunFdAdapter) :
    Ends (write net seg a) (fun _ a' => a'.sent = a.sent ++ [wireBytes a.toTCPOverIPv4Adapter seg])
      (fun _ a' => a'.sent = a.sent ++ [wireBytes a.toTCPOverIPv4Adapter seg]) := by
  have hlen := TCPOverIPv4Adapter.len_datagram (a := a.toTCPOverIPv4Adapter) hfits.doff_ge hfits.size_ip
  have hsize : (BufferList.views ((a.datagram seg).headerBytes :: (a.datagram seg).payload)).size ≤ 65535 := by
    have hheader : (a.datagram seg).headerBytes.length = 4 * (a.datagram seg).header.hlen.toNat :=
      IPv4Header.length_bytes (h := (a.datagram seg).headerOut)
        (TCPOverIPv4Adapter.fits_datagram a.toTCPOverIPv4Adapter seg).hlen.1
    have hlt := (a.datagram seg).header.len.toNat_lt
    rw [BufferList.size_views, BufferList.size, List.map_cons, List.sum_cons, hheader]
    exact hlen.symm.trans_le (Nat.le_of_lt_succ hlt)
  obtain ⟨c, hgiven, hwrite⟩ := FDWrapper.write_whole_ends hnet hsize a.tun
  have hends := Ends.zoom (fun tun (a : TCPOverIPv4OverTunFdAdapter) => { a with tun }) a hwrite
  have hsent {tun : FDWrapper} (h : tun.calls = a.tun.calls ++ [c]) :
      sent { a with tun } = a.sent ++ [wireBytes a.toTCPOverIPv4Adapter seg] := by
    rw [sent, h, List.map_append, List.map_singleton, hgiven, BufferList.bytes_views]
    rfl
  rw [write_of_fits net hfits]
  refine (hends.mono (fun _ _ h => h) ?_).bind ?_
  · rintro _ _ ⟨tun, rfl, h⟩
    exact hsent h
  · rintro _ _ ⟨tun, rfl, h⟩
    exact hsent h

theorem read_throws (net : NetAnswers) (a : TCPOverIPv4OverTunFdAdapter) :
    Ends (read net a) (fun _ _ => True) (fun e _ => e.ofCall = true) := by
  have hread := Ends.zoom_throws (fun tun (a : TCPOverIPv4OverTunFdAdapter) => { a with tun }) a
    (FDWrapper.read_throws net.read (2 ^ 64 - 1) a.tun)
  refine hread.bind ?_
  rintro bytes a' -
  -- neither the datagram nor the segment in it makes the adapter throw
  obtain ⟨result, header, payload, hparse⟩ := IPv4Datagram.parse_single {} bytes
  have hunwrap : a'.unwrapTcpInIp ⟨header, [payload]⟩ = _ := TCPOverIPv4Adapter.unwrapTcpInIp_single rfl
  show Ends (EStateM.bind (throwing (IPv4Datagram.parse {} bytes)) _ a') _ _
  rw [hparse]
  show Ends ((if _ then _ else _ : EStateM Failure TCPOverIPv4OverTunFdAdapter _) a') _ _
  split
  · exact trivial
  · show Ends (EStateM.bind (throwing (a'.unwrapTcpInIp ⟨header, [payload]⟩)) _ a') _ _
    rw [hunwrap]
    exact trivial

theorem write_throws (net : NetAnswers) (hfits : FitsDatagram seg) (a : TCPOverIPv4OverTunFdAdapter) :
    Ends (write net seg a) (fun _ _ => True) (fun e _ => e.ofCall = true) := by
  rw [write_of_fits net hfits]
  have hwrite (buffer : BufferViewList) := Ends.zoom_throws
    (fun tun (a : TCPOverIPv4OverTunFdAdapter) => { a with tun }) a
    (FDWrapper.write_throws net.writev buffer true a.tun)
  exact (hwrite _).bind fun _ _ _ => trivial

instance : Carrier TCPOverIPv4OverTunFdAdapter where
  sent        := sent
  arrived     := fun net => (net.read FDWrapper.bufferSize).data
  encodes     := fun seg b => ∃ base, b = wireBytes base seg
  decodes     := fun b seg => ∃ ipDgram base base', IPv4Datagram.parse {} b = .ok (.noError, ipDgram) ∧
    TCPOverIPv4Adapter.unwrapTcpInIp base ipDgram = .ok (some seg, base')
  documented  := fun net => (net.read FDWrapper.bufferSize).Documented FDWrapper.bufferSize ∧
    FDWrapper.TakesWhole net.writev
  read_ends   := by
    intro net a hnet
    refine (read_ends net a).mono ?_ fun _ _ h => h
    rintro r a' ⟨hsent, -, hseg⟩
    refine ⟨hsent, ?_⟩
    intro seg hr
    obtain ⟨bytes, ipDgram, base, base', hyields, hdecodes⟩ := hseg seg hr
    obtain rfl := hnet.1.data_eq (by decide) hyields
    exact ⟨ipDgram, base, base', hdecodes⟩
  write_ends  := by
    intro net seg a hnet hfits
    have hmono : ∀ a' : TCPOverIPv4OverTunFdAdapter, a'.sent = a.sent ++ [wireBytes a.toTCPOverIPv4Adapter seg] →
        ∃ new, a'.sent = a.sent ++ new ∧ ∀ b ∈ new, ∃ base, b = wireBytes base seg := by
      intro a' h
      refine ⟨_, h, ?_⟩
      intro b hb
      exact ⟨_, List.mem_singleton.mp hb⟩
    exact (write_ends hnet.2 hfits a).mono (fun _ a' => hmono a') fun _ a' => hmono a'
  codec       := by
    rintro seg b seg' hfits ⟨base, rfl⟩ ⟨ipDgram, reader, reader', hparse, hunwrap⟩
    obtain rfl := sealed_of_unwrap hfits hparse hunwrap
    exact ⟨rfl, rfl⟩
  sent_setConfig    := fun _ _ => rfl
  sent_setListening := fun _ _ => rfl
  sent_tick         := fun _ _ => rfl
  counts_read       := by
    intro net a
    refine (read_ends net a).mono ?_ fun _ _ _ => trivial
    rintro r a' ⟨-, hcount, -⟩
    show a'.tun.readCount ≠ a.tun.readCount
    rw [hcount]
    exact a.tun.readCount_registerRead_ne
  read_throws       := read_throws
  write_throws      := fun net _ a hfits => write_throws net hfits a

end TCPOverIPv4OverTunFdAdapter

end Sponge
