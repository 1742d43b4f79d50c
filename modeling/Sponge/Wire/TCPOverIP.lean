import Sponge.Wire.IPv4
import Sponge.Wire.Segment

/-!
# `Wire.TCPOverIP` — TCP segments in IPv4 datagrams

An adapter wraps segments in datagrams between its own address and its peer's, and unwraps the datagrams that come
from there. While it listens it takes the addresses from the first SYN. Once the segment in a datagram is parsed, all
that the adapter still does is to take it or not (`unwrapTcpInIp_of_parse`). `survives_wire` follows a segment from
one adapter over the bytes of a datagram to the other.

An `Address` is an IPv4 number and a port; that the platform's addresses give back what they were made of is
assumed. The configuration of an adapter holds loss rates too, which only `Adapter.Lossy` looks at.
-/

namespace Sponge

open Lib

structure Address where
  ipv4Numeric : UInt32 := 0
  port        : UInt16 := 0
deriving DecidableEq

/-- The two ends of a connection, and the loss rates, of 65536, for the way in and the way out. -/
structure FdAdapterConfig where
  source      : Address := {}
  destination : Address := {}
  lossRateDn  : UInt16 := 0
  lossRateUp  : UInt16 := 0
deriving DecidableEq

/-- The segment with the ports of a configuration. -/
def FdAdapterConfig.addressed (config : FdAdapterConfig) (seg : TCPSegment) : TCPSegment :=
  { seg with header := { seg.header with sport := config.source.port, dport := config.destination.port } }

/-- A converter from TCP segments to IPv4 datagrams. -/
structure TCPOverIPv4Adapter where
  config    : FdAdapterConfig := {}
  listening : Bool := false
deriving DecidableEq

namespace TCPOverIPv4Adapter

/-- The segment in a datagram, if it is valid and belongs to the connection. A listening adapter takes the addresses
    of the connection from the first SYN. -/
def unwrapTcpInIp (a : TCPOverIPv4Adapter) (ipDgram : IPv4Datagram) :
    Except Exn (Option TCPSegment × TCPOverIPv4Adapter) := do
  -- is the datagram for us, and from our peer?
  if !a.listening && ipDgram.header.dst != a.config.source.ipv4Numeric then return (none, a)
  if !a.listening && ipDgram.header.src != a.config.destination.ipv4Numeric then return (none, a)
  if ipDgram.header.proto != IPv4Header.protoTcp then return (none, a)
  -- is the payload a valid segment?
  let (result, tcpSeg) ← TCPSegment.parse {} (← ipDgram.payload.toBuffer) ipDgram.header.pseudoCksum
  if result != .noError then return (none, a)
  -- is the segment for us?
  if tcpSeg.header.dport != a.config.source.port then return (none, a)
  let mut a := a
  if a.listening then
    if tcpSeg.header.syn && !tcpSeg.header.rst then
      a :=
        { config := { a.config with
            source := { ipv4Numeric := ipDgram.header.dst, port := a.config.source.port }
            destination := { ipv4Numeric := ipDgram.header.src, port := tcpSeg.header.sport } }
          listening := false }
    else return (none, a)
  -- is the segment from our peer?
  if tcpSeg.header.sport != a.config.destination.port then return (none, a)
  return (some tcpSeg, a)

/-- Set the ports of the segment and wrap it in a datagram. -/
def wrapTcpInIp (a : TCPOverIPv4Adapter) (seg : TCPSegment) : Except Exn (IPv4Datagram × TCPSegment) := do
  let seg := a.config.addressed seg
  let header : IPv4Header :=
    { src := a.config.source.ipv4Numeric, dst := a.config.destination.ipv4Numeric }
  let header := { header with
    len := UInt16.ofNat (header.hlen.toNat * 4 + seg.header.doff.toNat * 4 + seg.payload.length) }
  let payload ← seg.serialize header.pseudoCksum
  return ({ header, payload }, seg)

/-! ## What is taken -/

section Taken

/-- A configuration with the two ends of a segment, as its receiver sees them. -/
def endsOf (config : FdAdapterConfig) (ipDgram : IPv4Datagram) (seg : TCPSegment) : FdAdapterConfig :=
  { config with
    source      := ⟨ipDgram.header.dst, seg.header.dport⟩
    destination := ⟨ipDgram.header.src, seg.header.sport⟩ }

/-- The segment opens a connection to a listening adapter. -/
def Opens (a : TCPOverIPv4Adapter) (seg : TCPSegment) : Prop :=
  seg.header.dport = a.config.source.port ∧ seg.header.syn = true ∧ seg.header.rst = false

/-- The adapter takes the segment. -/
def Takes (a : TCPOverIPv4Adapter) (ipDgram : IPv4Datagram) (seg : TCPSegment) : Prop :=
  if a.listening then a.Opens seg else endsOf a.config ipDgram seg = a.config

instance (a : TCPOverIPv4Adapter) (seg : TCPSegment) : Decidable (a.Opens seg) := by
  unfold Opens; infer_instance

instance (a : TCPOverIPv4Adapter) (ipDgram : IPv4Datagram) (seg : TCPSegment) : Decidable (a.Takes ipDgram seg) := by
  unfold Takes; infer_instance

variable {a : TCPOverIPv4Adapter} {ipDgram : IPv4Datagram} {b : Buffer} {seg : TCPSegment}

/-- What comes back for a segment, depending on whether the adapter takes it. -/
def verdict (a : TCPOverIPv4Adapter) (ipDgram : IPv4Datagram) (seg : TCPSegment) :
    Option TCPSegment × TCPOverIPv4Adapter :=
  if a.Takes ipDgram seg then (some seg, ⟨endsOf a.config ipDgram seg, false⟩) else (none, a)

/-- While the adapter listens, the test against the peer comes after the peer was set, and never fails. -/
theorem unwrapTcpInIp_of_listening (hproto : ipDgram.header.proto = IPv4Header.protoTcp)
    (hbuffer : ipDgram.payload.toBuffer = .ok b)
    (hparse : TCPSegment.parse {} b ipDgram.header.pseudoCksum = .ok (.noError, seg)) (hlisten : a.listening = true) :
    a.unwrapTcpInIp ipDgram = .ok (a.verdict ipDgram seg) := by
  have htakes : a.Takes ipDgram seg ↔ a.Opens seg := by rw [Takes, if_pos hlisten]
  have hunwrap : a.unwrapTcpInIp ipDgram =
      if seg.header.dport != a.config.source.port then .ok (none, a)
      else if seg.header.syn && !seg.header.rst then
        .ok (some seg, ⟨{ a.config with
          source      := ⟨ipDgram.header.dst, a.config.source.port⟩
          destination := ⟨ipDgram.header.src, seg.header.sport⟩ }, false⟩)
      else .ok (none, a) := by
    simp [unwrapTcpInIp, hproto, hbuffer, hparse, hlisten, bind, Except.bind, pure, Except.pure]
  rw [hunwrap, verdict]
  by_cases hopens : a.Opens seg
  · obtain ⟨hport, hsyn, hrst⟩ := hopens
    rw [if_pos (htakes.mpr ⟨hport, hsyn, hrst⟩), hport, hsyn, hrst, endsOf, hport]
    simp
  · rw [if_neg (htakes.not.mpr hopens)]
    split_ifs with hport hsyn
    · rfl
    · exact absurd ⟨by simpa using hport, by simpa using hsyn⟩ hopens
    · rfl

theorem endsOf_eq_iff {config : FdAdapterConfig} : endsOf config ipDgram seg = config ↔
    ipDgram.header.dst = config.source.ipv4Numeric ∧ ipDgram.header.src = config.destination.ipv4Numeric ∧
      seg.header.dport = config.source.port ∧ seg.header.sport = config.destination.port := by
  obtain ⟨⟨srcIp, srcPort⟩, ⟨dstIp, dstPort⟩, rateDn, rateUp⟩ := config
  simp only [endsOf, FdAdapterConfig.mk.injEq, Address.mk.injEq]
  tauto

/-- A connected adapter compares both addresses and both ports, in four places. -/
theorem unwrapTcpInIp_of_connected (hproto : ipDgram.header.proto = IPv4Header.protoTcp)
    (hbuffer : ipDgram.payload.toBuffer = .ok b)
    (hparse : TCPSegment.parse {} b ipDgram.header.pseudoCksum = .ok (.noError, seg)) (hlisten : a.listening = false) :
    a.unwrapTcpInIp ipDgram = .ok (a.verdict ipDgram seg) := by
  have htakes : a.Takes ipDgram seg ↔ endsOf a.config ipDgram seg = a.config := by
    rw [Takes, if_neg (by simp [hlisten])]
  have hunwrap : a.unwrapTcpInIp ipDgram =
      if ipDgram.header.dst != a.config.source.ipv4Numeric then .ok (none, a)
      else if ipDgram.header.src != a.config.destination.ipv4Numeric then .ok (none, a)
      else if seg.header.dport != a.config.source.port then .ok (none, a)
      else if seg.header.sport != a.config.destination.port then .ok (none, a)
      else .ok (some seg, a) := by
    simp [unwrapTcpInIp, hproto, hbuffer, hparse, hlisten, bind, Except.bind, pure, Except.pure]
  rw [hunwrap, verdict]
  by_cases hends : endsOf a.config ipDgram seg = a.config
  · have hsame : (⟨endsOf a.config ipDgram seg, false⟩ : TCPOverIPv4Adapter) = a := by rw [hends, ← hlisten]
    obtain ⟨hdst, hsrc, hdport, hsport⟩ := endsOf_eq_iff.mp hends
    rw [if_pos (htakes.mpr hends), hsame]
    simp [hdst, hsrc, hdport, hsport]
  · rw [if_neg (htakes.not.mpr hends)]
    rw [endsOf_eq_iff] at hends
    split_ifs with hdst hsrc hdport hsport
    · rfl
    · rfl
    · rfl
    · rfl
    · refine absurd ⟨?_, ?_, ?_, ?_⟩ hends
      · simpa using hdst
      · simpa using hsrc
      · simpa using hdport
      · simpa using hsport

/-- **A segment that was parsed** is taken or not, and nothing else counts. -/
theorem unwrapTcpInIp_of_parse (a : TCPOverIPv4Adapter) (hproto : ipDgram.header.proto = IPv4Header.protoTcp)
    (hbuffer : ipDgram.payload.toBuffer = .ok b)
    (hparse : TCPSegment.parse {} b ipDgram.header.pseudoCksum = .ok (.noError, seg)) :
    a.unwrapTcpInIp ipDgram = .ok (a.verdict ipDgram seg) := by
  cases hlisten : a.listening with
  | true => exact unwrapTcpInIp_of_listening hproto hbuffer hparse hlisten
  | false => exact unwrapTcpInIp_of_connected hproto hbuffer hparse hlisten

end Taken

/-! ## What is wrapped -/

variable {a b : TCPOverIPv4Adapter} {seg : TCPSegment}

/-- The header of the datagram a segment is wrapped in. -/
def dgramHeader (a : TCPOverIPv4Adapter) (seg : TCPSegment) : IPv4Header :=
  { src := a.config.source.ipv4Numeric
    dst := a.config.destination.ipv4Numeric
    len := UInt16.ofNat (20 + seg.header.doff.toNat * 4 + seg.payload.length) }

/-- The segment as it goes into the datagram. -/
def sealed (a : TCPOverIPv4Adapter) (seg : TCPSegment) : TCPSegment :=
  (a.config.addressed seg).withChecksum (a.dgramHeader seg).pseudoCksum

/-- The datagram a segment is wrapped in. -/
def datagram (a : TCPOverIPv4Adapter) (seg : TCPSegment) : IPv4Datagram where
  header  := a.dgramHeader seg
  payload := [(a.config.addressed seg).headerBytes (a.dgramHeader seg).pseudoCksum, seg.payload]

theorem wrapTcpInIp_eq (hdoff : 5 ≤ seg.header.doff.toNat) :
    a.wrapTcpInIp seg = .ok (a.datagram seg, a.config.addressed seg) := by
  have hser : (a.config.addressed seg).serialize (a.dgramHeader seg).pseudoCksum =
      .ok (a.datagram seg).payload := TCPSegment.serialize_eq hdoff
  show ((a.config.addressed seg).serialize (a.dgramHeader seg).pseudoCksum >>= _) = _
  rw [hser]
  rfl

theorem fits_datagram (a : TCPOverIPv4Adapter) (seg : TCPSegment) : (a.datagram seg).header.Fits :=
  ⟨rfl, (by decide : 5 ≤ (5 : UInt8).toNat ∧ (5 : UInt8).toNat ≤ 15), (by decide : (0 : UInt16).toNat < 2 ^ 13)⟩

/-- The lengths in the datagram are right as long as it is not too long. -/
theorem len_datagram (hdoff : 5 ≤ seg.header.doff.toNat)
    (hsize : 20 + 4 * seg.header.doff.toNat + seg.payload.length ≤ 65535) :
    (a.datagram seg).header.len.toNat = 4 * (a.datagram seg).header.hlen.toNat + (a.datagram seg).payload.size := by
  have hpayload : (a.datagram seg).payload.size = 4 * seg.header.doff.toNat + seg.payload.length := by
    have hheader : ((a.config.addressed seg).headerBytes (a.dgramHeader seg).pseudoCksum).length =
        4 * seg.header.doff.toNat := TCPSegment.length_headerBytes hdoff
    rw [BufferList.size, datagram, List.map_cons, List.map_singleton, List.sum_cons, List.sum_singleton, hheader]
  rw [hpayload]
  show (UInt16.ofNat (20 + seg.header.doff.toNat * 4 + seg.payload.length)).toNat = 4 * 5 + _
  rw [UInt16.toNat_ofNat', Nat.mod_eq_of_lt (by omega)]
  omega

/-! ## Over the wire -/

/-- The way of a segment: wrapped by `a`, serialized, concatenated, parsed, and unwrapped by `b`. -/
def carry (a b : TCPOverIPv4Adapter) (seg : TCPSegment) :
    Except Exn (ParseResult × Option TCPSegment × TCPOverIPv4Adapter) := do
  let (ipDgram, _) ← a.wrapTcpInIp seg
  let bytes := (← ipDgram.serialize).concatenate
  let (result, received) ← IPv4Datagram.parse {} bytes
  let (out, b) ← b.unwrapTcpInIp received
  return (result, out, b)

/-- `b` is connected to `a`. -/
structure Mirrors (a b : TCPOverIPv4Adapter) : Prop where
  connected   : b.listening = false
  source      : b.config.source = a.config.destination
  destination : b.config.destination = a.config.source

/-- `b` listens on the port that `a` sends to, and the segment opens a connection. -/
structure Accepts (a b : TCPOverIPv4Adapter) (seg : TCPSegment) : Prop where
  listens : b.listening = true
  port    : b.config.source.port = a.config.destination.port
  syn     : seg.header.syn = true
  rst     : seg.header.rst = false

/-- What `b` makes of the datagram once its bytes have been parsed. -/
theorem unwrapTcpInIp_eq (hdoff : 5 ≤ seg.header.doff.toNat) (hmax : seg.header.doff.toNat ≤ 15)
    (hsize : 20 + 4 * seg.header.doff.toNat + seg.payload.length ≤ 65535)
    (hb : Mirrors a b ∨ Accepts a b seg) :
    ∃ b', b.unwrapTcpInIp ⟨(a.datagram seg).headerOut, [(a.datagram seg).payload.concatenate]⟩ =
      .ok (some (a.sealed seg), b') ∧ Mirrors a b' := by
  have hparse : TCPSegment.parse {} (a.datagram seg).payload.concatenate
      (a.datagram seg).headerOut.pseudoCksum = .ok (.noError, a.sealed seg) := by
    have hlen : 4 * (a.config.addressed seg).header.doff.toNat + (a.config.addressed seg).payload.length ≤ 65535 := by
      show 4 * seg.header.doff.toNat + seg.payload.length ≤ 65535
      omega
    have hbytes : (a.datagram seg).payload.concatenate =
        (a.config.addressed seg).headerBytes (a.dgramHeader seg).pseudoCksum ++ (a.config.addressed seg).payload := by
      rw [BufferList.concatenate, datagram, List.flatten_cons, List.flatten_singleton]
      rfl
    have hheader : (a.datagram seg).header = a.dgramHeader seg := rfl
    have hdoff' : 5 ≤ (a.config.addressed seg).header.doff.toNat := hdoff
    have hmax' : (a.config.addressed seg).header.doff.toNat ≤ 15 := hmax
    rw [IPv4Datagram.pseudoCksum_headerOut, hheader, hbytes, sealed]
    exact TCPSegment.parse_bytes (a.dgramHeader seg).toNat_pseudoCksum_lt hdoff' hmax' hlen {}
  have htakes : b.Takes ⟨(a.datagram seg).headerOut, [(a.datagram seg).payload.concatenate]⟩ (a.sealed seg) := by
    rw [Takes]
    rcases hb with h | h
    · rw [if_neg (by simp [h.connected]), endsOf_eq_iff, h.source, h.destination]
      exact ⟨rfl, rfl, rfl, rfl⟩
    · rw [if_pos h.listens]
      exact ⟨h.port.symm, h.syn, h.rst⟩
  -- in both cases the receiver is connected to where the segment came from
  refine ⟨⟨endsOf b.config ⟨(a.datagram seg).headerOut, [(a.datagram seg).payload.concatenate]⟩ (a.sealed seg), false⟩,
    ?_, rfl, rfl, rfl⟩
  have hunwrap : b.unwrapTcpInIp ⟨(a.datagram seg).headerOut, [(a.datagram seg).payload.concatenate]⟩ = _ :=
    b.unwrapTcpInIp_of_parse rfl rfl hparse
  rw [hunwrap, verdict, if_pos htakes]

/-- **TCP over IPv4 survives the wire.** A segment that fits into a datagram comes out of the other adapter with its
    payload and its header, up to the ports, which are those of the adapters, and the checksum. Nothing throws, and
    the other adapter ends up connected to the first, even if it was listening before. -/
theorem survives_wire (a b : TCPOverIPv4Adapter) (seg : TCPSegment)
    (hdoff : 5 ≤ seg.header.doff.toNat ∧ seg.header.doff.toNat ≤ 15)
    (hsize : 20 + 4 * seg.header.doff.toNat + seg.payload.length ≤ 65535)
    (hb : Mirrors a b ∨ Accepts a b seg) :
    ∃ out b', carry a b seg = .ok (.noError, some out, b') ∧ out.payload = seg.payload ∧
      out.header = { seg.header with
        sport := a.config.source.port, dport := a.config.destination.port, cksum := out.header.cksum } ∧
      Mirrors a b' := by
  have hfits := fits_datagram a seg
  have hlen := len_datagram (a := a) hdoff.1 hsize
  obtain ⟨b', hunwrap, hmirrors⟩ := unwrapTcpInIp_eq hdoff.1 hdoff.2 hsize hb
  refine ⟨a.sealed seg, b', ?_, rfl, rfl, hmirrors⟩
  simp only [carry, bind, Except.bind, wrapTcpInIp_eq hdoff.1, IPv4Datagram.serialize_eq hfits hlen,
    IPv4Datagram.parse_bytes hfits hlen, hunwrap]
  rfl

/-- A SYN with two bytes of data, from `10.0.0.1:5000` to whoever listens on port 80. -/
theorem survives_wire_syn :
    ∃ out b', carry
        { config := { source := ⟨0x0a000001, 5000⟩, destination := ⟨0x0a000002, 80⟩ } }
        { config := { source := ⟨0, 80⟩ }, listening := true }
        { header := { syn := true }, payload := [1, 2] } = .ok (.noError, some out, b') ∧
      out.payload = [1, 2] ∧ out.header = { syn := true, sport := 5000, dport := 80, cksum := out.header.cksum } ∧
      Mirrors { config := { source := ⟨0x0a000001, 5000⟩, destination := ⟨0x0a000002, 80⟩ } } b' :=
  survives_wire _ _ _ (by decide) (by decide) (Or.inr ⟨rfl, rfl, rfl, rfl⟩)

end TCPOverIPv4Adapter

end Sponge
