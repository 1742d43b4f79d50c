import Sponge.TCPSegment
import Sponge.Wire.Checksum

/-!
# `Wire.Segment` — TCP segments on the wire

The parser and the serializer of TCP headers and segments. `TCPSegment::parse` looks at the checksum first and then
only at the error of the `NetParser`: what `TCPHeader::parse` returns is dropped.

A serialized header is `bytesBefore`, the checksum, and `bytesAfter` (`serialize_eq`), so that the checksum can be
reasoned about without looking at the other fields. `TCPSegment.parse_bytes` says that a segment survives the way
to bytes and back.
-/

namespace Sponge

open Lib

namespace TCPHeader

/-- The length of a header without options. -/
def length : Nat := 20

/-- The byte with the flags. -/
def flagByte (h : TCPHeader) : UInt8 :=
  (if h.urg then 0b00100000 else 0) ||| (if h.ack then 0b00010000 else 0) ||| (if h.psh then 0b00001000 else 0) |||
    (if h.rst then 0b00000100 else 0) ||| (if h.syn then 0b00000010 else 0) ||| (if h.fin then 0b00000001 else 0)

/-- Parse the TCP fields. A read after an error returns zero, so every field is set in any case. -/
def parse : Parse (ParseResult × TCPHeader) := do
  let sport ← NetParser.u16
  let dport ← NetParser.u16
  let seqno ← NetParser.u32
  let ackno ← NetParser.u32
  let offset ← NetParser.u8
  let flags ← NetParser.u8
  let win ← NetParser.u16
  let cksum ← NetParser.u16
  let uptr ← NetParser.u16
  let h : TCPHeader :=
    { sport, dport
      seqno := .ofRaw seqno.toNat
      ackno := .ofRaw ackno.toNat
      doff := offset >>> 4
      urg := flags &&& 0b00100000 != 0
      ack := flags &&& 0b00010000 != 0
      psh := flags &&& 0b00001000 != 0
      rst := flags &&& 0b00000100 != 0
      syn := flags &&& 0b00000010 != 0
      fin := flags &&& 0b00000001 != 0
      win, cksum, uptr }
  if h.doff < 5 then return (.headerTooShort, h)
  -- skip any options or anything extra in the header
  NetParser.removePrefix (h.doff.toNat * 4 - TCPHeader.length)
  let p ← get
  if p.hasError then return (p.error, h)
  return (.noError, h)

/-- Serialize the header; the checksum is not recomputed. -/
def serialize (h : TCPHeader) : Except Exn Buffer := do
  if h.doff < 5 then throw (.runtimeError "TCP header too short")
  let ret := NetUnparser.u16 [] h.sport
  let ret := NetUnparser.u16 ret h.dport
  let ret := NetUnparser.u32 ret (UInt32.ofNat h.seqno.rawValue)
  let ret := NetUnparser.u32 ret (UInt32.ofNat h.ackno.rawValue)
  let ret := NetUnparser.u8 ret (h.doff <<< 4)
  let ret := NetUnparser.u8 ret h.flagByte
  let ret := NetUnparser.u16 ret h.win
  let ret := NetUnparser.u16 ret h.cksum
  let ret := NetUnparser.u16 ret h.uptr
  -- expand the header to its advertised size
  return ret.resize (4 * h.doff.toNat)

end TCPHeader

namespace TCPSegment

/-- Parse a segment; `datagramLayerChecksum` is the pseudo-checksum of the protocol below. -/
def parse (seg : TCPSegment) (buffer : Buffer) (datagramLayerChecksum : UInt32) :
    Except Exn (ParseResult × TCPSegment) := do
  let check := (InternetChecksum.ofSum datagramLayerChecksum).add buffer
  if check.value != 0 then return (.badChecksum, seg)
  let ((_, header), p) ← TCPHeader.parse ⟨buffer, .noError⟩
  return (p.error, { header, payload := p.buffer })

/-- Serialize a segment, with the checksum taken over all of it. -/
def serialize (seg : TCPSegment) (datagramLayerChecksum : UInt32) : Except Exn BufferList := do
  let headerOut := { seg.header with cksum := 0 }
  let check := (InternetChecksum.ofSum datagramLayerChecksum).add (← headerOut.serialize)
  let check := check.add seg.payload
  let headerOut := { headerOut with cksum := check.value }
  let ret := BufferList.append [] [← headerOut.serialize]
  return BufferList.append ret [seg.payload]

end TCPSegment

/-! ## The bytes of a header -/

namespace TCPHeader

variable {h : TCPHeader}

/-- The fields before the checksum. -/
def bytesBefore (h : TCPHeader) : Buffer :=
  toBytes 2 h.sport.toNat ++ (toBytes 2 h.dport.toNat ++ (toBytes 4 (UInt32.ofNat h.seqno.rawValue).toNat ++
    (toBytes 4 (UInt32.ofNat h.ackno.rawValue).toNat ++ (toBytes 1 (h.doff <<< 4).toNat ++
      (toBytes 1 h.flagByte.toNat ++ toBytes 2 h.win.toNat)))))

/-- The urgent pointer, and zeros in place of options. -/
def bytesAfter (h : TCPHeader) : Buffer :=
  toBytes 2 h.uptr.toNat ++ List.replicate (h.doff.toNat * 4 - TCPHeader.length) 0

theorem length_bytesBefore (h : TCPHeader) : h.bytesBefore.length = 16 := by
  simp only [bytesBefore, List.length_append, length_toBytes]

theorem length_bytesAfter (hdoff : 5 ≤ h.doff.toNat) : h.bytesAfter.length = 4 * h.doff.toNat - 18 := by
  simp only [bytesAfter, List.length_append, length_toBytes, List.length_replicate, TCPHeader.length]
  omega

/-- **The bytes of a header.** -/
theorem serialize_eq (hdoff : 5 ≤ h.doff.toNat) :
    h.serialize = .ok (h.bytesBefore ++ (toBytes 2 h.cksum.toNat ++ h.bytesAfter)) := by
  have hlong : ¬ h.doff < 5 := Nat.not_lt.mpr hdoff
  rw [serialize, if_neg hlong]
  show Except.ok _ = _
  have hpad : 4 * h.doff.toNat - 20 = h.doff.toNat * 4 - TCPHeader.length := by rw [Nat.mul_comm]; rfl
  simp only [NetUnparser.u8_eq, NetUnparser.u16_eq, NetUnparser.u32_eq, List.nil_append, List.append_assoc]
  rw [Buffer.resize_of_le]
  · simp only [List.length_append, length_toBytes, List.append_assoc, bytesBefore, bytesAfter, hpad]
  · simp only [List.length_append, length_toBytes]
    omega

/-- The offset survives in the upper half of its byte. -/
theorem doff_shift {doff : UInt8} (h : doff.toNat ≤ 15) : (doff <<< 4) >>> 4 = doff := by
  have hall : ∀ n : Fin 16, (UInt8.ofNat n <<< 4) >>> 4 = UInt8.ofNat n := by decide
  have hthis := hall ⟨doff.toNat, by omega⟩
  rwa [UInt8.ofNat_toNat] at hthis

/-- Each flag can be read off the byte. -/
theorem flags_flagByte (h : TCPHeader) :
    (h.flagByte &&& 0b00100000 != 0) = h.urg ∧ (h.flagByte &&& 0b00010000 != 0) = h.ack ∧
    (h.flagByte &&& 0b00001000 != 0) = h.psh ∧ (h.flagByte &&& 0b00000100 != 0) = h.rst ∧
    (h.flagByte &&& 0b00000010 != 0) = h.syn ∧ (h.flagByte &&& 0b00000001 != 0) = h.fin := by
  rw [flagByte]
  generalize h.urg = urg, h.ack = ack, h.psh = psh, h.rst = rst, h.syn = syn, h.fin = fin
  revert urg ack psh rst syn fin
  decide

theorem ofRaw_toNat_rawValue (n : WrappingInt32) :
    WrappingInt32.ofRaw (UInt32.ofNat n.rawValue).toNat = n := by
  obtain ⟨raw, hlt⟩ := n
  simp only [WrappingInt32.ofRaw, UInt32.toNat_ofNat', Nat.mod_eq_of_lt hlt]

/-- **A header is parsed back**, and exactly its bytes are consumed. -/
theorem parse_bytes (hdoff : 5 ≤ h.doff.toNat) (hmax : h.doff.toNat ≤ 15) (rest : Buffer) :
    parse ⟨h.bytesBefore ++ (toBytes 2 h.cksum.toNat ++ (h.bytesAfter ++ rest)), .noError⟩ =
      .ok ((.noError, h), ⟨rest, .noError⟩) := by
  have hlong : ¬ h.doff < 5 := Nat.not_lt.mpr hdoff
  have hskip := NetParser.removePrefix_append (List.replicate (h.doff.toNat * 4 - TCPHeader.length) 0) rest
  rw [List.length_replicate] at hskip
  obtain ⟨hurg, hack, hpsh, hrst, hsyn, hfin⟩ := flags_flagByte h
  simp only [bytesBefore, bytesAfter, List.append_assoc]
  rw [parse, Parse.bind_ok (NetParser.u16_toBytes _ _), Parse.bind_ok (NetParser.u16_toBytes _ _),
    Parse.bind_ok (NetParser.u32_toBytes _ _), Parse.bind_ok (NetParser.u32_toBytes _ _),
    Parse.bind_ok (NetParser.u8_toBytes _ _), Parse.bind_ok (NetParser.u8_toBytes _ _),
    Parse.bind_ok (NetParser.u16_toBytes _ _), Parse.bind_ok (NetParser.u16_toBytes _ _),
    Parse.bind_ok (NetParser.u16_toBytes _ _)]
  simp only [ofRaw_toNat_rawValue, doff_shift hmax, hurg, hack, hpsh, hrst, hsyn, hfin]
  rw [if_neg hlong, Parse.bind_ok hskip]
  rfl

end TCPHeader

/-! ## Segments -/

namespace TCPSegment

variable {seg : TCPSegment} {s : UInt32}

/-- The checksum of a segment over a pseudo-checksum. -/
def checksum (seg : TCPSegment) (s : UInt32) : UInt16 :=
  ((InternetChecksum.ofSum s).add (seg.header.bytesBefore ++
    (toBytes 2 0 ++ (seg.header.bytesAfter ++ seg.payload)))).value

/-- The segment as it comes out at the other end. -/
def withChecksum (seg : TCPSegment) (s : UInt32) : TCPSegment :=
  { seg with header := { seg.header with cksum := seg.checksum s } }

/-- The bytes of the header with the checksum in place. -/
def headerBytes (seg : TCPSegment) (s : UInt32) : Buffer :=
  seg.header.bytesBefore ++ (toBytes 2 (seg.checksum s).toNat ++ seg.header.bytesAfter)

theorem length_headerBytes (hdoff : 5 ≤ seg.header.doff.toNat) :
    (seg.headerBytes s).length = 4 * seg.header.doff.toNat := by
  rw [headerBytes, List.length_append, List.length_append, length_toBytes, TCPHeader.length_bytesBefore,
    TCPHeader.length_bytesAfter hdoff]
  omega

/-- **The bytes of a segment**: a header and the payload. -/
theorem serialize_eq (hdoff : 5 ≤ seg.header.doff.toNat) :
    seg.serialize s = .ok [seg.headerBytes s, seg.payload] := by
  have hzero : TCPHeader.serialize { seg.header with cksum := 0 } =
      .ok (seg.header.bytesBefore ++ (toBytes 2 0 ++ seg.header.bytesAfter)) := TCPHeader.serialize_eq hdoff
  have hfull : TCPHeader.serialize { seg.header with cksum := seg.checksum s } = .ok (seg.headerBytes s) :=
    TCPHeader.serialize_eq hdoff
  have hcheck : ((InternetChecksum.ofSum s).add (seg.header.bytesBefore ++
      (toBytes 2 0 ++ seg.header.bytesAfter))).add seg.payload =
      (InternetChecksum.ofSum s).add (seg.header.bytesBefore ++
        (toBytes 2 0 ++ (seg.header.bytesAfter ++ seg.payload))) := by
    rw [← InternetChecksum.add_append, List.append_assoc, List.append_assoc]
  rw [serialize, hzero]
  show (TCPHeader.serialize { seg.header with cksum := (InternetChecksum.value _) } >>= _) = _
  rw [hcheck]
  show (TCPHeader.serialize { seg.header with cksum := seg.checksum s } >>= _) = _
  rw [hfull]
  rfl

/-- The checksum in a segment verifies. -/
theorem checksum_verifies (hs : s.toNat < 2 ^ 31) (hdoff : 5 ≤ seg.header.doff.toNat)
    (hlen : 4 * seg.header.doff.toNat + seg.payload.length ≤ 65535) :
    ((InternetChecksum.ofSum s).add (seg.headerBytes s ++ seg.payload)).value = 0 := by
  rw [headerBytes, List.append_assoc, List.append_assoc]
  apply InternetChecksum.value_verifies hs
  · rw [TCPHeader.length_bytesBefore]
  · simp only [List.length_append, length_toBytes, TCPHeader.length_bytesBefore, TCPHeader.length_bytesAfter hdoff]
    omega

/-- **A segment survives the way to bytes and back**, up to the checksum, which is now right. -/
theorem parse_bytes (hs : s.toNat < 2 ^ 31) (hdoff : 5 ≤ seg.header.doff.toNat) (hmax : seg.header.doff.toNat ≤ 15)
    (hlen : 4 * seg.header.doff.toNat + seg.payload.length ≤ 65535) (seg₀ : TCPSegment) :
    seg₀.parse (seg.headerBytes s ++ seg.payload) s = .ok (.noError, seg.withChecksum s) := by
  have hheader : TCPHeader.parse ⟨seg.headerBytes s ++ seg.payload, .noError⟩ =
      .ok ((.noError, (seg.withChecksum s).header), ⟨seg.payload, .noError⟩) := by
    rw [headerBytes, List.append_assoc, List.append_assoc]
    exact TCPHeader.parse_bytes (h := (seg.withChecksum s).header) hdoff hmax seg.payload
  rw [parse, checksum_verifies hs hdoff hlen]
  show (TCPHeader.parse ⟨seg.headerBytes s ++ seg.payload, .noError⟩ >>= _) = _
  rw [hheader]
  rfl

/-- **Decoding undoes encoding.** What `serialize` writes is parsed without an error, whatever segment it is parsed
    into, and gives back the payload and the header up to the checksum. -/
theorem segment_roundtrip (seg seg₀ : TCPSegment) (s : UInt32) (hs : s.toNat < 2 ^ 31)
    (hdoff : 5 ≤ seg.header.doff.toNat ∧ seg.header.doff.toNat ≤ 15)
    (hlen : 4 * seg.header.doff.toNat + seg.payload.length ≤ 65535) :
    ∃ bytes out, seg.serialize s = .ok bytes ∧ seg₀.parse bytes.concatenate s = .ok (.noError, out) ∧
      out.payload = seg.payload ∧ out.header = { seg.header with cksum := out.header.cksum } := by
  refine ⟨_, seg.withChecksum s, serialize_eq hdoff.1, ?_, rfl, rfl⟩
  rw [BufferList.concatenate, List.flatten_cons, List.flatten_singleton]
  exact parse_bytes hs hdoff.1 hdoff.2 hlen seg₀

/-- An odd payload, four bytes of options and a pseudo-checksum just below the bound. -/
theorem segment_roundtrip_options :
    ∃ bytes out, TCPSegment.serialize { header := { doff := 6, ack := true, win := 9 }, payload := [7, 8, 9] }
        0x7fffffff = .ok bytes ∧
      TCPSegment.parse {} bytes.concatenate 0x7fffffff = .ok (.noError, out) ∧ out.payload = [7, 8, 9] ∧
      out.header = { doff := 6, ack := true, win := 9, cksum := out.header.cksum } :=
  segment_roundtrip { header := { doff := 6, ack := true, win := 9 }, payload := [7, 8, 9] } {} 0x7fffffff
    (by decide) (by decide) (by decide)

end TCPSegment

end Sponge
