import Sponge.Wire.Checksum

/-!
# `Wire.IPv4` — IPv4 datagrams on the wire

The header is parsed field by field and then checked; a check that fails returns early, with the fields read so far
in place and the options not yet skipped. `IPv4Datagram::parse` drops what `IPv4Header::parse` returns and looks
at the length of the payload and at the error of the `NetParser` instead.

As for segments, a serialized header is `bytesBefore`, the checksum, and `bytesAfter`. A datagram whose lengths are
right and whose fields fit their bits survives the way to bytes and back (`IPv4Datagram.parse_bytes`).
-/

namespace Sponge

open Lib

structure IPv4Header where
  ver    : UInt8 := 4
  hlen   : UInt8 := 5
  tos    : UInt8 := 0
  len    : UInt16 := 0
  id     : UInt16 := 0
  df     : Bool := true
  mf     : Bool := false
  offset : UInt16 := 0
  ttl    : UInt8 := 128
  proto  : UInt8 := 6
  cksum  : UInt16 := 0
  src    : UInt32 := 0
  dst    : UInt32 := 0
deriving DecidableEq

namespace IPv4Header

/-- The length of a header without options. -/
def length : Nat := 20

/-- The protocol number of TCP. -/
def protoTcp : UInt8 := 6

/-- Parse the IP fields. -/
def parse (h : IPv4Header) : Parse (ParseResult × IPv4Header) := do
  let original := (← get).buffer
  let dataSize := original.length
  if dataSize < IPv4Header.length then return (.packetTooShort, h)
  let firstByte ← NetParser.u8
  let tos ← NetParser.u8
  let len ← NetParser.u16
  let id ← NetParser.u16
  let foVal ← NetParser.u16
  let ttl ← NetParser.u8
  let proto ← NetParser.u8
  let cksum ← NetParser.u16
  let src ← NetParser.u32
  let dst ← NetParser.u32
  let h : IPv4Header :=
    { ver := firstByte >>> 4
      hlen := firstByte &&& 0x0f
      tos, len, id
      df := foVal &&& 0x4000 != 0
      mf := foVal &&& 0x2000 != 0
      offset := foVal &&& 0x1fff
      ttl, proto, cksum, src, dst }
  if dataSize < 4 * h.hlen.toNat then return (.packetTooShort, h)
  if h.ver ≠ 4 then return (.wrongIPVersion, h)
  if h.hlen < 5 then return (.headerTooShort, h)
  if dataSize ≠ h.len.toNat then return (.truncatedPacket, h)
  NetParser.removePrefix (h.hlen.toNat * 4 - IPv4Header.length)
  let p ← get
  if p.hasError then return (p.error, h)
  let check := (InternetChecksum.ofSum 0).add (original.take (4 * h.hlen.toNat))
  if check.value != 0 then return (.badChecksum, h)
  return (.noError, h)

/-- The flags and the fragment offset. -/
def foVal (h : IPv4Header) : UInt16 :=
  (if h.df then 0x4000 else 0) ||| (if h.mf then 0x2000 else 0) ||| (h.offset &&& 0x1fff)

/-- The version and the header length. -/
def firstByte (h : IPv4Header) : UInt8 := (h.ver <<< 4) ||| (h.hlen &&& 0xf)

/-- Serialize the header; the checksum is not recomputed. -/
def serialize (h : IPv4Header) : Except Exn Buffer := do
  if h.ver ≠ 4 then throw (.runtimeError "wrong IP version")
  if 4 * h.hlen.toNat < IPv4Header.length then throw (.runtimeError "IP header too short")
  let ret := NetUnparser.u8 [] h.firstByte
  let ret := NetUnparser.u8 ret h.tos
  let ret := NetUnparser.u16 ret h.len
  let ret := NetUnparser.u16 ret h.id
  let ret := NetUnparser.u16 ret h.foVal
  let ret := NetUnparser.u8 ret h.ttl
  let ret := NetUnparser.u8 ret h.proto
  let ret := NetUnparser.u16 ret h.cksum
  let ret := NetUnparser.u32 ret h.src
  let ret := NetUnparser.u32 ret h.dst
  -- expand the header to its advertised size
  return ret.resize (4 * h.hlen.toNat)

/-- The length of the payload, in 16-bit arithmetic. -/
def payloadLength (h : IPv4Header) : UInt16 := h.len - 4 * h.hlen.toUInt16

/-- The contribution of the pseudo-header to the TCP checksum. -/
def pseudoCksum (h : IPv4Header) : UInt32 :=
  let pcksum := (h.src >>> 16) + (h.src &&& 0xffff)
  let pcksum := pcksum + ((h.dst >>> 16) + (h.dst &&& 0xffff))
  let pcksum := pcksum + h.proto.toUInt32
  pcksum + h.payloadLength.toUInt32

end IPv4Header

structure IPv4Datagram where
  header  : IPv4Header := {}
  payload : BufferList := []
deriving DecidableEq

namespace IPv4Datagram

/-- Parse a datagram. -/
def parse (d : IPv4Datagram) (buffer : Buffer) : Except Exn (ParseResult × IPv4Datagram) := do
  let ((_, header), p) ← d.header.parse ⟨buffer, .noError⟩
  let d : IPv4Datagram := { header, payload := [p.buffer] }
  if d.payload.size ≠ d.header.payloadLength.toNat then return (.packetTooShort, d)
  return (p.error, d)

/-- Serialize a datagram, with the checksum taken over the header. -/
def serialize (d : IPv4Datagram) : Except Exn BufferList := do
  if d.payload.size ≠ d.header.payloadLength.toNat then
    throw (.runtimeError "IPv4Datagram::serialize: payload is wrong size")
  let headerOut := { d.header with cksum := 0 }
  let check := (InternetChecksum.ofSum 0).add (← headerOut.serialize)
  let headerOut := { headerOut with cksum := check.value }
  let ret := BufferList.append [] [← headerOut.serialize]
  return BufferList.append ret d.payload

end IPv4Datagram

/-! ## The bytes of a header -/

namespace IPv4Header

variable {h : IPv4Header}

/-- The fields have the sizes the format gives them, and the version is right. -/
structure Fits (h : IPv4Header) : Prop where
  ver    : h.ver = 4
  hlen   : 5 ≤ h.hlen.toNat ∧ h.hlen.toNat ≤ 15
  offset : h.offset.toNat < 2 ^ 13

/-- The fields before the checksum. -/
def bytesBefore (h : IPv4Header) : Buffer :=
  toBytes 1 h.firstByte.toNat ++ (toBytes 1 h.tos.toNat ++ (toBytes 2 h.len.toNat ++ (toBytes 2 h.id.toNat ++
    (toBytes 2 h.foVal.toNat ++ (toBytes 1 h.ttl.toNat ++ toBytes 1 h.proto.toNat)))))

/-- The addresses, and zeros in place of options. -/
def bytesAfter (h : IPv4Header) : Buffer :=
  toBytes 4 h.src.toNat ++ (toBytes 4 h.dst.toNat ++ List.replicate (h.hlen.toNat * 4 - IPv4Header.length) 0)

theorem length_bytesBefore (h : IPv4Header) : h.bytesBefore.length = 10 := by
  simp only [bytesBefore, List.length_append, length_toBytes]

theorem length_bytesAfter (hlen : 5 ≤ h.hlen.toNat) : h.bytesAfter.length = 4 * h.hlen.toNat - 12 := by
  simp only [bytesAfter, List.length_append, length_toBytes, List.length_replicate, IPv4Header.length]
  omega

theorem length_bytes (hlen : 5 ≤ h.hlen.toNat) :
    (h.bytesBefore ++ (toBytes 2 h.cksum.toNat ++ h.bytesAfter)).length = 4 * h.hlen.toNat := by
  rw [List.length_append, List.length_append, length_toBytes, length_bytesBefore, length_bytesAfter hlen]
  omega

/-- **The bytes of a header.** -/
theorem serialize_eq (hfits : h.Fits) :
    h.serialize = .ok (h.bytesBefore ++ (toBytes 2 h.cksum.toNat ++ h.bytesAfter)) := by
  have hhlen := hfits.hlen.1
  have hlong : ¬ 4 * h.hlen.toNat < IPv4Header.length := by rw [IPv4Header.length]; omega
  rw [serialize, if_neg (not_not.mpr hfits.ver), if_neg hlong]
  show Except.ok _ = _
  have hpad : 4 * h.hlen.toNat - 20 = h.hlen.toNat * 4 - IPv4Header.length := by rw [Nat.mul_comm]; rfl
  simp only [NetUnparser.u8_eq, NetUnparser.u16_eq, NetUnparser.u32_eq, List.nil_append, List.append_assoc]
  rw [Buffer.resize_of_le]
  · simp only [List.length_append, length_toBytes, List.append_assoc, bytesBefore, bytesAfter, hpad]
  · simp only [List.length_append, length_toBytes]
    omega

/-- The two halves of the first byte. -/
theorem firstByte_halves (hfits : h.Fits) : h.firstByte >>> 4 = h.ver ∧ h.firstByte &&& 0x0f = h.hlen := by
  have hall : ∀ n : Fin 16, (((4 : UInt8) <<< 4) ||| (UInt8.ofNat n &&& 0xf)) >>> 4 = 4 ∧
      (((4 : UInt8) <<< 4) ||| (UInt8.ofNat n &&& 0xf)) &&& 0x0f = UInt8.ofNat n := by decide
  have hthis := hall ⟨h.hlen.toNat, by have := hfits.hlen.2; omega⟩
  rw [UInt8.ofNat_toNat] at hthis
  rw [firstByte, hfits.ver]
  exact hthis

theorem or_and_distrib (a b c : UInt16) : (a ||| b) &&& c = (a &&& c) ||| (b &&& c) := by
  apply UInt16.toNat_inj.mp
  rw [UInt16.toNat_and, UInt16.toNat_or, UInt16.toNat_or, UInt16.toNat_and, UInt16.toNat_and]
  exact Nat.and_or_distrib_right _ _ _

/-- The two flags and the offset of a fragment. -/
theorem foVal_parts (hfits : h.Fits) :
    (h.foVal &&& 0x4000 != 0) = h.df ∧ (h.foVal &&& 0x2000 != 0) = h.mf ∧ h.foVal &&& 0x1fff = h.offset := by
  have hmask : h.offset &&& 0x1fff = h.offset := by
    apply UInt16.toNat_inj.mp
    rw [UInt16.toNat_and]
    exact (Nat.and_two_pow_sub_one_eq_mod _ 13).trans (Nat.mod_eq_of_lt hfits.offset)
  -- the offset does not reach the bits of the flags, nor they its bits
  have hdf : h.offset &&& 0x1fff &&& 0x4000 = 0 := by rw [UInt16.and_assoc]; exact UInt16.and_zero
  have hmf : h.offset &&& 0x1fff &&& 0x2000 = 0 := by rw [UInt16.and_assoc]; exact UInt16.and_zero
  have hflags : ((if h.df then 0x4000 else 0) &&& 0x1fff) ||| ((if h.mf then 0x2000 else 0) &&& 0x1fff) =
      (0 : UInt16) := by
    cases h.df <;> cases h.mf <;> decide
  refine ⟨?_, ?_, ?_⟩
  · rw [foVal, or_and_distrib, or_and_distrib, hdf]
    cases h.df <;> cases h.mf <;> decide
  · rw [foVal, or_and_distrib, or_and_distrib, hmf]
    cases h.df <;> cases h.mf <;> decide
  · rw [foVal, or_and_distrib, or_and_distrib, hflags, hmask, hmask, UInt16.zero_or]

/-- **A header is parsed back** from its bytes, if its checksum is right and its length that of the input. -/
theorem parse_bytes (hfits : h.Fits) {rest : Buffer} (hlen : h.len.toNat = 4 * h.hlen.toNat + rest.length)
    (hcheck : ((InternetChecksum.ofSum 0).add
      (h.bytesBefore ++ (toBytes 2 h.cksum.toNat ++ h.bytesAfter))).value = 0) (h₀ : IPv4Header) :
    h₀.parse ⟨h.bytesBefore ++ (toBytes 2 h.cksum.toNat ++ (h.bytesAfter ++ rest)), .noError⟩ =
      .ok ((.noError, h), ⟨rest, .noError⟩) := by
  have hhlen := hfits.hlen.1
  have hlong : ¬ h.hlen < 5 := Nat.not_lt.mpr hhlen
  obtain ⟨bytes, hbytes⟩ : ∃ bytes, bytes = h.bytesBefore ++ (toBytes 2 h.cksum.toNat ++ h.bytesAfter) := ⟨_, rfl⟩
  have hlength : bytes.length = 4 * h.hlen.toNat := hbytes ▸ length_bytes hhlen
  have hsize : (bytes ++ rest).length = h.len.toNat := by rw [List.length_append, hlength, hlen]
  have htake : (bytes ++ rest).take (4 * h.hlen.toNat) = bytes := List.take_left' hlength
  have hskip := NetParser.removePrefix_append (List.replicate (h.hlen.toNat * 4 - IPv4Header.length) 0) rest
  rw [List.length_replicate] at hskip
  obtain ⟨hver, hhalf⟩ := firstByte_halves hfits
  obtain ⟨hdf, hmf, hoffset⟩ := foVal_parts hfits
  have hinput : h.bytesBefore ++ (toBytes 2 h.cksum.toNat ++ (h.bytesAfter ++ rest)) = bytes ++ rest := by
    rw [hbytes, List.append_assoc, List.append_assoc]
  have hfields : (⟨bytes ++ rest, .noError⟩ : NetParser) =
      ⟨h.bytesBefore ++ (toBytes 2 h.cksum.toNat ++ (h.bytesAfter ++ rest)), .noError⟩ := by rw [hinput]
  rw [← hbytes] at hcheck
  rw [hinput, parse, Parse.bind_ok (Parse.get_ok _)]
  dsimp only
  rw [hsize, if_neg (by rw [hlen, IPv4Header.length]; omega), hfields]
  simp only [bytesBefore, bytesAfter, List.append_assoc]
  rw [Parse.bind_ok (NetParser.u8_toBytes _ _), Parse.bind_ok (NetParser.u8_toBytes _ _),
    Parse.bind_ok (NetParser.u16_toBytes _ _), Parse.bind_ok (NetParser.u16_toBytes _ _),
    Parse.bind_ok (NetParser.u16_toBytes _ _), Parse.bind_ok (NetParser.u8_toBytes _ _),
    Parse.bind_ok (NetParser.u8_toBytes _ _), Parse.bind_ok (NetParser.u16_toBytes _ _),
    Parse.bind_ok (NetParser.u32_toBytes _ _), Parse.bind_ok (NetParser.u32_toBytes _ _)]
  simp only [hver, hhalf, hdf, hmf, hoffset, htake, hcheck]
  rw [if_neg (by omega), if_neg (not_not.mpr hfits.ver), if_neg hlong, if_neg (not_not.mpr rfl),
    Parse.bind_ok hskip]
  rfl

/-! ## Lengths -/

/-- The length of the payload, where the total length counts it. -/
theorem toNat_payloadLength {n : Nat} (hlen : h.len.toNat = 4 * h.hlen.toNat + n) : h.payloadLength.toNat = n := by
  have hbound := h.len.toNat_lt
  have hfour : (4 * h.hlen.toUInt16).toNat = 4 * h.hlen.toNat := by
    rw [UInt16.toNat_mul]
    exact Nat.mod_eq_of_lt (show 4 * h.hlen.toNat < 2 ^ 16 by omega)
  rw [payloadLength, UInt16.toNat_sub, hfour]
  omega

/-- The pseudo-checksum is the sum of the halves of the addresses and of the other two words; nothing wraps. -/
theorem toNat_pseudoCksum (h : IPv4Header) :
    h.pseudoCksum.toNat = h.src.toNat / 65536 + h.src.toNat % 65536 + (h.dst.toNat / 65536 + h.dst.toNat % 65536) +
      h.proto.toNat + h.payloadLength.toNat := by
  have hsrc := h.src.toNat_lt
  have hdst := h.dst.toNat_lt
  have hproto := h.proto.toNat_lt
  have hpayload := h.payloadLength.toNat_lt
  rw [pseudoCksum, UInt32.toNat_add, UInt32.toNat_add, UInt32.toNat_add, InternetChecksum.toNat_foldRound,
    InternetChecksum.toNat_foldRound]
  show (((h.src.toNat / 65536 + h.src.toNat % 65536 + (h.dst.toNat / 65536 + h.dst.toNat % 65536)) % 2 ^ 32 +
    h.proto.toNat) % 2 ^ 32 + h.payloadLength.toNat) % 2 ^ 32 = _
  omega

/-- The pseudo-checksum leaves room for a segment. -/
theorem toNat_pseudoCksum_lt (h : IPv4Header) : h.pseudoCksum.toNat < 2 ^ 31 := by
  have hsrc := h.src.toNat_lt
  have hdst := h.dst.toNat_lt
  have hproto := h.proto.toNat_lt
  have hpayload := h.payloadLength.toNat_lt
  rw [toNat_pseudoCksum]
  omega

end IPv4Header

/-! ## Datagrams -/

namespace IPv4Datagram

variable {d : IPv4Datagram}

/-- The checksum of the header. -/
def checksum (d : IPv4Datagram) : UInt16 :=
  ((InternetChecksum.ofSum 0).add (d.header.bytesBefore ++ (toBytes 2 0 ++ d.header.bytesAfter))).value

/-- The header as it comes out at the other end. -/
def headerOut (d : IPv4Datagram) : IPv4Header := { d.header with cksum := d.checksum }

/-- The pseudo-header does not contain the checksum. -/
theorem pseudoCksum_headerOut (d : IPv4Datagram) : d.headerOut.pseudoCksum = d.header.pseudoCksum := rfl

/-- The bytes of the header with the checksum in place. -/
def headerBytes (d : IPv4Datagram) : Buffer :=
  d.header.bytesBefore ++ (toBytes 2 d.checksum.toNat ++ d.header.bytesAfter)

/-- **The bytes of a datagram**: a header and the payload. -/
theorem serialize_eq (hfits : d.header.Fits) (hlen : d.header.len.toNat = 4 * d.header.hlen.toNat + d.payload.size) :
    d.serialize = .ok (d.headerBytes :: d.payload) := by
  have hzero : IPv4Header.serialize { d.header with cksum := 0 } =
      .ok (d.header.bytesBefore ++ (toBytes 2 0 ++ d.header.bytesAfter)) :=
    IPv4Header.serialize_eq (h := { d.header with cksum := 0 }) ⟨hfits.ver, hfits.hlen, hfits.offset⟩
  have hfull : IPv4Header.serialize d.headerOut = .ok d.headerBytes :=
    IPv4Header.serialize_eq (h := d.headerOut) ⟨hfits.ver, hfits.hlen, hfits.offset⟩
  rw [serialize, IPv4Header.toNat_payloadLength hlen, if_neg (not_not.mpr rfl)]
  show (IPv4Header.serialize { d.header with cksum := 0 } >>= _) = _
  rw [hzero]
  show (IPv4Header.serialize d.headerOut >>= _) = _
  rw [hfull]
  rfl

/-- The header is read off the bytes of the datagram, and the payload is left. -/
theorem parse_headerBytes (hfits : d.header.Fits)
    (hlen : d.header.len.toNat = 4 * d.header.hlen.toNat + d.payload.size) (h₀ : IPv4Header) :
    h₀.parse ⟨BufferList.concatenate (d.headerBytes :: d.payload), .noError⟩ =
      .ok ((.noError, d.headerOut), ⟨d.payload.concatenate, .noError⟩) := by
  have hcheck : ((InternetChecksum.ofSum 0).add d.headerBytes).value = 0 := by
    apply InternetChecksum.value_verifies (by decide)
    · rw [IPv4Header.length_bytesBefore]
    · simp only [List.length_append, length_toBytes, IPv4Header.length_bytesBefore,
        IPv4Header.length_bytesAfter hfits.hlen.1]
      have := hfits.hlen.2
      omega
  rw [BufferList.concatenate, List.flatten_cons, headerBytes, List.append_assoc, List.append_assoc]
  exact IPv4Header.parse_bytes (h := d.headerOut) ⟨hfits.ver, hfits.hlen, hfits.offset⟩
    (hlen.trans (by rw [← BufferList.length_concatenate]; rfl)) hcheck h₀

/-- **A datagram survives the way to bytes and back**, with its payload in one piece and the checksum right. -/
theorem parse_bytes (hfits : d.header.Fits) (hlen : d.header.len.toNat = 4 * d.header.hlen.toNat + d.payload.size)
    (d₀ : IPv4Datagram) :
    d₀.parse (BufferList.concatenate (d.headerBytes :: d.payload)) =
      .ok (.noError, ⟨d.headerOut, [d.payload.concatenate]⟩) := by
  have hlength : d.headerOut.payloadLength.toNat = BufferList.size [d.payload.concatenate] := by
    rw [IPv4Header.toNat_payloadLength (h := d.headerOut) hlen, ← BufferList.length_concatenate]
    rfl
  rw [parse, parse_headerBytes hfits hlen]
  show (if BufferList.size [d.payload.concatenate] ≠ d.headerOut.payloadLength.toNat then _ else _) = _
  rw [hlength, if_neg (not_not.mpr rfl)]
  rfl

/-- **Decoding undoes encoding.** `serialize` does not throw. Of the bytes it writes both parsers, whatever they
    parse into, return no error, the header up to the checksum and the bytes of the payload. -/
theorem datagram_roundtrip (d d₀ : IPv4Datagram) (h₀ : IPv4Header) (hver : d.header.ver = 4)
    (hhlen : 5 ≤ d.header.hlen.toNat ∧ d.header.hlen.toNat ≤ 15) (hoffset : d.header.offset.toNat < 2 ^ 13)
    (hlen : d.header.len.toNat = 4 * d.header.hlen.toNat + d.payload.size) :
    ∃ bytes h out, d.serialize = .ok bytes ∧
      h₀.parse ⟨bytes.concatenate, .noError⟩ = .ok ((.noError, h), ⟨d.payload.concatenate, .noError⟩) ∧
      h = { d.header with cksum := h.cksum } ∧
      d₀.parse bytes.concatenate = .ok (.noError, out) ∧
      out.payload.concatenate = d.payload.concatenate ∧ out.header = { d.header with cksum := out.header.cksum } := by
  have hfits : d.header.Fits := ⟨hver, hhlen, hoffset⟩
  refine ⟨_, d.headerOut, ⟨d.headerOut, [d.payload.concatenate]⟩, serialize_eq hfits hlen,
    parse_headerBytes hfits hlen h₀, rfl, parse_bytes hfits hlen d₀, ?_, rfl⟩
  rw [BufferList.concatenate, List.flatten_singleton]

/-- A fragment with options and a payload in three pieces, one of them empty. -/
theorem datagram_roundtrip_fragment :
    ∃ bytes h out,
      IPv4Datagram.serialize ⟨{ hlen := 6, len := 27, mf := true, offset := 8191 }, [[1, 2], [], [3]]⟩ = .ok bytes ∧
      IPv4Header.parse {} ⟨bytes.concatenate, .noError⟩ = .ok ((.noError, h), ⟨[1, 2, 3], .noError⟩) ∧
      h = { hlen := 6, len := 27, mf := true, offset := 8191, cksum := h.cksum } ∧
      IPv4Datagram.parse {} bytes.concatenate = .ok (.noError, out) ∧
      out.payload.concatenate = [1, 2, 3] ∧
      out.header = { hlen := 6, len := 27, mf := true, offset := 8191, cksum := out.header.cksum } :=
  datagram_roundtrip ⟨{ hlen := 6, len := 27, mf := true, offset := 8191 }, [[1, 2], [], [3]]⟩ {} {} rfl
    (by decide) (by decide) (by decide)

end IPv4Datagram

end Sponge
