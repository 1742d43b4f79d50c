import Sponge.Wire.Reading

/-!
# `Wire.Accept` — which bytes the parsers accept

`TCPSegment.parse_outcome` and `IPv4Datagram.parse_outcome` say for every byte string whether it is accepted and
what is then returned. Both parsers drop what the header parser returns, so what only the header parser complains
about is accepted: a data offset below five, and a datagram with a bad header checksum, or with lengths or a version
that are wrong while the one comparison that is made happens to come out right. The checksum of a segment is taken in
a register of 32 bits, and carries out of it are lost, so that of a very long segment, or over a very large
pseudo-checksum, may be judged wrongly. Everything else is as it should be: `segment_acceptance_iff` and
`datagram_acceptance_iff` say of every byte string whether it is treated correctly.
-/

namespace Sponge

open Lib

namespace InternetChecksum

/-- The check that the parsers make: the checksum over a pseudo-checksum and the bytes, taken in a register of 32 bits
    that wraps around, comes out as zero. -/
def Verifies (s : UInt32) (b : Buffer) : Prop := ((ofSum s).add b).value = 0

/-- The sum of a pseudo-checksum and the words of the bytes, as a number. -/
def total (s : UInt32) (b : Buffer) : Nat := s.toNat + byteSum false b

/-- What the words of a good checksum add up to. In one's complement it is the zero of which all bits are set. -/
def Good (n : Nat) : Prop := 0 < n ∧ 65535 ∣ n

end InternetChecksum

open InternetChecksum

instance (s : UInt32) (b : Buffer) : Decidable (Verifies s b) := by unfold Verifies; infer_instance

instance (n : Nat) : Decidable (Good n) := by unfold Good; infer_instance

section Verifies

variable {s : UInt32} {b : Buffer}

/-- **What is checked** is not the sum but what is left of it in 32 bits. -/
theorem InternetChecksum.verifies_iff_good : Verifies s b ↔ Good (total s b % 2 ^ 32) := by
  have hsum := toNat_sum_add_mod (ofSum s) b
  rw [Verifies, value_eq_zero_iff, hsum]
  exact foldCarry_eq_pred_iff (by decide)

/-- As long as the sum does not wrap, only its value counts. -/
theorem InternetChecksum.verifies_iff_of_lt (h : s.toNat + byteSum false b < 2 ^ 32) :
    Verifies s b ↔ foldCarry 65536 (s.toNat + byteSum false b) = 65535 := by
  have hsum := toNat_sum_add (c := ofSum s) h
  rw [Verifies, value_eq_zero_iff, hsum]
  rfl

/-- The sum verifies if it is a positive multiple of `65535`. -/
theorem InternetChecksum.verifies_iff_dvd (h : s.toNat + byteSum false b < 2 ^ 32) :
    Verifies s b ↔ 0 < s.toNat + byteSum false b ∧ 65535 ∣ s.toNat + byteSum false b :=
  (verifies_iff_of_lt h).trans (foldCarry_eq_pred_iff (by decide))

/-- Within the admitted sizes the sum does not wrap. -/
theorem InternetChecksum.verifies_iff (hs : s.toNat < 2 ^ 31) (hlen : b.length ≤ 65535) :
    Verifies s b ↔ foldCarry 65536 (s.toNat + byteSum false b) = 65535 :=
  verifies_iff_of_lt (byteSum_fits hs hlen)

end Verifies

/-! ## Fields in the bytes -/

theorem fieldAt_lt (b : Buffer) (i len : Nat) : fieldAt b i len < 256 ^ len := by
  have hlt := ofBytes_lt ((b.drop i).take len)
  have hle : 256 ^ ((b.drop i).take len).length ≤ 256 ^ len :=
    Nat.pow_le_pow_right (by decide) (List.length_take_le _ _)
  exact lt_of_lt_of_le hlt hle

/-- A field of one byte is that byte; there are zeros beyond the end. -/
theorem fieldAt_one (b : Buffer) (i : Nat) : fieldAt b i 1 = (b.getD i 0).toNat := by
  rw [fieldAt]
  by_cases hi : i < b.length
  · rw [List.drop_eq_getElem_cons hi, List.getD_eq_getElem _ _ hi, List.take_succ_cons, List.take_zero, ofBytes,
      ofBytes, List.length_nil, pow_zero, Nat.mul_one, Nat.add_zero]
  · rw [List.drop_of_length_le (Nat.not_lt.mp hi), List.getD_eq_default _ _ (Nat.not_lt.mp hi)]
    rfl

theorem toNat_shiftRight_four (x : UInt8) : (x >>> 4).toNat = x.toNat / 16 := by
  rw [UInt8.toNat_shiftRight]
  exact Nat.shiftRight_eq_div_pow _ 4

theorem toNat_and_fifteen (x : UInt8) : (x &&& 0x0f).toNat = x.toNat % 16 := by
  rw [UInt8.toNat_and]
  exact Nat.and_two_pow_sub_one_eq_mod _ 4

theorem toNat_ofNat_fieldAt_one (b : Buffer) (i : Nat) : (UInt8.ofNat (fieldAt b i 1)).toNat = (b.getD i 0).toNat := by
  rw [fieldAt_one, UInt8.ofNat_toNat]

theorem toNat_u16_fieldAt (b : Buffer) (i : Nat) : (UInt16.ofNat (fieldAt b i 2)).toNat = fieldAt b i 2 :=
  UInt16.toNat_ofNat'.trans (Nat.mod_eq_of_lt (fieldAt_lt b i 2))

/-! ## Segments -/

namespace TCPSegment

/-- The data offset in the bytes of a segment, in words of four bytes. -/
def dataOffset (b : Buffer) : Nat := (b.getD 12 0).toNat / 16

theorem toNat_doff_decode (b : Buffer) : (TCPHeader.decode b).doff.toNat = dataOffset b := by
  show (UInt8.ofNat (fieldAt b 12 1) >>> 4).toNat = _
  rw [toNat_shiftRight_four, toNat_ofNat_fieldAt_one, dataOffset]

section Parse

variable {s : UInt32} {b : Buffer}

theorem parse_of_not_verifies (h : ¬ Verifies s b) (seg₀ : TCPSegment) :
    seg₀.parse b s = .ok (.badChecksum, seg₀) := by
  have hbne : (((ofSum s).add b).value != 0) = true := bne_iff_ne.mpr h
  rw [parse, if_pos hbne]
  rfl

theorem parse_of_header (h : Verifies s b) {r : ParseResult} {header : TCPHeader} {p : NetParser}
    (hheader : TCPHeader.parse ⟨b, .noError⟩ = .ok ((r, header), p)) (seg₀ : TCPSegment) :
    seg₀.parse b s = .ok (p.error, ⟨header, p.buffer⟩) := by
  have hvalue : ((ofSum s).add b).value = 0 := h
  rw [parse, hvalue]
  show (TCPHeader.parse ⟨b, .noError⟩ >>= _) = _
  rw [hheader]
  rfl

/-- What the header parser leaves of 20 bytes or more. -/
theorem header_outcome (hlen : 20 ≤ b.length) :
    ∃ r p, TCPHeader.parse ⟨b, .noError⟩ = .ok ((r, TCPHeader.decode b), p) ∧
      (p.error = .noError ↔ 4 * dataOffset b ≤ b.length) ∧
      (p.error = .noError → p.buffer = b.drop (max 20 (4 * dataOffset b))) := by
  have hdoff := toNat_doff_decode b
  rw [TCPHeader.parse_of_le hlen]
  by_cases hshort : (TCPHeader.decode b).doff < 5
  · -- reported, but not to the `NetParser`
    have hfive : dataOffset b < 5 := by rw [← hdoff]; exact hshort
    refine ⟨_, _, TCPHeader.finish_of_doff_lt hshort _, iff_of_true rfl (by omega), fun _ => ?_⟩
    rw [Nat.max_eq_left (by omega)]
  · have hfive : 5 ≤ dataOffset b := by rw [← hdoff]; exact Nat.not_lt.mp hshort
    have hskip : (TCPHeader.decode b).doff.toNat * 4 - TCPHeader.length = 4 * dataOffset b - 20 := by
      rw [hdoff, Nat.mul_comm]; rfl
    by_cases hroom : 4 * dataOffset b ≤ b.length
    · have hle : (TCPHeader.decode b).doff.toNat * 4 - TCPHeader.length ≤ (b.drop 20).length := by
        rw [hskip, List.length_drop]; omega
      refine ⟨_, _, TCPHeader.finish_of_le hshort hle, iff_of_true rfl hroom, fun _ => ?_⟩
      rw [hskip, List.drop_drop, Nat.max_eq_right (by omega), Nat.add_sub_cancel' (by omega)]
    · have hlt : (b.drop 20).length < (TCPHeader.decode b).doff.toNat * 4 - TCPHeader.length := by
        rw [hskip, List.length_drop]; omega
      refine ⟨_, _, TCPHeader.finish_of_lt hshort hlt, iff_of_false ?_ hroom, fun h => ?_⟩
      · exact fun h => ParseResult.noConfusion h
      · exact ParseResult.noConfusion h

/-- **Which bytes are accepted as a segment**, and what they are taken for. -/
theorem parse_outcome (seg₀ : TCPSegment) (b : Buffer) (s : UInt32) :
    ∃ r out, seg₀.parse b s = .ok (r, out) ∧
      (r = .noError ↔ Verifies s b ∧ 20 ≤ b.length ∧ 4 * dataOffset b ≤ b.length) ∧
      (r = .noError → out = ⟨TCPHeader.decode b, b.drop (max 20 (4 * dataOffset b))⟩) := by
  by_cases hverify : Verifies s b
  · by_cases hlen : 20 ≤ b.length
    · obtain ⟨r, p, hheader, hiff, hbuf⟩ := header_outcome hlen
      refine ⟨_, _, parse_of_header hverify hheader seg₀, ?_, fun h => by rw [hbuf h]⟩
      rw [hiff]
      exact ⟨fun h => ⟨hverify, hlen, h⟩, fun h => h.2.2⟩
    · obtain ⟨⟨r, header⟩, p, hheader, herr⟩ := TCPHeader.parse_of_lt (Nat.not_le.mp hlen)
      have hne : p.error ≠ .noError := bne_iff_ne.mp herr
      exact ⟨_, _, parse_of_header hverify hheader seg₀, iff_of_false hne fun h => hlen h.2.1,
        fun h => absurd h hne⟩
  · refine ⟨_, _, parse_of_not_verifies hverify seg₀, iff_of_false ?_ fun h => hverify h.1, fun h => ?_⟩
    · exact fun h => ParseResult.noConfusion h
    · exact ParseResult.noConfusion h

end Parse

/-- A valid segment, over a pseudo-checksum. -/
structure Valid (s : UInt32) (b : Buffer) : Prop where
  cksum  : Good (total s b)
  header : 20 ≤ b.length
  doff   : 5 ≤ dataOffset b
  room   : 4 * dataOffset b ≤ b.length

/-- The bytes are judged wrongly: the data offset is below five and what is left of the sum in 32 bits is good, or the
    shape is right, and of the sum and what is left of it one is good and the other is not. -/
def Misjudged (s : UInt32) (b : Buffer) : Prop :=
  20 ≤ b.length ∧
    ((dataOffset b < 5 ∧ Good (total s b % 2 ^ 32)) ∨
      (5 ≤ dataOffset b ∧ 4 * dataOffset b ≤ b.length ∧ 2 ^ 32 ≤ total s b ∧
        ¬ (Good (total s b % 2 ^ 32) ↔ Good (total s b))))

/-- If the shape is right and the bytes are not judged wrongly, the loss of carries does no harm. -/
theorem good_iff_of_not_misjudged {s : UInt32} {b : Buffer} (h : ¬ Misjudged s b) (hlen : 20 ≤ b.length)
    (hdoff : 5 ≤ dataOffset b) (hroom : 4 * dataOffset b ≤ b.length) :
    Good (total s b % 2 ^ 32) ↔ Good (total s b) := by
  by_cases hwrap : 2 ^ 32 ≤ total s b
  · by_contra hdiffer
    exact h ⟨hlen, Or.inr ⟨hdoff, hroom, hwrap, hdiffer⟩⟩
  · rw [Nat.mod_eq_of_lt (Nat.not_le.mp hwrap)]

/-- **When the parser treats bytes correctly**: it accepts them exactly if they are a valid segment, and then takes
    for the payload what follows the header. That is so if and only if they are not misjudged, for one of the two
    reasons there are: a data offset below five, which is not looked at, or a sum that outgrows 32 bits. -/
theorem segment_acceptance_iff (seg₀ : TCPSegment) (b : Buffer) (s : UInt32) :
    ∃ r out, seg₀.parse b s = .ok (r, out) ∧
      (((r = .noError ↔ Valid s b) ∧ (r = .noError → out.payload = b.drop (4 * dataOffset b))) ↔
        ¬ Misjudged s b) := by
  obtain ⟨r, out, hparse, haccept, hout⟩ := parse_outcome seg₀ b s
  rw [verifies_iff_good] at haccept
  refine ⟨r, out, hparse, ?_⟩
  constructor
  · rintro ⟨hvalid, -⟩ ⟨hlen, ⟨hfive, hgood⟩ | ⟨hfive, hroom, -, hdiffer⟩⟩
    · have hdoff := (hvalid.mp (haccept.mpr ⟨hgood, hlen, by omega⟩)).doff
      omega
    · apply hdiffer
      constructor
      · exact fun hgood => (hvalid.mp (haccept.mpr ⟨hgood, hlen, hroom⟩)).cksum
      · exact fun hgood => (haccept.mp (hvalid.mpr ⟨hgood, hlen, hfive, hroom⟩)).1
  · intro hok
    have hfive : Good (total s b % 2 ^ 32) → 20 ≤ b.length → 5 ≤ dataOffset b := by
      intro hgood hlen
      by_contra hlt
      exact hok ⟨hlen, Or.inl ⟨Nat.not_le.mp hlt, hgood⟩⟩
    refine ⟨?_, ?_⟩
    · rw [haccept]
      constructor
      · rintro ⟨hgood, hlen, hroom⟩
        have hdoff := hfive hgood hlen
        exact ⟨(good_iff_of_not_misjudged hok hlen hdoff hroom).mp hgood, hlen, hdoff, hroom⟩
      · rintro ⟨hgood, hlen, hdoff, hroom⟩
        exact ⟨(good_iff_of_not_misjudged hok hlen hdoff hroom).mpr hgood, hlen, hroom⟩
    · intro hr
      obtain ⟨hgood, hlen, -⟩ := haccept.mp hr
      have := hfive hgood hlen
      rw [hout hr, Nat.max_eq_right (by omega)]

/-- A carry out of the 32 bits makes a bad checksum look good. -/
example : Misjudged 0xffffffff ([0xb0, 0] ++ List.replicate 10 0 ++ [0x50, 0] ++ List.replicate 6 0) := by
  unfold Misjudged
  decide

/-- Twenty bytes that are all zero but for the checksum: the data offset is zero, and they are accepted. -/
theorem segment_acceptance_zero_offset :
    ¬ ∀ (seg₀ : TCPSegment) (b : Buffer) (s : UInt32) (r : ParseResult) (out : TCPSegment),
      seg₀.parse b s = .ok (r, out) →
        (r = .noError ↔ Valid s b) ∧ (r = .noError → out.payload = b.drop (4 * dataOffset b)) := by
  intro h
  have hverify : Verifies 0 (List.replicate 16 0 ++ [0xff, 0xff, 0, 0]) := by
    rw [verifies_iff_good]
    decide
  obtain ⟨r, out, hparse, haccept, -⟩ := parse_outcome {} (List.replicate 16 0 ++ [0xff, 0xff, 0, 0]) 0
  have hr := haccept.mpr ⟨hverify, by decide, by decide⟩
  have hdoff := ((h _ _ _ _ _ hparse).1.mp hr).doff
  revert hdoff
  decide

end TCPSegment

/-! ## Datagrams -/

namespace IPv4Datagram

/-- The version in the bytes of a datagram. -/
def version (b : Buffer) : Nat := (b.getD 0 0).toNat / 16

/-- The header length in the bytes of a datagram, in words of four bytes. -/
def headerLength (b : Buffer) : Nat := (b.getD 0 0).toNat % 16

/-- The total length in the bytes of a datagram. -/
def totalLength (b : Buffer) : Nat := fieldAt b 2 2

section Decode

variable (b : Buffer)

theorem toNat_ver_decode : (IPv4Header.decode b).ver.toNat = version b := by
  show (UInt8.ofNat (fieldAt b 0 1) >>> 4).toNat = _
  rw [toNat_shiftRight_four, toNat_ofNat_fieldAt_one, version]

theorem toNat_hlen_decode : (IPv4Header.decode b).hlen.toNat = headerLength b := by
  show (UInt8.ofNat (fieldAt b 0 1) &&& 0x0f).toNat = _
  rw [toNat_and_fifteen, toNat_ofNat_fieldAt_one, headerLength]

theorem toNat_len_decode : (IPv4Header.decode b).len.toNat = totalLength b := toNat_u16_fieldAt b 2

theorem headerLength_le : headerLength b ≤ 15 := by
  rw [headerLength]
  omega

/-- The payload length of the header, in the 16-bit arithmetic of the code. -/
theorem toNat_payloadLength_decode :
    (IPv4Header.decode b).payloadLength.toNat = (2 ^ 16 + totalLength b - 4 * headerLength b) % 2 ^ 16 := by
  have hlen := toNat_len_decode b
  have hhlen := toNat_hlen_decode b
  have hle := headerLength_le b
  have hfour : (4 * (IPv4Header.decode b).hlen.toUInt16).toNat = 4 * headerLength b := by
    rw [UInt16.toNat_mul]
    show 4 * (IPv4Header.decode b).hlen.toNat % 2 ^ 16 = _
    rw [hhlen]
    omega
  rw [IPv4Header.payloadLength, UInt16.toNat_sub, hfour, hlen]
  omega

end Decode

/-- Nothing is wrong with the version and the lengths in the bytes. -/
structure Shaped (b : Buffer) : Prop where
  version : version b = 4
  hlen    : 5 ≤ headerLength b
  room    : 4 * headerLength b ≤ b.length
  total   : totalLength b = b.length

/-- The checksum of the header is right. -/
def HeaderVerifies (b : Buffer) : Prop := Verifies 0 (b.take (4 * headerLength b))

instance (b : Buffer) : Decidable (HeaderVerifies b) := by unfold HeaderVerifies; infer_instance

theorem shaped_decode_iff (b : Buffer) : IPv4Header.Shaped b (IPv4Header.decode b) ↔ Shaped b := by
  have hver : (IPv4Header.decode b).ver = 4 ↔ version b = 4 := by
    rw [← toNat_ver_decode, ← UInt8.toNat_inj]
    rfl
  constructor
  · rintro ⟨hroom, hv, hhlen, hlen⟩
    rw [toNat_hlen_decode] at hroom hhlen
    rw [toNat_len_decode] at hlen
    exact ⟨hver.mp hv, hhlen, hroom, hlen⟩
  · rintro ⟨hv, hhlen, hroom, htotal⟩
    refine ⟨?_, hver.mpr hv, ?_, ?_⟩
    · rwa [toNat_hlen_decode]
    · rwa [toNat_hlen_decode]
    · rwa [toNat_len_decode]

section Parse

variable {b : Buffer}

/-- The datagram parser makes one comparison, and returns the error of the `NetParser`. -/
theorem parse_of_header {d₀ : IPv4Datagram} {r : ParseResult} {header : IPv4Header} {rest : Buffer}
    (hheader : d₀.header.parse ⟨b, .noError⟩ = .ok ((r, header), ⟨rest, .noError⟩)) :
    d₀.parse b = .ok (if rest.length = header.payloadLength.toNat then .noError else .packetTooShort,
      ⟨header, [rest]⟩) := by
  rw [parse, hheader]
  show (if BufferList.size [rest] ≠ header.payloadLength.toNat then _ else _) = _
  have hsize : BufferList.size [rest] = rest.length := Nat.add_zero _
  by_cases heq : rest.length = header.payloadLength.toNat
  · rw [hsize, if_neg (not_not.mpr heq), if_pos heq]
    rfl
  · rw [hsize, if_pos heq, if_neg heq]
    rfl

/-- The comparison comes out right for a datagram of the right shape. -/
theorem Shaped.payloadLength (h : Shaped b) :
    (IPv4Header.decode b).payloadLength.toNat = b.length - 4 * headerLength b := by
  have hlt := fieldAt_lt b 2 2
  have htotal := h.total
  have hroom := h.room
  rw [toNat_payloadLength_decode]
  rw [totalLength] at htotal ⊢
  omega

/-- A datagram of the right shape is accepted, whatever its checksum. -/
theorem parse_of_shaped (h : Shaped b) (d₀ : IPv4Datagram) :
    d₀.parse b = .ok (.noError, ⟨IPv4Header.decode b, [b.drop (4 * headerLength b)]⟩) := by
  have hhlen := h.hlen
  have hroom := h.room
  have hskip : (IPv4Header.decode b).hlen.toNat * 4 - IPv4Header.length = 4 * headerLength b - 20 := by
    rw [toNat_hlen_decode, Nat.mul_comm]; rfl
  have hle : (IPv4Header.decode b).hlen.toNat * 4 - IPv4Header.length ≤ (b.drop 20).length := by
    rw [hskip, List.length_drop]; omega
  have hheader := IPv4Header.finish_of_shaped ((shaped_decode_iff b).mpr h) hle
  rw [← IPv4Header.parse_of_le d₀.header (by omega), hskip, List.drop_drop,
    Nat.add_sub_cancel' (by omega)] at hheader
  rw [parse_of_header hheader, if_pos]
  rw [List.length_drop, h.payloadLength]

/-- A datagram of the wrong shape is accepted if the one comparison comes out right. -/
theorem parse_of_not_shaped (h : ¬ Shaped b) (hlen : 20 ≤ b.length) (d₀ : IPv4Datagram) :
    d₀.parse b = .ok
      (if b.length - 20 = (2 ^ 16 + totalLength b - 4 * headerLength b) % 2 ^ 16 then .noError else .packetTooShort,
        ⟨IPv4Header.decode b, [b.drop 20]⟩) := by
  obtain ⟨r, hheader, -⟩ :=
    IPv4Header.finish_of_not_shaped (fun hs => h ((shaped_decode_iff b).mp hs)) ⟨b.drop 20, .noError⟩
  rw [← IPv4Header.parse_of_le d₀.header hlen] at hheader
  rw [parse_of_header hheader, List.length_drop, toNat_payloadLength_decode]

/-- Too few bytes are compared with the payload length that was there before. -/
theorem parse_of_lt (hlen : b.length < 20) (d₀ : IPv4Datagram) :
    d₀.parse b = .ok (if b.length = d₀.header.payloadLength.toNat then .noError else .packetTooShort,
      ⟨d₀.header, [b]⟩) :=
  parse_of_header (IPv4Header.parse_of_lt d₀.header hlen)

/-- The parser never throws, and the payload is in one piece. -/
theorem parse_single (d₀ : IPv4Datagram) (b : Buffer) :
    ∃ r header rest, d₀.parse b = .ok (r, ⟨header, [rest]⟩) := by
  by_cases hlen : 20 ≤ b.length
  · by_cases hshape : Shaped b
    · exact ⟨_, _, _, parse_of_shaped hshape d₀⟩
    · exact ⟨_, _, _, parse_of_not_shaped hshape hlen d₀⟩
  · exact ⟨_, _, _, parse_of_lt (Nat.not_le.mp hlen) d₀⟩

end Parse

/-- A header has at most 60 bytes, so its sum does not wrap. -/
theorem headerVerifies_iff_dvd (b : Buffer) :
    HeaderVerifies b ↔ 0 < byteSum false (b.take (4 * headerLength b)) ∧
      65535 ∣ byteSum false (b.take (4 * headerLength b)) := by
  have hlen : (b.take (4 * headerLength b)).length ≤ 65535 := by
    have hmax := headerLength_le (b := b)
    rw [List.length_take]
    omega
  have hiff := verifies_iff_dvd (byteSum_fits (s := 0) (by decide) hlen)
  rw [UInt32.toNat_zero, Nat.zero_add] at hiff
  exact hiff

/-- A valid datagram. -/
structure Valid (b : Buffer) : Prop where
  header : 20 ≤ b.length
  shape  : Shaped b
  cksum  : HeaderVerifies b

/-- The bytes are accepted although they should not be: the header checksum is bad, or the version or the lengths
    are wrong and the payload length, in 16-bit arithmetic, is that of what follows 20 bytes; or there are not even
    20 bytes, and the datagram object had a header before whose payload is as long as they are. -/
def Slips (d₀ : IPv4Datagram) (b : Buffer) : Prop :=
  (20 ≤ b.length ∧ Shaped b ∧ ¬ HeaderVerifies b) ∨
  (20 ≤ b.length ∧ ¬ Shaped b ∧ b.length - 20 = (2 ^ 16 + totalLength b - 4 * headerLength b) % 2 ^ 16) ∨
  (b.length < 20 ∧ b.length = d₀.header.payloadLength.toNat)

/-- A freshly constructed datagram does not take less than 20 bytes for a payload. -/
theorem slips_fresh_iff (b : Buffer) : Slips {} b ↔ 20 ≤ b.length ∧
    ((Shaped b ∧ ¬ HeaderVerifies b) ∨
      (¬ Shaped b ∧ b.length - 20 = (2 ^ 16 + totalLength b - 4 * headerLength b) % 2 ^ 16)) := by
  have hfresh : (IPv4Datagram.header {}).payloadLength.toNat = 65516 := by decide
  have hshort : ¬ (b.length < 20 ∧ b.length = (IPv4Datagram.header {}).payloadLength.toNat) := by
    rw [hfresh]
    omega
  rw [Slips, and_or_left]
  constructor
  · rintro (h | h | h)
    · exact Or.inl h
    · exact Or.inr h
    · exact absurd h hshort
  · rintro (h | h)
    · exact Or.inl h
    · exact Or.inr (Or.inl h)

theorem not_valid_of_slips {d₀ : IPv4Datagram} {b : Buffer} (h : Slips d₀ b) : ¬ Valid b := by
  rintro ⟨hlen, hshape, hverify⟩
  rcases h with h | h | h
  · exact h.2.2 hverify
  · exact h.2.1 hshape
  · exact absurd h.1 (Nat.not_lt.mpr hlen)

/-- **Which bytes are accepted as a datagram**: the valid ones and those that slip through. -/
theorem parse_outcome (d₀ : IPv4Datagram) (b : Buffer) :
    ∃ r out, d₀.parse b = .ok (r, out) ∧ (r = .noError ↔ Valid b ∨ Slips d₀ b) ∧
      (Valid b → out.payload.concatenate = b.drop (4 * headerLength b)) := by
  -- the result of a comparison
  have hresult : ∀ n m : Nat, (if n = m then ParseResult.noError else .packetTooShort) = .noError ↔ n = m := by
    intro n m
    split
    · next heq => exact iff_of_true rfl heq
    · next hne => exact iff_of_false (fun h => ParseResult.noConfusion h) hne
  by_cases hlen : 20 ≤ b.length
  · by_cases hshape : Shaped b
    · refine ⟨_, _, parse_of_shaped hshape d₀, iff_of_true rfl ?_, fun _ => List.flatten_singleton⟩
      by_cases hverify : HeaderVerifies b
      · exact Or.inl ⟨hlen, hshape, hverify⟩
      · exact Or.inr (Or.inl ⟨hlen, hshape, hverify⟩)
    · refine ⟨_, _, parse_of_not_shaped hshape hlen d₀, ?_, fun h => absurd h.shape hshape⟩
      rw [hresult]
      constructor
      · exact fun h => Or.inr (Or.inr (Or.inl ⟨hlen, hshape, h⟩))
      · rintro (h | h | h | h)
        · exact absurd h.shape hshape
        · exact absurd h.2.1 hshape
        · exact h.2.2
        · exact absurd h.1 (Nat.not_lt.mpr hlen)
  · refine ⟨_, _, parse_of_lt (Nat.not_le.mp hlen) d₀, ?_, fun h => absurd h.header hlen⟩
    rw [hresult]
    constructor
    · exact fun h => Or.inr (Or.inr (Or.inr ⟨Nat.not_le.mp hlen, h⟩))
    · rintro (h | h | h | h)
      · exact absurd h.header hlen
      · exact absurd h.1 hlen
      · exact absurd h.1 hlen
      · exact h.2

/-- **When the parser treats bytes correctly**: it accepts them exactly if they are a valid datagram, and then takes
    for the payload what follows the header. That is so if and only if they do not slip through. The header checksum
    is good if the words of the header add up to a positive multiple of `65535`. -/
theorem datagram_acceptance_iff (d₀ : IPv4Datagram) (b : Buffer) :
    ∃ r out, d₀.parse b = .ok (r, out) ∧
      (((r = .noError ↔ Valid b) ∧
        (r = .noError → out.payload.concatenate = b.drop (4 * headerLength b))) ↔ ¬ Slips d₀ b) ∧
      (HeaderVerifies b ↔ 0 < byteSum false (b.take (4 * headerLength b)) ∧
        65535 ∣ byteSum false (b.take (4 * headerLength b))) := by
  obtain ⟨r, out, hparse, haccept, hpayload⟩ := parse_outcome d₀ b
  refine ⟨r, out, hparse, ?_, headerVerifies_iff_dvd b⟩
  constructor
  · rintro ⟨hvalid, -⟩ hslips
    exact not_valid_of_slips hslips (hvalid.mp (haccept.mpr (Or.inr hslips)))
  · intro hok
    have hvalid : r = .noError ↔ Valid b := haccept.trans (or_iff_left hok)
    exact ⟨hvalid, fun h => hpayload (hvalid.mp h)⟩

/-- A bare header with nothing in it but version, lengths and a checksum of zero, which is wrong: it is accepted. -/
theorem datagram_acceptance_bad_checksum :
    ¬ ∀ (d₀ : IPv4Datagram) (b : Buffer) (r : ParseResult) (out : IPv4Datagram), d₀.parse b = .ok (r, out) →
      (r = .noError ↔ Valid b) ∧
        (r = .noError → out.payload.concatenate = b.drop (4 * headerLength b)) := by
  intro h
  have hshape : Shaped ([0x45, 0, 0, 20] ++ List.replicate 16 0) := by
    constructor <;> decide
  have hbad : ¬ HeaderVerifies ([0x45, 0, 0, 20] ++ List.replicate 16 0) := by
    rw [HeaderVerifies, Verifies, value_eq_zero_iff, foldCarry_of_lt (by decide)]
    decide
  exact hbad ((h _ _ _ _ (parse_of_shaped hshape {})).1.mp rfl).cksum

end IPv4Datagram

end Sponge
