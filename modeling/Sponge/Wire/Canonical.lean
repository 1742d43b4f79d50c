import Sponge.Wire.Accept

/-!
# `Wire.Canonical` — encoding what was decoded

`parse` keeps every field of a header but not the bits it has no field for: the options and the reserved bits. Where
those are zero (`Canonical`) the segment that was parsed is serialized to the bytes it was parsed from, up to one
corner of the checksum. The field completes the sum of the other words, and one's complement has two zeros, so that a
field of `0xffff` verifies where the serializer writes `0x0000` (`eq_checksum_of_verifies`).
-/

namespace Sponge

open Lib InternetChecksum

/-! ## Bytes and fields -/

section Fields

variable {b : Buffer} {i len : Nat}

/-- A field in place is written back as the bytes it was read from. -/
theorem toBytes_fieldAt (h : i + len ≤ b.length) : toBytes len (fieldAt b i len) = (b.drop i).take len := by
  have hlen : ((b.drop i).take len).length = len := by
    rw [List.length_take, List.length_drop]
    omega
  have hbytes := toBytes_ofBytes ((b.drop i).take len)
  rwa [hlen] at hbytes

/-- Neighbouring pieces of a list make one piece. -/
theorem take_drop_append (b : Buffer) (i m n : Nat) :
    (b.drop i).take m ++ (b.drop (i + m)).take n = (b.drop i).take (m + n) := by
  rw [List.take_add, List.drop_drop]

theorem toNat_u32_fieldAt (b : Buffer) (i : Nat) : (UInt32.ofNat (fieldAt b i 4)).toNat = fieldAt b i 4 :=
  UInt32.toNat_ofNat'.trans (Nat.mod_eq_of_lt (fieldAt_lt b i 4))

end Fields

/-! ## The checksum field -/

/-- **The two values of the field.** A word that completes the sum is the checksum, or it is `0xffff` where the
    checksum is zero. -/
theorem eq_checksum_of_verifies {s : UInt32} {pre post : Buffer} {c : UInt16} (hs : s.toNat < 2 ^ 31)
    (heven : pre.length % 2 = 0) (hlen : (pre ++ (toBytes 2 0 ++ post)).length ≤ 65535)
    (h : Verifies s (pre ++ (toBytes 2 c.toNat ++ post))) {x : UInt8} (hmem : x ∈ pre) (hx : x ≠ 0) :
    c = ((ofSum s).add (pre ++ (toBytes 2 0 ++ post))).value ∨
      c = 0xffff ∧ ((ofSum s).add (pre ++ (toBytes 2 0 ++ post))).value = 0 := by
  generalize hvalue : ((ofSum s).add (pre ++ (toBytes 2 0 ++ post))).value = value
  have hword : ∀ w : UInt16, (pre ++ (toBytes 2 w.toNat ++ post)).length ≤ 65535 := by
    intro w
    simpa only [List.length_append, length_toBytes] using hlen
  have hverifies : Verifies s (pre ++ (toBytes 2 value.toNat ++ post)) := by
    rw [← hvalue]
    exact value_verifies hs heven hlen
  rw [verifies_iff hs (hword _), byteSum_word heven, ← Nat.add_assoc] at h hverifies
  rcases eq_of_foldCarry_add (by decide) (Nat.le_pred_of_lt c.toNat_lt) (Nat.le_pred_of_lt value.toNat_lt) h hverifies
    with heq | ⟨hc, hones⟩ | ⟨hones, hzero⟩
  · exact Or.inl (UInt16.toNat_inj.mp heq)
  · -- the sum is positive, so its complement is not all ones
    have hpos : 0 < s.toNat + byteSum false (pre ++ (toBytes 2 0 ++ post)) :=
      Nat.add_pos_right _ (byteSum_pos false (List.mem_append_left _ hmem) hx)
    have hfold := foldCarry_pos (B := 65536) (by decide) hpos
    have hvalueNat := toNat_value ((ofSum s).add (pre ++ (toBytes 2 0 ++ post)))
    rw [hvalue, toNat_sum_add (c := ofSum s) (byteSum_fits hs hlen)] at hvalueNat
    replace hvalueNat :
      value.toNat = 65535 - foldCarry 65536 (s.toNat + byteSum false (pre ++ (toBytes 2 0 ++ post))) := hvalueNat
    omega
  · exact Or.inr ⟨UInt16.toNat_inj.mp hones, UInt16.toNat_inj.mp hzero⟩

/-! ## Headers -/

namespace TCPSegment

/-- The bits without a field are zero: the options, the lower half of the byte with the data offset, and the two
    upper bits of the byte with the flags. -/
structure Canonical (b : Buffer) : Prop where
  options : ∀ x ∈ (b.take (4 * dataOffset b)).drop 20, x = 0
  offset : (b.getD 12 0).toNat % 16 = 0
  flags : (b.getD 13 0).toNat / 64 = 0

section Bytes

variable {b : Buffer}

/-- The byte with the data offset comes back. -/
theorem Canonical.offset_byte (h : Canonical b) : ((TCPHeader.decode b).doff <<< 4).toNat = fieldAt b 12 1 := by
  have hbyte := h.offset
  have hlt := (b.getD 12 0).toNat_lt
  have hdoff := toNat_doff_decode b
  rw [UInt8.toNat_shiftLeft, hdoff, dataOffset, fieldAt_one]
  show ((b.getD 12 0).toNat / 16) <<< 4 % 2 ^ 8 = _
  rw [Nat.shiftLeft_eq]
  omega

/-- The byte with the flags comes back. -/
theorem Canonical.flag_byte (h : Canonical b) : (TCPHeader.decode b).flagByte.toNat = fieldAt b 13 1 := by
  have hall : ∀ n : Fin 64, (TCPHeader.ofFields 0 0 0 0 0 (UInt8.ofNat n) 0 0 0).flagByte.toNat = n := by decide
  have hlt : fieldAt b 13 1 < 64 := by
    have hbyte := h.flags
    rw [fieldAt_one]
    omega
  exact hall ⟨fieldAt b 13 1, hlt⟩

/-- The fields before the checksum come back. -/
theorem Canonical.bytesBefore (h : Canonical b) (hlen : 20 ≤ b.length) :
    (TCPHeader.decode b).bytesBefore = b.take 16 := by
  have hseq : ∀ n : Nat, n < 2 ^ 32 → (UInt32.ofNat (WrappingInt32.ofRaw n).rawValue).toNat = n := by
    intro n hn
    rw [WrappingInt32.rawValue_ofRaw, Nat.mod_eq_of_lt hn]
    exact UInt32.toNat_ofNat'.trans (Nat.mod_eq_of_lt hn)
  have hbytes : (TCPHeader.decode b).bytesBefore =
      toBytes 2 (fieldAt b 0 2) ++ (toBytes 2 (fieldAt b 2 2) ++ (toBytes 4 (fieldAt b 4 4) ++
        (toBytes 4 (fieldAt b 8 4) ++ (toBytes 1 (fieldAt b 12 1) ++
          (toBytes 1 (fieldAt b 13 1) ++ toBytes 2 (fieldAt b 14 2)))))) := by
    rw [TCPHeader.bytesBefore, h.offset_byte, h.flag_byte]
    simp only [TCPHeader.decode, TCPHeader.ofFields, toNat_u16_fieldAt, toNat_u32_fieldAt, hseq _ (fieldAt_lt b _ 4)]
  rw [hbytes, toBytes_fieldAt (by omega), toBytes_fieldAt (by omega), toBytes_fieldAt (by omega),
    toBytes_fieldAt (by omega), toBytes_fieldAt (by omega), toBytes_fieldAt (by omega), toBytes_fieldAt (by omega),
    take_drop_append b 13 1 2, take_drop_append b 12 1 3, take_drop_append b 8 4 4, take_drop_append b 4 4 8,
    take_drop_append b 2 2 12, take_drop_append b 0 2 14, List.drop_zero]

/-- What follows the checksum comes back. -/
theorem Canonical.bytesAfter (h : Canonical b) (hdoff : 5 ≤ dataOffset b) (hlen : 4 * dataOffset b ≤ b.length) :
    (TCPHeader.decode b).bytesAfter ++ b.drop (4 * dataOffset b) = b.drop 18 := by
  have hoptions : List.replicate (4 * dataOffset b - 20) 0 = (b.drop 20).take (4 * dataOffset b - 20) := by
    rw [← List.drop_take]
    symm
    rw [List.eq_replicate_iff]
    refine ⟨?_, h.options⟩
    rw [List.length_drop, List.length_take]
    omega
  have hbytes : (TCPHeader.decode b).bytesAfter = (b.drop 18).take (4 * dataOffset b - 18) := by
    have huptr : (TCPHeader.decode b).uptr.toNat = fieldAt b 18 2 := toNat_u16_fieldAt b 18
    have hpad : dataOffset b * 4 - TCPHeader.length = 4 * dataOffset b - 20 := by rw [Nat.mul_comm]; rfl
    have hsplit : 4 * dataOffset b - 18 = 2 + (4 * dataOffset b - 20) := by omega
    rw [TCPHeader.bytesAfter, huptr, toNat_doff_decode, hpad, hoptions, toBytes_fieldAt (by omega),
      take_drop_append b 18 2, hsplit]
  have hdrop : b.drop (4 * dataOffset b) = (b.drop 18).drop (4 * dataOffset b - 18) := by
    rw [List.drop_drop, Nat.add_sub_cancel' (by omega)]
  rw [hbytes, hdrop, List.take_append_drop]

end Bytes

/-! ## Segments -/

section Segment

variable {b : Buffer} {s : UInt32}

/-- The segment that canonical bytes are parsed to is serialized to these bytes with the checksum computed anew. -/
theorem Canonical.serialize_decoded (h : Canonical b) (hdoff : 5 ≤ dataOffset b) (hlen : 4 * dataOffset b ≤ b.length) :
    ∃ bytes, TCPSegment.serialize ⟨TCPHeader.decode b, b.drop (4 * dataOffset b)⟩ s = .ok bytes ∧
      bytes.concatenate = b.take 16 ++
        (toBytes 2 ((ofSum s).add (b.take 16 ++ (toBytes 2 0 ++ b.drop 18))).value.toNat ++ b.drop 18) := by
  have hbefore := h.bytesBefore (by omega)
  have hafter := h.bytesAfter hdoff hlen
  have hchecksum : TCPSegment.checksum ⟨TCPHeader.decode b, b.drop (4 * dataOffset b)⟩ s =
      ((ofSum s).add (b.take 16 ++ (toBytes 2 0 ++ b.drop 18))).value := by
    rw [TCPSegment.checksum]
    simp only [hbefore, hafter]
  refine ⟨_, serialize_eq ((toNat_doff_decode b).symm ▸ hdoff), ?_⟩
  rw [BufferList.concatenate, List.flatten_cons, List.flatten_singleton, headerBytes, hchecksum, List.append_assoc,
    List.append_assoc, hafter, hbefore]

/-- The bytes, with the checksum field set apart. -/
theorem split_checksum (hlen : 20 ≤ b.length) :
    b.take 16 ++ (toBytes 2 (UInt16.ofNat (fieldAt b 16 2)).toNat ++ b.drop 18) = b := by
  rw [toNat_u16_fieldAt, toBytes_fieldAt (by omega), ← List.drop_drop (i := 2) (j := 16), List.take_append_drop,
    List.take_append_drop]

/-- The checksum field of a segment with an offset of five or more that verifies. -/
theorem checksum_field (hs : s.toNat < 2 ^ 31) (hlen : b.length ≤ 65535) (htwenty : 20 ≤ b.length)
    (hdoff : 5 ≤ dataOffset b) (h : Verifies s b) :
    UInt16.ofNat (fieldAt b 16 2) = ((ofSum s).add (b.take 16 ++ (toBytes 2 0 ++ b.drop 18))).value ∨
      UInt16.ofNat (fieldAt b 16 2) = 0xffff ∧ ((ofSum s).add (b.take 16 ++ (toBytes 2 0 ++ b.drop 18))).value = 0 := by
  have heven : (b.take 16).length % 2 = 0 := by
    rw [List.length_take]
    omega
  have hzeroed : (b.take 16 ++ (toBytes 2 0 ++ b.drop 18)).length ≤ 65535 := by
    simp only [List.length_append, length_toBytes, List.length_take, List.length_drop]
    omega
  -- the byte with the offset makes the sum positive
  have hmem : b.getD 12 0 ∈ b.take 16 := by
    rw [List.getD_eq_getElem _ _ (by omega)]
    exact List.mem_take_iff_getElem.mpr ⟨12, by omega, rfl⟩
  have hbyte : b.getD 12 0 ≠ 0 := by
    intro hzero
    rw [dataOffset, hzero] at hdoff
    exact absurd hdoff (by decide)
  rw [← split_checksum htwenty] at h
  exact eq_checksum_of_verifies hs heven hzeroed h hmem hbyte

end Segment

/-- **Encoding undoes decoding.** What was parsed from canonical bytes is serialized to these bytes; only a checksum
    field of `0xffff` may come back as zero. -/
theorem serialize_parsed (seg₀ seg : TCPSegment) (b : Buffer) (s : UInt32) (hlen : b.length ≤ 65535)
    (hs : s.toNat < 2 ^ 31) (hparse : seg₀.parse b s = .ok (.noError, seg)) (hdoff : 5 ≤ seg.header.doff.toNat)
    (hcanonical : Canonical b) :
    ∃ bytes, seg.serialize s = .ok bytes ∧
      (bytes.concatenate = b ∨
        fieldAt b 16 2 = 0xffff ∧ bytes.concatenate = b.take 16 ++ ([0, 0] ++ b.drop 18)) := by
  obtain ⟨r, out, hresult, hiff, hout⟩ := parse_outcome seg₀ b s
  rw [hparse] at hresult
  obtain ⟨hr, hseg⟩ := Prod.mk.inj (Except.ok.inj hresult)
  obtain ⟨hverifies, htwenty, hroom⟩ := hiff.mp hr.symm
  obtain rfl := hseg.trans (hout hr.symm)
  have hfive : 5 ≤ dataOffset b := by rw [← toNat_doff_decode b]; exact hdoff
  rw [Nat.max_eq_right (by omega)]
  obtain ⟨bytes, hserialize, hbytes⟩ := hcanonical.serialize_decoded (s := s) hfive hroom
  refine ⟨bytes, hserialize, ?_⟩
  rw [hbytes]
  rcases checksum_field hs hlen htwenty hfive hverifies with hfield | ⟨hones, hzero⟩
  · left
    rw [← hfield, split_checksum htwenty]
  · right
    constructor
    · rw [← toNat_u16_fieldAt, hones]
      rfl
    · rw [hzero]
      rfl

/-- A header with one word of options and no payload, whose checksum field is `0xffff`: the other words add up to
    `0xffff` with the pseudo-checksum. -/
theorem serialize_parsed_two_zeros :
    ∃ seg bytes, TCPSegment.parse {}
        [0, 0, 0, 0, 0, 0, 0, 0, 0, 0, 0, 0, 0x60, 0x12, 0, 0, 0xff, 0xff, 0, 0, 0, 0, 0, 0] 0x9fed =
          .ok (.noError, seg) ∧ seg.serialize 0x9fed = .ok bytes ∧
      (bytes.concatenate = [0, 0, 0, 0, 0, 0, 0, 0, 0, 0, 0, 0, 0x60, 0x12, 0, 0, 0xff, 0xff, 0, 0, 0, 0, 0, 0] ∨
        bytes.concatenate = [0, 0, 0, 0, 0, 0, 0, 0, 0, 0, 0, 0, 0x60, 0x12, 0, 0, 0, 0, 0, 0, 0, 0, 0, 0]) := by
  obtain ⟨r, seg, hparse, hiff, hout⟩ := parse_outcome {}
    [0, 0, 0, 0, 0, 0, 0, 0, 0, 0, 0, 0, 0x60, 0x12, 0, 0, 0xff, 0xff, 0, 0, 0, 0, 0, 0] 0x9fed
  have hr : r = .noError := by
    refine hiff.mpr ⟨(verifies_iff (by decide) (by decide)).mpr ?_, by decide, by decide⟩
    -- `0x1fffe` folds in one round
    exact (foldCarry_of_le (by decide) (by decide)).trans (foldCarry_of_lt (by decide))
  rw [hr] at hparse
  have hseg := hout hr
  obtain ⟨bytes, hserialize, hbytes⟩ := serialize_parsed {} seg _ 0x9fed (by decide) (by decide) hparse
    (by rw [hseg]; decide) ⟨by decide +kernel, by decide, by decide⟩
  exact ⟨seg, bytes, hparse, hserialize, hbytes.imp_right And.right⟩

end TCPSegment

end Sponge
