import Sponge.Wire.IPv4
import Sponge.Wire.Segment

/-!
# `Wire.Reading` — the parsers on arbitrary bytes

`Reads n value x` says what a function that reads `n` bytes does with every parser: with enough input it returns the
value of the bytes and leaves the rest, with too little it leaves an error, and after an error it leaves the input
alone. It never throws. Reads compose, and their lengths add up (`Reads.bind`), so that both headers read their
fields as one read of 20 bytes (`TCPHeader.reads_fields`, `IPv4Header.reads_fields`), whatever the bytes are.

`decode` are the fields of a header that these 20 bytes stand for. What the header parsers do after the fields is
`finish`; `parse_of_le` and `parse_of_lt` put the two together.
-/

namespace Sponge

open Lib

/-- The number in the `len` bytes from position `i` on. -/
def fieldAt (b : Buffer) (i len : Nat) : Nat := ofBytes ((b.drop i).take len)

theorem fieldAt_drop (b : Buffer) (n i len : Nat) : fieldAt (b.drop n) i len = fieldAt b (n + i) len := by
  rw [fieldAt, fieldAt, List.drop_drop]

/-! ## Functions that read -/

/-- After an error the function does not throw, the error stays, and no input is consumed. -/
def Sticks {α : Type} (x : Parse α) : Prop :=
  ∀ p : NetParser, p.hasError = true → ∃ a p', x p = .ok (a, p') ∧ p'.hasError = true ∧ p'.buffer = p.buffer

/-- What a function that reads `n` bytes does: there is enough input, or too little, or there was an error before. -/
structure Reads {α : Type} (n : Nat) (value : Buffer → α) (x : Parse α) : Prop where
  enough : ∀ b : Buffer, n ≤ b.length → x ⟨b, .noError⟩ = .ok (value b, ⟨b.drop n, .noError⟩)
  short  : ∀ b : Buffer, b.length < n → ∃ a p, x ⟨b, .noError⟩ = .ok (a, p) ∧ p.hasError = true
  stuck  : Sticks x

section Reads

variable {α β : Type} {n m : Nat} {value : Buffer → α}

theorem Sticks.pure (a : α) : Sticks (pure a : Parse α) := fun p h => ⟨a, p, rfl, h, rfl⟩

theorem Sticks.bind {x : Parse α} {f : α → Parse β} (hx : Sticks x) (hf : ∀ a, Sticks (f a)) : Sticks (x >>= f) := by
  intro p hp
  obtain ⟨a, p₁, hread, herr, hbuf⟩ := hx p hp
  obtain ⟨a', p', hread', herr', hbuf'⟩ := hf a p₁ herr
  exact ⟨a', p', (Parse.bind_ok hread).trans hread', herr', hbuf'.trans hbuf⟩

/-- The error is looked at and reported; what would be done without one does not matter. -/
theorem Sticks.report (e : ParseResult → α) (k : Parse α) :
    Sticks (do
      let p ← get
      if p.hasError then return e p.error
      k) := by
  intro p hp
  refine ⟨e p.error, p, ?_, hp, rfl⟩
  rw [Parse.bind_ok (Parse.get_ok _), if_pos hp]
  rfl

theorem Reads.pure (a : α) : Reads 0 (fun _ => a) (pure a : Parse α) where
  enough := fun _ _ => rfl
  short  := fun _ h => absurd h (Nat.not_lt_zero _)
  stuck  := Sticks.pure a

/-- One read after another is a read of both lengths. -/
theorem Reads.bind {x : Parse α} {f : α → Parse β} {value' : α → Buffer → β} (hx : Reads n value x)
    (hf : ∀ a, Reads m (value' a) (f a)) :
    Reads (n + m) (fun b => value' (value b) (b.drop n)) (x >>= f) := by
  constructor
  · intro b hb
    have hrest : m ≤ (b.drop n).length := by rw [List.length_drop]; omega
    rw [Parse.bind_ok (hx.enough b (by omega)), (hf _).enough _ hrest, List.drop_drop]
  · intro b hb
    by_cases hn : n ≤ b.length
    · have hrest : (b.drop n).length < m := by rw [List.length_drop]; omega
      rw [Parse.bind_ok (hx.enough b hn)]
      exact (hf _).short _ hrest
    · -- the first read fails, and the second one keeps the error
      obtain ⟨a, p, hread, herr⟩ := hx.short b (by omega)
      obtain ⟨a', p', hread', herr', -⟩ := (hf a).stuck p herr
      exact ⟨a', p', (Parse.bind_ok hread).trans hread', herr'⟩
  · exact hx.stuck.bind fun a => (hf a).stuck

theorem Reads.congr {x : Parse α} {value' : Buffer → α} (hx : Reads n value x) (h : ∀ b, value b = value' b) :
    Reads n value' x := by
  have heq : value = value' := funext h
  rwa [← heq]

end Reads

namespace NetParser

/-- Whatever the size, an error stays. -/
theorem hasError_checkSize {p : NetParser} (h : p.hasError = true) (size : Nat) :
    (p.checkSize size).hasError = true := by
  unfold checkSize
  split
  · rfl
  · exact h

theorem buffer_checkSize (p : NetParser) (size : Nat) : (p.checkSize size).buffer = p.buffer := by
  unfold checkSize
  split <;> rfl

theorem checkSize_of_lt {b : Buffer} {size : Nat} (h : b.length < size) :
    checkSize ⟨b, .noError⟩ size = ⟨b, .packetTooShort⟩ := if_pos h

theorem modify_ok (f : NetParser → NetParser) (p : NetParser) :
    (modify f : Parse PUnit) p = .ok (⟨⟩, f p) := rfl

/-- With an error after the check, a read returns zero and leaves the parser as it is. -/
theorem parseInt_of_error {p : NetParser} {len : Nat} (h : (p.checkSize len).hasError = true) :
    parseInt len p = .ok (0, p.checkSize len) := by
  rw [parseInt, Parse.bind_ok (modify_ok _ _), Parse.bind_ok (Parse.get_ok _), h, if_pos rfl]
  rfl

theorem removePrefix_of_error {p : NetParser} {n : Nat} (h : (p.checkSize n).hasError = true) :
    removePrefix n p = .ok ((), p.checkSize n) := by
  rw [removePrefix, Parse.bind_ok (modify_ok _ _), Parse.bind_ok (Parse.get_ok _), h, if_pos rfl]
  rfl

theorem reads_parseInt (len : Nat) : Reads len (fun b => fieldAt b 0 len) (parseInt len) := by
  constructor
  · intro b hb
    have hread := parseInt_append (b.take len) (b.drop len)
    rwa [List.take_append_drop, List.length_take, Nat.min_eq_left hb] at hread
  · intro b hb
    have herr : (checkSize ⟨b, .noError⟩ len).hasError = true := by rw [checkSize_of_lt hb]; rfl
    exact ⟨_, _, parseInt_of_error herr, herr⟩
  · intro p hp
    have herr := hasError_checkSize hp len
    exact ⟨_, _, parseInt_of_error herr, herr, buffer_checkSize p len⟩

theorem reads_removePrefix (n : Nat) : Reads n (fun _ => ()) (removePrefix n) := by
  constructor
  · intro b hb
    have hskip := removePrefix_append (b.take n) (b.drop n)
    rwa [List.take_append_drop, List.length_take, Nat.min_eq_left hb] at hskip
  · intro b hb
    have herr : (checkSize ⟨b, .noError⟩ n).hasError = true := by rw [checkSize_of_lt hb]; rfl
    exact ⟨_, _, removePrefix_of_error herr, herr⟩
  · intro p hp
    have herr := hasError_checkSize hp n
    exact ⟨_, _, removePrefix_of_error herr, herr, buffer_checkSize p n⟩

theorem reads_u8 : Reads 1 (fun b => UInt8.ofNat (fieldAt b 0 1)) u8 :=
  (reads_parseInt 1).bind fun n => Reads.pure (UInt8.ofNat n)

theorem reads_u16 : Reads 2 (fun b => UInt16.ofNat (fieldAt b 0 2)) u16 :=
  (reads_parseInt 2).bind fun n => Reads.pure (UInt16.ofNat n)

theorem reads_u32 : Reads 4 (fun b => UInt32.ofNat (fieldAt b 0 4)) u32 :=
  (reads_parseInt 4).bind fun n => Reads.pure (UInt32.ofNat n)

end NetParser

/-! ## The fields of a TCP header -/

namespace TCPHeader

/-- The header with the given fields, as `parse` puts it together. -/
def ofFields (sport dport : UInt16) (seqno ackno : UInt32) (offset flags : UInt8) (win cksum uptr : UInt16) :
    TCPHeader :=
  { sport, dport
    seqno := .ofRaw seqno.toNat
    ackno := .ofRaw ackno.toNat
    doff := offset >>> 4
    urg := flags &&& 0b00100000 != 0
    ack := flags &&& 0b00010000 != 0
    psh := flags &&& 0b00001000 != 0
    rst := flags &&& 0b00000100 != 0
    syn := flags &&& 0b00000010 != 0
    fin := flags &&& 0b00000001 != 0
    win, cksum, uptr }

/-- The header that the first 20 bytes stand for. -/
def decode (b : Buffer) : TCPHeader :=
  ofFields (.ofNat (fieldAt b 0 2)) (.ofNat (fieldAt b 2 2)) (.ofNat (fieldAt b 4 4)) (.ofNat (fieldAt b 8 4))
    (.ofNat (fieldAt b 12 1)) (.ofNat (fieldAt b 13 1)) (.ofNat (fieldAt b 14 2)) (.ofNat (fieldAt b 16 2))
    (.ofNat (fieldAt b 18 2))

/-- The reads of `parse`, in order. -/
def readFields : Parse TCPHeader := do
  let sport ← NetParser.u16
  let dport ← NetParser.u16
  let seqno ← NetParser.u32
  let ackno ← NetParser.u32
  let offset ← NetParser.u8
  let flags ← NetParser.u8
  let win ← NetParser.u16
  let cksum ← NetParser.u16
  let uptr ← NetParser.u16
  return ofFields sport dport seqno ackno offset flags win cksum uptr

/-- The rest of `parse`. -/
def finish (h : TCPHeader) : Parse (ParseResult × TCPHeader) := do
  if h.doff < 5 then return (.headerTooShort, h)
  NetParser.removePrefix (h.doff.toNat * 4 - TCPHeader.length)
  let p ← get
  if p.hasError then return (p.error, h)
  return (.noError, h)

theorem parse_eq : parse = readFields >>= finish := by
  simp only [readFields, bind_assoc, pure_bind]
  rfl

theorem reads_fields : Reads 20 decode readFields := by
  have h := NetParser.reads_u16.bind fun sport => NetParser.reads_u16.bind fun dport =>
    NetParser.reads_u32.bind fun seqno => NetParser.reads_u32.bind fun ackno =>
    NetParser.reads_u8.bind fun offset => NetParser.reads_u8.bind fun flags =>
    NetParser.reads_u16.bind fun win => NetParser.reads_u16.bind fun cksum =>
    NetParser.reads_u16.bind fun uptr =>
    Reads.pure (ofFields sport dport seqno ackno offset flags win cksum uptr)
  refine Reads.congr h ?_
  intro b
  simp only [fieldAt_drop]
  rfl

/-! ### The rest of the parser -/

section Finish

variable {h : TCPHeader} {b : Buffer}

theorem finish_of_doff_lt (hdoff : h.doff < 5) (p : NetParser) :
    finish h p = .ok ((.headerTooShort, h), p) := by
  rw [finish, if_pos hdoff]
  rfl

theorem finish_of_le (hdoff : ¬ h.doff < 5) (hlen : h.doff.toNat * 4 - TCPHeader.length ≤ b.length) :
    finish h ⟨b, .noError⟩ =
      .ok ((.noError, h), ⟨b.drop (h.doff.toNat * 4 - TCPHeader.length), .noError⟩) := by
  rw [finish, if_neg hdoff, Parse.bind_ok ((NetParser.reads_removePrefix _).enough b hlen),
    Parse.bind_ok (Parse.get_ok _)]
  rfl

theorem finish_of_lt (hdoff : ¬ h.doff < 5) (hlen : b.length < h.doff.toNat * 4 - TCPHeader.length) :
    finish h ⟨b, .noError⟩ = .ok ((.packetTooShort, h), ⟨b, .packetTooShort⟩) := by
  have hcheck := NetParser.checkSize_of_lt hlen
  have hskip := NetParser.removePrefix_of_error (p := ⟨b, .noError⟩)
    (n := h.doff.toNat * 4 - TCPHeader.length) (by rw [hcheck]; rfl)
  rw [hcheck] at hskip
  rw [finish, if_neg hdoff, Parse.bind_ok hskip, Parse.bind_ok (Parse.get_ok _)]
  rfl

theorem finish_stuck (h : TCPHeader) : Sticks (finish h) := by
  rw [finish]
  split
  · exact Sticks.pure _
  · exact (NetParser.reads_removePrefix _).stuck.bind fun _ => Sticks.report (·, h) _

/-- After an error the header parser consumes nothing. -/
theorem parse_stuck : Sticks parse := by
  rw [parse_eq]
  exact reads_fields.stuck.bind finish_stuck

/-- With 20 bytes the fields are read, and the rest follows. -/
theorem parse_of_le (hlen : 20 ≤ b.length) :
    parse ⟨b, .noError⟩ = finish (decode b) ⟨b.drop 20, .noError⟩ := by
  rw [parse_eq, Parse.bind_ok (reads_fields.enough b hlen)]

/-- With less the parser ends with an error. -/
theorem parse_of_lt (hlen : b.length < 20) :
    ∃ r p, parse ⟨b, .noError⟩ = .ok (r, p) ∧ p.hasError = true := by
  obtain ⟨h, p, hread, herr⟩ := reads_fields.short b hlen
  obtain ⟨r, p', hfinish, herr', -⟩ := finish_stuck h p herr
  refine ⟨r, p', ?_, herr'⟩
  rw [parse_eq, Parse.bind_ok hread, hfinish]

end Finish

end TCPHeader

/-! ## The fields of an IPv4 header -/

namespace IPv4Header

/-- The header with the given fields, as `parse` puts it together. -/
def ofFields (firstByte tos : UInt8) (len id foVal : UInt16) (ttl proto : UInt8) (cksum : UInt16)
    (src dst : UInt32) : IPv4Header :=
  { ver := firstByte >>> 4
    hlen := firstByte &&& 0x0f
    tos, len, id
    df := foVal &&& 0x4000 != 0
    mf := foVal &&& 0x2000 != 0
    offset := foVal &&& 0x1fff
    ttl, proto, cksum, src, dst }

/-- The header that the first 20 bytes stand for. -/
def decode (b : Buffer) : IPv4Header :=
  ofFields (.ofNat (fieldAt b 0 1)) (.ofNat (fieldAt b 1 1)) (.ofNat (fieldAt b 2 2)) (.ofNat (fieldAt b 4 2))
    (.ofNat (fieldAt b 6 2)) (.ofNat (fieldAt b 8 1)) (.ofNat (fieldAt b 9 1)) (.ofNat (fieldAt b 10 2))
    (.ofNat (fieldAt b 12 4)) (.ofNat (fieldAt b 16 4))

/-- The reads of `parse`, in order. -/
def readFields : Parse IPv4Header := do
  let firstByte ← NetParser.u8
  let tos ← NetParser.u8
  let len ← NetParser.u16
  let id ← NetParser.u16
  let foVal ← NetParser.u16
  let ttl ← NetParser.u8
  let proto ← NetParser.u8
  let cksum ← NetParser.u16
  let src ← NetParser.u32
  let dst ← NetParser.u32
  return ofFields firstByte tos len id foVal ttl proto cksum src dst

/-- The checks of `parse` after the fields; `original` is the input. -/
def finish (original : Buffer) (h : IPv4Header) : Parse (ParseResult × IPv4Header) := do
  if original.length < 4 * h.hlen.toNat then return (.packetTooShort, h)
  if h.ver ≠ 4 then return (.wrongIPVersion, h)
  if h.hlen < 5 then return (.headerTooShort, h)
  if original.length ≠ h.len.toNat then return (.truncatedPacket, h)
  NetParser.removePrefix (h.hlen.toNat * 4 - IPv4Header.length)
  let p ← get
  if p.hasError then return (p.error, h)
  let check := (InternetChecksum.ofSum 0).add (original.take (4 * h.hlen.toNat))
  if check.value != 0 then return (.badChecksum, h)
  return (.noError, h)

theorem parse_eq (h₀ : IPv4Header) :
    h₀.parse = (do
      let original := (← get).buffer
      if original.length < IPv4Header.length then return (.packetTooShort, h₀)
      readFields >>= finish original) := by
  simp only [readFields, bind_assoc, pure_bind]
  rfl

theorem reads_fields : Reads 20 decode readFields := by
  have h := NetParser.reads_u8.bind fun firstByte => NetParser.reads_u8.bind fun tos =>
    NetParser.reads_u16.bind fun len => NetParser.reads_u16.bind fun id =>
    NetParser.reads_u16.bind fun foVal => NetParser.reads_u8.bind fun ttl =>
    NetParser.reads_u8.bind fun proto => NetParser.reads_u16.bind fun cksum =>
    NetParser.reads_u32.bind fun src => NetParser.reads_u32.bind fun dst =>
    Reads.pure (ofFields firstByte tos len id foVal ttl proto cksum src dst)
  refine Reads.congr h ?_
  intro b
  simp only [fieldAt_drop]
  rfl

/-! ### The rest of the parser -/

section Finish

variable {h : IPv4Header} {b original : Buffer}

/-- Nothing is wrong with the version and the lengths. -/
structure Shaped (original : Buffer) (h : IPv4Header) : Prop where
  room : 4 * h.hlen.toNat ≤ original.length
  ver  : h.ver = 4
  hlen : 5 ≤ h.hlen.toNat
  len  : h.len.toNat = original.length

/-- A header of the wrong shape is reported before anything is skipped. -/
theorem finish_of_not_shaped (hbad : ¬ Shaped original h) (p : NetParser) :
    ∃ r, finish original h p = .ok ((r, h), p) ∧ r ≠ .noError := by
  rw [finish]
  split
  · exact ⟨_, rfl, by decide⟩
  · split
    · exact ⟨_, rfl, by decide⟩
    · split
      · exact ⟨_, rfl, by decide⟩
      · split
        · exact ⟨_, rfl, by decide⟩
        · next hroom hver hhlen hlen =>
            refine absurd ⟨Nat.not_lt.mp hroom, not_not.mp hver, ?_, (not_not.mp hlen).symm⟩ hbad
            exact Nat.not_lt.mp hhlen

/-- Otherwise the options are skipped and the checksum decides. -/
theorem finish_of_shaped (hshape : Shaped original h) (hb : h.hlen.toNat * 4 - IPv4Header.length ≤ b.length) :
    finish original h ⟨b, .noError⟩ =
      .ok ((if ((InternetChecksum.ofSum 0).add (original.take (4 * h.hlen.toNat))).value = 0 then .noError
        else .badChecksum, h), ⟨b.drop (h.hlen.toNat * 4 - IPv4Header.length), .noError⟩) := by
  have hhlen : ¬ h.hlen < 5 := Nat.not_lt.mpr hshape.hlen
  rw [finish, if_neg (Nat.not_lt.mpr hshape.room), if_neg (not_not.mpr hshape.ver), if_neg hhlen,
    if_neg (not_not.mpr hshape.len.symm), Parse.bind_ok ((NetParser.reads_removePrefix _).enough b hb),
    Parse.bind_ok (Parse.get_ok _), NetParser.hasError_noError, if_neg Bool.false_ne_true]
  by_cases hvalue : ((InternetChecksum.ofSum 0).add (original.take (4 * h.hlen.toNat))).value = 0
  · rw [if_pos hvalue, hvalue]
    rfl
  · have hbne : (((InternetChecksum.ofSum 0).add (original.take (4 * h.hlen.toNat))).value != 0) = true :=
      bne_iff_ne.mpr hvalue
    rw [if_neg hvalue, if_pos hbne]
    rfl

theorem finish_stuck (original : Buffer) (h : IPv4Header) : Sticks (finish original h) := by
  by_cases hshape : Shaped original h
  · have hhlen : ¬ h.hlen < 5 := Nat.not_lt.mpr hshape.hlen
    rw [finish, if_neg (Nat.not_lt.mpr hshape.room), if_neg (not_not.mpr hshape.ver), if_neg hhlen,
      if_neg (not_not.mpr hshape.len.symm)]
    exact (NetParser.reads_removePrefix _).stuck.bind fun _ => Sticks.report (·, h) _
  · intro p hp
    obtain ⟨r, hfinish, -⟩ := finish_of_not_shaped hshape p
    exact ⟨_, p, hfinish, hp, rfl⟩

/-- After an error the header parser consumes nothing. -/
theorem parse_stuck (h₀ : IPv4Header) : Sticks h₀.parse := by
  intro p hp
  rw [parse_eq, Parse.bind_ok (Parse.get_ok _)]
  split
  · exact Sticks.pure _ p hp
  · exact reads_fields.stuck.bind (finish_stuck p.buffer) p hp

/-- With 20 bytes the fields are read, and the rest follows. -/
theorem parse_of_le (h₀ : IPv4Header) (hlen : 20 ≤ b.length) :
    h₀.parse ⟨b, .noError⟩ = finish b (decode b) ⟨b.drop 20, .noError⟩ := by
  rw [parse_eq, Parse.bind_ok (Parse.get_ok _)]
  dsimp only
  rw [if_neg (show ¬ b.length < IPv4Header.length from Nat.not_lt.mpr hlen),
    Parse.bind_ok (reads_fields.enough b hlen)]

/-- With less nothing is read. -/
theorem parse_of_lt (h₀ : IPv4Header) (hlen : b.length < 20) :
    h₀.parse ⟨b, .noError⟩ = .ok ((.packetTooShort, h₀), ⟨b, .noError⟩) := by
  rw [parse_eq, Parse.bind_ok (Parse.get_ok _)]
  dsimp only
  rw [if_pos (show b.length < IPv4Header.length from hlen)]
  rfl

end Finish

end IPv4Header

end Sponge
