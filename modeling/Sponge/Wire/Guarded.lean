import Sponge.Wire.Accept

/-!
# `Wire.Guarded` — parsing is safe on any bytes

`Buffer::at` and `Buffer::remove_prefix` throw when they are called out of range, and the parsers do not catch it.
Two other operations would go wrong silently: a view made of a pointer and a length may reach past the end of the
string, and a difference of lengths may be negative. In the guarded parsers these two throw as well. They are the
parsers themselves (`parseGuarded_eq`), and they return a result for every byte string (`parsing_safe`).
-/

namespace Sponge

open Lib

/-- The view of the first `n` bytes. Reading past the end is undefined; here it throws. -/
def Buffer.view (b : Buffer) (n : Nat) : Except Exn Buffer :=
  if n > b.length then .error (.outOfRange "view past the end") else .ok (b.take n)

/-- A difference of lengths. A negative one wraps around; here it throws. -/
def lengthDiff (n m : Nat) : Except Exn Nat :=
  if n < m then .error (.outOfRange "negative length") else .ok (n - m)

theorem Buffer.view_of_le {b : Buffer} {n : Nat} (h : n ≤ b.length) : b.view n = .ok (b.take n) :=
  if_neg (Nat.not_lt.mpr h)

theorem lengthDiff_of_le {n m : Nat} (h : m ≤ n) : lengthDiff n m = .ok (n - m) := if_neg (Nat.not_lt.mpr h)

/-- A computation that does not throw is as good as its value. -/
theorem Parse.lift_bind {α β : Type} {x : Except Exn α} {a : α} (h : x = .ok a) (f : α → Parse β) :
    ((liftM x : Parse α) >>= f) = f a := by
  funext p
  exact Parse.bind_ok (Parse.lift_ok h p)

/-! ## Segments -/

namespace TCPHeader

/-- The rest of `parse` after the fields, guarded. -/
def finishGuarded (h : TCPHeader) : Parse (ParseResult × TCPHeader) := do
  if h.doff < 5 then return (.headerTooShort, h)
  let options ← lengthDiff (h.doff.toNat * 4) TCPHeader.length
  NetParser.removePrefix options
  let p ← get
  if p.hasError then return (p.error, h)
  return (.noError, h)

def parseGuarded : Parse (ParseResult × TCPHeader) := readFields >>= finishGuarded

theorem finishGuarded_eq (h : TCPHeader) : finishGuarded h = finish h := by
  rw [finishGuarded, finish]
  split
  · rfl
  · next hdoff =>
      have hfive : 5 ≤ h.doff.toNat := Nat.not_lt.mp hdoff
      have hle : TCPHeader.length ≤ h.doff.toNat * 4 := by rw [TCPHeader.length]; omega
      exact Parse.lift_bind (lengthDiff_of_le hle) _

theorem parseGuarded_eq : parseGuarded = parse := by
  rw [parseGuarded, funext finishGuarded_eq, parse_eq]

end TCPHeader

/-- `TCPSegment::parse`, guarded. -/
def TCPSegment.parseGuarded (seg : TCPSegment) (buffer : Buffer) (datagramLayerChecksum : UInt32) :
    Except Exn (ParseResult × TCPSegment) := do
  let check := (InternetChecksum.ofSum datagramLayerChecksum).add buffer
  if check.value != 0 then return (.badChecksum, seg)
  let ((_, header), p) ← TCPHeader.parseGuarded ⟨buffer, .noError⟩
  return (p.error, { header, payload := p.buffer })

theorem TCPSegment.parseGuarded_eq : TCPSegment.parseGuarded = TCPSegment.parse := by
  unfold TCPSegment.parseGuarded TCPSegment.parse
  rw [TCPHeader.parseGuarded_eq]

/-! ## Datagrams -/

namespace IPv4Header

/-- The checks of `parse` after the fields, guarded. -/
def finishGuarded (original : Buffer) (h : IPv4Header) : Parse (ParseResult × IPv4Header) := do
  if original.length < 4 * h.hlen.toNat then return (.packetTooShort, h)
  if h.ver ≠ 4 then return (.wrongIPVersion, h)
  if h.hlen < 5 then return (.headerTooShort, h)
  if original.length ≠ h.len.toNat then return (.truncatedPacket, h)
  let options ← lengthDiff (h.hlen.toNat * 4) IPv4Header.length
  NetParser.removePrefix options
  let p ← get
  if p.hasError then return (p.error, h)
  let header ← original.view (4 * h.hlen.toNat)
  let check := (InternetChecksum.ofSum 0).add header
  if check.value != 0 then return (.badChecksum, h)
  return (.noError, h)

def parseGuarded (h : IPv4Header) : Parse (ParseResult × IPv4Header) := do
  let original := (← get).buffer
  if original.length < IPv4Header.length then return (.packetTooShort, h)
  readFields >>= finishGuarded original

theorem finishGuarded_eq (original : Buffer) (h : IPv4Header) : finishGuarded original h = finish original h := by
  rw [finishGuarded, finish]
  split
  · rfl
  · next hroom =>
      split
      · rfl
      · split
        · rfl
        · next hhlen =>
            split
            · rfl
            · have hfive : 5 ≤ h.hlen.toNat := Nat.not_lt.mp hhlen
              have hle : IPv4Header.length ≤ h.hlen.toNat * 4 := by rw [IPv4Header.length]; omega
              have hview := Buffer.view_of_le (Nat.not_lt.mp hroom)
              -- the view is made only if the options could be skipped
              rw [Parse.lift_bind (lengthDiff_of_le hle)]
              simp only [Parse.lift_bind hview]

theorem parseGuarded_eq (h : IPv4Header) : h.parseGuarded = h.parse := by
  rw [parse_eq, parseGuarded]
  simp only [funext (finishGuarded_eq _)]

end IPv4Header

/-- `IPv4Datagram::parse`, guarded. -/
def IPv4Datagram.parseGuarded (d : IPv4Datagram) (buffer : Buffer) : Except Exn (ParseResult × IPv4Datagram) := do
  let ((_, header), p) ← d.header.parseGuarded ⟨buffer, .noError⟩
  let d : IPv4Datagram := { header, payload := [p.buffer] }
  if d.payload.size ≠ d.header.payloadLength.toNat then return (.packetTooShort, d)
  return (p.error, d)

theorem IPv4Datagram.parseGuarded_eq (d : IPv4Datagram) : d.parseGuarded = d.parse := by
  funext buffer
  rw [IPv4Datagram.parseGuarded, IPv4Datagram.parse, IPv4Header.parseGuarded_eq]

/-! ## Both -/

/-- **Parsing is safe on any bytes.** Both parsers return a result, even when a view past the end of the string and a
    negative length throw like everything else that is out of range. After an error no read consumes input. -/
theorem parsing_safe (b : Buffer) (s : UInt32) (seg₀ : TCPSegment) (d₀ : IPv4Datagram) :
    (∃ r, seg₀.parseGuarded b s = .ok r ∧ seg₀.parse b s = .ok r) ∧
    (∃ r, d₀.parseGuarded b = .ok r ∧ d₀.parse b = .ok r) ∧
    Sticks NetParser.u8 ∧ Sticks NetParser.u16 ∧ Sticks NetParser.u32 ∧ (∀ n, Sticks (NetParser.removePrefix n)) ∧
    Sticks TCPHeader.parse ∧ (∀ h : IPv4Header, Sticks h.parse) := by
  refine ⟨?_, ?_, NetParser.reads_u8.stuck, NetParser.reads_u16.stuck, NetParser.reads_u32.stuck,
    fun n => (NetParser.reads_removePrefix n).stuck, TCPHeader.parse_stuck, IPv4Header.parse_stuck⟩
  · obtain ⟨r, out, hparse, -⟩ := TCPSegment.parse_outcome seg₀ b s
    refine ⟨_, ?_, hparse⟩
    rw [TCPSegment.parseGuarded_eq, hparse]
  · obtain ⟨r, out, hparse, -⟩ := IPv4Datagram.parse_outcome d₀ b
    refine ⟨_, ?_, hparse⟩
    rw [IPv4Datagram.parseGuarded_eq, hparse]

end Sponge
