import Sponge.Lib.BigEndian
import Sponge.Lib.Machine

/-!
# `Wire.Parser` — buffers, and integers in network byte order

`Buffer` and `BufferList` as the parsers and serializers see them: strings of bytes, without the sharing. Whatever
can throw says so in its type, with the text of the exception.

A `NetParser` holds the rest of the input and the first error. After an error every read returns zero and leaves the
input alone. `NetUnparser` appends integers to a string; what it writes is read back by the function of the same
name (`u8_toBytes`, `u16_toBytes`, `u32_toBytes`).
-/

namespace Sponge

open Lib

/-- The exceptions that are thrown, with their texts. -/
inductive Exn where
  | outOfRange (what : String)
  | runtimeError (what : String)
deriving DecidableEq

/-! ## Buffers -/

/-- A read-only string that can discard bytes from the front. -/
abbrev Buffer := List UInt8

namespace Buffer

/-- The byte at location `n`; the source's `at`. -/
def byteAt (b : Buffer) (n : Nat) : Except Exn UInt8 :=
  match b[n]? with
  | some c => .ok c
  | none   => .error (.outOfRange "basic_string_view::at")

/-- Discard the first `n` bytes. -/
def removePrefix (b : Buffer) (n : Nat) : Except Exn Buffer :=
  if n > b.length then .error (.outOfRange "Buffer::remove_prefix") else .ok (b.drop n)

theorem removePrefix_append (bs rest : Buffer) : removePrefix (bs ++ rest) bs.length = .ok rest := by
  rw [removePrefix, if_neg, List.drop_left]
  rw [List.length_append]
  omega

/-- `std::string::resize`: cut off, or fill up with zeros. -/
def resize (b : Buffer) (n : Nat) : Buffer := b.take n ++ List.replicate (n - b.length) 0

theorem resize_of_le {b : Buffer} {n : Nat} (h : b.length ≤ n) :
    resize b n = b ++ List.replicate (n - b.length) 0 := by
  rw [resize, List.take_of_length_le h]

end Buffer

/-- A string in several pieces. -/
abbrev BufferList := List Buffer

namespace BufferList

def append (l other : BufferList) : BufferList := l ++ other

/-- The conversion to a `Buffer`, for lists of at most one piece. -/
def toBuffer : BufferList → Except Exn Buffer
  | []  => .ok []
  | [b] => .ok b
  | _   => .error (.runtimeError
    "BufferList: please use concatenate() to combine a multi-Buffer BufferList into one Buffer")

def size (l : BufferList) : Nat := (l.map List.length).sum
def concatenate (l : BufferList) : Buffer := l.flatten

theorem length_concatenate (l : BufferList) : l.concatenate.length = l.size := List.length_flatten

end BufferList

/-! ## Reading -/

/-- The result of parsing. -/
inductive ParseResult where
  | noError
  | badChecksum
  | packetTooShort
  | wrongIPVersion
  | headerTooShort
  | truncatedPacket
  | unsupported
deriving DecidableEq

structure NetParser where
  buffer : Buffer
  error  : ParseResult := .noError
deriving DecidableEq

/-- A function that reads from a parser and may throw. -/
abbrev Parse := StateT NetParser (Except Exn)

namespace NetParser

def hasError (p : NetParser) : Bool := p.error != .noError

/-- Check that there is sufficient data to parse the next token. -/
def checkSize (p : NetParser) (size : Nat) : NetParser :=
  if size > p.buffer.length then { p with error := .packetTooShort } else p

/-- The loop of `_parse_int`, in `w`-bit arithmetic: `n` more bytes from index `i` on. -/
def parseLoop (w : Nat) (buffer : Buffer) : Nat → Nat → Nat → Except Exn Nat
  | _, 0,     ret => .ok ret
  | i, n + 1, ret => do
    let byte ← buffer.byteAt i
    parseLoop w buffer (i + 1) n (uadd w (ret * 2 ^ 8 % 2 ^ w) byte.toNat)

/-- Parse an integer of `len` bytes. -/
def parseInt (len : Nat) : Parse Nat := do
  modify (·.checkSize len)
  let p ← get
  if p.hasError then return 0
  let ret ← parseLoop (8 * len) p.buffer 0 len 0
  let buffer ← p.buffer.removePrefix len
  set { p with buffer }
  return ret

def u32 : Parse UInt32 := do return UInt32.ofNat (← parseInt 4)
def u16 : Parse UInt16 := do return UInt16.ofNat (← parseInt 2)
def u8 : Parse UInt8 := do return UInt8.ofNat (← parseInt 1)

/-- Remove `n` bytes from the input. -/
def removePrefix (n : Nat) : Parse Unit := do
  modify (·.checkSize n)
  let p ← get
  if p.hasError then return
  let buffer ← p.buffer.removePrefix n
  set { p with buffer }

end NetParser

/-! ## Writing -/

namespace NetUnparser

/-- The bytes `_unparse_int` pushes, for an integer of `len` bytes. -/
def unparseInt (len val : Nat) : Buffer :=
  (List.range len).map fun i => UInt8.ofNat ((val >>> ((len - i - 1) * 8)) &&& 0xff)

def u32 (s : Buffer) (val : UInt32) : Buffer := s ++ unparseInt 4 val.toNat
def u16 (s : Buffer) (val : UInt16) : Buffer := s ++ unparseInt 2 val.toNat
def u8 (s : Buffer) (val : UInt8) : Buffer := s ++ unparseInt 1 val.toNat

theorem unparseInt_eq (len val : Nat) : unparseInt len val = toBytes len val := by
  induction len with
  | zero => rfl
  | succ len ih =>
      have hbyte : UInt8.ofNat ((val >>> (len * 8)) &&& 0xff) = UInt8.ofNat (val / 256 ^ len) := by
        rw [Nat.shiftRight_eq_div_pow, Nat.mul_comm, pow_mul, Nat.and_two_pow_sub_one_eq_mod _ 8]
        exact UInt8.toNat_inj.mp (by simp)
      rw [toBytes, ← hbyte, ← ih, unparseInt, List.range_succ_eq_map, List.map_cons, List.map_map]
      congr 1
      apply List.map_congr_left
      intro i _
      rw [Function.comp_apply, Nat.succ_sub_succ]

section Append

variable (s : Buffer)

theorem u32_eq (val : UInt32) : u32 s val = s ++ toBytes 4 val.toNat := congrArg (s ++ ·) (unparseInt_eq 4 _)
theorem u16_eq (val : UInt16) : u16 s val = s ++ toBytes 2 val.toNat := congrArg (s ++ ·) (unparseInt_eq 2 _)
theorem u8_eq (val : UInt8) : u8 s val = s ++ toBytes 1 val.toNat := congrArg (s ++ ·) (unparseInt_eq 1 _)

end Append

end NetUnparser

/-! ## What is read is what was written -/

/-- A read that succeeds is followed by the rest of the function. -/
theorem Parse.bind_ok {α β : Type} {x : Parse α} {f : α → Parse β} {p p' : NetParser} {a : α}
    (h : x p = .ok (a, p')) : (x >>= f) p = f a p' := by
  show (x p >>= fun r => f r.1 r.2) = _
  rw [h]
  rfl

theorem Parse.get_ok (p : NetParser) : (get : Parse NetParser) p = .ok (p, p) := rfl

theorem Parse.lift_ok {α : Type} {x : Except Exn α} {a : α} (h : x = .ok a) (p : NetParser) :
    (liftM x : Parse α) p = .ok (a, p) := by
  rw [h]
  rfl

namespace NetParser

theorem hasError_noError (buffer : Buffer) : hasError ⟨buffer, .noError⟩ = false := rfl

theorem checkSize_of_le {p : NetParser} {size : Nat} (h : size ≤ p.buffer.length) : p.checkSize size = p :=
  if_neg (Nat.not_lt.mpr h)

theorem modify_checkSize {buffer : Buffer} {size : Nat} (h : size ≤ buffer.length) :
    (modify (·.checkSize size) : Parse PUnit) ⟨buffer, .noError⟩ = .ok (⟨⟩, ⟨buffer, .noError⟩) :=
  congrArg (fun p => Except.ok (PUnit.unit, p)) (checkSize_of_le (p := ⟨buffer, .noError⟩) h)

/-- The loop returns the number in the bytes, as long as that fits. -/
theorem parseLoop_eq {w i n ret : Nat} {buffer : Buffer} (hlen : i + n ≤ buffer.length)
    (hfits : ret * 256 ^ n + ofBytes ((buffer.drop i).take n) < 2 ^ w) :
    parseLoop w buffer i n ret = .ok (ret * 256 ^ n + ofBytes ((buffer.drop i).take n)) := by
  induction n generalizing i ret with
  | zero => simp [parseLoop, ofBytes]
  | succ n ih =>
      have hi : i < buffer.length := by omega
      have hat : buffer.byteAt i = .ok buffer[i] := by
        rw [Buffer.byteAt, List.getElem?_eq_getElem hi]
      have htake : ((buffer.drop i).take (n + 1)) = buffer[i] :: (buffer.drop (i + 1)).take n := by
        rw [List.drop_eq_getElem_cons hi, List.take_succ_cons]
      have hlength : ((buffer.drop (i + 1)).take n).length = n := by
        rw [List.length_take, List.length_drop]; omega
      have htotal : ret * 256 ^ (n + 1) + ofBytes ((buffer.drop i).take (n + 1)) =
          (ret * 256 + buffer[i].toNat) * 256 ^ n + ofBytes ((buffer.drop (i + 1)).take n) := by
        rw [htake, ofBytes, hlength]; ring
      rw [htotal] at hfits ⊢
      -- the accumulator is at most the result, so neither the shift nor the addition leaves the range
      have hpow : ret * 256 + buffer[i].toNat ≤ (ret * 256 + buffer[i].toNat) * 256 ^ n :=
        Nat.le_mul_of_pos_right _ (Nat.pow_pos (by decide))
      have hstep : uadd w (ret * 2 ^ 8 % 2 ^ w) buffer[i].toNat = ret * 256 + buffer[i].toNat := by
        rw [Nat.mod_eq_of_lt (by omega)]
        exact uadd_of_lt (by omega)
      rw [parseLoop, hat]
      show parseLoop w buffer (i + 1) n _ = _
      rw [hstep]
      exact ih (by omega) hfits

/-- A read with enough input left. -/
theorem parseInt_append (bs rest : Buffer) :
    parseInt bs.length ⟨bs ++ rest, .noError⟩ = .ok (ofBytes bs, ⟨rest, .noError⟩) := by
  have hlen : bs.length ≤ (bs ++ rest).length := by rw [List.length_append]; omega
  have hloop : parseLoop (8 * bs.length) (bs ++ rest) 0 bs.length 0 = .ok (ofBytes bs) := by
    have hlt := ofBytes_lt bs
    rw [parseLoop_eq (by omega), Nat.zero_mul, Nat.zero_add, List.drop_zero, List.take_left]
    rw [Nat.zero_mul, Nat.zero_add, List.drop_zero, List.take_left, pow_mul]
    exact hlt
  have hremove := Buffer.removePrefix_append bs rest
  rw [parseInt, Parse.bind_ok (modify_checkSize hlen)]
  rw [Parse.bind_ok (Parse.get_ok _), hasError_noError, if_neg Bool.false_ne_true,
    Parse.bind_ok (Parse.lift_ok hloop _), Parse.bind_ok (Parse.lift_ok hremove _)]
  rfl

theorem removePrefix_append (bs rest : Buffer) :
    removePrefix bs.length ⟨bs ++ rest, .noError⟩ = .ok ((), ⟨rest, .noError⟩) := by
  have hlen : bs.length ≤ (bs ++ rest).length := by rw [List.length_append]; omega
  rw [removePrefix, Parse.bind_ok (modify_checkSize hlen)]
  rw [Parse.bind_ok (Parse.get_ok _), hasError_noError, if_neg Bool.false_ne_true,
    Parse.bind_ok (Parse.lift_ok (Buffer.removePrefix_append bs rest) _)]
  rfl

theorem parseInt_toBytes {len val : Nat} (h : val < 256 ^ len) (rest : Buffer) :
    parseInt len ⟨toBytes len val ++ rest, .noError⟩ = .ok (val, ⟨rest, .noError⟩) := by
  have hread := parseInt_append (toBytes len val) rest
  rwa [length_toBytes, ofBytes_toBytes, Nat.mod_eq_of_lt h] at hread

theorem u8_toBytes (val : UInt8) (rest : Buffer) :
    u8 ⟨toBytes 1 val.toNat ++ rest, .noError⟩ = .ok (val, ⟨rest, .noError⟩) := by
  rw [u8, Parse.bind_ok (parseInt_toBytes val.toNat_lt rest), UInt8.ofNat_toNat]
  rfl

theorem u16_toBytes (val : UInt16) (rest : Buffer) :
    u16 ⟨toBytes 2 val.toNat ++ rest, .noError⟩ = .ok (val, ⟨rest, .noError⟩) := by
  rw [u16, Parse.bind_ok (parseInt_toBytes val.toNat_lt rest), UInt16.ofNat_toNat]
  rfl

theorem u32_toBytes (val : UInt32) (rest : Buffer) :
    u32 ⟨toBytes 4 val.toNat ++ rest, .noError⟩ = .ok (val, ⟨rest, .noError⟩) := by
  rw [u32, Parse.bind_ok (parseInt_toBytes val.toNat_lt rest), UInt32.ofNat_toNat]
  rfl

end NetParser

end Sponge
