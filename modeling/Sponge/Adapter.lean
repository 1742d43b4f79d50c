import Sponge.Util.Descriptor
import Sponge.Wire.TCPOverIP

/-!
# `Adapter` — reading and writing segments

An adapter reads segments from a datagram interface and writes them to it. The two that there are, over UDP and over IP,
and the one that loses segments on purpose share an interface, `FdAdapter`, to which the rest of the program is
written. The answers of the kernel to the system calls of an adapter are one record, `NetAnswers`.

`Carrier` is what such an adapter is for: what comes out of `read` was decoded from the bytes that arrived, what goes
into `write` is encoded in bytes that are sent, and decoding undoes encoding up to the ports and the checksum.
-/

namespace Sponge

open Lib Util

/-- What `recvfrom` returns, with the address of the sender. -/
structure RecvResult extends ReadResult where
  sourceAddress : Address := {}
deriving DecidableEq

/-- What the kernel answers to the calls of an adapter. A call that hands out bytes is told how many there were
    before. -/
structure NetAnswers where
  recvfrom : Nat → RecvResult := fun _ => { ret := -1, errno := 11 }
  sendmsg  : Nat → List Iovec → SysResult := fun _ _ => { ret := -1, errno := 11 }
  read     : Nat → ReadResult := fun _ => { ret := -1, errno := 11 }
  writev   : Kernel := fun _ _ => { ret := -1, errno := 11 }

/-- The interface of the adapters. What the source does through the reference that `config_mut` returns is done by
    `setConfig`. -/
class FdAdapter (α : Type) where
  fd           : α → FDWrapper
  config       : α → FdAdapterConfig
  setConfig    : FdAdapterConfig → α → α
  setListening : Bool → α → α
  tick         : Nat → α → α
  read         : NetAnswers → EStateM Failure α (Option TCPSegment)
  write        : NetAnswers → TCPSegment → EStateM Failure α Unit

/-- Read several times. -/
def FdAdapter.reads {α : Type} [FdAdapter α] : List NetAnswers → EStateM Failure α (List (Option TCPSegment))
  | []          => pure []
  | net :: nets => do
    let seg ← FdAdapter.read net
    let segs ← reads nets
    return seg :: segs

theorem FdAdapter.reads_cons {α : Type} [FdAdapter α] {net : NetAnswers} {nets : List NetAnswers} {a a₁ a₂ : α}
    {seg : Option TCPSegment} {segs : List (Option TCPSegment)} (hread : FdAdapter.read net a = .ok seg a₁)
    (hreads : reads nets a₁ = .ok segs a₂) : reads (net :: nets) a = .ok (seg :: segs) a₂ := by
  show EStateM.bind (FdAdapter.read net) _ a = _
  unfold EStateM.bind
  rw [hread]
  show EStateM.bind (reads nets) _ a₁ = _
  unfold EStateM.bind
  rw [hreads]
  rfl

/-- A computation that can only throw an `Exn`. -/
def throwing {σ β : Type} (x : Except Exn β) : EStateM Failure σ β :=
  match x with
  | .ok b    => pure b
  | .error e => throw (.sys (.exn e))

/-- The views of a string in several pieces. -/
def BufferList.views (l : BufferList) : BufferViewList := l.flatMap BufferViewList.ofString

theorem BufferList.bytes_views (l : BufferList) : l.views.bytes = l.concatenate := by
  unfold views BufferViewList.bytes
  rw [List.flatMap_assoc, BufferList.concatenate, List.flatten_eq_flatMap]
  exact List.flatMap_congr fun b _ => BufferViewList.bytes_ofString b

theorem BufferList.size_views (l : BufferList) : l.views.size = l.size := by
  rw [← BufferViewList.length_bytes, bytes_views, length_concatenate]

/-! ## What an adapter is for -/

/-- The segments agree on everything but the ports and the checksum. -/
structure Alike (seg seg' : TCPSegment) : Prop where
  payload : seg'.payload = seg.payload
  header  : seg'.header = { seg.header with
    sport := seg'.header.sport, dport := seg'.header.dport, cksum := seg'.header.cksum }

/-- The segment fits into a datagram of either kind: together with the headers of UDP and of IP it has at most 65535
    bytes. -/
structure FitsDatagram (seg : TCPSegment) : Prop where
  doff_ge : 5 ≤ seg.header.doff.toNat
  doff_le : seg.header.doff.toNat ≤ 15
  size    : 28 + 4 * seg.header.doff.toNat + seg.payload.length ≤ 65535

/-- Over IP there is no header of UDP. -/
theorem FitsDatagram.size_ip {seg : TCPSegment} (h : FitsDatagram seg) :
    20 + 4 * seg.header.doff.toNat + seg.payload.length ≤ 65535 := by
  have hsize := h.size
  omega

/-- What holds of the bytes on the wire, by their history: `sent` are those that were handed to the kernel, and
    `arrived` those that it has for the adapter. -/
class Carrier (α : Type) extends FdAdapter α where
  sent       : α → List Buffer
  arrived    : NetAnswers → Buffer
  encodes    : TCPSegment → Buffer → Prop
  decodes    : Buffer → TCPSegment → Prop
  /-- The kernel keeps to the manual. -/
  documented : NetAnswers → Prop
  read_ends  : ∀ net a, documented net → Ends (read net a)
    (fun r a' => sent a' = sent a ∧ ∀ seg, r = some seg → decodes (arrived net) seg) (fun _ a' => sent a' = sent a)
  write_ends : ∀ net seg a, documented net → FitsDatagram seg → Ends (write net seg a)
    (fun _ a' => ∃ new, sent a' = sent a ++ new ∧ ∀ b ∈ new, encodes seg b)
    (fun _ a' => ∃ new, sent a' = sent a ++ new ∧ ∀ b ∈ new, encodes seg b)
  codec      : ∀ seg b seg', FitsDatagram seg → encodes seg b → decodes b seg' → Alike seg seg'
  sent_setConfig    : ∀ config a, sent (setConfig config a) = sent a
  sent_setListening : ∀ listening a, sent (setListening listening a) = sent a
  sent_tick         : ∀ ms a, sent (tick ms a) = sent a
  /-- Each read is counted. -/
  counts_read       : ∀ net a, Ends (read net a) (fun _ a' => (fd a').readCount ≠ (fd a).readCount) (fun _ _ => True)
  /-- What is thrown is about a system call. -/
  read_throws       : ∀ net a, Ends (read net a) (fun _ _ => True) (fun e _ => e.ofCall = true)
  write_throws      : ∀ net seg a, FitsDatagram seg →
    Ends (write net seg a) (fun _ _ => True) (fun e _ => e.ofCall = true)

end Sponge
