import Sponge.Network.Wire

/-!
# `Network.Prefix` — the bytes delivered are a prefix of the bytes accepted

The two directions are treated alike: `Channel src dst` holds whatever happens at `src`, and whatever genuine
segments and other operations happen at `dst`. The bound on the bytes is needed only to keep the sequence
numbers of one connection apart; it is a condition inside `Channel`, since the bytes accepted only grow.
-/

namespace Sponge

open Lib TCPConnection

/-- One direction: `src` puts only segments of its stream on the wire, and `dst` follows it. -/
structure Channel (src dst : Endpoint) : Prop where
  wire    : WireInv src
  follows : src.conn.sender.nextSeqno ≤ 2 ^ 32 → Follows src.conn.sender dst.taken dst.conn.receiver

namespace Channel

variable {src dst : Endpoint}

theorem init (cfg cfg' : TCPConfig) (isn isn' : WrappingInt32) :
    Channel (Endpoint.ofConfig cfg isn) (Endpoint.ofConfig cfg' isn') :=
  ⟨WireInv.init cfg isn, fun _ => Follows.init ..⟩

theorem src_step (h : Channel src dst) (op : Op) : Channel (src.step op) dst := by
  have hgrows := grows_step src.conn op
  refine ⟨h.wire.step op, fun hnext => (h.follows ?_).grows hgrows⟩
  exact (hgrows.nextSeqno_le h.wire.sender (h.wire.step op).sender).trans hnext

theorem dst_step (h : Channel src dst) (op : Op) (hsent : Network.Sent src op) :
    Channel src (dst.step op) := by
  refine ⟨h.wire, fun hnext => (h.follows hnext).step h.wire.sender hnext op ?_⟩
  rintro seg rfl
  exact h.wire.out seg hsent

/-- While the sequence numbers do not run out, what was delivered is a prefix of what was accepted. -/
theorem delivered_isPrefix (h : Channel src dst) (hlen : src.accepted.length + 2 ≤ 2 ^ 32) :
    dst.delivered <+: src.accepted := by
  have hsent := h.wire.sender.sentBytes_isPrefix
  have hnext : src.conn.sender.nextSeqno ≤ 2 ^ 32 := by
    have := h.wire.sender.nextSeqno_le
    have := hsent.length_le
    omega
  calc dst.delivered
      = src.conn.sender.sentBytes.take dst.conn.receiver.reassembler.nextIndex :=
        (h.follows hnext).delivered_eq
    _ <+: src.conn.sender.sentBytes := List.take_prefix _ _
    _ <+: src.accepted := hsent

end Channel

theorem Endpoint.accepted_isPrefix (e : Endpoint) (op : Op) : e.accepted <+: (e.step op).accepted := by
  cases op with
  | write data => exact List.prefix_append _ _
  | connect | endInputStream | tick _ | segmentReceived _ | readInbound _ => exact List.prefix_refl _

namespace Network

variable {n : Network}

/-- Both directions. -/
structure Inv (n : Network) : Prop where
  ab : Channel n.a n.b
  ba : Channel n.b n.a

theorem Inv.step (h : Inv n) {ev : Event} (hok : NoForgery n ev) : Inv (n.step ev) := by
  cases ev with
  | atA op => exact ⟨h.ab.src_step op, h.ba.dst_step op hok⟩
  | atB op => exact ⟨h.ab.dst_step op hok, h.ba.src_step op⟩

/-- What has been accepted stays accepted. -/
theorem accepted_run (n : Network) (evs : List Event) :
    n.a.accepted <+: (run step n evs).a.accepted ∧ n.b.accepted <+: (run step n evs).b.accepted := by
  refine run_invariant evs
    (fun m : Network => n.a.accepted <+: m.a.accepted ∧ n.b.accepted <+: m.b.accepted)
    ⟨List.prefix_refl _, List.prefix_refl _⟩ fun m ev h => ?_
  cases ev with
  | atA op => exact ⟨h.1.trans (m.a.accepted_isPrefix op), h.2⟩
  | atB op => exact ⟨h.1, h.2.trans (m.b.accepted_isPrefix op)⟩

/-- **End-to-end prefix safety.** Whatever the network drops, duplicates, delays and reorders, and in
    whatever order the two applications act, the bytes delivered at one end are at every moment a prefix of
    the bytes accepted at the other, as long as fewer than `2 ^ 31 - 2` bytes are written in each
    direction. -/
theorem prefix_safety (cfgA cfgB : TCPConfig) (isnA isnB : WrappingInt32) (evs : List Event)
    (h : Guarded step NoForgery (ofConfigs cfgA cfgB isnA isnB) evs)
    (ha : (run step (ofConfigs cfgA cfgB isnA isnB) evs).a.accepted.length < 2 ^ 31 - 2)
    (hb : (run step (ofConfigs cfgA cfgB isnA isnB) evs).b.accepted.length < 2 ^ 31 - 2) :
    ∀ pre, pre <+: evs →
      (run step (ofConfigs cfgA cfgB isnA isnB) pre).b.delivered <+:
        (run step (ofConfigs cfgA cfgB isnA isnB) pre).a.accepted ∧
      (run step (ofConfigs cfgA cfgB isnA isnB) pre).a.delivered <+:
        (run step (ofConfigs cfgA cfgB isnA isnB) pre).b.accepted := by
  intro pre hpre
  have hinv : Inv (run step (ofConfigs cfgA cfgB isnA isnB) pre) :=
    (h.of_isPrefix hpre).invariant Inv ⟨Channel.init .., Channel.init ..⟩ fun _ _ hi hok => hi.step hok
  obtain ⟨post, rfl⟩ := hpre
  rw [run_append] at ha hb
  -- the bytes accepted by now are among those accepted in the end
  obtain ⟨hga, hgb⟩ := accepted_run (run step (ofConfigs cfgA cfgB isnA isnB) pre) post
  have hla := hga.length_le
  have hlb := hgb.length_le
  exact ⟨hinv.ab.delivered_isPrefix (by omega), hinv.ba.delivered_isPrefix (by omega)⟩

/-- The handshake, two bytes from the first end in two segments, which arrive in the wrong order and once
    more, and a read. -/
def reorderedRun : List Event :=
  [.atA .connect,
    .atB (.segmentReceived { header := { seqno := .ofRaw 0, syn := true } }),
    .atA (.segmentReceived { header := { seqno := .ofRaw 100, ackno := .ofRaw 1, syn := true, ack := true,
                                         win := 64000 } }),
    .atA (.write [7]), .atA (.write [8]),
    .atB (.segmentReceived { header := { seqno := .ofRaw 2, ackno := .ofRaw 101, ack := true, win := 64000 },
                             payload := [8] }),
    .atB (.segmentReceived { header := { seqno := .ofRaw 1, ackno := .ofRaw 101, ack := true, win := 64000 },
                             payload := [7] }),
    .atB (.readInbound 1),
    .atB (.segmentReceived { header := { seqno := .ofRaw 2, ackno := .ofRaw 101, ack := true, win := 64000 },
                             payload := [8] })]

theorem prefix_safety_reordered :
    (run step (ofConfigs {} {} (.ofRaw 0) (.ofRaw 100)) reorderedRun).b.delivered = [7, 8] ∧
    (run step (ofConfigs {} {} (.ofRaw 0) (.ofRaw 100)) reorderedRun).b.delivered <+:
      (run step (ofConfigs {} {} (.ofRaw 0) (.ofRaw 100)) reorderedRun).a.accepted :=
  ⟨by decide +kernel,
    (prefix_safety {} {} (.ofRaw 0) (.ofRaw 100) reorderedRun (by decide +kernel) (by decide +kernel)
      (by decide +kernel) reorderedRun (List.prefix_refl _)).1⟩

end Network

end Sponge
