import Sponge.Connection.Alive
import Sponge.Network.Agreement

/-!
# `Network.Plain` — before the FIN

As long as the receiving end has not looked at a FIN, everything it holds comes from segments without one, the plain
segments (`Awaits`). So none of the bytes that travel with the FIN can be there before the FIN itself, which is how a
FIN gets lost, and the agreement on acknowledgments needs no condition on the FINs.
-/

namespace Sponge

open Lib TCPSegment TCPSender TCPConnection StreamReassembler

/-! ## The plain segments of a sender -/

namespace TCPSender

variable {s s' : TCPSender} {accepted : List UInt8} {seg : TCPSegment} {i : Nat}

def plainSegments (s : TCPSender) : List TCPSegment := s.firstSent.filter fun seg => !seg.header.fin

/-- The bytes sent without a FIN. -/
def plainBytes (s : TCPSender) : List UInt8 := payloads s.plainSegments

/-- Only the last segment can be missing. -/
theorem SenderInv.plain_cases (h : SenderInv accepted s) :
    s.firstSent = s.plainSegments ∨ ∃ last, s.firstSent = s.plainSegments ++ [last] ∧ last.header.fin = true := by
  by_cases hfin : s.finFlag = true
  · obtain ⟨front, last, heq, hlast⟩ := Endpoint.fin_last h hfin
    have hpair := h.finLast
    rw [heq] at hpair
    have hfront : front.filter (fun seg => !seg.header.fin) = front := by
      rw [List.filter_eq_self]
      intro seg hseg
      rw [(List.pairwise_append.mp hpair).2.2 seg hseg last List.mem_cons_self]
      rfl
    refine Or.inr ⟨last, ?_, hlast⟩
    rw [plainSegments, heq, List.filter_append, hfront, List.filter_cons_of_neg (by simp [hlast]), List.filter_nil,
      List.append_nil]
  · left
    symm
    rw [plainSegments, List.filter_eq_self]
    intro seg hseg
    by_contra hset
    exact hfin (h.finFlag.mpr ⟨seg, hseg, by simpa using hset⟩)

theorem SenderInv.plain_isPrefix (h : SenderInv accepted s) : s.plainSegments <+: s.firstSent := by
  rcases h.plain_cases with heq | ⟨last, heq, -⟩
  · exact heq ▸ List.prefix_refl _
  · exact ⟨[last], heq.symm⟩

theorem SenderInv.plainBytes_isPrefix (h : SenderInv accepted s) : s.plainBytes <+: s.sentBytes := by
  obtain ⟨rest, hrest⟩ := h.plain_isPrefix
  exact ⟨payloads rest, by rw [plainBytes, sentBytes, ← hrest, payloads_append]⟩

theorem Grows.plainBytes (h : Grows s s') : s.plainBytes <+: s'.plainBytes := by
  obtain ⟨new, hnew⟩ := h.sent
  rw [TCPSender.plainBytes, TCPSender.plainBytes, plainSegments, plainSegments, ← hnew, List.filter_append,
    payloads_append]
  exact List.prefix_append _ _

/-- The SYN and the bytes, without a FIN. -/
theorem SenderInv.extent_plain (h : SenderInv accepted s) (hsyn : s.synFlag = true) :
    extent lengthInSequenceSpace s.plainSegments = s.plainBytes.length + 1 := by
  obtain ⟨rest, hrest, hdata⟩ := h.opened hsyn
  have hplain : s.plainSegments = synSegment s.isn :: rest.filter fun seg => !seg.header.fin := by
    rw [plainSegments, hrest]
    exact List.filter_cons_of_pos rfl
  have hnofin : ∀ seg ∈ rest.filter (fun seg => !seg.header.fin), seg.header.fin = false := by
    intro seg hseg
    simpa using (List.mem_filter.mp hseg).2
  have hnosyn : ∀ seg ∈ rest.filter (fun seg => !seg.header.fin), seg.header.syn = false :=
    fun seg hseg => (hdata seg (List.mem_filter.mp hseg).1).syn
  have hext := extent_of_noSyn hnosyn (List.pairwise_of_forall_mem_list fun seg hseg _ _ => hnofin seg hseg)
  rw [if_neg (by rintro ⟨seg, hseg, hf⟩; rw [hnofin seg hseg] at hf; cases hf)] at hext
  have hone : (synSegment s.isn).lengthInSequenceSpace = 1 := rfl
  rw [plainBytes, hplain, extent_cons, hext, hone]
  show 1 + (_ + 0) = (payloads (rest.filter _)).length + 1
  omega

/-- Two positions in a stream of less than `2 ^ 32` numbers are the same if their numbers are. -/
theorem wrap_inj {m m' : Nat} {isn : WrappingInt32} (h : wrap m isn = wrap m' isn) (hm : m < 2 ^ 32)
    (hm' : m' < 2 ^ 32) : m = m' := by
  have hraw := congrArg WrappingInt32.rawValue h
  rw [rawValue_wrap, rawValue_wrap] at hraw
  omega

/-- Where the segments without a FIN are. -/
theorem Located.inside_plain (hi : Located s seg i) (h : SenderInv accepted s) (hnext : s.nextSeqno < 2 ^ 32)
    (hseg : seg ∈ s.firstSent) (hfin : seg.header.fin = false) : i + seg.payload.length ≤ s.plainBytes.length := by
  have hsyn := h.synFlag_of_mem hseg
  have hmem : seg ∈ s.plainSegments := List.mem_filter.mpr ⟨hseg, by simp [hfin]⟩
  have hnum := h.numbered
  obtain ⟨rest, hrest⟩ := h.plain_isPrefix
  rw [← hrest] at hnum
  obtain ⟨m, -, hend, hseq⟩ := (laid_append.mp hnum).1.of_mem hmem
  have hext := h.extent_plain hsyn
  have hbytes := h.plainBytes_isPrefix.length_le
  have hused := hi.used
  have hlen : seg.lengthInSequenceSpace = seg.payload.length := by
    simp [lengthInSequenceSpace, hi.syn, hfin]
  have hall := h.nextSeqno_eq hsyn
  have hpos : i + 1 = m := wrap_inj (hi.seqno.symm.trans hseq) (by omega) (by omega)
  omega

/-- The FIN comes right behind them. -/
theorem Located.after_plain (hi : Located s seg i) (h : SenderInv accepted s) (hnext : s.nextSeqno < 2 ^ 32)
    (hseg : seg ∈ s.firstSent) (hfin : seg.header.fin = true) : i = s.plainBytes.length := by
  have hsyn := h.synFlag_of_mem hseg
  rcases h.plain_cases with heq | ⟨last, heq, -⟩
  · rw [heq, plainSegments, List.mem_filter, hfin] at hseg
    exact absurd hseg.2 (by decide)
  · have hlast : seg = last := by
      rw [heq] at hseg
      rcases List.mem_append.mp hseg with hplain | hone
      · rw [plainSegments, List.mem_filter, hfin] at hplain
        exact absurd hplain.2 (by decide)
      · exact List.mem_singleton.mp hone
    have hnum := h.numbered
    rw [heq] at hnum
    have hseq := laid_iff.mp hnum s.plainSegments last [] rfl
    have hext := h.extent_plain hsyn
    have hused := hi.used
    have hbytes := h.plainBytes_isPrefix.length_le
    have hall := h.nextSeqno_eq hsyn
    rw [← hlast, hi.seqno] at hseq
    have hpos := wrap_inj hseq (by omega) (by omega)
    omega

end TCPSender

/-! ## The receiving end -/

section Arrival

variable {s : TCPSender} {r : TCPReceiver} {accepted taken : List UInt8} {seg : TCPSegment} {i : Nat}

/-- In a stream of less than `2 ^ 31` bytes every segment is pushed where it belongs. -/
theorem streamIndex_located (hi : Located s seg i) (hwritten : r.streamOut.bytesWritten ≤ s.sentBytes.length)
    (hlen : s.sentBytes.length < s.nextSeqno) (hnext : s.nextSeqno ≤ 2 ^ 31) :
    r.streamIndex s.isn seg.header.seqno = i := by
  have hused := hi.used
  rw [TCPReceiver.streamIndex, hi.seqno, unwrap_wrap_of_lt s.isn (by omega) (by omega), if_neg (by omega),
    usub_of_le (by omega)]
  omega

theorem TCPSender.Located.congr {base : TCPSegment} (hi : Located s base i) (hsame : SameData base seg) :
    Located s seg i where
  syn    := hsame.syn.trans hi.syn
  seqno  := hsame.seqno.trans hi.seqno
  bound  := hsame.payload ▸ hi.bound
  inside := hsame.payload ▸ hi.inside
  used   := hi.used
  bytes  := hsame.payload ▸ hi.bytes
  fin    := by
    rw [hsame.fin, hsame.payload]
    exact hi.fin

/-- A segment on the wire without a FIN is pushed as an excerpt of the plain bytes, if at all. -/
theorem plain_arrival (hinv : SenderInv accepted s) (hnext : s.nextSeqno ≤ 2 ^ 31) (hf : Follows s taken r)
    (hc : Carries s seg) (hfin : seg.header.fin = false) :
    r.segmentReceived seg = r ∨ ∃ isn index, r.segmentReceived seg = r.pushed isn index seg ∧
      index + seg.payload.length < 2 ^ 64 ∧ ∀ M, Excerpt M s.plainBytes index seg.payload := by
  have hlen := sentBytes_lt_of_next hinv (hnext.trans (by decide))
  have hwritten := Nat.lt_of_le_of_lt hf.written_le hlen
  have hempty (isn seqno : WrappingInt32) (hpay : seg.payload = []) :
      r.streamIndex isn seqno + seg.payload.length < 2 ^ 64 ∧
        ∀ M, Excerpt M s.plainBytes (r.streamIndex isn seqno) seg.payload :=
    ⟨(arrival_empty (s := s) hwritten isn seqno hpay hfin).lt, fun M => by rw [hpay]; exact Excerpt.nil⟩
  obtain ⟨base, hsame, hbase⟩ := hc
  rcases TCPReceiver.segmentReceived_cases r seg with ⟨hsyn, heq⟩ | ⟨hsyn, hset, heq⟩ | ⟨-, -, heq⟩
  · have hpay : seg.payload = [] := by
      rw [hsame.payload]
      rcases hbase with hmem | rfl
      · rcases hinv.shape_of_mem hmem with rfl | hdata
        · rfl
        · rw [hsame.syn, hdata.syn] at hsyn
          cases hsyn
      · rfl
    exact Or.inr ⟨_, _, heq, hempty _ _ hpay⟩
  · rcases hbase with hmem | rfl
    · rcases hinv.locate hmem with rfl | ⟨i, hi⟩
      · rw [hsame.syn] at hsyn
        cases hsyn
      · have hseg := hi.congr hsame
        have hbytes : s.sentBytes.length < s.nextSeqno := by
          rw [hinv.nextSeqno_eq (hinv.synFlag_of_mem hmem)]
          omega
        have hindex := streamIndex_located hseg hf.written_le hbytes hnext
        have hin := hi.inside_plain hinv (by omega) hmem (hsame.fin ▸ hfin)
        rw [hf.isn hset, hindex] at heq
        refine Or.inr ⟨_, _, heq, ?_, fun M => ?_⟩
        · have hinside := hseg.inside
          omega
        · exact (hseg.bytes M).restrict hinv.plainBytes_isPrefix (by rw [hsame.payload]; exact hin)
    · exact Or.inr ⟨_, _, heq, hempty _ _ hsame.payload⟩
  · exact Or.inl heq

end Arrival

/-- The sender `s` and the endpoint `e` agree on what is acknowledged, and all that `e` holds came without a FIN. -/
structure Awaits (s : TCPSender) (e : Endpoint) : Prop where
  ack   : AckInv s e
  plain : ∀ M, s.plainBytes.length < M → Rep M s.plainBytes e.conn.receiver.reassembler

theorem Awaits.init (cfg cfg' : TCPConfig) (isn isn' : WrappingInt32) :
    Awaits (Endpoint.ofConfig cfg isn).conn.sender (Endpoint.ofConfig cfg' isn') where
  ack   := AckInv.init ..
  plain := fun _ _ => Rep.init _ _ _

/-- A FIN that is not looked at needs no room. -/
theorem finKept_of_not_looked {c : TCPConnection} {op : Op} (h : c.looksAtFin op = false) : FinKept c op := by
  cases op with
  | segmentReceived seg =>
      intro hfin hadm hrst
      rw [looksAtFin, hadm, hrst, hfin] at h
      cases h
  | connect | write _ | endInputStream | tick _ | readInbound _ => trivial

/-- **What the receiving end does without looking at a FIN.** -/
theorem Awaits.dst_step {s : TCPSender} {e : Endpoint} {accepted : List UInt8} (h : Awaits s e)
    (hf : Follows s e.taken e.conn.receiver) (hinv : SenderInv accepted s) (hnext : s.nextSeqno ≤ 2 ^ 31)
    (hwire : WireInv e) (op : Op) (hsent : ∀ seg, op = .segmentReceived seg → Carries s seg)
    (hop : e.conn.looksAtFin op = false) : Awaits s (e.step op) := by
  refine ⟨h.ack.dst_step hf hinv (hnext.trans (by decide)) hwire op hsent (finKept_of_not_looked hop), ?_⟩
  intro M hM
  have hold := h.plain M hM
  have hafter : Rep M s.plainBytes (e.conn.receiverAfter op).reassembler := by
    cases op with
    | segmentReceived seg =>
        simp only [receiverAfter]
        split
        · next hlet =>
            rw [looksAtFin, hlet, Bool.true_and] at hop
            rcases plain_arrival hinv hnext hf (hsent seg rfl) hop with heq | ⟨isn, index, heq, hlt, hexcerpt⟩
            · rw [heq]
              exact hold
            · rw [heq]
              exact hold.pushSubstring hM _ hlt (hexcerpt M)
        · exact hold
    | readInbound len => exact hold.readOut len
    | connect | write _ | endInputStream | tick _ => exact hold
  obtain ⟨failed, hh⟩ := handled_step e.conn op
  rcases hh.receiver_cases with heq | heq
  · exact heq ▸ hafter
  · exact heq ▸ hafter.setError

/-- **What the sending end does**, if it hears only genuine segments. -/
theorem Awaits.src_step {src dst : Endpoint} (h : Awaits src.conn.sender dst) (hwire : WireInv src)
    (hbound : AckBound src.conn.sender) (op : Op) (hsent : Network.Sent dst op) :
    Awaits (src.step op).conn.sender dst where
  ack   := h.ack.src_step hwire hbound op hsent
  plain := fun M hM =>
    have hgrows := (grows_step src.conn op).plainBytes
    (h.plain M (Nat.lt_of_le_of_lt hgrows.length_le hM)).mono hgrows

end Sponge
