import Sponge.Connection.Endpoint

/-!
# `Network` — two endpoints and an unreliable network

The network may drop, duplicate, delay and reorder segments, but it forges none. All of that is one rule: an
end may receive any segment that the other end has ever put in its outbound queue, any number of times and at
any later moment. The queue of a connection keeps everything, so the rule is a condition on the state
(`NoForgery`).
-/

namespace Sponge

open Lib

structure Network where
  a : Endpoint
  b : Endpoint
deriving DecidableEq

namespace Network

open TCPConnection

/-- An operation at one of the two ends. -/
inductive Event where
  | atA (op : Op)
  | atB (op : Op)
deriving DecidableEq

def ofConfigs (cfgA cfgB : TCPConfig) (isnA isnB : WrappingInt32) : Network :=
  ⟨Endpoint.ofConfig cfgA isnA, Endpoint.ofConfig cfgB isnB⟩

def step (n : Network) : Event → Network
  | .atA op => { n with a := n.a.step op }
  | .atB op => { n with b := n.b.step op }

/-- What arrives was sent by `peer`. -/
def Sent (peer : Endpoint) : Op → Prop
  | .segmentReceived seg => seg ∈ peer.conn.segmentsOut
  | _                    => True

instance (peer : Endpoint) : (op : Op) → Decidable (Sent peer op)
  | .segmentReceived seg => inferInstanceAs (Decidable (seg ∈ peer.conn.segmentsOut))
  | .connect | .write _ | .endInputStream | .tick _ | .readInbound _ => inferInstanceAs (Decidable True)

/-- The network forges no segment. -/
def NoForgery (n : Network) : Event → Prop
  | .atA op => Sent n.b op
  | .atB op => Sent n.a op

instance (n : Network) : (ev : Event) → Decidable (NoForgery n ev)
  | .atA op => inferInstanceAs (Decidable (Sent n.b op))
  | .atB op => inferInstanceAs (Decidable (Sent n.a op))

end Network

end Sponge
