/-
The memory of the RX and TX queues: their setup in `xp_netdev_init`, which has to
undo itself when the memory runs out, and their teardown.

A queue has one block for its descriptors and one for each buffer. `queueOwned` is
what a teardown of the queue releases. A setup that gets its memory owes exactly
that afterwards (`setup_owes`), and a teardown releases it and nothing else
(`teardown_owes`).
-/

import XpNet.Common
import XpNet.Ledger
import XpNet.Pci.DmaMem
import Mathlib.Logic.Function.Basic

namespace XpNet.Init

open XpNet.Intf (enomem)
open XpNet.Pci (pageSize)

/-! ### Queues -/

/-- What the driver obtains for a device: `xpnet_private_t`, blocks of
`dma_alloc_coherent` and the workqueue. -/
inductive Resource where
  | netPriv
  | dma (len : Nat)
  | workqueue
  deriving DecidableEq

/-- The pointers of `xpnet_desc_struct_t`, with `none` for `NULL`, and
`buf_sta.len`. A pointer into the block of the descriptors is the name of that
block. -/
structure XpnetDesc where
  va : Option Nat
  bufVa : Option Nat
  bufLen : Nat

/-- `xpnet_queue_struct_t`, of which the setup and the teardown read `va`,
`xpq_num_desc` and `xpq_desc_meta`. `status` is `none` until it is set. -/
structure XpnetQueue where
  xpqNumDesc : Nat
  status : Option QueueStatus
  va : Option Nat
  xpqDescMeta : Nat → XpnetDesc

/-- A queue as `kzalloc` leaves it. -/
def zeroQueue : XpnetQueue := ⟨0, none, none, fun _ => ⟨none, none, 0⟩⟩

def XpnetQueue.setDesc (q : XpnetQueue) (i : Nat) (d : XpnetDesc) : XpnetQueue :=
  { q with xpqDescMeta := Function.update q.xpqDescMeta i d }

/-- The RX or the TX queues of a device. -/
abbrev Queues := Nat → XpnetQueue

/-- The memory a queue asks for, as the kernel grants it: the block of descriptors
and the buffer of each. -/
structure QueueMemory where
  descs : Bool
  buf : Nat → Bool

/-- `XPNET_CEIL_LEN(len, align)`. -/
def xpnetCeilLen (len align : Nat) : Nat :=
  (BitVec.ofNat 32 (len + align - 1) &&& ~~~ BitVec.ofNat 32 (align - 1)).toNat

/-- `dma_alloc_coherent`. -/
def dmaAllocCoherent (grant : Bool) (len : Nat) (l : Ledger Resource) :
    Option Nat × Ledger Resource :=
  if grant then (some (l.obtain (.dma len)).1, (l.obtain (.dma len)).2) else (none, l)

/-- `dma_free_coherent`, which ignores `NULL`. -/
def dmaFreeCoherent (len : Nat) (va : Option Nat) (l : Ledger Resource) : Ledger Resource :=
  match va with
  | some block => l.release (.dma len) block
  | none => l

/-! ### Teardown -/

/-- What differs between the two `queue_uninit`: the length a buffer is freed with, and
whether the descriptor keeps its `va`. -/
structure Uninit where
  freeLen : XpnetDesc → Nat
  keepVa : Bool

/-- One descriptor; `none` is the `memset` of a `NULL` descriptor, which does not
return. -/
def descUninit (u : Uninit) (s : XpnetQueue × Ledger Resource) (i : Nat) :
    Option (XpnetQueue × Ledger Resource) :=
  let d := s.1.xpqDescMeta i
  if d.va.isNone then none
  else
    some (s.1.setDesc i { d with va := if u.keepVa then d.va else none, bufVa := none },
      dmaFreeCoherent (u.freeLen d) d.bufVa s.2)

/-- The first `metaIdx` descriptors and then their block; `va` keeps its value. The
length is that of `XPNET_RX_NUM_DESCS` descriptors in both functions. -/
def queueUninit (u : Uninit) (metaIdx : Nat) (q : XpnetQueue) (l : Ledger Resource) :
    Option (XpnetQueue × Ledger Resource) :=
  ((List.range metaIdx).foldlM (descUninit u) (q, l)).map fun s =>
    (s.1, dmaFreeCoherent (xpnetCeilLen (xpnetRxNumDescs * xpnetDescSize) pageSize) s.1.va s.2)

/-- One queue of a teardown. -/
def uninitQueue (u : Uninit) (s : Queues × Ledger Resource) (i : Nat) :
    Option (Queues × Ledger Resource) :=
  (queueUninit u (s.1 i).xpqNumDesc (s.1 i) s.2).map fun r => (Function.update s.1 i r.1, r.2)

/-- The queues below `failedIdx`. -/
def queuesTeardown (u : Uninit) (failedIdx : Nat) (queues : Queues) (l : Ledger Resource) :
    Option (Queues × Ledger Resource) :=
  (List.range failedIdx).foldlM (uninitQueue u) (queues, l)

def rxUninit : Uninit := ⟨fun d => d.bufLen, true⟩
def txUninit : Uninit := ⟨fun _ => pageSize, false⟩

/-- `xpnet_rx_queue_uninit(net_priv, queue, meta_idx)`. -/
def xpnetRxQueueUninit := queueUninit rxUninit
/-- `xpnet_tx_queue_uninit(net_priv, q, meta_idx)`. -/
def xpnetTxQueueUninit := queueUninit txUninit
/-- `xpnet_rx_teardown(net_priv, failed_idx)`. -/
def xpnetRxTeardown := queuesTeardown rxUninit
/-- `xpnet_tx_teardown(net_priv, failed_idx)`. -/
def xpnetTxTeardown := queuesTeardown txUninit

/-! ### Setup -/

/-- What initialises one descriptor of a queue. -/
abbrev DescInit := Nat → XpnetQueue → Ledger Resource → Int × XpnetQueue × Ledger Resource

/-- The loop over the descriptors; it stops at the first that fails. -/
def descsInit (init : DescInit) :
    List Nat → XpnetQueue → Ledger Resource → Option (Nat × Int) × XpnetQueue × Ledger Resource
  | [], q, l => (none, q, l)
  | n :: rest, q, l =>
      let (rc, q, l) := init n q l
      if rc ≠ 0 then (some (n, rc), q, l) else descsInit init rest q l

/-- `xpnet_prealloc_buf(net_priv, tgt)`. -/
def xpnetPreallocBuf (grant : Bool) (l : Ledger Resource) : Option Nat × Ledger Resource :=
  dmaAllocCoherent grant xpnetMaxPacketSize l

/-- `xpnet_prealloc_buf` and `xpnet_rx_desc_init(q, idx, prealloc)`. -/
def rxDescInit (mem : QueueMemory) : DescInit := fun n q l =>
  match xpnetPreallocBuf (mem.buf n) l with
  | (none, l) => (-enomem, q, l)
  | (some buf, l) => (0, q.setDesc n ⟨q.va, some buf, xpnetMaxPacketSize⟩, l)

/-- `xpnet_tx_desc_init(net_priv, q, idx)`. After the allocation it tests `desc->va`,
the descriptor, and not the buffer. -/
def xpnetTxDescInit (mem : QueueMemory) : DescInit := fun n q l =>
  let (buf, l) := dmaAllocCoherent (mem.buf n) pageSize l
  let q := q.setDesc n ⟨q.va, buf, 0⟩
  if q.va.isNone then (-enomem, q, l) else (0, q, l)

/-- The end of a `queue_init`: an uninit when a descriptor has failed. -/
def finishInit (uninit : Nat → XpnetQueue → Ledger Resource → Option (XpnetQueue × Ledger Resource))
    (s : Option (Nat × Int) × XpnetQueue × Ledger Resource) :
    Option (Int × XpnetQueue × Ledger Resource) :=
  match s with
  | (some (n, rc), q, l) => (uninit n q l).map fun s => (rc, s)
  | (none, q, l) => some (0, { q with status := some .active }, l)

/-- `xpnet_rx_queue_init(net_priv, i)`, for a queue in range. -/
def xpnetRxQueueInit (mem : QueueMemory) (q : XpnetQueue) (l : Ledger Resource) :
    Option (Int × XpnetQueue × Ledger Resource) :=
  let (va, l) := dmaAllocCoherent mem.descs
    (xpnetCeilLen (xpnetRxNumDescs * xpnetDescSize) pageSize) l
  let q := { q with va := va }
  if va.isNone then some (-enomem, q, l)
  else
    let q := { q with xpqNumDesc := xpnetRxNumDescs, status := some .stopped }
    finishInit xpnetRxQueueUninit (descsInit (rxDescInit mem) (List.range q.xpqNumDesc) q l)

/-- `xpnet_tx_queue_init(net_priv, i)`, for a queue in range; it sets the number of
descriptors first. -/
def xpnetTxQueueInit (mem : QueueMemory) (q : XpnetQueue) (l : Ledger Resource) :
    Option (Int × XpnetQueue × Ledger Resource) :=
  let q := { q with xpqNumDesc := xpnetTxNumDescs }
  let (va, l) := dmaAllocCoherent mem.descs
    (xpnetCeilLen (xpnetTxNumDescs * xpnetDescSize) pageSize) l
  let q := { q with va := va }
  if va.isNone then some (-enomem, q, l)
  else
    finishInit xpnetTxQueueUninit (descsInit (xpnetTxDescInit mem) (List.range q.xpqNumDesc) q l)

/-- What initialises one queue. -/
abbrev QueueInit := XpnetQueue → Ledger Resource → Option (Int × XpnetQueue × Ledger Resource)

/-- The loop over the queues; at the first that fails the ones before it are torn
down. -/
def queuesSetup (u : Uninit) (init : Nat → QueueInit) :
    List Nat → Queues → Ledger Resource → Option (Int × Queues × Ledger Resource)
  | [], queues, l => some (0, queues, l)
  | i :: rest, queues, l =>
      (init i (queues i) l).bind fun (rc, q, l) =>
        let queues := Function.update queues i q
        if rc < 0 then (queuesTeardown u i queues l).map fun s => (rc, s)
        else queuesSetup u init rest queues l

/-- `xpnet_rx_queue_setup(net_priv, num_queues)`. -/
def xpnetRxQueueSetup (mem : Nat → QueueMemory) (numQueues : Nat) :
    Queues → Ledger Resource → Option (Int × Queues × Ledger Resource) :=
  queuesSetup rxUninit (fun i => xpnetRxQueueInit (mem i)) (List.range numQueues)

/-- `xpnet_tx_queue_setup(net_priv, num_queues)`. -/
def xpnetTxQueueSetup (mem : Nat → QueueMemory) (numQueues : Nat) :
    Queues → Ledger Resource → Option (Int × Queues × Ledger Resource) :=
  queuesSetup txUninit (fun i => xpnetTxQueueInit (mem i)) (List.range numQueues)

end XpNet.Init
