/-
The transmit side of `xp_netdev_core.c`: one TX queue, the descriptors and
buffers it shares with the device, and the code that runs on it, store by store.

The state is what the code reads and writes: the queue `tx_queue[txqno]`, the
flags and statistics of `xpnet_private_t`, the queue's two device registers and
the network interfaces above it. `armed` is a ghost: the slots whose ownership
bit the running call has set for the frame it is enqueueing. The code never
reads it.

Every access to a descriptor or a data buffer is an action of its own, so the
environment can act between any two of them. The environment is the device,
which clears ownership bits and sets error bits of descriptors it owns, and the
kernel's memory allocator, which has memory or has none.

The spin locks order the callers of one queue and are left out: calls run one
after the other.
-/

import XpNet.Queue
import XpNet.Interference.Logic

namespace XpNet.Tx

open XpNet.Interference (Prog)

/-! ### State -/

/-- The transmit counters of `net_priv->stats`. -/
structure Stats where
  txPackets : Nat
  txBytes : Nat
  txErrors : Nat
  txDropped : Nat
  txAbortedErrors : Nat
  deriving DecidableEq, Repr

/-- A `struct net_device` and its `xp_netdev_priv`, as the transmit path uses them. -/
structure NetDevice where
  up : Bool
  txHeader : TxHeader
  txPackets : Nat
  queueStopped : Bool

structure State where
  hwFlags : BitVec 32
  mode : AddressMode
  dmaTrigger : Nat
  queue : Queue
  stats : Stats
  cdpReg : Nat
  cmdReg : Nat
  netdev : Nat → NetDevice
  allocOk : Bool
  armed : List Nat

/-- `net_priv->hw_flags & XPNET_HWFLAG_A0`. -/
def State.isA0 (s : State) : Bool := s.hwFlags &&& 1#32 != 0#32

def State.desc (s : State) (i : Nat) : Desc := s.queue.descMeta i

/-- The device owns descriptor `i`. -/
def State.owned (s : State) (i : Nat) : Bool := ownership (s.desc i).qword0

/-- Change descriptor `i` and nothing else. -/
def State.updDesc (s : State) (i : Nat) (f : Desc → Desc) : State :=
  { s with queue := { s.queue with descMeta := Function.update s.queue.descMeta i (f (s.desc i)) } }

def State.updQueue (s : State) (f : Queue → Queue) : State := { s with queue := f s.queue }

def State.updStats (s : State) (f : Stats → Stats) : State := { s with stats := f s.stats }

/-- The number of descriptors a frame of `len` bytes takes. -/
def shardCount (len : Nat) : Nat := (len + (xpnetMaxDmaSegmentSize - 1)) / xpnetMaxDmaSegmentSize

/-! ### Actions -/

/-- What an action of the code does, as far as an observer of the shared memory
and of the driver's messages can tell. -/
inductive Ev where
  /-- Reads or writes data of the driver only. -/
  | priv
  /-- Loads `qword[0]` of a descriptor. -/
  | load (i : Nat)
  /-- Stores `buf_sta.len`. -/
  | storeLen (i : Nat)
  /-- Stores to the data buffer, other than the copy of the frame's bytes. -/
  | storeBuf (i : Nat)
  /-- Copies bytes of the frame to the data buffer. -/
  | memcpy (i : Nat) (src : List UInt8)
  /-- Stores `qword[k]`. -/
  | storeQword (i : Nat) (k : Fin 4)
  /-- Stores `qword[0]` of the frame's SOP descriptor, its `k` shards handed over. -/
  | handOver (i k : Nat)
  | setCdp (i : Nat)
  | enableQueue
  /-- All checks passed: the frame's bytes are copied next. -/
  | beginCopy (i len : Nat)
  | corruption
  | headBusy (i : Nat)
  | shardBusy (i : Nat)
  | shardError (i : Nat)
  | moveTail (i k : Nat)
  | emptyQueue
  | txError (i : Nat)
  | txIncomplete (i : Nat)
  | moveHead (i : Nat)
  | rewind
  | kfreeSkb (expanded : Bool)
  | stopQueue (dev : Nat)
  deriving DecidableEq, Repr

/-- The descriptor an action stores to: its data buffer, its `buf_sta.len` or
one of its qwords. -/
def Ev.target : Ev → Option Nat
  | .storeLen i | .storeBuf i | .memcpy i _ | .storeQword i _ | .handOver i _ => some i
  | _ => none

abbrev TxProg := Prog State Ev

/-- `d->va->qword[0]` of descriptor `i`. -/
def loadQword0 (i : Nat) : TxProg (BitVec 64) := Prog.look (.load i) fun s => (s.desc i).qword0

def storeDesc (lab : Ev) (i : Nat) (f : Desc → Desc) : TxProg Unit :=
  Prog.write lab fun s => s.updDesc i f

def bumpStats (f : Stats → Stats) : TxProg Unit := Prog.write .priv fun s => s.updStats f

/-! ### The environment -/

inductive EnvMove where
  /-- The device gives a descriptor it owns back to the host. -/
  | complete (i : Nat)
  /-- The device reports an error in a descriptor it owns. -/
  | fault (i : Nat)
  /-- The allocator has, or has not, memory for an atomic allocation. -/
  | memory (ok : Bool)
  deriving DecidableEq, Repr

/-- The device rewrites `qword[0]` of a descriptor, if it owns it. -/
def onOwned (i : Nat) (g : BitVec 64 → BitVec 64) (s : State) : State :=
  if s.owned i then s.updDesc i fun d => setQword0 (g d.qword0) d else s

def envMove : EnvMove → State → State
  | .complete i => onOwned i clearOwn
  | .fault i => onOwned i setError
  | .memory ok => fun s => { s with allocOk := ok }

def Env (s s' : State) : Prop := ∃ m, s' = envMove m s

/-! ### Registers -/

/-- `xpnet_set_q_cdp`. -/
def xpnetSetQCdp (idx : Nat) : TxProg Unit :=
  Prog.write (.setCdp idx) fun s => { s with cdpReg := s.queue.dma + idx * xpnetDescSize }

/-- `xpnet_queue_en_dis` with a priority of at most 7. -/
def xpnetQueueEnDis (enable : Bool) (prio : Nat) : TxProg Unit :=
  Prog.write .enableQueue fun s => { s with cmdReg := if enable then 8 ||| prio else prio }

/-! ### Enqueueing -/

/-- `__xpnet_endian_swap32(d->buf_sta.va, d->buf_sta.len, mode)`. -/
def swapShard (i : Nat) : TxProg Unit := do
  let s ← Prog.look .priv id
  match xpnetEndianSwap32 (s.desc i).bufSta.va (s.desc i).bufSta.len s.mode with
  | some va => storeDesc (.storeBuf i) i (setVa va)
  | none => .diverge

/-- `b2c`: the bytes the next shard takes. -/
def bytesToCopy (max copied : Nat) : Nat :=
  if max - copied < xpnetMaxDmaSegmentSize then max - copied else xpnetMaxDmaSegmentSize

/-- One round of the loop of `__xpnet_skb_to_shards`: fill the buffer of slot `n`. -/
def fillShard (skb : SkBuff) (copied n : Nat) : TxProg Unit := do
  let b2c := bytesToCopy skb.len copied
  storeDesc (.storeLen n) n (setLen b2c)
  if skb.len < 128 then do
    storeDesc (.storeBuf n) n fun d => setVa (memset d.bufSta.va 0 128) d
    storeDesc (.storeLen n) n (setLen 128)
  let src := (skb.data.drop copied).take b2c
  storeDesc (.memcpy n src) n fun d => setVa (memcpy d.bufSta.va src) d
  swapShard n

/-- The loop of `__xpnet_skb_to_shards`. -/
def skbToShardsLoop (skb : SkBuff) (numDesc copied n idx : Nat) : TxProg Nat :=
  if _h : copied < skb.len then do
    fillShard skb copied n
    skbToShardsLoop skb numDesc (copied + bytesToCopy skb.len copied)
      (xpnetAddAndWrap n 1 numDesc) (idx + 1)
  else pure idx
termination_by skb.len - copied
decreasing_by
  unfold bytesToCopy xpnetMaxDmaSegmentSize
  split <;> omega

/-- `__xpnet_skb_to_shards`. -/
def xpnetSkbToShards (skb : SkBuff) : TxProg Nat := do
  let s ← Prog.look .priv id
  skbToShardsLoop skb s.queue.xpqNumDesc 0 s.queue.tail 0

inductive EnqueueResult where
  | ok
  | queueBusy
  | queueError
  deriving DecidableEq, Repr

/-- The first loop of `__xpnet_skb_stat_enqueue`: `max` slots from `idx` on must
be free and without error. -/
def checkShards (numDesc : Nat) : Nat → Nat → TxProg EnqueueResult
  | _, 0 => pure .ok
  | idx, max + 1 => do
    let q ← loadQword0 idx
    if ownership q then do
      Prog.emit (.shardBusy idx)
      pure .queueBusy
    else do
      let q ← loadQword0 idx
      if errorIndication q then do
        Prog.emit (.shardError idx)
        pure .queueError
      else checkShards numDesc (xpnetAddAndWrap idx 1 numDesc) max

/-- The second loop of `__xpnet_skb_stat_enqueue`: set the descriptors up, all
but the one at `tail` with their ownership bit. The result is the last slot. -/
def setupShards (numDesc tail : Nat) : Nat → Nat → Nat → TxProg Nat
  | last, _, 0 => pure last
  | _, idx, max + 1 => do
    storeDesc (.storeQword idx 2) idx fun d => { d with qword2 := d.bufSta.dma }
    storeDesc (.storeQword idx 1) idx fun d => { d with qword1 := d.bufSta.len }
    if idx = tail then
      storeDesc (.storeQword idx 0) idx (setQword0 sopBit)
    else
      Prog.write (.storeQword idx 0) fun s =>
        { s.updDesc idx (setQword0 ownBit) with armed := idx :: s.armed }
    setupShards numDesc tail idx (xpnetAddAndWrap idx 1 numDesc) max

/-- A0 hardware does not follow links: it is pointed at every frame. -/
def kickQueue (isA0 : Bool) (tail : Nat) : TxProg Unit :=
  if isA0 then do
    xpnetSetQCdp tail
    xpnetQueueEnDis true 0
  else pure ()

/-- The end of `__xpnet_skb_stat_enqueue`: EOP on the last descriptor, then the
ownership bit of the first. -/
def handOverShards (tail last shards : Nat) : TxProg Unit := do
  let q ← loadQword0 last
  storeDesc (.storeQword last 0) last (setQword0 (q ||| eopBit))
  Prog.write .priv fun s => s.updDesc tail fun d => { d with numShards := shards }
  let q ← loadQword0 tail
  Prog.write (.handOver tail shards) fun s =>
    { s.updDesc tail (setQword0 (q ||| ownBit)) with armed := tail :: s.armed }
  let isA0 ← Prog.look .priv State.isA0
  kickQueue isA0 tail

/-- `__xpnet_skb_stat_enqueue` after its check. -/
def enqueueChecked (numDesc tail shards : Nat) : EnqueueResult → TxProg EnqueueResult
  | .ok => do
    let last ← setupShards numDesc tail tail tail shards
    handOverShards tail last shards
    pure .ok
  | err => pure err

/-- `__xpnet_skb_stat_enqueue`. -/
def xpnetSkbStatEnqueue (shards : Nat) : TxProg EnqueueResult := do
  let s ← Prog.look .priv id
  let res ← checkShards s.queue.xpqNumDesc s.queue.tail shards
  enqueueChecked s.queue.xpqNumDesc s.queue.tail shards res

/-- `xpnet_enum_t` as `__xpnet_enforce_skb_sanity` returns it. -/
inductive SkbSanity where
  | ok
  | reason4kCross
  | reasonShortPacket
  deriving DecidableEq, Repr

/-- `__xpnet_enforce_skb_sanity`. Its caller drops the result. -/
def xpnetEnforceSkbSanity (isA0 : Bool) (skb : SkBuff) : SkbSanity :=
  if !isA0 then .ok
  else if (skb.len + 3) / 4 * 4 > xpnetMaxDmaSegmentSize then .reason4kCross
  else if skb.len < xpnetMinPacketSize then .reasonShortPacket
  else .ok

/-- The exits of `xpnet_hard_start_xmit`. -/
inductive XmitExit where
  | txok
  | txdrop
  | txbusy
  deriving DecidableEq, Repr

inductive NetdevTx where
  | ok
  | busy
  deriving DecidableEq, Repr

/-- What an exit returns to the caller. -/
def XmitExit.rc : XmitExit → NetdevTx
  | .txok | .txdrop => .ok
  | .txbusy => .busy

/-- The label `ret_txdrop`. -/
def retTxdrop (skb : Option SkBuff) : TxProg XmitExit := do
  match skb with
  | some skb => Prog.emit (.kfreeSkb skb.expanded)
  | none => pure ()
  bumpStats fun t => { t with txDropped := t.txDropped + 1 }
  pure .txdrop

/-- `xpnet_hard_start_xmit` after `__xpnet_skb_stat_enqueue`. -/
def xmitEnqueued (skb : SkBuff) (tail numDesc shards : Nat) : EnqueueResult → TxProg XmitExit
  | .queueBusy => pure .txbusy
  | .queueError => do
    bumpStats fun t =>
      { t with txAbortedErrors := t.txAbortedErrors + 1, txDropped := t.txDropped + 1 }
    pure .txbusy
  | .ok => do
    Prog.emit (.kfreeSkb skb.expanded)
    bumpStats fun t => { t with txPackets := t.txPackets + 1, txBytes := t.txBytes + skb.len }
    Prog.write (.moveTail tail shards) fun s =>
      { s.updQueue fun q => { q with tail := xpnetAddAndWrap q.tail shards numDesc } with
        armed := [] }
    pure .txok

/-- `xpnet_hard_start_xmit` from the copy of the frame on. -/
def xmitFrame (skb : SkBuff) (tail numDesc numFreeDesc : Nat) : TxProg XmitExit := do
  Prog.emit (.beginCopy tail skb.len)
  let shards ← xpnetSkbToShards skb
  if asInt shards > asInt numFreeDesc then Prog.emit .corruption
  let res ← xpnetSkbStatEnqueue shards
  xmitEnqueued skb tail numDesc shards res

/-- `xpnet_hard_start_xmit` once the frame fits: the descriptor at `tail` must be
free and without error. -/
def xmitChecked (isA0 : Bool) (skb : SkBuff) (tail numDesc numFreeDesc : Nat) :
    TxProg XmitExit := do
  let q0 ← loadQword0 tail
  if ownership q0 then do
    Prog.emit (.headBusy tail)
    pure .txbusy
  else do
    let q0 ← loadQword0 tail
    if errorIndication q0 then pure .txbusy
    else
      let _skbGood := xpnetEnforceSkbSanity isA0 skb
      xmitFrame skb tail numDesc numFreeDesc

/-- A frame that is dropped and counted as a transmit error. -/
def txErrorDrop (skb : Option SkBuff) : TxProg XmitExit := do
  bumpStats fun t => { t with txErrors := t.txErrors + 1 }
  retTxdrop skb

/-- The checks of `xpnet_hard_start_xmit`, on the state it finds. -/
def xmitFrom (s : State) (skb : Option SkBuff) : TxProg XmitExit :=
  let q := s.queue
  if q.status ≠ .active then txErrorDrop skb
  else match skb with
  | none => retTxdrop none
  | some skb =>
    let numFreeDesc := xpnetGetFreeDesc q.xpqNumDesc q.head q.tail
    if numFreeDesc = 0 then pure .txbusy
    else if skb.len = 0 ∨ skb.len > u32Mul numFreeDesc xpnetMaxDmaSegmentSize then txErrorDrop (some skb)
    else if skb.dataLen ≠ 0 then txErrorDrop (some skb)
    else xmitChecked s.isA0 skb q.tail q.xpqNumDesc numFreeDesc

/-- What the checks come to for a frame: it is refused, no descriptor is free, or the
descriptors are looked at. -/
theorem xmitFrom_cases {s : State} {skb : SkBuff} {P : TxProg XmitExit → Prop}
    (refused : (s.queue.status ≠ .active ∨
      (xpnetGetFreeDesc s.queue.xpqNumDesc s.queue.head s.queue.tail ≠ 0 ∧
        (skb.len = 0 ∨ skb.len > u32Mul (xpnetGetFreeDesc s.queue.xpqNumDesc s.queue.head
          s.queue.tail) xpnetMaxDmaSegmentSize ∨ skb.dataLen ≠ 0))) → P (txErrorDrop (some skb)))
    (full : s.queue.status = .active →
      xpnetGetFreeDesc s.queue.xpqNumDesc s.queue.head s.queue.tail = 0 → P (pure .txbusy))
    (checked : s.queue.status = .active →
      xpnetGetFreeDesc s.queue.xpqNumDesc s.queue.head s.queue.tail ≠ 0 → skb.len ≠ 0 →
      skb.len ≤ u32Mul (xpnetGetFreeDesc s.queue.xpqNumDesc s.queue.head s.queue.tail)
        xpnetMaxDmaSegmentSize → skb.dataLen = 0 →
      P (xmitChecked s.isA0 skb s.queue.tail s.queue.xpqNumDesc
        (xpnetGetFreeDesc s.queue.xpqNumDesc s.queue.head s.queue.tail))) :
    P (xmitFrom s (some skb)) := by
  unfold xmitFrom
  dsimp only
  split
  case isTrue hdown => exact refused (.inl hdown)
  case isFalse hactive =>
    split
    case isTrue hnone => exact full (not_not.mp hactive) hnone
    case isFalse hsome =>
      split
      case isTrue hlen => exact refused (.inr ⟨hsome, hlen.imp_right .inl⟩)
      case isFalse hlen =>
        rw [not_or, Nat.not_lt] at hlen
        split
        case isTrue hfrags => exact refused (.inr ⟨hsome, .inr (.inr hfrags)⟩)
        case isFalse hlinear =>
          exact checked (not_not.mp hactive) hsome hlen.1 hlen.2 (not_not.mp hlinear)

/-- `xpnet_hard_start_xmit`. -/
def xpnetHardStartXmit (skb : Option SkBuff) : TxProg XmitExit := do
  let s ← Prog.look .priv id
  xmitFrom s skb

/-! ### Completion -/

/-- The inner loop of `xpnet_tx_complete`: wait for the device, a bounded number
of times. -/
def awaitOwnership (head : Nat) : Nat → TxProg Unit
  | 0 => pure ()
  | attempts + 1 => do
    let q ← loadQword0 head
    if ownership q then awaitOwnership head attempts else pure ()

/-- The outer loop of `xpnet_tx_complete`, with its local copy of the head. -/
def txCompleteLoop (numDesc tail : Nat) : Nat → Nat → TxProg Unit
  | _, 0 => pure ()
  | head, iter + 1 => do
    let head := xpnetAddAndWrap head 1 numDesc
    if head = tail then Prog.emit .emptyQueue
    else do
      let q ← loadQword0 head
      if errorIndication q then Prog.emit (.txError head)
      else do
        awaitOwnership head xpnetMaxAttempts
        let q ← loadQword0 head
        if ownership q then Prog.emit (.txIncomplete head)
        else do
          Prog.write (.moveHead head) fun s =>
            s.updQueue fun q => { q with head := xpnetAddAndWrap q.head 1 q.xpqNumDesc }
          txCompleteLoop numDesc tail head iter

/-- The end of `xpnet_tx_complete`: on A0 the ring starts over. -/
def rewindA0 (isA0 : Bool) : TxProg Unit :=
  if isA0 then
    Prog.write .rewind fun s => s.updQueue fun q => { q with head := q.xpqNumDesc - 1, tail := 0 }
  else pure ()

/-- `xpnet_tx_complete`. -/
def xpnetTxComplete (maxiter : Nat) : TxProg Unit := do
  let s ← Prog.look .priv id
  let q := s.queue
  let busy := xpnetGetBusyDesc q.xpqNumDesc q.head q.tail
  txCompleteLoop q.xpqNumDesc q.tail q.head (if busy > maxiter then maxiter else busy)
  rewindA0 s.isA0

/-- What `xpnet_start_xmit` does with the exit of `xpnet_hard_start_xmit`. -/
def completeAfter (numDesc : Nat) (exit : XmitExit) : TxProg XmitExit :=
  if exit.rc = .ok then do
    xpnetTxComplete numDesc
    pure exit
  else pure exit

/-- `xpnet_start_xmit` on the state it finds. -/
def startXmitFrom (s : State) (skb : SkBuff) : TxProg XmitExit :=
  if s.dmaTrigger = 0 then do
    Prog.emit (.kfreeSkb skb.expanded)
    pure .txdrop
  else do
    let exit ← xpnetHardStartXmit (some skb)
    completeAfter s.queue.xpqNumDesc exit

/-- `xpnet_start_xmit`. -/
def xpnetStartXmit (skb : SkBuff) : TxProg XmitExit := do
  let s ← Prog.look .priv id
  startXmitFrom s skb

/-! ### Initialization -/

/-- `xpnet_tx_desc_init` on a cleared descriptor, given its data buffer. -/
def xpnetTxDescInit (dma idx : Nat) (buf : Shard) : Desc where
  numShards := 0
  cdp := dma + idx * xpnetDescSize
  bufSta := { buf with len := 0 }
  qword0 := 0
  qword1 := 0
  qword2 := 0
  qword3 := 0

/-- `xpnet_tx_queue_init` when every allocation succeeds: `dma` is where the
descriptors are, `bufs` the data buffers. -/
def xpnetTxQueueInit (isA0 : Bool) (numDesc dma : Nat) (bufs : Nat → Shard) : Queue :=
  let q : Queue :=
    { xpqNumDesc := numDesc, status := .active, tail := 0, head := numDesc - 1, dma := dma
      descMeta := fun i => xpnetTxDescInit dma i (bufs i) }
  if isA0 then q else xpnetQueueDescLink q false

/-- A driver with the DMA engine on and all buffers clear. -/
def freshState (hwFlags : BitVec 32) (mode : AddressMode) (numDesc : Nat) : State where
  hwFlags := hwFlags
  mode := mode
  dmaTrigger := 1
  queue := xpnetTxQueueInit (hwFlags &&& 1#32 != 0#32) numDesc 0 fun i =>
    { va := fun _ => 0, dma := xpnetMaxDmaSegmentSize * i, len := 0 }
  stats := { txPackets := 0, txBytes := 0, txErrors := 0, txDropped := 0, txAbortedErrors := 0 }
  cdpReg := 0
  cmdReg := 0
  netdev := fun _ =>
    { up := true, txHeader := unsetTxHeader, txPackets := 0, queueStopped := false }
  allocOk := true
  armed := []

/-- A linear frame of `len` zero bytes. -/
def zeroFrame (headroom len : Nat) : SkBuff where
  headroom := headroom
  data := List.replicate len 0
  frags := []
  len := len
  dataLen := 0
  expanded := false
  dataLen_eq := dataLen_linear
  len_eq := by simp

end XpNet.Tx
