/-
The receive side of `xp_netdev_core.c`: one RX queue, the device that fills its
descriptors, and `xpnet_rx_queue_process`, access by access.

The device works from the programmed CDP: it fills the descriptor there if it
owns it, gives it back, follows `qword[3]`, and stops at a zero link or a
descriptor the host owns, until the queue is enabled again. Filling a descriptor
and going on to the next is one step; between any two accesses of the host the
device may take any number of steps.

`completed` and `delivered` are ghosts: the good frames the device has
completed, and those handed to `xp_rx_skb_process`. No code reads them.
-/

import XpNet.Queue
import XpNet.Interference.Logic

namespace XpNet.Rx

open XpNet.Interference (Prog)

/-! ### State -/

/-- The bytes of a packet. -/
abbrev Frame := List UInt8

/-- The receive counters of `net_priv->stats` that the poll changes. -/
structure Stats where
  rxDropped : Nat
  rxLengthErrors : Nat
  deriving DecidableEq, Repr

structure State where
  queue : Queue
  mode : AddressMode
  stats : Stats
  jiffiesDefer : Nat
  allocOk : Bool
  running : Bool
  cdp : Nat
  completed : List Frame
  delivered : List Frame

def State.desc (s : State) (i : Nat) : Desc := s.queue.descMeta i

/-- The device owns descriptor `i`. -/
def State.owned (s : State) (i : Nat) : Bool := ownership (s.desc i).qword0

/-- Change descriptor `i` and nothing else. -/
def State.updDesc (s : State) (i : Nat) (f : Desc → Desc) : State :=
  { s with queue := { s.queue with descMeta := Function.update s.queue.descMeta i (f (s.desc i)) } }

@[simp] theorem updDesc_self (s : State) (i : Nat) (f : Desc → Desc) :
    (s.updDesc i f).desc i = f (s.desc i) := by
  simp [State.desc, State.updDesc]

theorem updDesc_of_ne (s : State) {i j : Nat} (f : Desc → Desc) (h : j ≠ i) :
    (s.updDesc i f).desc j = s.desc j := by
  simp [State.desc, State.updDesc, h]

/-- The length of the packet in a descriptor, as the poll takes it from `qword[1]`. -/
def pktSize (mode : AddressMode) (qword1 : Nat) : Nat :=
  let size := qword1 / 2 ^ 16 % 2 ^ 16
  if mode = .a0Uncompressed then (size + 2 ^ 16 - 16) % 2 ^ 16 else size

/-! ### The device -/

inductive EnvMove where
  /-- The device completes a descriptor with a packet. -/
  | complete (va : Image) (qword1 : Nat)
  /-- The device gives a descriptor back with any other bits, those of an error among them. -/
  | fault (qword0 : BitVec 64) (va : Image) (qword1 : Nat)
  /-- The device finds that the host owns its descriptor. -/
  | halt
  /-- The allocator has, or has not, memory for a socket buffer. -/
  | memory (ok : Bool)

/-- The descriptor the device is at. -/
def State.current (s : State) : Option Nat :=
  if s.running then s.queue.descAt s.cdp else none

/-- What the device writes to a descriptor and its buffer. -/
def writeBack (qword0 : BitVec 64) (va : Image) (qword1 : Nat) (d : Desc) : Desc :=
  { d with qword0 := qword0, qword1 := qword1, bufSta := { d.bufSta with va := va } }

/-- The device fills descriptor `i` and goes on along its link. -/
def fill (s : State) (i : Nat) (qword0 : BitVec 64) (va : Image) (qword1 : Nat) : State :=
  { s.updDesc i (writeBack qword0 va qword1) with
    running := (s.desc i).qword3 != 0
    cdp := (s.desc i).qword3 }

@[simp] theorem fill_desc_self (s : State) (i : Nat) (qword0 : BitVec 64) (va : Image)
    (qword1 : Nat) : (fill s i qword0 va qword1).desc i = writeBack qword0 va qword1 (s.desc i) :=
  updDesc_self s i _

theorem fill_desc_of_ne (s : State) {i j : Nat} (qword0 : BitVec 64) (va : Image) (qword1 : Nat)
    (h : j ≠ i) : (fill s i qword0 va qword1).desc j = s.desc j :=
  updDesc_of_ne s _ h

/-- A completion counts as a good frame if it is not too long. -/
def goodFrame (mode : AddressMode) (va : Image) (qword1 : Nat) : List Frame :=
  if pktSize mode qword1 ≤ xpnetMaxPacketSize then
    [wireBytes va (pktSize mode qword1) mode]
  else []

def envMove (m : EnvMove) (s : State) : State :=
  match m, s.current with
  | .complete va qword1, some i =>
    if s.owned i then
      { fill s i (clearOwn (s.desc i).qword0) va qword1 with
        completed := s.completed ++ goodFrame s.mode va qword1 }
    else s
  | .fault qword0 va qword1, some i =>
    if s.owned i then fill s i (clearOwn qword0) va qword1 else s
  | .halt, some i => if s.owned i then s else { s with running := false }
  | .memory ok, _ => { s with allocOk := ok }
  | _, none => s

def Env (s s' : State) : Prop := ∃ m, s' = envMove m s

/-! ### Actions -/

/-- What an access of the code does, as far as an observer of the shared memory
can tell. -/
inductive Ev where
  /-- Reads or writes data of the driver only. -/
  | priv
  | load (i : Nat) (k : Fin 4)
  | loadBuf (i : Nat)
  | storeBuf (i : Nat)
  | storeQword (i : Nat) (k : Fin 4)
  | moveTail (i : Nat)
  | setCdp (i : Nat)
  | enableQueue
  | deliver (frame : Frame)
  deriving DecidableEq, Repr

abbrev RxProg := Prog State Ev

/-- `d->va->qword[0]` of descriptor `i`. -/
def loadQword0 (i : Nat) : RxProg (BitVec 64) := Prog.look (.load i 0) fun s => (s.desc i).qword0
def loadQword1 (i : Nat) : RxProg Nat := Prog.look (.load i 1) fun s => (s.desc i).qword1

def storeDesc (lab : Ev) (i : Nat) (f : Desc → Desc) : RxProg Unit :=
  Prog.write lab fun s => s.updDesc i f

/-- `xpnet_set_q_cdp`. -/
def xpnetSetQCdp (idx : Nat) : RxProg Unit :=
  Prog.write (.setCdp idx) fun s => { s with cdp := s.queue.dma + idx * xpnetDescSize }

/-- `xpnet_queue_en_dis(net_priv, q, 1, 0, …)`. -/
def xpnetQueueEnable : RxProg Unit := Prog.write .enableQueue fun s => { s with running := true }

/-! ### Rejecting a descriptor -/

/-- `regval` of `xpnet_rx_desc_enable`. -/
def enabledBits (qword0 : BitVec 64) : BitVec 64 := (qword0 &&& 0x1f) ||| ownBit

/-- `xpnet_rx_desc_enable`. -/
def xpnetRxDescEnable (i : Nat) : RxProg Unit := do
  let qword0 ← loadQword0 i
  storeDesc (.storeQword i 0) i (setQword0 (enabledBits qword0))

/-- `__xpnet_rx_desc_reset(q, idx)`. -/
def xpnetRxDescReset (numDesc i : Nat) : RxProg Unit := do
  let next ← Prog.look .priv fun s => (s.desc (xpnetAddAndWrap i 1 numDesc)).cdp
  storeDesc (.storeQword i 3) i fun d => { d with qword3 := next }
  storeDesc (.storeQword i 2) i fun d => { d with qword2 := d.bufSta.dma }
  storeDesc (.storeQword i 1) i fun d => { d with qword1 := xpnetMaxPacketSize }
  storeDesc (.storeQword i 0) i (setQword0 ownBit)

/-- The two branches that reject a descriptor: it is armed again where it is, and
`tail` stays. -/
def rejectDesc (numDesc i : Nat) (count : Stats → Stats) : RxProg Unit := do
  xpnetRxDescReset numDesc i
  xpnetRxDescEnable i
  Prog.write .priv fun s => { s with stats := count s.stats }

/-! ### The poll -/

/-- Why a poll returns. -/
inductive PollExit where
  | dmaError
  | stillOwned
  | tooLong
  | noMemory
  | maxiter
  deriving DecidableEq, Repr

/-- `__xpnet_endian_swap32(d->buf_sta.va, pkt_size, mode)`. -/
def swapBuffer (mode : AddressMode) (i size : Nat) : RxProg Unit := do
  let va ← Prog.look (.loadBuf i) fun s => (s.desc i).bufSta.va
  match xpnetEndianSwap32 va size mode with
  | some va => storeDesc (.storeBuf i) i (setVa va)
  | none => .diverge

/-- `q->tail == 0`: the device starts over at the first descriptor. -/
def restartAtZero (tail : Nat) : RxProg Unit :=
  if tail = 0 then do
    xpnetSetQCdp 0
    xpnetQueueEnable
  else pure ()

/-- A packet of `size` bytes, from its socket buffer on. -/
def takePacket (mode : AddressMode) (numDesc i size : Nat) : RxProg Unit := do
  swapBuffer mode i size
  let frame ← Prog.look (.loadBuf i) fun s => readBytes (s.desc i).bufSta.va size
  storeDesc (.storeQword i 1) i fun d => { d with qword1 := d.bufSta.len }
  storeDesc (.storeQword i 0) i (setQword0 ownBit)
  let tail := xpnetAddAndWrap i 1 numDesc
  Prog.write (.moveTail tail) fun s => { s with queue := { s.queue with tail := tail } }
  restartAtZero tail
  Prog.write (.deliver frame) fun s => { s with delivered := s.delivered ++ [frame] }

/-- A descriptor that the host owns, with no error. -/
def pollOwned (mode : AddressMode) (numDesc i : Nat) : RxProg (Option PollExit) := do
  Prog.write .priv fun s => { s with jiffiesDefer := 0 }
  let qword1 ← loadQword1 i
  let size := pktSize mode qword1
  if size > xpnetMaxPacketSize then do
    rejectDesc numDesc i fun t => { t with rxDropped := t.rxDropped + 1 }
    pure (some .tooLong)
  else do
    let skb ← Prog.look .priv fun s => s.allocOk
    if skb then do
      takePacket mode numDesc i size
      pure none
    else pure (some .noMemory)

/-- A round of the poll's loop: `none` goes on. -/
def pollRound : RxProg (Option PollExit) := do
  let s ← Prog.look .priv id
  let i := s.queue.tail
  let numDesc := s.queue.xpqNumDesc
  let qword0 ← loadQword0 i
  if qword0 >>> 0 = 1 then do
    rejectDesc numDesc i fun t =>
      { t with rxDropped := t.rxDropped + 1, rxLengthErrors := t.rxLengthErrors + 1 }
    pure (some .dmaError)
  else do
    let qword0 ← loadQword0 i
    if ownership qword0 then pure (some .stillOwned)
    else pollOwned s.mode numDesc i

/-- The loop with `fuel` rounds left after `count` packets. -/
def pollLoop : Nat → Nat → RxProg (Nat × PollExit)
  | 0, count => pure (count, .maxiter)
  | fuel + 1, count => do
    match ← pollRound with
    | none => pollLoop fuel (count + 1)
    | some exit => pure (count, exit)

/-- `xpnet_rx_queue_process`, with the number of packets it took and why it
returned. -/
def xpnetRxQueueProcess (maxiter : Nat) : RxProg (Nat × PollExit) := pollLoop maxiter 0

/-- A sequence of polls. -/
def runPolls (polls : List Nat) : RxProg Unit :=
  polls.forM fun maxiter => do
    let _ ← xpnetRxQueueProcess maxiter
    pure ()

/-! ### Initialization -/

/-- `xpnet_rx_desc_init` on a cleared descriptor. -/
def xpnetRxDescInit (dma idx : Nat) (prealloc : Shard) : Desc where
  numShards := 0
  cdp := dma + idx * xpnetDescSize
  bufSta := prealloc
  qword0 := 0
  qword1 := prealloc.len
  qword2 := prealloc.dma
  qword3 := 0

/-- `xpnet_rx_queue_link_and_enable`. -/
def xpnetRxQueueLinkAndEnable (q : Queue) : Queue :=
  let chain := xpnetQueueDescLink q false
  { chain with
    descMeta := fun i =>
      if i < q.xpqNumDesc then
        setQword0 (enabledBits (chain.descMeta i).qword0) (chain.descMeta i)
      else chain.descMeta i
    head := 0
    tail := 0
    status := .active }

/-- `xpnet_rx_queue_init` when every allocation succeeds: `dma` is where the
descriptors are, `bufs` gives the buffers of `XPNET_MAX_PACKET_SIZE` bytes. -/
def xpnetRxQueueInit (numDesc dma : Nat) (bufs : Nat → Image × Nat) : Queue :=
  xpnetRxQueueLinkAndEnable
    { xpqNumDesc := numDesc, status := .stopped, tail := 0, head := 0, dma := dma
      descMeta := fun i => xpnetRxDescInit dma i
        { va := (bufs i).1, dma := (bufs i).2, len := xpnetMaxPacketSize } }

/-- A queue that has been set up, given its CDP and enabled, before any packet. -/
def Initial (n : Nat) (s : State) : Prop :=
  (∃ dma bufs, s.queue = xpnetRxQueueInit n dma bufs ∧ s.cdp = dma) ∧
    s.running = true ∧ s.completed = [] ∧ s.delivered = []

/-- The driver's queue after `xpnet_rx_all_queues_start`, with clear buffers. -/
def freshState (mode : AddressMode) (numDesc : Nat) : State where
  queue := xpnetRxQueueInit numDesc xpnetDescSize fun i => (fun _ => 0, xpnetMaxPacketSize * i)
  mode := mode
  stats := { rxDropped := 0, rxLengthErrors := 0 }
  jiffiesDefer := 0
  allocOk := true
  running := true
  cdp := xpnetDescSize
  completed := []
  delivered := []

theorem initial_freshState (mode : AddressMode) (n : Nat) : Initial n (freshState mode n) :=
  ⟨⟨_, _, rfl, rfl⟩, rfl, rfl, rfl⟩

end XpNet.Rx
