/-
`xp_netdev_init` and `xp_netdev_deinit` with the registers they program: each queue's CDP
when it is set up, its command register when it is started or taken down, and the
multiplexer that gives the port to the DMA engine.

All of these accesses take the lock themselves, and none is made with it held
(`xpNetdevInit_keepsLock`, `xpNetdevDeinit_keepsLock`). What becomes of the memory does
not depend on what the device answers: in every run it is what `XpNet.Init` says
(`xpNetdevInit_runs`, `xpNetdevDeinit_runs`).
-/

import XpNet.Init.Requests
import XpNet.Regs.Access

namespace XpNet.Regs

open XpNet.Interference
open XpNet.Init (Resource Uninit QueueMemory ModeState zeroQueue dmaAllocCoherent descsInit
  rxDescInit xpnetTxDescInit rxUninit txUninit xpnetCeilLen xpNetdevModeInit xpNetdevModeDeinit)
open XpNet.Intf (enomem)
open XpNet.Pci (pageSize)

variable {δ α β : Type}

/-! ### Queues and their registers -/

/-- `xpnet_queue_struct_t`: what its registers are programmed from, and its memory. -/
structure HwQueue where
  regs : QueueRegs
  mem : Init.XpnetQueue

/-- A queue as `kzalloc` leaves it. -/
def zeroHwQueue : HwQueue := ⟨⟨0, none, 0⟩, zeroQueue⟩

abbrev HwQueues := Nat → HwQueue

/-- The memory of the queues. -/
def HwQueues.mem (queues : HwQueues) : Init.Queues := HwQueue.mem ∘ queues

/-- `xpnet_rx_queue_uninit` and `xpnet_tx_queue_uninit`: the queue is disabled first. -/
def queueUninit (priv : PciPriv δ) (u : Uninit) (metaIdx : Nat) (q : HwQueue)
    (l : Ledger Resource) : RegProg δ (HwQueue × Ledger Resource) := do
  xpnetQueueEnDis priv q.regs 0 0 xpnetAflagAcqlock
  let r ← Prog.ofOption (Init.queueUninit u metaIdx q.mem l)
  pure ({ q with mem := r.1 }, r.2)

/-- One queue of a teardown. -/
def uninitQueue (priv : PciPriv δ) (u : Uninit) (s : HwQueues × Ledger Resource) (i : Nat) :
    RegProg δ (HwQueues × Ledger Resource) := do
  let r ← queueUninit priv u (s.1 i).mem.xpqNumDesc (s.1 i) s.2
  pure (Function.update s.1 i r.1, r.2)

/-- The queues below `failedIdx`. -/
def queuesTeardown (priv : PciPriv δ) (u : Uninit) (failedIdx : Nat) (queues : HwQueues)
    (l : Ledger Resource) : RegProg δ (HwQueues × Ledger Resource) :=
  (List.range failedIdx).foldlM (uninitQueue priv u) (queues, l)

/-- `xpnet_rx_teardown(net_priv, failed_idx)`. -/
def xpnetRxTeardown (priv : PciPriv δ) := queuesTeardown priv rxUninit
/-- `xpnet_tx_teardown(net_priv, failed_idx)`. -/
def xpnetTxTeardown (priv : PciPriv δ) := queuesTeardown priv txUninit

/-- The end of a `queue_init`: an uninit when a descriptor has failed, else the CDP. -/
def finishInit (priv : PciPriv δ) (u : Uninit) (regs : QueueRegs)
    (s : Option (Nat × Int) × Init.XpnetQueue × Ledger Resource) :
    RegProg δ (Int × HwQueue × Ledger Resource) :=
  match s with
  | (some (n, rc), q, l) => do
    let r ← queueUninit priv u n ⟨regs, q⟩ l
    pure (rc, r)
  | (none, q, l) => do
    xpnetSetQCdp priv regs 0 xpnetAflagAcqlock
    pure (0, ⟨regs, { q with status := some .active }⟩, l)

/-- `xpnet_rx_queue_init(net_priv, i)`, for a queue in range; `dma` is what
`dma_alloc_coherent` stores to `q->dma`. -/
def xpnetRxQueueInit (priv : PciPriv δ) (mem : QueueMemory) (dma i : Nat) (q : HwQueue)
    (l : Ledger Resource) : RegProg δ (Int × HwQueue × Ledger Resource) :=
  let (va, l) := dmaAllocCoherent mem.descs
    (xpnetCeilLen (xpnetRxNumDescs * xpnetDescSize) pageSize) l
  let m := { q.mem with va := va }
  if va.isNone then pure (-enomem, { q with mem := m }, l)
  else
    let m := { m with xpqNumDesc := xpnetRxNumDescs, status := some .stopped }
    finishInit priv rxUninit ⟨i, some .rx, dma⟩
      (descsInit (rxDescInit mem) (List.range m.xpqNumDesc) m l)

/-- `xpnet_tx_queue_init(net_priv, i)`, for a queue in range; it sets the id and the type
before it asks for memory. -/
def xpnetTxQueueInit (priv : PciPriv δ) (mem : QueueMemory) (dma i : Nat) (q : HwQueue)
    (l : Ledger Resource) : RegProg δ (Int × HwQueue × Ledger Resource) :=
  let regs := { q.regs with xpqId := i, xpqType := some .tx }
  let m := { q.mem with xpqNumDesc := xpnetTxNumDescs }
  let (va, l) := dmaAllocCoherent mem.descs
    (xpnetCeilLen (xpnetTxNumDescs * xpnetDescSize) pageSize) l
  let m := { m with va := va }
  if va.isNone then pure (-enomem, ⟨regs, m⟩, l)
  else
    finishInit priv txUninit { regs with dma := dma }
      (descsInit (xpnetTxDescInit mem) (List.range m.xpqNumDesc) m l)

/-- What initialises one queue. -/
abbrev QueueInit (δ : Type) :=
  HwQueue → Ledger Resource → RegProg δ (Int × HwQueue × Ledger Resource)

/-- The loop over the queues; at the first that fails the ones before it are torn
down. -/
def queuesSetup (priv : PciPriv δ) (u : Uninit) (init : Nat → QueueInit δ) :
    List Nat → HwQueues → Ledger Resource → RegProg δ (Int × HwQueues × Ledger Resource)
  | [], queues, l => pure (0, queues, l)
  | i :: rest, queues, l => do
    let r ← init i (queues i) l
    let queues := Function.update queues i r.2.1
    if r.1 < 0 then do
      let s ← queuesTeardown priv u i queues r.2.2
      pure (r.1, s)
    else queuesSetup priv u init rest queues r.2.2

/-- `xpnet_rx_queue_setup(net_priv, num_queues)`. -/
def xpnetRxQueueSetup (priv : PciPriv δ) (mem : Nat → QueueMemory) (dma : Nat → Nat)
    (numQueues : Nat) :
    HwQueues → Ledger Resource → RegProg δ (Int × HwQueues × Ledger Resource) :=
  queuesSetup priv rxUninit (fun i => xpnetRxQueueInit priv (mem i) (dma i) i)
    (List.range numQueues)

/-- `xpnet_tx_queue_setup(net_priv, num_queues)`. -/
def xpnetTxQueueSetup (priv : PciPriv δ) (mem : Nat → QueueMemory) (dma : Nat → Nat)
    (numQueues : Nat) :
    HwQueues → Ledger Resource → RegProg δ (Int × HwQueues × Ledger Resource) :=
  queuesSetup priv txUninit (fun i => xpnetTxQueueInit priv (mem i) (dma i) i)
    (List.range numQueues)

/-- `xpnet_rx_all_queues_start(net_priv)`; the setup has set `num_rxqueues`. -/
def xpnetRxAllQueuesStart (priv : PciPriv δ) (numRxqueues : Nat) (rxQueue : HwQueues) :
    RegProg δ Unit :=
  (List.range numRxqueues).forM fun i =>
    xpnetQueueEnDis priv (rxQueue i).regs 1 0 xpnetAflagAcqlock

/-! ### Init and deinit -/

/-- `xpnet_private_t`, with the registers of its queues. -/
structure HwPrivate where
  block : Nat
  rxQueue : HwQueues
  txQueue : HwQueues
  wqueue : Nat

def HwPrivate.mem (net : HwPrivate) : Init.XpnetPrivate :=
  ⟨net.block, net.rxQueue.mem, net.txQueue.mem, net.wqueue⟩

/-- `priv->xpnet`, `g_net_priv`, the shared state and the ledger. -/
structure HwNetdev where
  xpnet : Option HwPrivate
  gNetPriv : Option Nat
  mode : ModeState
  ledger : Ledger Resource

def HwNetdev.mem (s : HwNetdev) : Init.Netdev :=
  ⟨s.xpnet.map HwPrivate.mem, s.gNetPriv, s.mode, s.ledger⟩

/-- What the kernel answers to `xp_netdev_init`, with the bus addresses of the blocks it
grants. -/
structure NetdevKernel extends Init.NetdevKernel where
  rxDma : Nat → Nat
  txDma : Nat → Nat

/-- `err_netdev_fp_netdev` of `xp_netdev_init`. -/
def unwindInit (priv : PciPriv δ) (block : Nat) (rxQueue txQueue : HwQueues) (mode : ModeState)
    (l : Ledger Resource) : RegProg δ HwNetdev := do
  let r ← xpnetRxTeardown priv xpnetRxNumQueues rxQueue l
  let t ← xpnetTxTeardown priv xpnetTxNumQueues txQueue r.2
  pure ⟨none, none, mode, t.2.release .netPriv block⟩

/-- `xp_netdev_init` from `xp_netdev_mode_init` on. -/
def initFromMode (priv : PciPriv δ) (kernel : Init.GlobalsKernel) (block : Nat)
    (rxQueue txQueue : HwQueues) (mode : ModeState) (l : Ledger Resource) :
    RegProg δ (Int × HwNetdev) :=
  let (rc, mode) := xpNetdevModeInit kernel.mode mode
  if rc ≠ 0 then do
    let s ← unwindInit priv block rxQueue txQueue mode l
    pure (rc, s)
  else if !kernel.createWorkqueue then do
    let mode ← Prog.ofOption (xpNetdevModeDeinit mode)
    let s ← unwindInit priv block rxQueue txQueue mode l
    pure (-enomem, s)
  else do
    let (wqueue, l) := l.obtain .workqueue
    xpnetRxAllQueuesStart priv xpnetRxNumQueues rxQueue
    xpnetProgramMuxSetdma priv 1
    pure (0, ⟨some ⟨block, rxQueue, txQueue, wqueue⟩, some block, mode, l⟩)

/-- `xp_netdev_init(priv)`. -/
def xpNetdevInit (priv : PciPriv δ) (kernel : NetdevKernel) (s : HwNetdev) :
    RegProg δ (Int × HwNetdev) :=
  if s.xpnet.isSome then pure (0, s)
  else if !kernel.kzalloc then pure (-enomem, s)
  else do
    let (block, l) := s.ledger.obtain .netPriv
    xpnetProgramMuxSetdma priv 0
    let rx ← xpnetRxQueueSetup priv kernel.rx kernel.rxDma xpnetRxNumQueues
      (fun _ => zeroHwQueue) l
    let tx ← xpnetTxQueueSetup priv kernel.tx kernel.txDma xpnetTxNumQueues
      (fun _ => zeroHwQueue) rx.2.2
    initFromMode priv kernel.toGlobalsKernel block rx.2.1 tx.2.1 s.mode tx.2.2

/-- `xp_netdev_deinit(priv)`. -/
def xpNetdevDeinit (priv : PciPriv δ) (s : HwNetdev) : RegProg δ HwNetdev :=
  match s.xpnet with
  | none => pure s
  | some net => do
    let mode ← Prog.ofOption (xpNetdevModeDeinit s.mode)
    let t ← xpnetTxTeardown priv xpnetTxNumQueues net.txQueue s.ledger
    let r ← xpnetRxTeardown priv xpnetRxNumQueues net.rxQueue t.2
    pure ⟨none, s.gNetPriv, mode, (r.2.release .workqueue net.wqueue).release .netPriv net.block⟩

/-! ### The lock -/

section Lock

variable {priv : PciPriv δ} {u : Uninit}

theorem queueUninit_keepsLock (metaIdx : Nat) (q : HwQueue) (l : Ledger Resource) :
    KeepsLock false (queueUninit priv u metaIdx q l) :=
  (xpnetQueueEnDis_access acqlock_agrees q.regs 0 0).keepsLock.bind fun _ =>
    Locking.ofOption.bind fun _ => .ret

theorem queuesTeardown_keepsLock (failedIdx : Nat) (queues : HwQueues) (l : Ledger Resource) :
    KeepsLock false (queuesTeardown priv u failedIdx queues l) :=
  .foldlM (fun _ _ => (queueUninit_keepsLock _ _ _).bind fun _ => .ret) _ _

theorem finishInit_keepsLock (regs : QueueRegs)
    (s : Option (Nat × Int) × Init.XpnetQueue × Ledger Resource) :
    KeepsLock false (finishInit priv u regs s) := by
  obtain ⟨failed, q, l⟩ := s
  cases failed with
  | some failedAt => exact (queueUninit_keepsLock _ _ _).bind fun _ => .ret
  | none => exact (xpnetSetQCdp_access acqlock_agrees regs 0).keepsLock.bind fun _ => .ret

theorem xpnetRxQueueInit_keepsLock (mem : QueueMemory) (dma i : Nat) (q : HwQueue)
    (l : Ledger Resource) : KeepsLock false (xpnetRxQueueInit priv mem dma i q l) := by
  unfold xpnetRxQueueInit
  dsimp only
  split
  · exact .ret
  · exact finishInit_keepsLock _ _

theorem xpnetTxQueueInit_keepsLock (mem : QueueMemory) (dma i : Nat) (q : HwQueue)
    (l : Ledger Resource) : KeepsLock false (xpnetTxQueueInit priv mem dma i q l) := by
  unfold xpnetTxQueueInit
  dsimp only
  split
  · exact .ret
  · exact finishInit_keepsLock _ _

theorem queuesSetup_keepsLock {init : Nat → QueueInit δ}
    (each : ∀ i q l, KeepsLock false (init i q l)) (is : List Nat) (queues : HwQueues)
    (l : Ledger Resource) : KeepsLock false (queuesSetup priv u init is queues l) := by
  induction is generalizing queues l with
  | nil => exact .ret
  | cons i rest ih =>
      apply (each i (queues i) l).bind
      intro r
      dsimp only
      split
      · exact (queuesTeardown_keepsLock _ _ _).bind fun _ => .ret
      · exact ih _ _

theorem xpnetRxAllQueuesStart_access (numRxqueues : Nat) (rxQueue : HwQueues) :
    Access false (xpnetRxAllQueuesStart priv numRxqueues rxQueue) :=
  .forM (fun _ => xpnetQueueEnDis_access acqlock_agrees _ 1 0) _

theorem unwindInit_keepsLock (block : Nat) (rxQueue txQueue : HwQueues) (mode : ModeState)
    (l : Ledger Resource) : KeepsLock false (unwindInit priv block rxQueue txQueue mode l) :=
  (queuesTeardown_keepsLock _ _ _).bind fun _ =>
    (queuesTeardown_keepsLock _ _ _).bind fun _ => .ret

theorem initFromMode_keepsLock (kernel : Init.GlobalsKernel) (block : Nat)
    (rxQueue txQueue : HwQueues) (mode : ModeState) (l : Ledger Resource) :
    KeepsLock false (initFromMode priv kernel block rxQueue txQueue mode l) := by
  unfold initFromMode
  dsimp only
  split
  · exact (unwindInit_keepsLock _ _ _ _ _).bind fun _ => .ret
  · split
    · exact Locking.ofOption.bind fun _ => (unwindInit_keepsLock _ _ _ _ _).bind fun _ => .ret
    · exact (xpnetRxAllQueuesStart_access _ rxQueue).keepsLock.bind fun _ =>
        (xpnetProgramMuxSetdma_access 1).keepsLock.bind fun _ => .ret

theorem xpNetdevInit_keepsLock (kernel : NetdevKernel) (s : HwNetdev) :
    KeepsLock false (xpNetdevInit priv kernel s) := by
  unfold xpNetdevInit
  split
  · exact .ret
  · split
    · exact .ret
    · apply (xpnetProgramMuxSetdma_access 0).keepsLock.bind
      intro _
      apply (queuesSetup_keepsLock (fun i => xpnetRxQueueInit_keepsLock _ _ i) _ _ _).bind
      intro rx
      apply (queuesSetup_keepsLock (fun i => xpnetTxQueueInit_keepsLock _ _ i) _ _ _).bind
      intro tx
      exact initFromMode_keepsLock _ _ _ _ _ _

theorem xpNetdevDeinit_keepsLock (s : HwNetdev) : KeepsLock false (xpNetdevDeinit priv s) := by
  unfold xpNetdevDeinit
  split
  · exact .ret
  · apply Locking.ofOption.bind
    intro mode
    apply (queuesTeardown_keepsLock _ _ _).bind
    intro t
    exact (queuesTeardown_keepsLock _ _ _).bind fun r => .ret

end Lock

/-! ### The memory -/

/-- Whatever the device answers, what the program returns is `r`, read through `f`. -/
def Follows (f : α → β) (p : RegProg δ α) (r : Option β) : Prop :=
  Refines (fun _ => ()) (fun a b => f a = b) p (Prog.ofOption r : Prog Unit Unit β)

section Memory

variable {priv : PciPriv δ} {u : Uninit} {α' β' : Type}

theorem Follows.ret {f : α → β} (a : α) : Follows (δ := δ) f (.ret a) (some (f a)) :=
  Refines.ret rfl

theorem Follows.ofOption (r : Option α) : Follows (δ := δ) id (.ofOption r) r := by
  cases r with
  | some a => exact .ret a
  | none => exact Refines.diverge

theorem Follows.bind {f : α → β} {g : α' → β'} {p : RegProg δ α} {r : Option β}
    {k : α → RegProg δ α'} {h : β → Option β'} (first : Follows f p r)
    (second : ∀ a, Follows g (k a) (h (f a))) : Follows g (p >>= k) (r.bind h) := by
  have split : (Prog.ofOption (r.bind h) : Prog Unit Unit β') =
      Prog.ofOption r >>= fun b => Prog.ofOption (h b) := by
    cases r <;> rfl
  unfold Follows
  rw [split]
  apply Refines.bind first
  rintro a _ rfl
  exact second a

theorem Follows.map {f : α → β} {g : α' → β'} {p : RegProg δ α} {r : Option β}
    {k : α → RegProg δ α'} {h : β → β'} (first : Follows f p r)
    (second : ∀ a, Follows g (k a) (some (h (f a)))) : Follows g (p >>= k) (r.map h) := by
  rw [Option.map_eq_bind]
  exact first.bind second

theorem Follows.access {held : Bool} {g : α' → β} {p : RegProg δ α} {k : α → RegProg δ α'}
    {r : Option β} (access : Access held p) (second : ∀ a, Follows g (k a) r) :
    Follows g (p >>= k) r :=
  Refines.after (access.device.mono fun _ _ _ _ => rfl) second

/-- Every run that returns, returns that. -/
theorem Follows.runs {f : α → β} {p : RegProg δ α} {r : Option β}
    {rely : World δ → World δ → Prop} {s s' : World δ} {tr : List (World δ × Ev)} {a : α}
    (follows : Follows f p r) (run : Runs rely p s tr a s') : r = some (f a) := by
  obtain ⟨b, tr', run', rfl⟩ : ∃ b tr', Runs Eq (Prog.ofOption r : Prog Unit Unit β) () tr' b () ∧
      f a = b := Refines.runs follows run fun _ _ _ => .refl
  cases r with
  | none => cases run'
  | some b =>
      cases run' with
      | ret _ => rfl

/-- A queue and the ledger, without the registers. -/
def queueMem (s : HwQueue × Ledger Resource) : Init.XpnetQueue × Ledger Resource := (s.1.mem, s.2)

/-- All queues and the ledger, without the registers. -/
def queuesMem (s : HwQueues × Ledger Resource) : Init.Queues × Ledger Resource := (s.1.mem, s.2)

theorem mem_update (queues : HwQueues) (i : Nat) (q : HwQueue) :
    HwQueues.mem (Function.update queues i q) = Function.update queues.mem i q.mem :=
  Function.comp_update HwQueue.mem queues i q

theorem queueUninit_follows (metaIdx : Nat) (q : HwQueue) (l : Ledger Resource) :
    Follows queueMem (queueUninit priv u metaIdx q l) (Init.queueUninit u metaIdx q.mem l) := by
  apply Follows.access (xpnetQueueEnDis_access acqlock_agrees q.regs 0 0)
  intro _
  cases Init.queueUninit u metaIdx q.mem l with
  | some r => exact .ret _
  | none => exact Refines.diverge

theorem queuesTeardown_follows (failedIdx : Nat) (queues : HwQueues) (l : Ledger Resource) :
    Follows queuesMem (queuesTeardown priv u failedIdx queues l)
      (Init.queuesTeardown u failedIdx queues.mem l) := by
  unfold queuesTeardown Init.queuesTeardown
  induction List.range failedIdx generalizing queues l with
  | nil => exact .ret _
  | cons i rest ih =>
      have one : Follows queuesMem (uninitQueue priv u (queues, l) i)
          (Init.uninitQueue u (queues.mem, l) i) := by
        apply (queueUninit_follows _ _ _).map
        intro r
        have updated : queuesMem (Function.update queues i r.1, r.2) =
            (Function.update queues.mem i (queueMem r).1, (queueMem r).2) := by
          rw [queuesMem, mem_update]
          rfl
        rw [← updated]
        exact .ret _
      exact one.bind fun s => ih s.1 s.2

/-- What the setup of a queue or of all returns, without the registers. -/
def setupMem (f : α → β) (r : Int × α) : Int × β := (r.1, f r.2)

theorem finishInit_follows (regs : QueueRegs)
    (s : Option (Nat × Int) × Init.XpnetQueue × Ledger Resource) :
    Follows (setupMem queueMem) (finishInit priv u regs s)
      (Init.finishInit (Init.queueUninit u) s) := by
  obtain ⟨failed, q, l⟩ := s
  cases failed with
  | some failedAt => exact (queueUninit_follows _ _ _).map fun r => .ret _
  | none =>
      apply Follows.access (xpnetSetQCdp_access acqlock_agrees regs 0)
      exact fun _ => .ret _

theorem xpnetRxQueueInit_follows (mem : QueueMemory) (dma i : Nat) (q : HwQueue)
    (l : Ledger Resource) :
    Follows (setupMem queueMem) (xpnetRxQueueInit priv mem dma i q l)
      (Init.xpnetRxQueueInit mem q.mem l) := by
  unfold xpnetRxQueueInit Init.xpnetRxQueueInit
  dsimp only
  split
  · exact .ret _
  · exact finishInit_follows _ _

theorem xpnetTxQueueInit_follows (mem : QueueMemory) (dma i : Nat) (q : HwQueue)
    (l : Ledger Resource) :
    Follows (setupMem queueMem) (xpnetTxQueueInit priv mem dma i q l)
      (Init.xpnetTxQueueInit mem q.mem l) := by
  unfold xpnetTxQueueInit Init.xpnetTxQueueInit
  dsimp only
  split
  · exact .ret _
  · exact finishInit_follows _ _

theorem queuesSetup_follows {init : Nat → QueueInit δ} {memInit : Nat → Init.QueueInit}
    (each : ∀ i q l, Follows (setupMem queueMem) (init i q l) (memInit i q.mem l))
    (is : List Nat) (queues : HwQueues) (l : Ledger Resource) :
    Follows (setupMem queuesMem) (queuesSetup priv u init is queues l)
      (Init.queuesSetup u memInit is queues.mem l) := by
  induction is generalizing queues l with
  | nil => exact .ret _
  | cons i rest ih =>
      apply (each i (queues i) l).bind
      intro r
      dsimp only [setupMem, queueMem]
      rw [← mem_update]
      split
      · exact (queuesTeardown_follows _ _ _).map fun s => .ret _
      · exact ih _ _

theorem xpnetRxQueueSetup_follows (mem : Nat → QueueMemory) (dma : Nat → Nat) (numQueues : Nat)
    (queues : HwQueues) (l : Ledger Resource) :
    Follows (setupMem queuesMem) (xpnetRxQueueSetup priv mem dma numQueues queues l)
      (Init.xpnetRxQueueSetup mem numQueues queues.mem l) :=
  queuesSetup_follows (fun i q l => xpnetRxQueueInit_follows (mem i) (dma i) i q l) _ _ _

theorem xpnetTxQueueSetup_follows (mem : Nat → QueueMemory) (dma : Nat → Nat) (numQueues : Nat)
    (queues : HwQueues) (l : Ledger Resource) :
    Follows (setupMem queuesMem) (xpnetTxQueueSetup priv mem dma numQueues queues l)
      (Init.xpnetTxQueueSetup mem numQueues queues.mem l) :=
  queuesSetup_follows (fun i q l => xpnetTxQueueInit_follows (mem i) (dma i) i q l) _ _ _

theorem unwindInit_follows (block : Nat) (rxQueue txQueue : HwQueues) (mode : ModeState)
    (l : Ledger Resource) :
    Follows HwNetdev.mem (unwindInit priv block rxQueue txQueue mode l)
      (Init.unwindInit block rxQueue.mem txQueue.mem mode l) :=
  (queuesTeardown_follows _ _ _).bind fun _ =>
    (queuesTeardown_follows _ _ _).map fun _ => .ret _

theorem initFromMode_follows (kernel : Init.GlobalsKernel) (block : Nat)
    (rxQueue txQueue : HwQueues) (mode : ModeState) (l : Ledger Resource) :
    Follows (setupMem HwNetdev.mem) (initFromMode priv kernel block rxQueue txQueue mode l)
      (Init.initFromMode kernel block rxQueue.mem txQueue.mem mode l) := by
  unfold initFromMode Init.initFromMode
  dsimp only
  split
  · exact (unwindInit_follows _ _ _ _ _).map fun s => .ret _
  · split
    · apply (Follows.ofOption _).bind
      intro mode
      exact (unwindInit_follows _ _ _ _ _).map fun s => .ret _
    · exact Follows.access (xpnetRxAllQueuesStart_access _ rxQueue) fun _ =>
        Follows.access (xpnetProgramMuxSetdma_access 1) fun _ => .ret _

/-- **What `xp_netdev_init` obtains and gives back** does not depend on the device. -/
theorem xpNetdevInit_follows (kernel : NetdevKernel) (s : HwNetdev) :
    Follows (setupMem HwNetdev.mem) (xpNetdevInit priv kernel s)
      (Init.xpNetdevInit kernel.toNetdevKernel s.mem) := by
  unfold xpNetdevInit Init.xpNetdevInit
  have there : s.mem.xpnet.isSome = s.xpnet.isSome := Option.isSome_map
  rw [there]
  split
  · exact .ret _
  · split
    · exact .ret _
    · apply Follows.access (xpnetProgramMuxSetdma_access 0)
      intro _
      apply Follows.bind (xpnetRxQueueSetup_follows kernel.rx kernel.rxDma _ _ _)
      intro rx
      apply Follows.bind (xpnetTxQueueSetup_follows kernel.tx kernel.txDma _ _ _)
      intro tx
      exact initFromMode_follows _ _ _ _ _ _

theorem xpNetdevDeinit_follows (s : HwNetdev) :
    Follows HwNetdev.mem (xpNetdevDeinit priv s) (Init.xpNetdevDeinit s.mem) := by
  obtain ⟨xpnet, gNetPriv, mode, l⟩ := s
  cases xpnet with
  | none => exact .ret _
  | some net =>
      apply Follows.bind (.ofOption (xpNetdevModeDeinit mode))
      intro mode
      apply (queuesTeardown_follows _ _ _).bind
      intro t
      exact (queuesTeardown_follows _ _ _).map fun r => .ret _

/-- In every run `xp_netdev_init` leaves the memory as `XpNet.Init` says. -/
theorem xpNetdevInit_runs {kernel : NetdevKernel} {net net' : HwNetdev} {rc : Int}
    {rely : World δ → World δ → Prop} {s s' : World δ} {tr : List (World δ × Ev)}
    (run : Runs rely (xpNetdevInit priv kernel net) s tr (rc, net') s') :
    Init.xpNetdevInit kernel.toNetdevKernel net.mem = some (rc, net'.mem) :=
  (xpNetdevInit_follows kernel net).runs run

theorem xpNetdevDeinit_runs {net net' : HwNetdev} {rely : World δ → World δ → Prop}
    {s s' : World δ} {tr : List (World δ × Ev)}
    (run : Runs rely (xpNetdevDeinit priv net) s tr net' s') :
    Init.xpNetdevDeinit net.mem = some net'.mem := (xpNetdevDeinit_follows net).runs run

end Memory

end XpNet.Regs
