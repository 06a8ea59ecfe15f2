/-
`xp_netdev_init` and `xp_netdev_deinit` on one device, with all they obtain and
release: the private structure, the memory of the queues, the trap table, the
sockets and the workqueue.

The init drops what the setups of the queues return. A setup that fails has undone
itself, but the init goes on, and whoever tears the device down later does it once
more. `netdev_memory_iff` says for which answers of the kernel this matters; in all
other sequences of requests every block is freed once, with its length, a failing
init leaves nothing behind, a successful one leaves every queue set up and a deinit
leaves nothing.
-/

import XpNet.Histories
import XpNet.Init.Balance
import XpNet.Init.Globals

namespace XpNet.Init

open XpNet.Intf (XpTrapTable xpTrapInit enomem)
open XpNet.Pci (pageSize)

/-! ### The two functions -/

/-- `xpnet_private_t`: its own block, its queues and its workqueue. -/
structure XpnetPrivate where
  block : Nat
  rxQueue : Queues
  txQueue : Queues
  wqueue : Nat

/-- `priv->xpnet`, `g_net_priv`, the shared state and the ledger of what the driver has
obtained. -/
structure Netdev where
  xpnet : Option XpnetPrivate
  gNetPriv : Option Nat
  mode : ModeState
  ledger : Ledger Resource

/-- `err_netdev_fp_netdev` of `xp_netdev_init`. -/
def unwindInit (block : Nat) (rxQueue txQueue : Queues) (mode : ModeState)
    (ledger : Ledger Resource) : Option Netdev :=
  (xpnetRxTeardown xpnetRxNumQueues rxQueue ledger).bind fun (_, ledger) =>
    (xpnetTxTeardown xpnetTxNumQueues txQueue ledger).map fun (_, ledger) =>
      ⟨none, none, mode, ledger.release .netPriv block⟩

/-- `xp_netdev_init` from `xp_netdev_mode_init` on. -/
def initFromMode (kernel : GlobalsKernel) (block : Nat) (rxQueue txQueue : Queues)
    (mode : ModeState) (ledger : Ledger Resource) : Option (Int × Netdev) :=
  let (rc, mode) := xpNetdevModeInit kernel.mode mode
  if rc ≠ 0 then (unwindInit block rxQueue txQueue mode ledger).map fun s => (rc, s)
  else if !kernel.createWorkqueue then
    (xpNetdevModeDeinit mode).bind fun mode =>
      (unwindInit block rxQueue txQueue mode ledger).map fun s => (-enomem, s)
  else
    let (wqueue, ledger) := ledger.obtain .workqueue
    some (0, ⟨some ⟨block, rxQueue, txQueue, wqueue⟩, some block, mode, ledger⟩)

/-- `xp_netdev_init(priv)`, which drops the results of the two setups; `none` is a write
through `NULL` in a teardown. The entries under `/proc` are left out: the init goes on
without them, and the deinit removes those that exist. -/
def xpNetdevInit (kernel : NetdevKernel) (s : Netdev) : Option (Int × Netdev) :=
  if s.xpnet.isSome then some (0, s)
  else if !kernel.kzalloc then some (-enomem, s)
  else
    let (block, ledger) := s.ledger.obtain .netPriv
    (xpnetRxQueueSetup kernel.rx xpnetRxNumQueues (fun _ => zeroQueue) ledger).bind
      fun (_, rxQueue, ledger) =>
        (xpnetTxQueueSetup kernel.tx xpnetTxNumQueues (fun _ => zeroQueue) ledger).bind
          fun (_, txQueue, ledger) =>
            initFromMode kernel.toGlobalsKernel block rxQueue txQueue s.mode ledger

/-- `xp_netdev_deinit(priv)`. -/
def xpNetdevDeinit (s : Netdev) : Option Netdev :=
  match s.xpnet with
  | none => some s
  | some priv =>
      (xpNetdevModeDeinit s.mode).bind fun mode =>
        (xpnetTxTeardown xpnetTxNumQueues priv.txQueue s.ledger).bind fun (_, ledger) =>
          (xpnetRxTeardown xpnetRxNumQueues priv.rxQueue ledger).map fun (_, ledger) =>
            ⟨none, s.gNetPriv, mode,
              (ledger.release .workqueue priv.wqueue).release .netPriv priv.block⟩

/-! ### Requests on one device -/

inductive NetdevRequest where
  | initNetdev (kernel : NetdevKernel)
  | deinitNetdev

/-- What the last request has come to. -/
inductive Outcome where
  | loaded
  | initReturned (rc : Int)
  | deinitReturned
  /-- A request that has not returned; there are no further ones. -/
  | stuck
  deriving DecidableEq

/-- The device and what has become of the last request. -/
structure Device where
  netdev : Netdev
  outcome : Outcome

/-- A device that has just been bound. -/
def Device.start : Device := ⟨⟨none, none, modeless, .blank⟩, .loaded⟩

/-- One request. -/
def Device.request (s : Device) : NetdevRequest → Device
  | .initNetdev kernel =>
      if s.outcome = .stuck then s
      else match xpNetdevInit kernel s.netdev with
        | some (rc, netdev) => ⟨netdev, .initReturned rc⟩
        | none => { s with outcome := .stuck }
  | .deinitNetdev =>
      if s.outcome = .stuck then s
      else match xpNetdevDeinit s.netdev with
        | some netdev => ⟨netdev, .deinitReturned⟩
        | none => { s with outcome := .stuck }

/-! ### What is promised -/

/-- The pointer names a block of this length that has not been freed. -/
def HasBlock (l : Ledger Resource) (len : Nat) (va : Option Nat) : Prop :=
  ∃ block, va = some block ∧ l.Live (.dma len) block

/-- A queue that is fully set up: its block and every descriptor with a buffer. -/
structure QueueReady (l : Ledger Resource) (bufLen : Nat) (q : XpnetQueue) : Prop where
  numDesc : q.xpqNumDesc = xpnetRxNumDescs
  status : q.status = some .active
  block : HasBlock l descsLen q.va
  descs : ∀ n < xpnetRxNumDescs,
    (q.xpqDescMeta n).va = q.va ∧ HasBlock l bufLen (q.xpqDescMeta n).bufVa

/-- All RX and TX queues of the device are. -/
structure FullySetUp (l : Ledger Resource) (priv : XpnetPrivate) : Prop where
  rx : ∀ i < xpnetRxNumQueues, QueueReady l xpnetMaxPacketSize (priv.rxQueue i)
  tx : ∀ i < xpnetTxNumQueues, QueueReady l pageSize (priv.txQueue i)

/-- No netdev, and nothing left of what one needs. -/
structure NothingLeft (s : Netdev) : Prop where
  xpnet : s.xpnet = none
  mode : s.mode = modeless
  settled : s.ledger.Settled

/-- What holds after every request: nothing has been freed twice or with another
length, and a failed init, a successful one and a deinit leave what they should. -/
structure MemoryKept (s : Device) : Prop where
  sound : s.netdev.ledger.Sound
  returned : s.outcome ≠ .stuck
  failed : ∀ rc, s.outcome = .initReturned rc → rc ≠ 0 → NothingLeft s.netdev
  succeeded : s.outcome = .initReturned 0 →
    ∃ priv, s.netdev.xpnet = some priv ∧ FullySetUp s.netdev.ledger priv
  removed : s.outcome = .deinitReturned → NothingLeft s.netdev

/-- All RX queues get their memory. -/
def NetdevKernel.RxGranted (kernel : NetdevKernel) : Prop :=
  ∀ i < xpnetRxNumQueues, (kernel.rx i).Grants

/-- All TX queues get their memory. -/
def NetdevKernel.TxGranted (kernel : NetdevKernel) : Prop :=
  ∀ i < xpnetTxNumQueues, (kernel.tx i).Grants

/-- An init that goes through gets all the memory of the queues. One that fails later
gets all the memory of the RX queues, or not even the first block, and the blocks of
the TX descriptors. -/
structure NetdevKernel.SparesQueues (kernel : NetdevKernel) : Prop where
  succeeds : kernel.Grants → kernel.RxGranted ∧ kernel.TxGranted
  fails : ¬ kernel.Grants → (kernel.RxGranted ∨ (kernel.rx 0).descs = false) ∧
    ∀ i < xpnetTxNumQueues, (kernel.tx i).descs = true

/-- An init that gets as far as the setups of the queues spares them. -/
def KeepsMemory (s : Device) : NetdevRequest → Prop
  | .initNetdev kernel =>
      s.netdev.xpnet = none → kernel.kzalloc = true → kernel.SparesQueues
  | .deinitNetdev => True

/-! ### The setups -/

/-- An RX descriptor with its buffer. -/
def RxGood (d : XpnetDesc) : Prop := d.bufVa.isSome = true ∧ d.bufLen = xpnetMaxPacketSize

/-- A TX descriptor with its buffer, if there was memory for that. -/
def TxGood (mem : QueueMemory) (n : Nat) (d : XpnetDesc) : Prop := d.bufVa.isSome = mem.buf n

section Setups

variable {kernel : NetdevKernel} {l : Ledger Resource} {owned : Multiset (Resource × Nat)}

theorem queuesOwned_zeroQueue (u : Uninit) (is : List Nat) :
    queuesOwned u (fun _ => zeroQueue) is = 0 := by
  unfold queuesOwned
  induction is with
  | nil => rfl
  | cons i rest ih =>
      rw [List.map_cons, List.sum_cons, ih]
      simp [queueOwned, bufsOwned, zeroQueue, ptrOwned]

/-- Without the first block the setup stops with nothing obtained. -/
theorem rxSetup_refused (h : (kernel.rx 0).descs = false) :
    xpnetRxQueueSetup kernel.rx xpnetRxNumQueues (fun _ => zeroQueue) l =
      some (-enomem, fun _ => zeroQueue, l) := by
  have hneg : -enomem < 0 := by decide
  have hinit : xpnetRxQueueInit (kernel.rx 0) zeroQueue l = some (-enomem, zeroQueue, l) := by
    simp [xpnetRxQueueInit, dmaAllocCoherent, h, zeroQueue]
  have hrange : List.range xpnetRxNumQueues = 0 :: (List.range 63).map Nat.succ :=
    List.range_succ_eq_map
  rw [xpnetRxQueueSetup, hrange, queuesSetup, hinit]
  simp only [Option.bind_some, if_pos hneg, queuesTeardown, List.range_zero, List.foldlM_nil]
  rw [Function.update_eq_self 0 (fun _ => zeroQueue)]
  rfl

/-- The RX queues of an init that spares them. -/
theorem rxSetup_owes (h : kernel.RxGranted ∨ (kernel.rx 0).descs = false) (owes : l.Owes owned) :
    ∃ rc rxQueue l', xpnetRxQueueSetup kernel.rx xpnetRxNumQueues (fun _ => zeroQueue) l =
        some (rc, rxQueue, l') ∧
      (kernel.RxGranted → ∀ i < xpnetRxNumQueues, QueueUp (fun _ => RxGood) (rxQueue i)) ∧
      (∀ i < xpnetRxNumQueues, Removable (rxQueue i)) ∧
      l'.Owes (queuesOwned rxUninit rxQueue (List.range xpnetRxNumQueues) + owned) := by
  rcases h with hall | hfirst
  · obtain ⟨rxQueue, l', heq, hup, -, howes⟩ := setup_owes (fun _ _ => RxGood)
      List.nodup_range (fun i hi => rxQueueInit_owes (hall i (List.mem_range.mp hi)).1
        (hall i (List.mem_range.mp hi)).2) (fun _ => zeroQueue) l
    have hups : ∀ i < xpnetRxNumQueues, QueueUp (fun _ => RxGood) (rxQueue i) :=
      fun i hi => hup i (List.mem_range.mpr hi)
    exact ⟨0, rxQueue, l', heq, fun _ => hups, fun i hi => (hups i hi).removable, howes _ owes⟩
  · refine ⟨-enomem, fun _ => zeroQueue, l, rxSetup_refused hfirst, fun hall => ?_,
      fun _ _ => removable_zeroQueue, ?_⟩
    · exact absurd (hall 0 (by decide)).1 (by simp [hfirst])
    · rw [queuesOwned_zeroQueue, zero_add]
      exact owes

/-- The TX queues of an init that spares them. -/
theorem txSetup_owes (h : ∀ i < xpnetTxNumQueues, (kernel.tx i).descs = true)
    (owes : l.Owes owned) :
    ∃ txQueue l', xpnetTxQueueSetup kernel.tx xpnetTxNumQueues (fun _ => zeroQueue) l =
        some (0, txQueue, l') ∧
      (∀ i < xpnetTxNumQueues, QueueUp (TxGood (kernel.tx i)) (txQueue i)) ∧
      l'.Owes (queuesOwned txUninit txQueue (List.range xpnetTxNumQueues) + owned) := by
  obtain ⟨txQueue, l', heq, hup, -, howes⟩ := setup_owes (fun i => TxGood (kernel.tx i))
    List.nodup_range (fun i hi => txQueueInit_owes (h i (List.mem_range.mp hi)))
    (fun _ => zeroQueue) l
  exact ⟨txQueue, l', heq, fun i hi => hup i (List.mem_range.mpr hi), howes _ owes⟩

end Setups

/-! ### A device down and up -/

/-- No netdev and nothing owed. -/
structure Down (s : Netdev) : Prop where
  xpnet : s.xpnet = none
  mode : s.mode = modeless
  owes : s.ledger.Owes 0

/-- What a device with a netdev owes. -/
def privOwned (priv : XpnetPrivate) : Multiset (Resource × Nat) :=
  queuesOwned txUninit priv.txQueue (List.range xpnetTxNumQueues) +
    (queuesOwned rxUninit priv.rxQueue (List.range xpnetRxNumQueues) +
      ({(.workqueue, priv.wqueue)} + {(.netPriv, priv.block)}))

/-- A netdev with all its queues, and nothing owed but what it has. -/
structure Up (s : Netdev) (priv : XpnetPrivate) : Prop where
  xpnet : s.xpnet = some priv
  mode : s.mode.trapTable.isSome = true
  rx : ∀ i < xpnetRxNumQueues, QueueUp (fun _ => RxGood) (priv.rxQueue i)
  tx : ∀ i < xpnetTxNumQueues,
    QueueUp (fun _ d => d.bufVa.isSome = true) (priv.txQueue i)
  owes : s.ledger.Owes (privOwned priv)

section DownUp

variable {s : Netdev} {priv : XpnetPrivate}

theorem Down.nothingLeft (down : Down s) : NothingLeft s :=
  ⟨down.xpnet, down.mode, down.owes.settled⟩

theorem HasBlock.of_owed {l : Ledger Resource} {owned : Multiset (Resource × Nat)} {len : Nat}
    {va : Option Nat} (owes : l.Owes owned) (hva : va.isSome = true)
    (hmem : ptrOwned len va ≤ owned) : HasBlock l len va := by
  obtain ⟨block, rfl⟩ := Option.isSome_iff_exists.mp hva
  exact ⟨block, rfl, owes.live (Multiset.mem_of_le hmem (Multiset.mem_singleton_self _))⟩

/-- One of several parts is part of their sum. -/
theorem le_sum_map {f : Nat → Multiset (Resource × Nat)} {is : List Nat} {i : Nat}
    (hi : i ∈ is) : f i ≤ (is.map f).sum := by
  induction is with
  | nil => cases hi
  | cons j rest ih =>
      rw [List.map_cons, List.sum_cons]
      rcases List.mem_cons.mp hi with rfl | hi
      · exact Multiset.le_add_right _ _
      · exact (ih hi).trans (Multiset.le_add_left _ _)

/-- A queue that is up and whose blocks are owed is fully set up. -/
theorem QueueUp.ready {u : Uninit} {good : Nat → XpnetDesc → Prop} {q : XpnetQueue}
    {l : Ledger Resource} {owned : Multiset (Resource × Nat)} {bufLen : Nat}
    (up : QueueUp good q) (hgood : ∀ n d, good n d → d.bufVa.isSome = true ∧ u.freeLen d = bufLen)
    (owes : l.Owes owned) (hle : queueOwned u q ≤ owned) : QueueReady l bufLen q where
  numDesc := up.numDesc
  status := up.status
  block := HasBlock.of_owed owes up.va ((Multiset.le_add_left _ _).trans hle)
  descs := by
    intro n hn
    obtain ⟨hva, hdesc⟩ := up.descs n hn
    obtain ⟨hbuf, hlen⟩ := hgood n _ hdesc
    refine ⟨hva, HasBlock.of_owed owes hbuf ?_⟩
    have hmem : n ∈ List.range q.xpqNumDesc := List.mem_range.mpr (up.numDesc.symm ▸ hn)
    have howned : descOwned u (q.xpqDescMeta n) ≤ bufsOwned u q (List.range q.xpqNumDesc) :=
      le_sum_map (f := fun n => descOwned u (q.xpqDescMeta n)) hmem
    rw [← hlen]
    exact howned.trans ((Multiset.le_add_right _ _).trans hle)

theorem Up.fullySetUp (up : Up s priv) : FullySetUp s.ledger priv where
  rx := by
    intro i hi
    apply (up.rx i hi).ready (u := rxUninit) (fun _ d h => h) up.owes
    calc queueOwned rxUninit (priv.rxQueue i)
        ≤ queuesOwned rxUninit priv.rxQueue (List.range xpnetRxNumQueues) :=
          le_sum_map (f := fun i => queueOwned rxUninit (priv.rxQueue i)) (List.mem_range.mpr hi)
      _ ≤ privOwned priv := (Multiset.le_add_right _ _).trans (Multiset.le_add_left _ _)
  tx := by
    intro i hi
    apply (up.tx i hi).ready (u := txUninit) (fun _ d h => ⟨h, rfl⟩) up.owes
    calc queueOwned txUninit (priv.txQueue i)
        ≤ queuesOwned txUninit priv.txQueue (List.range xpnetTxNumQueues) :=
          le_sum_map (f := fun i => queueOwned txUninit (priv.txQueue i)) (List.mem_range.mpr hi)
      _ ≤ privOwned priv := Multiset.le_add_right _ _

/-! ### The two functions on it -/

theorem initFromMode_succeeds {kernel : GlobalsKernel} (h : kernel.Grants) (block : Nat)
    (rxQueue txQueue : Queues) (mode : ModeState) (l : Ledger Resource) :
    initFromMode kernel block rxQueue txQueue mode l =
      some (0, ⟨some ⟨block, rxQueue, txQueue, (l.obtain .workqueue).1⟩, some block,
        ⟨some xpTrapInit, true, true⟩, (l.obtain .workqueue).2⟩) := by
  simp [initFromMode, xpNetdevModeInit_grants _ h.1, h.2]

theorem initFromMode_fails {kernel : GlobalsKernel} (h : ¬ kernel.Grants) (block : Nat)
    (rxQueue txQueue : Queues) (l : Ledger Resource) :
    ∃ rc, rc ≠ 0 ∧ initFromMode kernel block rxQueue txQueue modeless l =
      (unwindInit block rxQueue txQueue modeless l).map fun s => (rc, s) := by
  have henomem : -enomem ≠ 0 := by decide
  by_cases hmode : kernel.mode.Grants
  · have hqueue : kernel.createWorkqueue = false := by
      by_contra hqueue
      exact h ⟨hmode, by simpa using hqueue⟩
    refine ⟨-enomem, henomem, ?_⟩
    simp [initFromMode, xpNetdevModeInit_grants _ hmode, hqueue, xpNetdevModeDeinit, xpTrapDeinit,
      modeless]
  · obtain ⟨hrc, -, hmodeless⟩ := xpNetdevModeInit_fails modeless hmode
    exact ⟨_, hrc.ne, by simp [initFromMode, hrc.ne, hmodeless]⟩

/-- The unwinding of an init that spared the queues. -/
theorem unwindInit_down {block : Nat} {rxQueue txQueue : Queues} {l : Ledger Resource}
    (hrx : ∀ i < xpnetRxNumQueues, Removable (rxQueue i))
    (htx : ∀ i < xpnetTxNumQueues, Removable (txQueue i))
    (owes : l.Owes (queuesOwned txUninit txQueue (List.range xpnetTxNumQueues) +
      (queuesOwned rxUninit rxQueue (List.range xpnetRxNumQueues) + {(.netPriv, block)}))) :
    ∃ s, unwindInit block rxQueue txQueue modeless l = some s ∧ Down s := by
  rw [add_left_comm] at owes
  obtain ⟨_, l₁, hrxdown, howes₁⟩ := teardown_owes (u := rxUninit) l hrx
  obtain ⟨_, l₂, htxdown, howes₂⟩ := teardown_owes (u := txUninit) l₁ htx
  have howes := howes₂ _ (howes₁ _ owes)
  refine ⟨⟨none, none, modeless, l₂.release .netPriv block⟩, ?_, rfl, rfl, ?_⟩
  · simp only [unwindInit, xpnetRxTeardown, xpnetTxTeardown, hrxdown, htxdown, Option.bind_some,
      Option.map_some]
  · rw [← add_zero {_}] at howes
    exact howes.release

theorem Down.init_succeeds (down : Down s) {kernel : NetdevKernel}
    (hmem : kernel.kzalloc = true) (h : kernel.Grants) (spares : kernel.SparesQueues) :
    ∃ s' priv, xpNetdevInit kernel s = some (0, s') ∧ Up s' priv := by
  obtain ⟨hrx, htx⟩ := spares.succeeds h
  obtain ⟨rc, rxQueue, l₁, hrxeq, hrxup, -, howes₁⟩ :=
    rxSetup_owes (Or.inl hrx) (down.owes.obtain .netPriv)
  obtain ⟨txQueue, l₂, htxeq, htxup, howes₂⟩ := txSetup_owes (fun i hi => (htx i hi).1) howes₁
  have heq : xpNetdevInit kernel s = initFromMode kernel.toGlobalsKernel
      (s.ledger.obtain .netPriv).1 rxQueue txQueue s.mode l₂ := by
    simp [xpNetdevInit, down.xpnet, hmem, hrxeq, htxeq]
  rw [heq, initFromMode_succeeds h]
  refine ⟨_, _, rfl, rfl, rfl, hrxup hrx, fun i hi => ?_, ?_⟩
  · have up := htxup i hi
    exact ⟨up.numDesc, up.status, up.va, fun n hn =>
      ⟨(up.descs n hn).1, (up.descs n hn).2.trans ((htx i hi).2 n hn)⟩⟩
  · have howes := howes₂.obtain .workqueue
    rw [add_zero, add_left_comm, add_left_comm {_}] at howes
    exact howes

theorem Down.init_fails (down : Down s) {kernel : NetdevKernel} (hmem : kernel.kzalloc = true)
    (h : ¬ kernel.Grants) (spares : kernel.SparesQueues) :
    ∃ rc s', xpNetdevInit kernel s = some (rc, s') ∧ rc ≠ 0 ∧ Down s' := by
  obtain ⟨hrx, htx⟩ := spares.fails h
  obtain ⟨_, rxQueue, l₁, hrxeq, -, hrxrem, howes₁⟩ :=
    rxSetup_owes hrx (down.owes.obtain .netPriv)
  obtain ⟨txQueue, l₂, htxeq, htxup, howes₂⟩ := txSetup_owes htx howes₁
  rw [add_zero] at howes₂
  obtain ⟨s', hunwind, hdown⟩ := unwindInit_down hrxrem (fun i hi => (htxup i hi).removable) howes₂
  obtain ⟨rc, hrc, hmode⟩ := initFromMode_fails h (s.ledger.obtain .netPriv).1 rxQueue txQueue l₂
  refine ⟨rc, s', ?_, hrc, hdown⟩
  simp [xpNetdevInit, down.xpnet, down.mode, hmem, hrxeq, htxeq, hmode, hunwind]

theorem Up.deinit (up : Up s priv) : ∃ s', xpNetdevDeinit s = some s' ∧ Down s' := by
  obtain ⟨table, htable⟩ := Option.isSome_iff_exists.mp up.mode
  obtain ⟨_, l₁, htxdown, howes₁⟩ := teardown_owes (u := txUninit) s.ledger
    (fun i hi => (up.tx i hi).removable)
  obtain ⟨_, l₂, hrxdown, howes₂⟩ := teardown_owes (u := rxUninit) l₁
    (fun i hi => (up.rx i hi).removable)
  refine ⟨⟨none, s.gNetPriv, modeless,
    (l₂.release .workqueue priv.wqueue).release .netPriv priv.block⟩, ?_, rfl, rfl, ?_⟩
  · simp [xpNetdevDeinit, up.xpnet, xpNetdevModeDeinit, htable, xpnetTxTeardown, xpnetRxTeardown,
      htxdown, hrxdown, xpTrapDeinit, modeless]
  · have howes := (howes₂ _ (howes₁ _ up.owes)).release
    rw [← add_zero {_}] at howes
    exact howes.release

end DownUp

/-! ### The device as one of several -/

/-- The private structure as the model of several devices has it. -/
def XpnetPrivate.toNetPriv (priv : XpnetPrivate) : NetPriv :=
  ⟨priv.block, priv.rxQueue, priv.txQueue, some priv.wqueue⟩

/-- The two models agree. -/
structure Shows (s : Netdev) (g : Globals Unit) : Prop where
  xpnet : g.xpnet () = s.xpnet.map XpnetPrivate.toNetPriv
  gNetPriv : g.gNetPriv = s.gNetPriv
  mode : g.mode = s.mode
  ledger : g.ledger = s.ledger

/-- Both return, with the same value and states that agree, or neither does. -/
def ShowsResult (r : Option (Int × Netdev)) (r' : Option Int × Globals Unit) : Prop :=
  r'.1 = r.map Prod.fst ∧ ∀ rc s, r = some (rc, s) → Shows s r'.2

/-- The request on the one device. -/
def NetdevRequest.onGlobals : NetdevRequest → Request Unit
  | .initNetdev kernel => .initNetdev kernel ()
  | .deinitNetdev => .deinitNetdev ()

section Shows

variable {s : Netdev} {g : Globals Unit}

theorem showsResult_unwind (priv : NetPriv) (rc : Int) :
    ShowsResult ((unwindInit priv.block priv.rxQueue priv.txQueue g.mode g.ledger).map
      fun s => (rc, s)) (g.unwind () priv rc) := by
  have hunwind : unwindInit priv.block priv.rxQueue priv.txQueue g.mode g.ledger =
      (priv.unwind g.ledger).map fun ledger => ⟨none, none, g.mode, ledger⟩ := by
    simp [unwindInit, NetPriv.unwind, Option.map_bind, Function.comp_def]
  rw [hunwind, Globals.unwind]
  cases priv.unwind g.ledger with
  | none => exact ⟨rfl, fun _ _ h => by cases h⟩
  | some ledger =>
      refine ⟨rfl, fun rc' s' h => ?_⟩
      cases h
      exact ⟨by simp [Globals.setXpnet], rfl, rfl, rfl⟩

theorem showsResult_initFromMode (kernel : GlobalsKernel) (priv : NetPriv)
    (hblock : g.gNetPriv = some priv.block) :
    ShowsResult (initFromMode kernel priv.block priv.rxQueue priv.txQueue g.mode g.ledger)
      (g.initFromMode kernel () priv) := by
  dsimp only [initFromMode, Globals.initFromMode]
  by_cases hrc : (xpNetdevModeInit kernel.mode g.mode).1 = 0
  · by_cases hqueue : kernel.createWorkqueue = true
    · simp only [hrc, hqueue, ne_eq, not_true_eq_false, if_false, Bool.not_true,
        Bool.false_eq_true]
      refine ⟨rfl, fun rc s h => ?_⟩
      cases h
      exact ⟨by simp [Globals.setXpnet, XpnetPrivate.toNetPriv], hblock, rfl, rfl⟩
    · simp only [hrc, hqueue, ne_eq, not_true_eq_false, if_false, Bool.not_false, if_true]
      cases xpNetdevModeDeinit (xpNetdevModeInit kernel.mode g.mode).2 with
      | none => exact ⟨rfl, fun _ _ h => by cases h⟩
      | some mode => exact showsResult_unwind (g := { g with mode := mode }) priv (-enomem)
  · simp only [hrc, ne_eq, not_false_eq_true, if_true]
    exact showsResult_unwind
      (g := { g with mode := (xpNetdevModeInit kernel.mode g.mode).2 }) priv _

theorem Shows.init (shows : Shows s g) (kernel : NetdevKernel) :
    ShowsResult (xpNetdevInit kernel s) (g.xpNetdevInit kernel ()) := by
  have hxpnet : (g.xpnet ()).isSome = s.xpnet.isSome := by simp [shows.xpnet]
  unfold xpNetdevInit Globals.xpNetdevInit
  rw [hxpnet, shows.ledger]
  by_cases hup : s.xpnet.isSome = true
  · rw [if_pos hup, if_pos hup]
    refine ⟨rfl, fun rc s' h => ?_⟩
    cases h
    exact shows
  · rw [if_neg hup, if_neg hup]
    by_cases hmem : kernel.kzalloc = true
    · obtain ⟨rxQueue, txQueue, l, heq, -⟩ :=
        setupQueues_returns kernel (s.ledger.obtain .netPriv).2
      obtain ⟨⟨_, _, l₁⟩, hrx, hrest⟩ := Option.bind_eq_some_iff.mp heq
      obtain ⟨⟨_, _, _⟩, htx, hqueues⟩ := Option.map_eq_some_iff.mp hrest
      cases hqueues
      simp only [hmem, Bool.not_true, Bool.false_eq_true, if_false, hrx, htx, heq,
        Option.bind_some, ← shows.mode]
      exact showsResult_initFromMode kernel.toGlobalsKernel
        ⟨(s.ledger.obtain .netPriv).1, rxQueue, txQueue, none⟩ rfl
    · simp only [hmem, Bool.not_false, if_true]
      refine ⟨rfl, fun rc s' h => ?_⟩
      cases h
      exact shows

theorem Shows.deinit (shows : Shows s g) :
    (g.xpNetdevDeinit ()).1.isSome = (xpNetdevDeinit s).isSome ∧
      ∀ s', xpNetdevDeinit s = some s' → Shows s' (g.xpNetdevDeinit ()).2 := by
  have hxpnet := shows.xpnet
  unfold xpNetdevDeinit Globals.xpNetdevDeinit
  rw [shows.mode, shows.ledger]
  cases hup : s.xpnet with
  | none =>
      rw [hup, Option.map_none] at hxpnet
      rw [hxpnet]
      refine ⟨rfl, fun s' h => ?_⟩
      cases h
      exact shows
  | some priv =>
      rw [hup, Option.map_some] at hxpnet
      rw [hxpnet]
      have hremove : ∀ mode, ((xpnetTxTeardown xpnetTxNumQueues priv.txQueue s.ledger).bind
          fun r => (xpnetRxTeardown xpnetRxNumQueues priv.rxQueue r.2).map fun r' =>
            (⟨none, s.gNetPriv, mode,
              (r'.2.release .workqueue priv.wqueue).release .netPriv priv.block⟩ : Netdev)) =
          (priv.toNetPriv.remove s.ledger).map fun ledger =>
            ⟨none, s.gNetPriv, mode, ledger⟩ := by
        intro mode
        simp [NetPriv.remove, XpnetPrivate.toNetPriv, Option.map_bind, Function.comp_def]
      cases xpNetdevModeDeinit s.mode with
      | none => exact ⟨rfl, fun _ h => by cases h⟩
      | some mode =>
          dsimp only [Option.bind_some]
          rw [hremove mode]
          cases priv.toNetPriv.remove s.ledger with
          | none => exact ⟨rfl, fun _ h => by cases h⟩
          | some ledger =>
              refine ⟨rfl, fun s' h => ?_⟩
              cases h
              exact ⟨by simp [Globals.setXpnet], shows.gNetPriv, rfl, rfl⟩

/-- After every sequence of requests on a device both models have got stuck, or neither,
and then they agree. -/
theorem requests_show (reqs : List NetdevRequest) :
    ((history Device.request .start reqs).outcome = .stuck ↔
        (history request Globals.start (reqs.map NetdevRequest.onGlobals)).stuck = true) ∧
      ((history Device.request .start reqs).outcome ≠ .stuck →
        Shows (history Device.request .start reqs).netdev
          (history request Globals.start (reqs.map NetdevRequest.onGlobals))) := by
  induction reqs using List.reverseRecOn with
  | nil => exact ⟨by simp [Device.start, Globals.start], fun _ => ⟨rfl, rfl, rfl, rfl⟩⟩
  | append_singleton done req ih =>
      rw [history_concat, List.map_append, List.map_singleton, history_concat]
      obtain ⟨hiff, hshows⟩ := ih
      by_cases hstuck : (history Device.request .start done).outcome = .stuck
      · have hstuck' := hiff.mp hstuck
        cases req with
        | initNetdev kernel => simp [Device.request, request, hstuck, hstuck']
        | deinitNetdev => simp [Device.request, request, hstuck, hstuck']
      · have shows := hshows hstuck
        have running := Bool.eq_false_iff.mpr (mt hiff.mpr hstuck)
        cases req with
        | initNetdev kernel =>
            obtain ⟨hrc, hshows'⟩ := shows.init kernel
            rw [NetdevRequest.onGlobals, request_init running, hrc]
            cases heq : xpNetdevInit kernel (history Device.request .start done).netdev with
            | none => simp [Device.request, hstuck, heq]
            | some r =>
                obtain ⟨hxpnet, hpriv, hmode, hledger⟩ := hshows' _ _ heq
                simp only [Device.request, hstuck, if_false, heq]
                exact ⟨by simp, fun _ => ⟨hxpnet, hpriv, hmode, hledger⟩⟩
        | deinitNetdev =>
            obtain ⟨hreturns, hshows'⟩ := shows.deinit
            rw [NetdevRequest.onGlobals, request_deinit running]
            cases heq : xpNetdevDeinit (history Device.request .start done).netdev with
            | none =>
                rw [heq] at hreturns
                simp [Device.request, hstuck, heq, Option.isSome_eq_false_iff.mp hreturns]
            | some netdev =>
                rw [heq] at hreturns
                obtain ⟨hxpnet, hpriv, hmode, hledger⟩ := hshows' _ heq
                simp only [Device.request, hstuck, if_false, heq]
                refine ⟨?_, fun _ => ⟨hxpnet, hpriv, hmode, hledger⟩⟩
                simp [Option.isSome_iff_ne_none.mp hreturns]

end Shows

end XpNet.Init
