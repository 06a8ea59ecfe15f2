/-
`xp_netdev_init` and `xp_netdev_deinit` on several devices, with what the module has
one of: the trap table and `g_net_priv`.

Requests come in any order, each with what the kernel answers, between them the
netlink messages that configure traps. The init drops what the setups of the queues
return, so that a teardown may come to a queue without its pointers: it does not
return, and leaves a device live and the trap table gone.

While a device is live the shared state is valid exactly as long as no device is taken
down beside another live one, none is brought up beside one that fails or finds a trap
configured, and no failing init and no deinit comes to queues that cannot be taken
down (`shared_state_valid_iff`).
-/

import XpNet.Common
import XpNet.Histories
import XpNet.Init.Mode
import XpNet.Init.Teardown
import Mathlib.Data.Fintype.Basic

namespace XpNet.Init

open XpNet.Intf (XpTrapTable xpTrapInit xpTrapConfigGet xpTrapConfigGet_eq_some xpTrapIdGet
  trapConfig XpNlMsgTrap xpNlMsgTrap xpNlMsgTrap_stores xpNlMsgTrap_removes StoresEntry enomem)

variable {Dev : Type}

/-! ### Requests -/

/-- `*priv->xpnet`: its own block, its queues and its workqueue, which comes last. -/
structure NetPriv where
  block : Nat
  rxQueue : Queues
  txQueue : Queues
  wqueue : Option Nat

/-- `priv->xpnet` of each device, `g_net_priv`, the shared state and the ledger of what the
driver has obtained. `stuck` says that a request has not returned. `configured` is a ghost:
the trap table as messages have filled it since the first device came up. -/
structure Globals (Dev : Type) where
  xpnet : Dev → Option NetPriv
  gNetPriv : Option Nat
  mode : ModeState
  ledger : Ledger Resource
  stuck : Bool
  configured : XpTrapTable

/-- The state when the module is loaded. -/
def Globals.start : Globals Dev := ⟨fun _ => none, none, modeless, .blank, false, xpTrapInit⟩

/-- What the kernel answers to `xp_netdev_init`, but for the memory of the queues. -/
structure GlobalsKernel where
  kzalloc : Bool
  mode : ModeKernel
  createWorkqueue : Bool

/-- What the kernel answers to `xp_netdev_init`, the memory of the queues included. -/
structure NetdevKernel extends GlobalsKernel where
  rx : Nat → QueueMemory
  tx : Nat → QueueMemory

/-- The setups of the queues in `xp_netdev_init`, which drops what they return. -/
def setupQueues (kernel : NetdevKernel) (ledger : Ledger Resource) :
    Option (Queues × Queues × Ledger Resource) :=
  (xpnetRxQueueSetup kernel.rx xpnetRxNumQueues (fun _ => zeroQueue) ledger).bind
    fun (_, rxQueue, ledger) =>
      (xpnetTxQueueSetup kernel.tx xpnetTxNumQueues (fun _ => zeroQueue) ledger).map
        fun (_, txQueue, ledger) => (rxQueue, txQueue, ledger)

/-- The teardowns at the end of a failing init, and the `kfree`. -/
def NetPriv.unwind (priv : NetPriv) (ledger : Ledger Resource) : Option (Ledger Resource) :=
  (xpnetRxTeardown xpnetRxNumQueues priv.rxQueue ledger).bind fun (_, ledger) =>
    (xpnetTxTeardown xpnetTxNumQueues priv.txQueue ledger).map fun (_, ledger) =>
      ledger.release .netPriv priv.block

/-- What a deinit releases. It flushes the workqueue first, which is not to be `NULL`. -/
def NetPriv.remove (priv : NetPriv) (ledger : Ledger Resource) : Option (Ledger Resource) :=
  priv.wqueue.bind fun wqueue =>
    (xpnetTxTeardown xpnetTxNumQueues priv.txQueue ledger).bind fun (_, ledger) =>
      (xpnetRxTeardown xpnetRxNumQueues priv.rxQueue ledger).map fun (_, ledger) =>
        (ledger.release .workqueue wqueue).release .netPriv priv.block

/-- A device gets another `priv->xpnet`. -/
def Globals.setXpnet [DecidableEq Dev] (s : Globals Dev) (dev : Dev) (priv : Option NetPriv) :
    Globals Dev :=
  { s with xpnet := Function.update s.xpnet dev priv }

/-- `err_netdev_fp_netdev` of `xp_netdev_init`. A teardown that does not return leaves the
device its netdev. -/
def Globals.unwind [DecidableEq Dev] (s : Globals Dev) (dev : Dev) (priv : NetPriv) (rc : Int) :
    Option Int × Globals Dev :=
  match priv.unwind s.ledger with
  | none => (none, s)
  | some ledger => (some rc, { s.setXpnet dev none with gNetPriv := none, ledger := ledger })

/-- `xp_netdev_init` from `xp_netdev_mode_init` on. -/
def Globals.initFromMode [DecidableEq Dev] (s : Globals Dev) (kernel : GlobalsKernel) (dev : Dev)
    (priv : NetPriv) : Option Int × Globals Dev :=
  let (rc, mode) := xpNetdevModeInit kernel.mode s.mode
  let s := { s with mode := mode }
  if rc ≠ 0 then s.unwind dev priv rc
  else if !kernel.createWorkqueue then
    match xpNetdevModeDeinit mode with
    | none => (none, s)
    | some mode => { s with mode := mode }.unwind dev priv (-enomem)
  else
    let (wqueue, ledger) := s.ledger.obtain .workqueue
    (some 0, { s.setXpnet dev (some { priv with wqueue := some wqueue }) with ledger := ledger })

/-- `xp_netdev_init(priv)`. Without an answer it does not return; the state is then the one
it has come to, but for what a teardown has done before it got stuck. -/
def Globals.xpNetdevInit [DecidableEq Dev] (s : Globals Dev) (kernel : NetdevKernel) (dev : Dev) :
    Option Int × Globals Dev :=
  if (s.xpnet dev).isSome then (some 0, s)
  else if !kernel.kzalloc then (some (-enomem), s)
  else
    let (block, ledger) := s.ledger.obtain .netPriv
    let priv : NetPriv := ⟨block, fun _ => zeroQueue, fun _ => zeroQueue, none⟩
    let s := { s.setXpnet dev (some priv) with gNetPriv := some block, ledger := ledger }
    match setupQueues kernel ledger with
    | none => (none, s)
    | some (rxQueue, txQueue, ledger) =>
        let priv := { priv with rxQueue := rxQueue, txQueue := txQueue }
        { s.setXpnet dev (some priv) with ledger := ledger }.initFromMode
          kernel.toGlobalsKernel dev priv

/-- `xp_netdev_deinit(priv)`, which may not return either. -/
def Globals.xpNetdevDeinit [DecidableEq Dev] (s : Globals Dev) (dev : Dev) :
    Option Unit × Globals Dev :=
  match s.xpnet dev with
  | none => (some (), s)
  | some priv =>
      match xpNetdevModeDeinit s.mode with
      | none => (none, s)
      | some mode =>
          match priv.remove s.ledger with
          | none => (none, { s with mode := mode })
          | some ledger => (some (), { s.setXpnet dev none with mode := mode, ledger := ledger })

inductive Request (Dev : Type) where
  | initNetdev (kernel : NetdevKernel) (dev : Dev)
  | deinitNetdev (dev : Dev)
  /-- A message that sets a trap, while there is a table. -/
  | trapSet (kernel : Intf.Kernel) (trapMsg : XpNlMsgTrap)

/-- Some device has a live netdev. -/
def Globals.Live (s : Globals Dev) : Prop := ∃ dev, (s.xpnet dev).isSome = true

instance [Fintype Dev] (s : Globals Dev) : Decidable s.Live :=
  inferInstanceAs (Decidable (∃ dev, (s.xpnet dev).isSome = true))

/-- A message reaches the trap table, and what is configured. -/
def Globals.trapSet (kernel : Intf.Kernel) (trapMsg : XpNlMsgTrap) (s : Globals Dev) :
    Globals Dev :=
  match s.mode.trapTable with
  | some table =>
      { s with
        mode := { s.mode with trapTable := some (xpNlMsgTrap kernel trapMsg table).2 }
        configured := (xpNlMsgTrap kernel trapMsg s.configured).2 }
  | none => s

/-- One request; the first init with no device live starts with nothing configured. After
one that has not returned there are no further ones. -/
def request [Fintype Dev] [DecidableEq Dev] (s : Globals Dev) (req : Request Dev) : Globals Dev :=
  if s.stuck then s
  else match req with
    | .initNetdev kernel dev =>
        let (rc, after) := s.xpNetdevInit kernel dev
        { after with
          stuck := rc.isNone
          configured := if s.Live then s.configured else xpTrapInit }
    | .deinitNetdev dev =>
        let (returned, after) := s.xpNetdevDeinit dev
        { after with stuck := returned.isNone }
    | .trapSet kernel trapMsg => s.trapSet kernel trapMsg

/-! ### What is promised and what it takes -/

/-- Every configured trap is in the table under its id, and its reason code leads
there as it did. -/
def HoldsTraps (table configured : XpTrapTable) : Prop :=
  ∀ id cfg, xpTrapConfigGet configured id = some cfg →
    xpTrapConfigGet table id = some cfg ∧
      xpTrapIdGet table cfg.rc = xpTrapIdGet configured cfg.rc

/-- No trap is configured. -/
def NoTraps (configured : XpTrapTable) : Prop := ∀ id, xpTrapConfigGet configured id = none

/-- While a device is live the trap table is there with all that was configured, and
`g_net_priv` is `NULL` or the private structure of a live device. -/
structure SharedValid (s : Globals Dev) : Prop where
  table : s.Live → ∃ table, s.mode.trapTable = some table ∧ HoldsTraps table s.configured
  gNetPriv : s.Live → ∀ block, s.gNetPriv = some block →
    ∃ dev priv, s.xpnet dev = some priv ∧ priv.block = block

/-- The kernel gives `xp_netdev_init` all it asks for after the setups of the queues. -/
def GlobalsKernel.Grants (kernel : GlobalsKernel) : Prop :=
  kernel.mode.Grants ∧ kernel.createWorkqueue = true

/-- The queues can be taken down after their setups: every TX queue gets its block, and
the first RX queue that does not get all its memory does not even get its block. -/
structure NetdevKernel.UnwindsQueues (kernel : NetdevKernel) : Prop where
  rx : ∀ i < xpnetRxNumQueues, (∀ k < i, (kernel.rx k).Grants) →
    (kernel.rx i).Grants ∨ (kernel.rx i).descs = false
  tx : ∀ i < xpnetTxNumQueues, (kernel.tx i).descs = true

/-- All queues can be taken down. -/
structure NetPriv.TearsDown (priv : NetPriv) : Prop where
  rx : ∀ i < xpnetRxNumQueues, Removable (priv.rxQueue i)
  tx : ∀ i < xpnetTxNumQueues, Removable (priv.txQueue i)

/-- The device is the only live one, if it is live. -/
def Globals.Alone (s : Globals Dev) (dev : Dev) : Prop :=
  (s.xpnet dev).isSome = true → ∀ other, (s.xpnet other).isSome = true → other = dev

/-- The request leaves all devices what they use. An init that gets as far as the shared
state finds no trap configured beside a live device; where it fails, no device is live and
it can take its queues down. A deinit finds no other device live, and queues that can be
taken down. -/
def KeepsShared (s : Globals Dev) : Request Dev → Prop
  | .initNetdev kernel dev =>
      s.xpnet dev = none → kernel.kzalloc = true →
        (kernel.Grants → s.Live → NoTraps s.configured) ∧
          (¬ kernel.Grants → ¬ s.Live ∧ kernel.UnwindsQueues)
  | .deinitNetdev dev =>
      s.Alone dev ∧ ∀ priv, s.xpnet dev = some priv → priv.TearsDown
  | .trapSet _ _ => True

/-! ### Traps -/

theorem HoldsTraps.refl (table : XpTrapTable) : HoldsTraps table table := fun _ _ h => ⟨h, rfl⟩

theorem holdsTraps_xpTrapInit {configured : XpTrapTable} :
    HoldsTraps xpTrapInit configured ↔ NoTraps configured := by
  constructor
  · intro holds id
    by_contra hsome
    obtain ⟨cfg, hcfg⟩ := Option.ne_none_iff_exists'.mp hsome
    have hinit := (holds id cfg hcfg).1
    simp [xpTrapConfigGet, xpTrapInit] at hinit
  · intro hnone id cfg hcfg
    rw [hnone id] at hcfg
    cases hcfg

section Traps

variable {table configured : XpTrapTable} (kernel : Intf.Kernel) (trapMsg : XpNlMsgTrap)

/-- A message that stores an entry. -/
theorem HoldsTraps.stores (holds : HoldsTraps table configured)
    (h : StoresEntry kernel trapMsg) :
    HoldsTraps (xpNlMsgTrap kernel trapMsg table).2 (xpNlMsgTrap kernel trapMsg configured).2 := by
  rw [xpNlMsgTrap_stores table h, xpNlMsgTrap_stores configured h]
  intro id cfg hcfg
  rw [xpTrapConfigGet_eq_some] at hcfg
  obtain ⟨hid, hcfg⟩ := hcfg
  dsimp only at hcfg
  by_cases hnew : id = trapMsg.trapId
  · subst hnew
    rw [Function.update_self] at hcfg
    cases hcfg
    rw [xpTrapConfigGet_eq_some]
    refine ⟨⟨hid, Function.update_self _ _ _⟩, ?_⟩
    simp [xpTrapIdGet, trapConfig]
  · rw [Function.update_of_ne hnew] at hcfg
    obtain ⟨hold, hrc⟩ := holds id cfg (xpTrapConfigGet_eq_some.mpr ⟨hid, hcfg⟩)
    rw [xpTrapConfigGet_eq_some] at hold ⊢
    refine ⟨⟨hid, (Function.update_of_ne hnew _ _).trans hold.2⟩, ?_⟩
    -- the reason code of an old entry may be the new entry's
    by_cases hsame : cfg.rc = trapMsg.rc
    · simp [xpTrapIdGet, hsame]
    · simpa [xpTrapIdGet, hsame] using hrc

/-- A message that removes an entry. -/
theorem HoldsTraps.removes (holds : HoldsTraps table configured) (id : UInt32) :
    HoldsTraps { table with trap := Function.update table.trap id none }
      { configured with trap := Function.update configured.trap id none } := by
  intro id' cfg hcfg
  rw [xpTrapConfigGet_eq_some] at hcfg
  obtain ⟨hid, hcfg⟩ := hcfg
  dsimp only at hcfg
  have hne : id' ≠ id := by
    rintro rfl
    rw [Function.update_self] at hcfg
    cases hcfg
  rw [Function.update_of_ne hne] at hcfg
  obtain ⟨hold, hrc⟩ := holds id' cfg (xpTrapConfigGet_eq_some.mpr ⟨hid, hcfg⟩)
  rw [xpTrapConfigGet_eq_some] at hold ⊢
  exact ⟨⟨hid, (Function.update_of_ne hne _ _).trans hold.2⟩, hrc⟩

/-- What the table holds it still holds after a message that both have got. -/
theorem HoldsTraps.trapSet (holds : HoldsTraps table configured) :
    HoldsTraps (xpNlMsgTrap kernel trapMsg table).2 (xpNlMsgTrap kernel trapMsg configured).2 := by
  by_cases hstores : StoresEntry kernel trapMsg
  · exact holds.stores kernel trapMsg hstores
  · rcases xpNlMsgTrap_removes table hstores with ⟨hrem, heq⟩ | ⟨hrem, heq⟩
    · rcases xpNlMsgTrap_removes configured hstores with ⟨-, heq'⟩ | ⟨hrem', -⟩
      · rw [heq, heq']
        exact holds.removes trapMsg.trapId
      · exact absurd hrem hrem'
    · rcases xpNlMsgTrap_removes configured hstores with ⟨hrem', -⟩ | ⟨-, heq'⟩
      · exact absurd hrem' hrem
      · rw [heq, heq']
        exact holds

/-- A trap message keeps the shared state valid. -/
theorem SharedValid.trapSet {s : Globals Dev} (valid : SharedValid s) :
    SharedValid (s.trapSet kernel trapMsg) := by
  unfold Globals.trapSet
  split
  case h_1 table htable =>
    refine ⟨fun hlive => ⟨_, rfl, ?_⟩, valid.gNetPriv⟩
    obtain ⟨table', hsome, holds⟩ := valid.table hlive
    rw [htable] at hsome
    cases hsome
    exact holds.trapSet kernel trapMsg
  case h_2 => exact valid

end Traps

/-! ### The queues -/

/-- The setups return. -/
theorem setupQueues_returns (kernel : NetdevKernel) (l : Ledger Resource) :
    ∃ rxQueue txQueue l', setupQueues kernel l = some (rxQueue, txQueue, l') ∧
      ∀ block wqueue, NetPriv.TearsDown ⟨block, rxQueue, txQueue, wqueue⟩ ↔
        kernel.UnwindsQueues := by
  obtain ⟨_, rxQueue, l₁, hrx, hrxrem⟩ := rxSetup_removable kernel.rx xpnetRxNumQueues l
  obtain ⟨_, txQueue, l₂, htx, htxrem⟩ := txSetup_removable kernel.tx xpnetTxNumQueues l₁
  refine ⟨rxQueue, txQueue, l₂, by simp [setupQueues, hrx, htx], fun block wqueue => ?_⟩
  exact ⟨fun down => ⟨hrxrem.mp down.rx, htxrem.mp down.tx⟩,
    fun unwinds => ⟨hrxrem.mpr unwinds.rx, htxrem.mpr unwinds.tx⟩⟩

section Teardowns

variable (priv : NetPriv) (l : Ledger Resource)

theorem NetPriv.unwind_isSome : (priv.unwind l).isSome = true ↔ priv.TearsDown := by
  have hrx := teardown_isSome rxUninit xpnetRxNumQueues priv.rxQueue l
  cases heq : xpnetRxTeardown xpnetRxNumQueues priv.rxQueue l with
  | none =>
      rw [xpnetRxTeardown] at heq
      rw [heq] at hrx
      exact iff_of_false (by simp [NetPriv.unwind, xpnetRxTeardown, heq])
        fun down => absurd (hrx.mpr down.rx) (by simp)
  | some r =>
      have htx := teardown_isSome txUninit xpnetTxNumQueues priv.txQueue r.2
      rw [xpnetRxTeardown] at heq
      rw [heq] at hrx
      simp only [NetPriv.unwind, xpnetRxTeardown, xpnetTxTeardown, heq, Option.bind_some,
        Option.isSome_map, htx]
      exact ⟨fun h => ⟨hrx.mp rfl, h⟩, NetPriv.TearsDown.tx⟩

theorem NetPriv.remove_isSome (hwqueue : priv.wqueue.isSome = true) :
    (priv.remove l).isSome = true ↔ priv.TearsDown := by
  obtain ⟨wqueue, hwqueue⟩ := Option.isSome_iff_exists.mp hwqueue
  have htx := teardown_isSome txUninit xpnetTxNumQueues priv.txQueue l
  cases heq : queuesTeardown txUninit xpnetTxNumQueues priv.txQueue l with
  | none =>
      rw [heq] at htx
      exact iff_of_false (by simp [NetPriv.remove, xpnetTxTeardown, hwqueue, heq])
        fun down => absurd (htx.mpr down.tx) (by simp)
  | some r =>
      have hrx := teardown_isSome rxUninit xpnetRxNumQueues priv.rxQueue r.2
      rw [heq] at htx
      simp only [NetPriv.remove, xpnetRxTeardown, xpnetTxTeardown, hwqueue, heq, Option.bind_some,
        Option.isSome_map, hrx]
      exact ⟨fun h => ⟨h, htx.mp rfl⟩, NetPriv.TearsDown.rx⟩

end Teardowns

/-! ### One request -/

/-- Between requests the shared state is valid, the last request has returned, and a live
device has its workqueue. -/
structure GlobalsInv (s : Globals Dev) : Prop where
  valid : SharedValid s
  running : s.stuck = false
  wqueue : ∀ dev priv, s.xpnet dev = some priv → priv.wqueue.isSome = true

theorem SharedValid.of_dead {s : Globals Dev} (h : ¬ s.Live) : SharedValid s :=
  ⟨fun hlive => absurd hlive h, fun hlive => absurd hlive h⟩

/-- A live device without a trap table. -/
theorem SharedValid.not_of_live {s : Globals Dev} (dev : Dev) (hup : (s.xpnet dev).isSome = true)
    (htable : s.mode.trapTable = none) : ¬ SharedValid s := by
  intro valid
  obtain ⟨table, hsome, -⟩ := valid.table ⟨dev, hup⟩
  rw [htable] at hsome
  cases hsome

section Requests

variable [DecidableEq Dev] {s : Globals Dev} {dev : Dev}

theorem Globals.unwind_returns (s : Globals Dev) (dev : Dev) {priv : NetPriv} (h : priv.TearsDown)
    (rc : Int) :
    ∃ ledger, s.unwind dev priv rc =
      (some rc, { s.setXpnet dev none with gNetPriv := none, ledger := ledger }) := by
  obtain ⟨ledger, heq⟩ := Option.isSome_iff_exists.mp ((priv.unwind_isSome s.ledger).mpr h)
  exact ⟨ledger, by simp [Globals.unwind, heq]⟩

theorem Globals.unwind_stuck {priv : NetPriv} (h : ¬ priv.TearsDown) (rc : Int) :
    s.unwind dev priv rc = (none, s) := by
  have heq : priv.unwind s.ledger = none := by
    simpa [Option.isSome_iff_ne_none] using mt (priv.unwind_isSome s.ledger).mp h
  simp [Globals.unwind, heq]

theorem Globals.initFromMode_succeeds {kernel : GlobalsKernel} (h : kernel.Grants)
    (priv : NetPriv) :
    s.initFromMode kernel dev priv =
      (some 0, { s.setXpnet dev (some { priv with wqueue := some (s.ledger.obtain .workqueue).1 })
        with
          mode := ⟨some xpTrapInit, true, true⟩
          ledger := (s.ledger.obtain .workqueue).2 }) := by
  simp [Globals.initFromMode, Globals.setXpnet, xpNetdevModeInit_grants _ h.1, h.2]

/-- Where the kernel refuses something there is no trap table when the unwinding begins. -/
theorem Globals.initFromMode_fails {kernel : GlobalsKernel} (h : ¬ kernel.Grants)
    (s : Globals Dev) (priv : NetPriv) :
    ∃ rc mode, rc ≠ 0 ∧ mode.trapTable = none ∧
      s.initFromMode kernel dev priv = { s with mode := mode }.unwind dev priv rc := by
  have henomem : -enomem ≠ 0 := by decide
  by_cases hmode : kernel.mode.Grants
  · have hqueue : kernel.createWorkqueue = false := by
      by_contra hqueue
      exact h ⟨hmode, by simpa using hqueue⟩
    refine ⟨-enomem, modeless, henomem, rfl, ?_⟩
    simp [Globals.initFromMode, xpNetdevModeInit_grants _ hmode, hqueue, xpNetdevModeDeinit,
      xpTrapDeinit, modeless]
  · obtain ⟨hrc, htable, -⟩ := xpNetdevModeInit_fails s.mode hmode
    exact ⟨_, _, hrc.ne, htable, by simp [Globals.initFromMode, hrc.ne]⟩

/-- An init that gets its memory goes on from the mode init with its queues. -/
theorem Globals.xpNetdevInit_eq {kernel : NetdevKernel} (hdown : s.xpnet dev = none)
    (hmem : kernel.kzalloc = true) :
    ∃ priv ledger, s.xpNetdevInit kernel dev = { s.setXpnet dev (some priv) with
        gNetPriv := some priv.block
        ledger := ledger }.initFromMode kernel.toGlobalsKernel dev priv ∧
      (∀ wqueue, { priv with wqueue := wqueue }.TearsDown ↔ kernel.UnwindsQueues) := by
  obtain ⟨rxQueue, txQueue, l, heq, hdown'⟩ :=
    setupQueues_returns kernel (s.ledger.obtain .netPriv).2
  refine ⟨⟨(s.ledger.obtain .netPriv).1, rxQueue, txQueue, none⟩, l, ?_, fun wqueue =>
    hdown' _ wqueue⟩
  simp [Globals.xpNetdevInit, hdown, hmem, heq, Globals.setXpnet]

/-- An init that goes through. -/
theorem Globals.init_succeeds {kernel : NetdevKernel} (hdown : s.xpnet dev = none)
    (hmem : kernel.kzalloc = true) (h : kernel.Grants) :
    ∃ priv ledger, s.xpNetdevInit kernel dev = (some 0, { s.setXpnet dev (some priv) with
        gNetPriv := some priv.block
        mode := ⟨some xpTrapInit, true, true⟩
        ledger := ledger }) ∧
      priv.wqueue.isSome = true ∧ (priv.TearsDown ↔ kernel.UnwindsQueues) := by
  obtain ⟨priv, ledger, heq, hdowns⟩ := Globals.xpNetdevInit_eq hdown hmem
  rw [heq, Globals.initFromMode_succeeds h]
  refine ⟨{ priv with wqueue := some (ledger.obtain .workqueue).1 }, (ledger.obtain .workqueue).2,
    ?_, rfl, hdowns _⟩
  simp [Globals.setXpnet]

/-- One that fails and can take its queues down leaves the devices as they were. -/
theorem Globals.init_fails {kernel : NetdevKernel} (hdown : s.xpnet dev = none)
    (hmem : kernel.kzalloc = true) (h : ¬ kernel.Grants) (hqueues : kernel.UnwindsQueues) :
    ∃ rc, (s.xpNetdevInit kernel dev).1 = some rc ∧ rc ≠ 0 ∧
      (s.xpNetdevInit kernel dev).2.xpnet = s.xpnet ∧
      (s.xpNetdevInit kernel dev).2.gNetPriv = none ∧
      (s.xpNetdevInit kernel dev).2.mode.trapTable = none := by
  obtain ⟨priv, ledger, heq, hdowns⟩ := Globals.xpNetdevInit_eq (s := s) hdown hmem
  obtain ⟨rc, mode, hrc, htable, hmode⟩ := Globals.initFromMode_fails h
    { s.setXpnet dev (some priv) with gNetPriv := some priv.block, ledger := ledger } priv
  obtain ⟨ledger', hunwind⟩ := Globals.unwind_returns
    { s.setXpnet dev (some priv) with gNetPriv := some priv.block, mode := mode, ledger := ledger }
    dev ((hdowns priv.wqueue).mpr hqueues) rc
  have hback : Function.update s.xpnet dev none = s.xpnet := by
    rw [← hdown, Function.update_eq_self]
  rw [heq, hmode, hunwind]
  exact ⟨rc, rfl, hrc, by simp [Globals.setXpnet, hback], rfl, htable⟩

/-- One that fails and cannot leaves the device live, and no trap table. -/
theorem Globals.init_stuck {kernel : NetdevKernel} (hdown : s.xpnet dev = none)
    (hmem : kernel.kzalloc = true) (h : ¬ kernel.Grants) (hqueues : ¬ kernel.UnwindsQueues) :
    (s.xpNetdevInit kernel dev).1 = none ∧
      ((s.xpNetdevInit kernel dev).2.xpnet dev).isSome = true ∧
      (s.xpNetdevInit kernel dev).2.mode.trapTable = none := by
  obtain ⟨priv, ledger, heq, hdowns⟩ := Globals.xpNetdevInit_eq (s := s) hdown hmem
  obtain ⟨rc, mode, -, htable, hmode⟩ := Globals.initFromMode_fails h
    { s.setXpnet dev (some priv) with gNetPriv := some priv.block, ledger := ledger } priv
  rw [heq, hmode, Globals.unwind_stuck (mt (hdowns priv.wqueue).mp hqueues)]
  exact ⟨rfl, by simp [Globals.setXpnet], htable⟩

theorem Globals.deinit_returns {table : XpTrapTable} {priv : NetPriv}
    (hup : s.xpnet dev = some priv) (htable : s.mode.trapTable = some table)
    (hwqueue : priv.wqueue.isSome = true) (h : priv.TearsDown) :
    ∃ ledger, s.xpNetdevDeinit dev =
      (some (), { s.setXpnet dev none with mode := modeless, ledger := ledger }) := by
  obtain ⟨ledger, heq⟩ := Option.isSome_iff_exists.mp ((priv.remove_isSome s.ledger hwqueue).mpr h)
  exact ⟨ledger, by simp [Globals.xpNetdevDeinit, hup, xpNetdevModeDeinit, htable, heq,
    xpTrapDeinit, modeless]⟩

theorem Globals.deinit_stuck {table : XpTrapTable} {priv : NetPriv}
    (hup : s.xpnet dev = some priv) (htable : s.mode.trapTable = some table)
    (hwqueue : priv.wqueue.isSome = true) (h : ¬ priv.TearsDown) :
    s.xpNetdevDeinit dev = (none, { s with mode := modeless }) := by
  have heq : priv.remove s.ledger = none := by
    simpa [Option.isSome_iff_ne_none] using mt (priv.remove_isSome s.ledger hwqueue).mp h
  simp [Globals.xpNetdevDeinit, hup, xpNetdevModeDeinit, htable, heq, xpTrapDeinit, modeless]

variable [Fintype Dev]

theorem request_init (running : s.stuck = false) (kernel : NetdevKernel) (dev : Dev) :
    request s (.initNetdev kernel dev) = { (s.xpNetdevInit kernel dev).2 with
      stuck := (s.xpNetdevInit kernel dev).1.isNone
      configured := if s.Live then s.configured else xpTrapInit } := by
  simp [request, running]

theorem request_deinit (running : s.stuck = false) (dev : Dev) :
    request s (.deinitNetdev dev) = { (s.xpNetdevDeinit dev).2 with
      stuck := (s.xpNetdevDeinit dev).1.isNone } := by
  simp [request, running]

/-- After an init that goes through the device is live, with queues that can be taken down
exactly when their setups left them so. -/
theorem request_init_up (running : s.stuck = false) (dev : Dev) {kernel : NetdevKernel}
    (hdown : s.xpnet dev = none) (hmem : kernel.kzalloc = true) (h : kernel.Grants) :
    ∃ priv, (request s (.initNetdev kernel dev)).xpnet = Function.update s.xpnet dev (some priv) ∧
      (request s (.initNetdev kernel dev)).configured =
        (if s.Live then s.configured else xpTrapInit) ∧
      (priv.TearsDown ↔ kernel.UnwindsQueues) := by
  obtain ⟨priv, ledger, heq, -, hdowns⟩ := Globals.init_succeeds (s := s) hdown hmem h
  rw [request_init running, heq]
  exact ⟨priv, rfl, rfl, hdowns⟩

/-- An init that finds the netdev there, or no memory for it, changes no live device's
state. -/
theorem GlobalsInv.initNothing {kernel : NetdevKernel} (inv : GlobalsInv s)
    (h : (s.xpnet dev).isSome = true ∨ kernel.kzalloc = false) :
    GlobalsInv (request s (.initNetdev kernel dev)) := by
  have hsame : (s.xpNetdevInit kernel dev).2 = s ∧ (s.xpNetdevInit kernel dev).1 ≠ none := by
    unfold Globals.xpNetdevInit
    by_cases hup : (s.xpnet dev).isSome = true
    · simp [hup]
    · rcases h with h | h
      · exact absurd h hup
      · simp [hup, h]
  rw [request_init inv.running, hsame.1]
  refine ⟨?_, by simpa [Option.isSome_iff_ne_none] using hsame.2, inv.wqueue⟩
  by_cases hlive : s.Live
  · rw [if_pos hlive]
    exact ⟨inv.valid.table, inv.valid.gNetPriv⟩
  · exact SharedValid.of_dead hlive

/-- An init that goes through leaves an empty trap table. -/
theorem GlobalsInv.initSucceeds {kernel : NetdevKernel} (inv : GlobalsInv s)
    (hdown : s.xpnet dev = none) (hmem : kernel.kzalloc = true) (h : kernel.Grants) :
    ((s.Live → NoTraps s.configured) → GlobalsInv (request s (.initNetdev kernel dev))) ∧
      (SharedValid (request s (.initNetdev kernel dev)) → s.Live → NoTraps s.configured) := by
  obtain ⟨priv, ledger, heq, hwqueue, -⟩ := Globals.init_succeeds (s := s) hdown hmem h
  rw [request_init inv.running, heq]
  constructor
  · intro hnone
    refine ⟨⟨fun _ => ⟨_, rfl, ?_⟩, ?_⟩, rfl, ?_⟩
    · by_cases hlive : s.Live
      · simpa [hlive] using holdsTraps_xpTrapInit.mpr (hnone hlive)
      · simpa [hlive] using HoldsTraps.refl xpTrapInit
    · intro _ block hblock
      exact ⟨dev, priv, by simp [Globals.setXpnet], by simpa using hblock⟩
    · intro other priv' hother
      by_cases hsame : other = dev
      · subst hsame
        obtain rfl : priv = priv' := by simpa [Globals.setXpnet] using hother
        exact hwqueue
      · exact inv.wqueue other priv' (by simpa [Globals.setXpnet, hsame] using hother)
  · intro valid hlive
    obtain ⟨table, htable, holds⟩ := valid.table ⟨dev, by simp [Globals.setXpnet]⟩
    cases htable
    exact holdsTraps_xpTrapInit.mp (by simpa [hlive] using holds)

/-- An init that fails leaves none. -/
theorem GlobalsInv.initFails {kernel : NetdevKernel} (inv : GlobalsInv s)
    (hdown : s.xpnet dev = none) (hmem : kernel.kzalloc = true) (h : ¬ kernel.Grants) :
    (¬ s.Live ∧ kernel.UnwindsQueues → GlobalsInv (request s (.initNetdev kernel dev))) ∧
      (SharedValid (request s (.initNetdev kernel dev)) → ¬ s.Live ∧ kernel.UnwindsQueues) := by
  rw [request_init inv.running]
  by_cases hqueues : kernel.UnwindsQueues
  · obtain ⟨rc, hrc, -, hxpnet, -, htable⟩ := Globals.init_fails (s := s) hdown hmem h hqueues
    refine ⟨fun hdead => ⟨SharedValid.of_dead ?_, by simp [hrc], ?_⟩, fun valid => ⟨?_, hqueues⟩⟩
    · rintro ⟨other, hother⟩
      exact hdead.1 ⟨other, by simpa [hxpnet] using hother⟩
    · intro other priv hother
      exact inv.wqueue other priv (by simpa [hxpnet] using hother)
    · rintro ⟨other, hother⟩
      exact absurd valid (SharedValid.not_of_live other (by simpa [hxpnet] using hother) htable)
  · obtain ⟨-, hup, htable⟩ := Globals.init_stuck (s := s) hdown hmem h hqueues
    exact ⟨fun hdead => absurd hdead.2 hqueues,
      fun valid => absurd valid (SharedValid.not_of_live dev hup htable)⟩

/-- The deinit of a live device takes the trap table with it. -/
theorem GlobalsInv.deinitUp (inv : GlobalsInv s) {priv : NetPriv} (hup : s.xpnet dev = some priv) :
    (s.Alone dev ∧ priv.TearsDown → GlobalsInv (request s (.deinitNetdev dev))) ∧
      (SharedValid (request s (.deinitNetdev dev)) → s.Alone dev ∧ priv.TearsDown) := by
  obtain ⟨table, htable, -⟩ := inv.valid.table ⟨dev, by simp [hup]⟩
  have hwqueue := inv.wqueue dev priv hup
  rw [request_deinit inv.running]
  by_cases hdown : priv.TearsDown
  · obtain ⟨ledger, heq⟩ := Globals.deinit_returns hup htable hwqueue hdown
    rw [heq]
    constructor
    · rintro ⟨halone, -⟩
      have hdead : ∀ other, Function.update s.xpnet dev none other = none := by
        intro other
        by_cases hsame : other = dev
        · simp [hsame]
        · rw [Function.update_of_ne hsame]
          by_contra hother
          exact hsame (halone (by simp [hup]) other (Option.isSome_iff_ne_none.mpr hother))
      refine ⟨SharedValid.of_dead ?_, rfl, fun other priv' hother => ?_⟩
      · rintro ⟨other, hother⟩
        simp [Globals.setXpnet, hdead other] at hother
      · simp [Globals.setXpnet, hdead other] at hother
    · intro valid
      refine ⟨fun _ other hother => ?_, hdown⟩
      by_contra hne
      exact absurd valid
        (SharedValid.not_of_live other (by simpa [Globals.setXpnet, hne] using hother) rfl)
  · rw [Globals.deinit_stuck hup htable hwqueue hdown]
    exact ⟨fun h => absurd h.2 hdown,
      fun valid => absurd valid (SharedValid.not_of_live dev (by simp [hup]) rfl)⟩

theorem GlobalsInv.trapSet (inv : GlobalsInv s) (kernel : Intf.Kernel) (trapMsg : XpNlMsgTrap) :
    GlobalsInv (request s (.trapSet kernel trapMsg)) := by
  have hvalid := inv.valid.trapSet kernel trapMsg
  simp only [request, inv.running, Bool.false_eq_true, if_false]
  unfold Globals.trapSet at hvalid ⊢
  split at hvalid
  · exact ⟨hvalid, inv.running, inv.wqueue⟩
  · exact ⟨hvalid, inv.running, inv.wqueue⟩

/-- A request that leaves the devices what they use keeps the invariant, and from a state
that has it any other leads to a state that is not valid. -/
theorem GlobalsInv.request (inv : GlobalsInv s) (req : Request Dev) :
    (KeepsShared s req → GlobalsInv (request s req)) ∧
      (SharedValid (Init.request s req) → KeepsShared s req) := by
  cases req with
  | initNetdev kernel dev =>
      by_cases hnothing : (s.xpnet dev).isSome = true ∨ kernel.kzalloc = false
      · refine ⟨fun _ => inv.initNothing hnothing, fun _ hdown hmem => ?_⟩
        simp [hdown, hmem] at hnothing
      · obtain ⟨hup, hmem⟩ := not_or.mp hnothing
        have hdown : s.xpnet dev = none := by simpa using hup
        have hmem' : kernel.kzalloc = true := by simpa using hmem
        by_cases hgrants : kernel.Grants
        · obtain ⟨hkeeps, hbreaks⟩ := inv.initSucceeds hdown hmem' hgrants
          exact ⟨fun h => hkeeps ((h hdown hmem').1 hgrants),
            fun valid _ _ => ⟨fun _ => hbreaks valid, fun hno => absurd hgrants hno⟩⟩
        · obtain ⟨hkeeps, hbreaks⟩ := inv.initFails hdown hmem' hgrants
          exact ⟨fun h => hkeeps ((h hdown hmem').2 hgrants),
            fun valid _ _ => ⟨fun hyes => absurd hyes hgrants, fun _ => hbreaks valid⟩⟩
  | deinitNetdev dev =>
      cases hup : s.xpnet dev with
      | some priv =>
          obtain ⟨hkeeps, hbreaks⟩ := inv.deinitUp hup
          refine ⟨fun h => hkeeps ⟨h.1, h.2 priv hup⟩, fun valid => ⟨(hbreaks valid).1, ?_⟩⟩
          intro priv' hpriv'
          rw [hup] at hpriv'
          cases hpriv'
          exact (hbreaks valid).2
      | none =>
          have hsame : Init.request s (.deinitNetdev dev) = s := by
            rw [request_deinit inv.running]
            simp [Globals.xpNetdevDeinit, hup, ← inv.running]
          rw [hsame]
          exact ⟨fun _ => inv, fun _ => ⟨fun hsome => absurd hsome (by simp [hup]),
            fun priv hpriv => absurd (hup.symm.trans hpriv) (by simp)⟩⟩
  | trapSet kernel trapMsg => exact ⟨fun _ => inv.trapSet kernel trapMsg, fun _ => trivial⟩

end Requests

theorem globalsInv_start : GlobalsInv (Globals.start : Globals Dev) where
  valid := SharedValid.of_dead (by simp [Globals.Live, Globals.start])
  running := rfl
  wqueue := fun _ _ hup => by cases hup

/-- **The shared state of several devices.** After every sequence of inits, deinits and
trap messages, whatever the kernel answers: in every state on the way in which some
device is live the trap table is there with the traps configured since the first one
came up, and `g_net_priv` is `NULL` or a live private structure, exactly when every
request leaves the devices what they use. A request that does not return is a state on
the way too. -/
theorem shared_state_valid_iff [Fintype Dev] [DecidableEq Dev] (reqs : List (Request Dev)) :
    (∀ done, done <+: reqs → SharedValid (history request Globals.start done)) ↔
      ∀ done req, done ++ [req] <+: reqs → KeepsShared (history request Globals.start done) req :=
  history_iff globalsInv_start (fun _ inv => inv.valid) (fun _ req inv => (inv.request req).1)
    (fun _ req inv hnot valid => hnot ((inv.request req).2 valid)) reqs

/-- A kernel that grants everything but the memory of the queues. -/
def grantingGlobals : GlobalsKernel := ⟨true, ⟨true, 0, 0, 0⟩, true⟩

/-- A kernel that grants that too. -/
def grantingNetdev : NetdevKernel :=
  { grantingGlobals with
    rx := fun _ => ⟨true, fun _ => true⟩
    tx := fun _ => ⟨true, fun _ => true⟩ }

theorem grantingNetdev_grants : grantingNetdev.Grants :=
  ⟨⟨rfl, by decide, by decide, by decide⟩, rfl⟩

/-- Two devices come up and one of them goes down. -/
theorem no_trap_table_after_deinit :
    ¬ ∀ reqs : List (Request (Fin maxDevSupported)),
      SharedValid (history request Globals.start reqs) := by
  intro always
  have hdead : ¬ (Globals.start : Globals (Fin maxDevSupported)).Live := by
    simp [Globals.Live, Globals.start]
  obtain ⟨first, second, hne⟩ : ∃ first second : Fin maxDevSupported, first ≠ second :=
    ⟨⟨0, by decide⟩, ⟨1, by decide⟩, by decide⟩
  have inv₁ := (globalsInv_start.request (.initNetdev grantingNetdev first)).1 fun _ _ =>
    ⟨fun _ hlive => absurd hlive hdead, fun hno => absurd grantingNetdev_grants hno⟩
  obtain ⟨priv₁, hxpnet₁, hconfigured, -⟩ := request_init_up (s := Globals.start) rfl first
    rfl rfl grantingNetdev_grants
  rw [if_neg hdead] at hconfigured
  have hdown : (request Globals.start (.initNetdev grantingNetdev first)).xpnet second = none := by
    rw [hxpnet₁, Function.update_of_ne hne.symm]
    rfl
  have inv₂ := (inv₁.request (.initNetdev grantingNetdev second)).1 fun _ _ =>
    ⟨fun _ _ => hconfigured ▸ fun id => by simp [xpTrapConfigGet, xpTrapInit],
      fun hno => absurd grantingNetdev_grants hno⟩
  obtain ⟨priv₂, hxpnet₂, -⟩ := request_init_up inv₁.running second hdown rfl
    grantingNetdev_grants
  -- the first device is live when the second one goes down
  have halone := ((inv₂.request (.deinitNetdev second)).2
    (always [.initNetdev grantingNetdev first, .initNetdev grantingNetdev second,
      .deinitNetdev second])).1
  refine hne (halone (by simp [hxpnet₂]) first ?_)
  rw [hxpnet₂, Function.update_of_ne hne, hxpnet₁]
  simp

end XpNet.Init
