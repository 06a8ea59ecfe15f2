/-
`xp_module_init` and `xp_module_exit`, as the calls they make for every answer of the
kernel.

The labels of `xp_module_init` release what has been obtained, in reverse. But only three
of its steps set a result: a failure between the region of character devices and the
registration of the driver is undone and zero returned. And the class and the node are
compared with `NULL`, while they are made by functions that answer with an error as a
pointer: the node is then written through it. So the module meets its promise exactly
when one of the first two steps fails, or all steps before the registration of the
driver succeed (`init_unwinds_iff`).
-/

import XpNet.Holding
import XpNet.Intf.Messages

namespace XpNet.Pci

open XpNet.Intf (enomem)

def ebusy : Int := 16

/-! ### Calls -/

/-- What a function that makes an object answers. -/
inductive PtrAnswer where
  | object
  | null
  | errPtr
  deriving DecidableEq, Repr

/-- What init and exit do, each done once it has succeeded. The driver is registered
with the device ids it is for. -/
inductive ModuleCall where
  | classCreate
  | allocChrdevRegion
  | kzallocDmaPriv
  | cdevAdd
  | deviceCreate
  | kzallocDmaMask
  | kzallocDmaParms
  | pciRegisterDriver (ids : List Nat)
  | kfreeDmaParms
  | kfreeDmaMask
  | deviceDestroy
  | cdevDel
  | kfreeDmaPriv
  | unregisterChrdevRegion
  | classDestroy
  | xpDmaMemCleanup
  | pciUnregisterDriver
  deriving DecidableEq, Repr

/-- What the kernel answers to `xp_module_init`, and the device id that the user gives
the module, if not zero. -/
structure ModuleKernel where
  classCreate : PtrAnswer
  allocChrdevRegion : Int
  kzallocDmaPriv : Bool
  cdevAdd : Int
  deviceCreate : PtrAnswer
  kzallocDmaMask : Bool
  kzallocDmaParms : Bool
  pciRegisterDriver : Int
  dynPcieDevId : Nat

/-! ### `xp_module_init` -/

/-- The first `SUPPORTED_DEVICE_IDS` entries of `xp_pci_ids`. -/
def xpPciIds : List Nat := [0xF000, 0xF008, 0xF009, 0xF00B, 0xF00A]

/-- `xp_pci_ids` with the device id of the user in the entry kept for it; without one,
that entry ends the table. -/
def updatedIds (dynPcieDevId : Nat) : List Nat :=
  if dynPcieDevId ≠ 0 ∧ dynPcieDevId ∉ xpPciIds then xpPciIds ++ [dynPcieDevId] else xpPciIds

section Init

variable (kernel : ModuleKernel)

/-- The answer of `device_create`, which refuses a class that is an error. -/
def nodeAnswer : PtrAnswer :=
  if kernel.classCreate = .errPtr then .errPtr else kernel.deviceCreate

/-- `err_alloc_chrdev_region`. -/
def errAllocChrdevRegion : List ModuleCall := [.classDestroy]
/-- `err_dma_prv_alloc`. -/
def errDmaPrvAlloc : List ModuleCall := .unregisterChrdevRegion :: errAllocChrdevRegion
/-- `err_cdev_dma_add`. -/
def errCdevDmaAdd : List ModuleCall := .kfreeDmaPriv :: errDmaPrvAlloc
/-- `err_device_create_dma`. -/
def errDeviceCreateDma : List ModuleCall := .cdevDel :: errCdevDmaAdd
/-- `err_dma_mask_alloc`. -/
def errDmaMaskAlloc : List ModuleCall := .deviceDestroy :: errDeviceCreateDma
/-- `err_dma_parms_alloc`. -/
def errDmaParmsAlloc : List ModuleCall := .kfreeDmaMask :: errDmaMaskAlloc
/-- `err_pci_driver_register`. -/
def errPciDriverRegister : List ModuleCall := .kfreeDmaParms :: errDmaParmsAlloc

/-- The second half of `xp_module_init`, from the node on; `rc` is still zero. -/
def moduleInitNode : Option (Int × List ModuleCall) :=
  match nodeAnswer kernel with
  | .null => some (0, errDeviceCreateDma)
  | .errPtr => none
  | .object =>
      if !kernel.kzallocDmaMask then some (0, .deviceCreate :: errDmaMaskAlloc)
      else if !kernel.kzallocDmaParms then
        some (0, [ModuleCall.deviceCreate, .kzallocDmaMask] ++ errDmaParmsAlloc)
      else
        let calls := [ModuleCall.deviceCreate, .kzallocDmaMask, .kzallocDmaParms]
        if kernel.pciRegisterDriver < 0 then
          some (kernel.pciRegisterDriver, calls ++ errPciDriverRegister)
        else some (0, calls ++ [.pciRegisterDriver (updatedIds kernel.dynPcieDevId)])

/-- `xp_module_init()`: its result and the calls it makes, or nothing when it writes
through an error as a pointer and does not return. -/
def xpModuleInit : Option (Int × List ModuleCall) :=
  if kernel.classCreate = .null then some (-enomem, [])
  else
    let calls := [ModuleCall.classCreate]
    if kernel.allocChrdevRegion ≠ 0 then some (-ebusy, calls ++ errAllocChrdevRegion)
    else
      let calls := calls ++ [.allocChrdevRegion]
      if !kernel.kzallocDmaPriv then some (0, calls ++ errDmaPrvAlloc)
      else
        let calls := calls ++ [.kzallocDmaPriv]
        if kernel.cdevAdd ≠ 0 then some (0, calls ++ errCdevDmaAdd)
        else
          (moduleInitNode kernel).map fun r => (r.1, calls ++ [.cdevAdd] ++ r.2)

/-- `xp_module_exit()`: `dmaPriv` says that `xp_dma_priv` is there, and `coherent` that
the probe of a device has set the DMA mask of its node. -/
def xpModuleExit (dmaPriv coherent : Bool) : List ModuleCall :=
  if dmaPriv then
    (if coherent then [ModuleCall.xpDmaMemCleanup] else []) ++
      [ModuleCall.kfreeDmaMask, .kfreeDmaParms, .deviceDestroy, .cdevDel, .kfreeDmaPriv,
        .pciUnregisterDriver, .unregisterChrdevRegion, .classDestroy]
  else []

/-- `xp_dma_priv` after these calls of init: allocated, and not freed and cleared. -/
def dmaPrivThere (calls : List ModuleCall) : Bool :=
  decide (.kzallocDmaPriv ∈ calls ∧ .kfreeDmaPriv ∉ calls)

end Init

/-! ### What is promised -/

/-- What the module takes hold of. -/
inductive ModuleResource where
  | sysClass
  | chrdevRegion
  | dmaPriv
  | cdev
  | node
  | dmaMask
  | dmaParms
  | driver
  deriving DecidableEq

variable (kernel : ModuleKernel)

/-- What a call obtains and releases. A class that is an error is none, and
`class_destroy` leaves it alone. -/
def ModuleKernel.uses : ModuleCall → List (Use ModuleResource)
  | .classCreate => if kernel.classCreate = .object then [.obtain .sysClass] else []
  | .allocChrdevRegion => [.obtain .chrdevRegion]
  | .kzallocDmaPriv => [.obtain .dmaPriv]
  | .cdevAdd => [.obtain .cdev]
  | .deviceCreate => [.obtain .node]
  | .kzallocDmaMask => [.obtain .dmaMask]
  | .kzallocDmaParms => [.obtain .dmaParms]
  | .pciRegisterDriver _ => [.obtain .driver]
  | .kfreeDmaParms => [.release .dmaParms]
  | .kfreeDmaMask => [.release .dmaMask]
  | .deviceDestroy => [.release .node]
  | .cdevDel => [.release .cdev]
  | .kfreeDmaPriv => [.release .dmaPriv]
  | .unregisterChrdevRegion => [.release .chrdevRegion]
  | .classDestroy => if kernel.classCreate = .object then [.release .sysClass] else []
  | .pciUnregisterDriver => [.release .driver]
  | .xpDmaMemCleanup => []

/-- What is held after some calls, if each has released what was held. -/
def ModuleKernel.held (calls : List ModuleCall) : Option (List ModuleResource) :=
  useAll [] (calls.flatMap kernel.uses)

/-- A step between the region of character devices and the registration fails. -/
def ModuleKernel.MiddleFails : Prop :=
  kernel.kzallocDmaPriv = false ∨ kernel.cdevAdd ≠ 0 ∨ nodeAnswer kernel ≠ .object ∨
    kernel.kzallocDmaMask = false ∨ kernel.kzallocDmaParms = false

/-- A step of `xp_module_init` fails. -/
def ModuleKernel.StepFails : Prop :=
  kernel.classCreate ≠ .object ∨ kernel.allocChrdevRegion ≠ 0 ∨ kernel.MiddleFails ∨
    kernel.pciRegisterDriver < 0

/-- What is in place after an init that succeeds. -/
def moduleNeeded : List ModuleResource :=
  [.sysClass, .chrdevRegion, .dmaPriv, .cdev, .node, .dmaMask, .dmaParms, .driver]

/-- What `xp_module_init` is to do: a step that fails gives a negative result, with
everything released that was obtained; and a result of zero means that everything is in
place, for `xp_module_exit` to release. -/
structure ModuleKernel.Unwinds : Prop where
  fails : kernel.StepFails → ∃ rc calls, xpModuleInit kernel = some (rc, calls) ∧ rc < 0
  undone : ∀ rc calls, xpModuleInit kernel = some (rc, calls) → rc < 0 →
    kernel.held calls = some []
  inPlace : ∀ calls, xpModuleInit kernel = some (0, calls) →
    ∃ all, kernel.held calls = some all ∧ moduleNeeded ⊆ all
  removed : ∀ calls coherent, xpModuleInit kernel = some (0, calls) →
    kernel.held (calls ++ xpModuleExit (dmaPrivThere calls) coherent) = some []

/-! ### Every answer -/

section Answers

variable {kernel}

/-- The first two steps give their results, with nothing but the class to undo. -/
theorem xpModuleInit_stopsFirst
    (h : kernel.classCreate = .null ∨ kernel.allocChrdevRegion ≠ 0) :
    ∃ rc calls, xpModuleInit kernel = some (rc, calls) ∧ rc < 0 ∧
      kernel.held calls = some [] := by
  unfold xpModuleInit
  by_cases hclass : kernel.classCreate = .null
  · rw [if_pos hclass]
    exact ⟨_, _, rfl, by decide, rfl⟩
  · rw [if_neg hclass, if_pos (h.resolve_left hclass)]
    refine ⟨_, _, rfl, by decide, ?_⟩
    by_cases hobject : kernel.classCreate = .object
    · simp [ModuleKernel.held, ModuleKernel.uses, errAllocChrdevRegion, hobject, useAll_release]
    · simp [ModuleKernel.held, ModuleKernel.uses, errAllocChrdevRegion, hobject]

/-- The steps after them do not: either zero is returned, or nothing. -/
theorem xpModuleInit_middle (hclass : kernel.classCreate ≠ .null)
    (hregion : kernel.allocChrdevRegion = 0) (hfail : kernel.MiddleFails) :
    ∀ rc calls, xpModuleInit kernel = some (rc, calls) → rc = 0 := by
  intro rc calls h
  unfold xpModuleInit at h
  rw [if_neg hclass] at h
  simp only [hregion, ne_eq, not_true_eq_false, if_false] at h
  split at h
  · cases h
    rfl
  split at h
  · cases h
    rfl
  rename_i hpriv hcdev
  obtain ⟨r, hnode, heq⟩ := Option.map_eq_some_iff.mp h
  obtain rfl : r.1 = rc := congrArg Prod.fst heq
  unfold moduleInitNode at hnode
  split at hnode
  · cases hnode
    rfl
  · cases hnode
  rename_i hanswer
  split at hnode
  · cases hnode
    rfl
  split at hnode
  · cases hnode
    rfl
  rename_i hmask hparms
  -- no step is left that could have failed
  unfold ModuleKernel.MiddleFails at hfail
  simp_all

/-- The calls of an init that gets as far as the registration of the driver, and what it
then holds. -/
def acquiringCalls : List ModuleCall :=
  [.classCreate, .allocChrdevRegion, .kzallocDmaPriv, .cdevAdd, .deviceCreate, .kzallocDmaMask,
    .kzallocDmaParms]

def acquired : List ModuleResource :=
  [.sysClass, .chrdevRegion, .dmaPriv, .cdev, .node, .dmaMask, .dmaParms]

/-- What init does when none of its steps before the registration fails. -/
theorem xpModuleInit_succeeds (hnull : kernel.classCreate ≠ .null)
    (hregion : kernel.allocChrdevRegion = 0) (hsteps : ¬ kernel.MiddleFails) :
    kernel.classCreate = .object ∧
    xpModuleInit kernel =
      if kernel.pciRegisterDriver < 0 then
        some (kernel.pciRegisterDriver, acquiringCalls ++ errPciDriverRegister)
      else some (0, acquiringCalls ++ [.pciRegisterDriver (updatedIds kernel.dynPcieDevId)]) := by
  unfold ModuleKernel.MiddleFails at hsteps
  simp only [not_or, Bool.not_eq_false, not_not] at hsteps
  obtain ⟨hpriv, hcdev, hnode, hmask, hparms⟩ := hsteps
  have hclass : kernel.classCreate = .object := by
    cases hcase : kernel.classCreate with
    | object => rfl
    | null => exact absurd hcase hnull
    | errPtr => simp [nodeAnswer, hcase] at hnode
  refine ⟨hclass, ?_⟩
  unfold xpModuleInit moduleInitNode
  simp only [hnull, hregion, hpriv, hcdev, hnode, hmask, hparms, ne_eq, not_true_eq_false,
    Bool.not_true, Bool.false_eq_true, if_false]
  split
  · rfl
  · rfl

theorem held_acquiringCalls (hclass : kernel.classCreate = .object) :
    kernel.held acquiringCalls = some acquired.reverse := by
  have huses : acquiringCalls.flatMap kernel.uses = acquired.map Use.obtain := by
    simp [acquiringCalls, acquired, ModuleKernel.uses, hclass]
  rw [ModuleKernel.held, huses, useAll_obtains, List.append_nil]

theorem held_registered (hclass : kernel.classCreate = .object) (ids : List Nat) :
    kernel.held (acquiringCalls ++ [.pciRegisterDriver ids]) =
      some (.driver :: acquired.reverse) := by
  rw [ModuleKernel.held, List.flatMap_append, useAll_append_of (held_acquiringCalls hclass)]
  rfl

/-- The labels release all that was acquired. -/
theorem held_errPciDriverRegister (hclass : kernel.classCreate = .object) :
    kernel.held (acquiringCalls ++ errPciDriverRegister) = some [] := by
  have huses : errPciDriverRegister.flatMap kernel.uses = acquired.reverse.map Use.release := by
    simp [errPciDriverRegister, errDmaParmsAlloc, errDmaMaskAlloc, errDeviceCreateDma,
      errCdevDmaAdd, errDmaPrvAlloc, errAllocChrdevRegion, acquired, ModuleKernel.uses, hclass]
  rw [ModuleKernel.held, List.flatMap_append, useAll_append_of (held_acquiringCalls hclass), huses]
  exact useAll_releases (List.Perm.refl _)

/-- And exit releases that and the driver. -/
theorem held_xpModuleExit (hclass : kernel.classCreate = .object) (ids : List Nat)
    (coherent : Bool) :
    kernel.held (acquiringCalls ++ [.pciRegisterDriver ids] ++
      xpModuleExit (dmaPrivThere (acquiringCalls ++ [.pciRegisterDriver ids])) coherent) =
      some [] := by
  have hpriv : dmaPrivThere (acquiringCalls ++ [.pciRegisterDriver ids]) = true := by
    simp [dmaPrivThere, acquiringCalls]
  have huses : (xpModuleExit true coherent).flatMap kernel.uses =
      ([.dmaMask, .dmaParms, .node, .cdev, .dmaPriv, .driver, .chrdevRegion, .sysClass] :
        List ModuleResource).map Use.release := by
    cases coherent <;> simp [xpModuleExit, ModuleKernel.uses, hclass]
  rw [hpriv, ModuleKernel.held, List.flatMap_append, useAll_append_of (held_registered hclass ids),
    huses]
  exact useAll_releases (by decide)

/-- An init that fails is as promised when it has released everything. -/
theorem unwinds_of_failure {rc : Int} {calls : List ModuleCall}
    (heq : xpModuleInit kernel = some (rc, calls)) (hneg : rc < 0)
    (hheld : kernel.held calls = some []) : kernel.Unwinds := by
  have hnonzero : ∀ calls', xpModuleInit kernel ≠ some (0, calls') := by
    intro calls' h
    rw [heq] at h
    cases h
    exact absurd hneg (by decide)
  exact {
    fails := fun _ => ⟨rc, calls, heq, hneg⟩
    undone := fun rc' calls' h _ => by
      rw [heq] at h
      cases h
      exact hheld
    inPlace := fun calls' h => absurd h (hnonzero calls')
    removed := fun calls' _ h => absurd h (hnonzero calls') }

/-- When no step before it fails, the registration of the driver decides. -/
theorem unwinds_of_middle (hnull : kernel.classCreate ≠ .null)
    (hregion : kernel.allocChrdevRegion = 0) (hsteps : ¬ kernel.MiddleFails) :
    kernel.Unwinds := by
  obtain ⟨hclass, heq⟩ := xpModuleInit_succeeds hnull hregion hsteps
  by_cases hdriver : kernel.pciRegisterDriver < 0
  · rw [if_pos hdriver] at heq
    exact unwinds_of_failure heq hdriver (held_errPciDriverRegister hclass)
  · rw [if_neg hdriver] at heq
    have hnone : ¬ kernel.StepFails := by
      rintro (h | h | h | h)
      · exact h hclass
      · exact h hregion
      · exact hsteps h
      · exact hdriver h
    exact {
      fails := fun hfail => absurd hfail hnone
      undone := fun rc calls h hneg => by
        rw [heq] at h
        cases h
        exact absurd hneg (by decide)
      inPlace := fun calls h => by
        rw [heq] at h
        cases h
        exact ⟨_, held_registered hclass _, by decide⟩
      removed := fun calls coherent h => by
        rw [heq] at h
        cases h
        exact held_xpModuleExit hclass _ coherent }

end Answers

/-- **Init and exit of the module.** For every answer of the kernel to every step: init
undoes its failures and exit an init that succeeds exactly when the first step or the
second fails, or no step between them and the registration of the driver does. -/
theorem init_unwinds_iff :
    kernel.Unwinds ↔
      kernel.classCreate = .null ∨ kernel.allocChrdevRegion ≠ 0 ∨ ¬ kernel.MiddleFails := by
  constructor
  · intro unwinds
    by_contra hmiddle
    simp only [not_or, not_not] at hmiddle
    obtain ⟨hclass, hregion, hfail⟩ := hmiddle
    obtain ⟨rc, calls, heq, hneg⟩ := unwinds.fails (.inr (.inr (.inl hfail)))
    exact absurd (xpModuleInit_middle hclass hregion hfail rc calls heq) (by omega)
  · intro h
    by_cases hfirst : kernel.classCreate = .null ∨ kernel.allocChrdevRegion ≠ 0
    · obtain ⟨rc, calls, heq, hneg, hheld⟩ := xpModuleInit_stopsFirst hfirst
      exact unwinds_of_failure heq hneg hheld
    · obtain ⟨hnull, hregion⟩ := not_or.mp hfirst
      exact unwinds_of_middle hnull (not_not.mp hregion)
        ((h.resolve_left hnull).resolve_left hregion)

/-- Without memory for its private structure, init returns zero. -/
theorem init_returns_zero :
    ¬ ModuleKernel.Unwinds
      { classCreate := .object, allocChrdevRegion := 0, kzallocDmaPriv := false, cdevAdd := 0,
        deviceCreate := .object, kzallocDmaMask := true, kzallocDmaParms := true,
        pciRegisterDriver := 0, dynPcieDevId := 0 } := by
  intro unwinds
  obtain ⟨rc, calls, heq, hneg⟩ := unwinds.fails (.inr (.inr (.inl (.inl rfl))))
  have hzero : (0, _) = (rc, calls) := Option.some.inj heq
  cases hzero
  exact absurd hneg (by decide)

end XpNet.Pci
