/-
What a probe takes hold of, and what it and the removal of the device give back.

The labels at the end of `xp_pci_probe` never free the private structure of a device
that has no workqueue, and none of them frees an interrupt or the vectors. Some failing
steps set no result, or one that a later step overwrites. So once the private structure
is allocated no failure is undone: the probe meets its promise exactly when it stops
before, or when every step succeeds, and `xp_pci_remove` then releases everything but
the BARs above the first (`probe_unwinds_iff`).
-/

import XpNet.Holding
import XpNet.Pci.Probe

namespace XpNet.Pci

/-! ### What is promised -/

/-- What a probe takes hold of. `pci_request_regions` takes every BAR that the device
has. -/
inductive Resource where
  | priv
  | enabledDevice
  | bar0Region
  | otherRegions
  | msiVectors
  | workqueue
  | handler (v : Vector)
  | mapping
  | cdev
  | node
  | procEntry
  deriving DecidableEq

/-- The kernel, whether the device has a BAR above the first, and whether an answer of
`device_create` that is not `NULL` is a device and not an error as a pointer. -/
structure ProbeSystem extends ProbeKernel where
  otherBars : Bool
  nodeMade : Bool

variable (sys : ProbeSystem)

/-- What a call obtains and releases. An empty BAR is no region. `unregister_chrdev`
looks for 256 minor numbers from 0, and the driver has registered 255. -/
def ProbeSystem.uses : PciCall → List (Use Resource)
  | .kzalloc => [.obtain .priv]
  | .pciEnableDevice => [.obtain .enabledDevice]
  | .pciRequestRegions =>
      (if sys.mmioLen = 0 then [] else [.obtain .bar0Region]) ++
        (if sys.otherBars then [.obtain .otherRegions] else [])
  | .pciEnableMsi => [.obtain .msiVectors]
  | .createWorkqueue => [.obtain .workqueue]
  | .requestIrq v => [.obtain (.handler v)]
  | .pciIomap => [.obtain .mapping]
  | .cdevAdd => [.obtain .cdev]
  | .deviceCreate => if sys.nodeMade then [.obtain .node] else []
  | .procCreate => [.obtain .procEntry]
  | .deviceDestroy => if sys.nodeMade then [.release .node] else []
  | .cdevDel => [.release .cdev]
  | .pciIounmap => [.release .mapping]
  | .pciReleaseRegion | .releaseRegion =>
      if sys.mmioLen = 0 then [] else [.release .bar0Region]
  | .pciDisableDevice => [.release .enabledDevice]
  | .freeIrq v => [.release (.handler v)]
  | .pciDisableMsi => [.release .msiVectors]
  | .destroyWorkqueue => [.release .workqueue]
  | .procRemove => [.release .procEntry]
  | .kfree => [.release .priv]
  | .pciSetMaster | .pciSaveState | .pciSetDrvdata | .setMode _ | .spinLockInit | .setDevPtr
  | .xpNetdevDeinit | .flushWorkqueue | .unregisterChrdev | .clearDevPtr => []

/-- What is held after some calls, if each has released what was held. -/
def ProbeSystem.held (calls : List PciCall) : Option (List Resource) :=
  useAll [] (calls.flatMap sys.uses)

/-- There are interrupts: they are wanted, and the device has vectors. -/
def ProbeSystem.interrupts : Bool := sys.isrEnable && !msiFail sys.toProbeKernel

/-- A step of the probe fails. That the device gets no vectors, one of two, or no proc
file is not a failure: the driver warns and does without. -/
def ProbeSystem.StepFails : Prop :=
  sys.minor > 1048574 ∨ sys.kzalloc = false ∨ sys.pciEnableDevice ≠ 0 ∨
    sys.pciRequestRegions ≠ 0 ∨
    (if sys.pciSetDmaMask = 0 then sys.pciSetConsistentDmaMask ≠ 0
      else sys.pciSetDmaMask32 ≠ 0 ∨ sys.pciSetConsistentDmaMask32 ≠ 0) ∨
    sys.pciIsPcie = false ∨ sys.pciSaveState ≠ 0 ∨
    (sys.interrupts = true ∧ (sys.createWorkqueue = false ∨ sys.requestIrq .high ≠ 0 ∨
      (msiCount sys.toProbeKernel = 0 ∧ sys.requestIrq .low ≠ 0))) ∨
    sys.mmioLen = 0 ∨ sys.pciIomap = false ∨ probeMode sys.toProbeKernel = none ∨
    sys.cdevAdd ≠ 0 ∨ sys.deviceCreate = false ∨ sys.nodeMade = false

/-- The handlers of a device that has vectors. -/
def ProbeSystem.handlers : List Resource :=
  Resource.handler .high :: if msiCount sys.toProbeKernel = 0 then [Resource.handler .low] else []

/-- What is in place after a probe that succeeds. -/
def ProbeSystem.needed : List Resource :=
  [Resource.priv, .enabledDevice, .bar0Region, .mapping, .cdev, .node] ++
    if sys.interrupts then [Resource.msiVectors, .workqueue] ++ sys.handlers else []

/-- What the probe is to do: a step that fails gives a result that is not zero, with
everything released that was obtained; and a result of zero means that everything is in
place, for the removal to release. -/
structure ProbeSystem.Unwinds : Prop where
  fails : sys.StepFails → (xpPciProbe sys.toProbeKernel).1 ≠ 0
  undone : (xpPciProbe sys.toProbeKernel).1 ≠ 0 →
    sys.held (xpPciProbe sys.toProbeKernel).2 = some []
  inPlace : (xpPciProbe sys.toProbeKernel).1 = 0 →
    ∃ all, sys.held (xpPciProbe sys.toProbeKernel).2 = some all ∧ sys.needed ⊆ all
  removed : (xpPciProbe sys.toProbeKernel).1 = 0 →
    sys.held (pciCalls sys.toProbeKernel) = some []

/-- The probe stops before it has allocated the private structure. -/
def ProbeSystem.StopsFirst : Prop := sys.minor > 1048574 ∨ sys.kzalloc = false

/-! ### Failures -/

section Failures

variable {sys} {kernel : ProbeKernel} {calls : List PciCall}

/-- Each of these resources is released by one call only, if by any. -/
theorem uses_release_priv (c : PciCall) : .release .priv ∈ sys.uses c ↔ c = .kfree := by
  cases c <;> simp [ProbeSystem.uses]

theorem uses_release_msiVectors (c : PciCall) :
    .release .msiVectors ∈ sys.uses c ↔ c = .pciDisableMsi := by
  cases c <;> simp [ProbeSystem.uses]

theorem uses_release_otherRegions (c : PciCall) : .release .otherRegions ∉ sys.uses c := by
  cases c <;> simp [ProbeSystem.uses]

/-- What a call obtains and none releases is not given back. -/
theorem not_settled {r : Resource} {c : PciCall} (hc : c ∈ calls) (hobtain : .obtain r ∈ sys.uses c)
    (hkept : ∀ c ∈ calls, .release r ∉ sys.uses c) : sys.held calls ≠ some [] := by
  refine not_settled_of_kept (List.mem_flatMap.mpr ⟨c, hc, hobtain⟩) fun h => ?_
  obtain ⟨c, hc, hrelease⟩ := List.mem_flatMap.mp h
  exact hkept c hc hrelease

/-- A probe that stops first has taken nothing. -/
theorem xpPciProbe_stopsFirst (h : sys.StopsFirst) :
    (xpPciProbe sys.toProbeKernel).1 ≠ 0 ∧ (xpPciProbe sys.toProbeKernel).2 = [] := by
  unfold xpPciProbe
  by_cases hminor : sys.minor > 1048574
  · rw [if_pos hminor]
    exact ⟨by decide, rfl⟩
  · have halloc : sys.kzalloc = false := h.resolve_left hminor
    rw [if_neg hminor, halloc, Bool.not_false, if_pos rfl]
    exact ⟨by decide, rfl⟩

theorem stopsFirst_unwinds (h : sys.StopsFirst) : sys.Unwinds := by
  obtain ⟨hrc, hcalls⟩ := xpPciProbe_stopsFirst h
  exact {
    fails := fun _ => hrc
    undone := fun _ => by rw [hcalls]; rfl
    inPlace := fun hzero => absurd hzero hrc
    removed := fun hzero => absurd hzero hrc }

/-- The labels free the private structure only of a device that has a workqueue. -/
theorem mem_errFreeMemory {wQueue : Bool} (h : PciCall.kfree ∈ errFreeMemory wQueue) :
    wQueue = true := by
  cases wQueue with
  | false => cases h
  | true => rfl

/-- A device that has a workqueue has vectors. -/
theorem pciEnableMsi_mem (h : hasWQueue kernel = true) :
    .pciEnableMsi ∈ (probeMsi kernel).2 := by
  simp only [hasWQueue, Bool.and_eq_true, Bool.not_eq_true'] at h
  obtain ⟨⟨hisr, hmsi⟩, hqueue⟩ := h
  unfold probeMsi
  simp only [hisr, hmsi, Bool.not_true, Bool.false_eq_true, if_false, List.singleton_append]
  split
  · exact List.mem_cons_self
  split
  · exact List.mem_cons_self
  · exact List.mem_cons_self

/-- The second half of a probe frees the private structure only of a device that has a
workqueue. -/
theorem probeMap_kfree (h : PciCall.kfree ∈ (probeMap kernel).2) : hasWQueue kernel = true := by
  by_contra hnone
  rw [Bool.not_eq_true] at hnone
  revert h
  unfold probeMap
  simp only [hnone]
  split
  · decide
  split
  · decide
  split
  · decide
  split
  · simp [errCdevAdd, errPciIomap, cleanupPorts, errReqRegion, errFreeMemory]
  split
  · simp [errDeviceCreate, errCdevAdd, errPciIomap, cleanupPorts, errReqRegion, errFreeMemory]
  · split <;> split <;> simp

theorem pciDisableMsi_not_mem_errFreeMemory (wQueue : Bool) :
    PciCall.pciDisableMsi ∉ errFreeMemory wQueue := by
  cases wQueue <;> decide

/-- No path of it gives the vectors back. -/
theorem probeMap_pciDisableMsi : PciCall.pciDisableMsi ∉ (probeMap kernel).2 := by
  have hfree := pciDisableMsi_not_mem_errFreeMemory (hasWQueue kernel)
  unfold probeMap
  simp only
  split
  · simpa [cleanupPorts, errReqRegion] using hfree
  split
  · simpa [errPciIomap, cleanupPorts, errReqRegion] using hfree
  split
  · simpa using hfree
  split
  · simpa [errCdevAdd, errPciIomap, cleanupPorts, errReqRegion] using hfree
  split
  · simpa [errDeviceCreate, errCdevAdd, errPciIomap, cleanupPorts, errReqRegion] using hfree
  · split <;> split <;> simp

/-- A probe that frees the private structure has got vectors, which it does not give
back. -/
theorem xpPciProbe_kfree (h : .kfree ∈ (xpPciProbe kernel).2) :
    .pciEnableMsi ∈ (xpPciProbe kernel).2 ∧ .pciDisableMsi ∉ (xpPciProbe kernel).2 := by
  have hmsi (c : PciCall) (hc : c = .kfree ∨ c = .pciDisableMsi) : c ∉ (probeMsi kernel).2 := by
    intro hmem
    rcases probeMsi_calls hmem with rfl | rfl | ⟨v, rfl⟩ <;> simp at hc
  have hqueue : hasWQueue kernel = true → .pciEnableMsi ∈ (probeMsi kernel).2 := pciEnableMsi_mem
  revert h
  unfold xpPciProbe
  simp only
  split
  · exact fun h => absurd h (by decide)
  split
  · exact fun h => absurd h (by decide)
  split
  · exact fun h => absurd h (by decide)
  split
  · exact fun h => absurd h (by decide)
  split
  · exact fun h => absurd h (by simp [errReqRegion, errFreeMemory])
  split
  · exact fun h => absurd h (by decide)
  split
  · exact fun h => absurd h (by decide)
  -- from here on there may be vectors
  split
  · rename_i rc msiCalls heq
    rw [heq] at hmsi hqueue
    intro h
    have hfree : hasWQueue kernel = true := mem_errFreeMemory (by simpa [hmsi] using h)
    have hkept := pciDisableMsi_not_mem_errFreeMemory (hasWQueue kernel)
    exact ⟨by simp [hqueue hfree], by simp [hmsi, hkept]⟩
  · rename_i msiCalls heq
    rw [heq] at hmsi hqueue
    intro h
    have hfree : hasWQueue kernel = true := probeMap_kfree (by simpa [hmsi] using h)
    exact ⟨by simp [hqueue hfree], by simp [hmsi, probeMap_pciDisableMsi]⟩

/-- A probe that does not stop first allocates the private structure. -/
theorem xpPciProbe_kzalloc (hminor : ¬ kernel.minor > 1048574) (halloc : kernel.kzalloc = true) :
    .kzalloc ∈ (xpPciProbe kernel).2 := by
  unfold xpPciProbe
  simp only [hminor, halloc, if_false, Bool.not_true, Bool.false_eq_true]
  split
  · simp
  split
  · simp
  split
  · simp
  split
  · simp
  split
  · simp
  split <;> simp

/-- So a probe that fails after that keeps something. -/
theorem not_undone (hfirst : ¬ sys.StopsFirst) :
    sys.held (xpPciProbe sys.toProbeKernel).2 ≠ some [] := by
  obtain ⟨hminor, halloc⟩ := not_or.mp hfirst
  by_cases hkfree : .kfree ∈ (xpPciProbe sys.toProbeKernel).2
  · obtain ⟨henable, hdisable⟩ := xpPciProbe_kfree hkfree
    exact not_settled henable List.mem_cons_self fun c hc h =>
      hdisable ((uses_release_msiVectors c).mp h ▸ hc)
  · have hkzalloc := xpPciProbe_kzalloc hminor (Bool.not_eq_false _ ▸ halloc)
    exact not_settled hkzalloc List.mem_cons_self fun c hc h =>
      hkfree ((uses_release_priv c).mp h ▸ hc)

end Failures

/-! ### Success -/

/-- What a probe obtains when no step fails, in this order. -/
def ProbeSystem.obtained : List Resource :=
  [Resource.priv, .enabledDevice, .bar0Region] ++
    (if sys.otherBars then [Resource.otherRegions] else []) ++
    (if sys.interrupts then [Resource.msiVectors, .workqueue] ++ sys.handlers else []) ++
    [Resource.mapping, .cdev, .node] ++ (if sys.procCreate then [Resource.procEntry] else [])

/-- What the removal then releases, in this order. -/
def ProbeSystem.givenBack : List Resource :=
  [Resource.node, .cdev, .mapping, .bar0Region] ++
    (if sys.interrupts then sys.handlers ++ [Resource.msiVectors, .workqueue] else []) ++
    (if sys.procCreate then [Resource.procEntry] else []) ++ [Resource.priv, .enabledDevice]

section Success

variable {sys}

/-- The block under `if (isr_enable)` when no step of it fails. -/
theorem probeMsi_succeeds (hqueue : sys.interrupts = true → sys.createWorkqueue = true)
    (hhigh : sys.interrupts = true → sys.requestIrq .high = 0)
    (hlow : sys.interrupts = true → msiCount sys.toProbeKernel = 0 → sys.requestIrq .low = 0) :
    probeMsi sys.toProbeKernel =
      (none, if sys.interrupts then
        [.pciEnableMsi, .createWorkqueue, .requestIrq .high] ++
          (if msiCount sys.toProbeKernel = 0 then [.requestIrq .low] else [])
      else []) := by
  unfold probeMsi
  cases hint : sys.interrupts with
  | false =>
      cases hisr : sys.isrEnable with
      | false => rfl
      | true =>
          have hmsi : msiFail sys.toProbeKernel = true := by
            simpa [ProbeSystem.interrupts, hisr] using hint
          simp [hmsi]
  | true =>
      obtain ⟨hisr, hmsi⟩ := (Bool.and_eq_true _ _).mp hint
      rw [Bool.not_eq_true'] at hmsi
      simp only [hisr, hmsi, hqueue hint, hhigh hint, Bool.not_true, Bool.false_eq_true, if_false,
        if_true, ne_eq, not_true_eq_false]
      split
      · rename_i hboth
        rw [if_pos hboth.1]
        rfl
      · rename_i hboth
        rw [if_neg fun hcount => hboth ⟨hcount, hlow hint hcount⟩]
        rfl

/-- A probe in which no step fails. -/
theorem probe_succeeds (h : ¬ sys.StepFails) :
    (xpPciProbe sys.toProbeKernel).1 = 0 ∧
      (xpPciProbe sys.toProbeKernel).2.flatMap sys.uses = sys.obtained.map Use.obtain := by
  unfold ProbeSystem.StepFails at h
  simp only [not_or, not_and, Bool.not_eq_false, not_not] at h
  obtain ⟨hminor, halloc, henable, hregions, hdma, hpcie, hsave, hmsi, hlen, hiomap, hmode, hcdev,
    hdevice, hnode⟩ := h
  have hmask : (dmaMaskRc sys.toProbeKernel).2 = false := by
    unfold dmaMaskRc
    split at hdma
    · simp_all
    · simp_all
  obtain ⟨mode, hmode⟩ := Option.ne_none_iff_exists'.mp hmode
  have hcalls := probeMsi_succeeds (fun hint => (hmsi hint).1) (fun hint => (hmsi hint).2.1)
    (fun hint => (hmsi hint).2.2)
  unfold xpPciProbe probeMap
  simp only [hminor, halloc, henable, hregions, hmask, hpcie, hsave, hcalls, hlen, hiomap, hmode,
    hcdev, hdevice, ne_eq, not_true_eq_false, Bool.not_true, Bool.false_eq_true, if_false, true_and]
  have hslot : (if sys.minor < maxDevSupported then [PciCall.setDevPtr] else []).flatMap sys.uses
      = [] := by
    split <;> rfl
  simp only [List.flatMap_append, hslot, ProbeSystem.obtained, List.map_append]
  simp [apply_ite (List.flatMap sys.uses), apply_ite (List.map Use.obtain), ProbeSystem.uses,
    ProbeSystem.handlers, hlen, hnode]

/-- The removal after it. -/
theorem remove_uses (h : ¬ sys.StepFails) :
    (xpPciRemove sys.toProbeKernel).flatMap sys.uses = sys.givenBack.map Use.release := by
  unfold ProbeSystem.StepFails at h
  simp only [not_or, Bool.not_eq_false] at h
  obtain ⟨-, -, -, -, -, -, -, -, hlen, -, -, -, -, hnode⟩ := h
  have hslot : (if sys.minor < maxDevSupported then [PciCall.clearDevPtr] else []).flatMap sys.uses
      = [] := by
    split <;> rfl
  unfold xpPciRemove
  simp only [List.flatMap_append, hslot, ProbeSystem.givenBack, List.map_append]
  simp [apply_ite (List.flatMap sys.uses), apply_ite (List.map Use.release), ProbeSystem.uses,
    ProbeSystem.handlers, ProbeSystem.interrupts, hlen, hnode]

/-- What was obtained is what is given back, but for the other regions. -/
theorem obtained_perm (h : sys.otherBars = false) : sys.obtained.Perm sys.givenBack := by
  unfold ProbeSystem.obtained ProbeSystem.givenBack ProbeSystem.handlers
  rw [h]
  cases sys.interrupts <;> cases sys.procCreate <;> by_cases hcount : msiCount sys.toProbeKernel = 0
  all_goals
    simp only [hcount, if_true, if_false, Bool.false_eq_true]
    decide

theorem needed_subset : sys.needed ⊆ sys.obtained := by
  intro r hr
  unfold ProbeSystem.obtained
  simp only [List.mem_append]
  rcases List.mem_append.mp hr with hr | hr
  · simp only [List.mem_cons, List.not_mem_nil, or_false] at hr
    simp only [List.mem_cons]
    tauto
  · exact .inl (.inl (.inr hr))

end Success

/-- **Probe and removal.** For every answer of the kernel to every step, and every
device: the probe undoes its failures and the removal the probe exactly when the probe
stops before it has taken anything, or no step fails and the device has no BAR above
the first. -/
theorem probe_unwinds_iff :
    sys.Unwinds ↔ sys.StopsFirst ∨ (¬ sys.StepFails ∧ sys.otherBars = false) := by
  constructor
  · intro unwinds
    refine or_iff_not_imp_left.mpr fun hfirst => ?_
    have hsteps : ¬ sys.StepFails := fun hfail =>
      not_undone hfirst (unwinds.undone (unwinds.fails hfail))
    refine ⟨hsteps, ?_⟩
    by_contra hbars
    rw [Bool.not_eq_false] at hbars
    obtain ⟨hrc, hcalls⟩ := probe_succeeds hsteps
    have hregions : .obtain .otherRegions ∈ (pciCalls sys.toProbeKernel).flatMap sys.uses := by
      rw [pciCalls, List.flatMap_append, hcalls]
      exact List.mem_append_left _ (List.mem_map_of_mem (by simp [ProbeSystem.obtained, hbars]))
    refine not_settled_of_kept hregions (fun h => ?_) (unwinds.removed hrc)
    obtain ⟨c, -, hrelease⟩ := List.mem_flatMap.mp h
    exact uses_release_otherRegions c hrelease
  · rintro (hfirst | ⟨hsteps, hbars⟩)
    · exact stopsFirst_unwinds hfirst
    · obtain ⟨hrc, hcalls⟩ := probe_succeeds hsteps
      have hheld : sys.held (xpPciProbe sys.toProbeKernel).2 = some sys.obtained.reverse := by
        rw [ProbeSystem.held, hcalls, useAll_obtains, List.append_nil]
      exact {
        fails := fun hfail => absurd hfail hsteps
        undone := fun hne => absurd hrc hne
        inPlace := fun _ => ⟨_, hheld, fun r hr => List.mem_reverse.mpr (needed_subset hr)⟩
        removed := fun _ => by
          rw [ProbeSystem.held, pciCalls, if_pos hrc, List.flatMap_append, useAll_append_of hheld,
            remove_uses hsteps]
          exact useAll_releases ((List.reverse_perm _).trans (obtained_perm hbars)) }

/-- A device that cannot be enabled: the private structure stays allocated. -/
theorem probe_keeps_priv :
    ¬ ProbeSystem.Unwinds
      { probeKernel with pciEnableDevice := -enodev, otherBars := false, nodeMade := true } := by
  intro unwinds
  exact absurd (unwinds.undone (by decide +kernel)) (by decide +kernel)

end XpNet.Pci
