/-
What an init that does not spare the queues makes of the memory.

A setup that runs out of memory undoes itself, and the init goes on: where it returns 0
a queue is not set up, where it fails its teardowns free blocks again that the setup
has freed, or write through `NULL`. With the inits that spare the queues these are all
the cases there are, which gives `netdev_memory_iff`.
-/

import XpNet.Init.Requests

namespace XpNet.Init

open XpNet.Intf (enomem)
open XpNet.Pci (pageSize)

/-! ### A setup that runs out of memory -/

section Setups

variable {u : Uninit} {l l' : Ledger Resource} {queues' : Queues} {rc : Int}

/-- An RX setup that is refused: one of its queues is not up, and unless it was the very
first block, the block of the first queue is already freed. -/
theorem rxSetup_refused_cases {kernel : NetdevKernel} (h : ¬ kernel.RxGranted)
    (heq : xpnetRxQueueSetup kernel.rx xpnetRxNumQueues (fun _ => zeroQueue) l =
      some (rc, queues', l')) :
    (∃ i < xpnetRxNumQueues, ∀ l bufLen, ¬ QueueReady l bufLen (queues' i)) ∧
      ((kernel.rx 0).descs = true → ∃ block, (queues' 0).va = some block ∧ block ∈ l'.names) := by
  obtain ⟨j, queues₁, l₁, l₂, rc, queues', l', hj, hno, -, hinit, -, hup, -, hdown, hsetup, -⟩ :=
    setup_refused (fun i => (kernel.rx i).Grants) (fun _ _ => RxGood)
      (fun i hgrant => rxQueueInit_owes hgrant.1 hgrant.2) (fun i hno => rxQueueInit_undoes hno)
      h (fun _ => zeroQueue) l
  rw [xpnetRxQueueSetup, hsetup] at heq
  cases heq
  obtain ⟨q, l₃, hinit', -, hcases⟩ := rxQueueInit_refused hno zeroQueue l₁
  rw [hinit'] at hinit
  obtain ⟨-, hq, hl⟩ : _ ∧ q = queues₁ j ∧ l₃ = l₂ := by simpa using hinit
  subst hq hl
  obtain ⟨hkept, hwithin⟩ := uninitQueues_keeps hdown
  constructor
  · refine ⟨j, hj, fun l bufLen ready => ?_⟩
    rcases hcases with ⟨-, hq⟩ | ⟨-, -, -, n, hn, -, hbuf⟩
    · obtain ⟨block, hblock, -⟩ := ready.block
      rw [(hkept j).va, hq] at hblock
      cases hblock
    · obtain ⟨block, hblock, -⟩ := (ready.descs n hn).2
      rw [(hkept j).bufs n (hbuf rfl)] at hblock
      cases hblock
  · intro hfirst
    rw [(hkept 0).va]
    by_cases hzero : j = 0
    · subst hzero
      rcases hcases with ⟨hdescs, -⟩ | ⟨-, -, ⟨block, hva, hfreed⟩, -⟩
      · rw [hfirst] at hdescs
        cases hdescs
      · exact ⟨block, hva, hwithin.names hfreed⟩
    · have hpos : 0 < j := Nat.pos_of_ne_zero hzero
      obtain ⟨block, hva⟩ := Option.isSome_iff_exists.mp (hup 0 hpos).va
      obtain ⟨l₄, -, hrelease⟩ :=
        (uninitQueues_frees (List.mem_range.mpr hpos) hdown).2.1 block hva
      exact ⟨block, hva, hrelease.names List.mem_cons_self⟩

/-- A TX setup that is refused a block: one of its queues has none. -/
theorem txSetup_refused {kernel : NetdevKernel}
    (h : ¬ ∀ i < xpnetTxNumQueues, (kernel.tx i).descs = true)
    (heq : xpnetTxQueueSetup kernel.tx xpnetTxNumQueues (fun _ => zeroQueue) l =
      some (rc, queues', l')) :
    ∃ i < xpnetTxNumQueues, (queues' i).va = none := by
  obtain ⟨j, queues₁, l₁, l₂, rc, queues', l', hj, hno, -, hinit, -, -, -, hdown, hsetup, -⟩ :=
    setup_refused (fun i => (kernel.tx i).descs = true) (fun i => TxGood (kernel.tx i))
      (fun i hgrant => txQueueInit_owes hgrant) (fun i hno => txQueueInit_undoes hno) h
      (fun _ => zeroQueue) l
  rw [xpnetTxQueueSetup, hsetup] at heq
  cases heq
  rw [txQueueInit_refused hno] at hinit
  obtain ⟨-, hqueue, -⟩ :
      _ ∧ { zeroQueue with xpqNumDesc := xpnetTxNumDescs, va := none } = queues₁ j ∧ _ := by
    simpa using hinit
  obtain ⟨hkept, -⟩ := uninitQueues_keeps hdown
  exact ⟨j, hj, by rw [(hkept j).va, ← hqueue]⟩

theorem within_dmaAlloc (grant : Bool) (len : Nat) (l : Ledger Resource) :
    l.Within (dmaAllocCoherent grant len l).2 := by
  cases grant with
  | true => exact Ledger.within_obtain l _
  | false => exact Ledger.Within.refl l

theorem within_txDescsInit {mem : QueueMemory} {ns : List Nat} :
    ∀ (q : XpnetQueue) (l : Ledger Resource),
      l.Within (descsInit (xpnetTxDescInit mem) ns q l).2.2 := by
  induction ns with
  | nil => exact fun q l => Ledger.Within.refl l
  | cons n rest ih =>
      intro q l
      have hone : l.Within (xpnetTxDescInit mem n q l).2.2 := by
        have hledger : (xpnetTxDescInit mem n q l).2.2 =
            (dmaAllocCoherent (mem.buf n) pageSize l).2 := by
          unfold xpnetTxDescInit
          dsimp only
          split
          · rfl
          · rfl
        rw [hledger]
        exact within_dmaAlloc _ _ l
      rw [descsInit]
      dsimp only
      split
      · exact hone
      · exact hone.trans (ih _ _)

theorem within_finishInit {s : Option (Nat × Int) × XpnetQueue × Ledger Resource}
    {q' : XpnetQueue} (heq : finishInit (queueUninit u) s = some (rc, q', l')) :
    s.2.2.Within l' := by
  unfold finishInit at heq
  split at heq
  case h_1 =>
    obtain ⟨⟨q₁, l₁⟩, huninit, hrc⟩ := Option.map_eq_some_iff.mp heq
    cases hrc
    exact (queueUninit_keeps huninit).2.1
  case h_2 =>
    cases heq
    exact Ledger.Within.refl _

theorem within_txQueueInit {mem : QueueMemory} {q q' : XpnetQueue}
    (heq : xpnetTxQueueInit mem q l = some (rc, q', l')) : l.Within l' := by
  have hblock := within_dmaAlloc mem.descs descsLen l
  unfold xpnetTxQueueInit at heq
  dsimp only at heq
  split at heq
  · cases heq
    exact hblock
  · exact (hblock.trans (within_txDescsInit _ _)).trans (within_finishInit heq)

theorem within_txSetup {mem : Nat → QueueMemory} {is : List Nat} :
    ∀ {queues : Queues} {l : Ledger Resource},
      queuesSetup txUninit (fun i => xpnetTxQueueInit (mem i)) is queues l =
        some (rc, queues', l') → l.Within l' := by
  induction is with
  | nil =>
      intro queues l heq
      cases heq
      exact Ledger.Within.refl _
  | cons i rest ih =>
      intro queues l heq
      rw [queuesSetup] at heq
      obtain ⟨⟨rc₁, q, l₁⟩, hinit, heq⟩ := Option.bind_eq_some_iff.mp heq
      dsimp only at heq
      have hone := within_txQueueInit hinit
      split at heq
      · obtain ⟨⟨queues₁, l₂⟩, hdown, hrc⟩ := Option.map_eq_some_iff.mp heq
        cases hrc
        exact hone.trans (uninitQueues_keeps hdown).2
      · exact hone.trans (ih heq)

end Setups

/-! ### An init that does not spare the queues -/

section Breaks

variable {s s' : Netdev} {rc : Int} {kernel : NetdevKernel}

/-- An init that goes through without all the memory it asked for. -/
theorem not_fullySetUp (down : Down s) {rxQueue txQueue : Queues} {rc₁ rc₂ : Int}
    {l l₁ l₂ : Ledger Resource} {block wqueue : Nat}
    (hrx : xpnetRxQueueSetup kernel.rx xpnetRxNumQueues (fun _ => zeroQueue)
      (s.ledger.obtain .netPriv).2 = some (rc₁, rxQueue, l₁))
    (htx : xpnetTxQueueSetup kernel.tx xpnetTxNumQueues (fun _ => zeroQueue) l₁ =
      some (rc₂, txQueue, l₂))
    (h : ¬ (kernel.RxGranted ∧ kernel.TxGranted)) :
    ¬ FullySetUp l ⟨block, rxQueue, txQueue, wqueue⟩ := by
  intro ready
  by_cases hrxall : kernel.RxGranted
  · obtain ⟨_, _, l₁', hrx', -, -, howes⟩ :=
      rxSetup_owes (Or.inl hrxall) (down.owes.obtain .netPriv)
    rw [hrx] at hrx'
    cases hrx'
    by_cases hdescs : ∀ i < xpnetTxNumQueues, (kernel.tx i).descs = true
    · obtain ⟨_, _, htx', hup, -⟩ := txSetup_owes hdescs howes
      rw [htx] at htx'
      cases htx'
      refine h ⟨hrxall, fun i hi => ⟨hdescs i hi, fun n hn => ?_⟩⟩
      obtain ⟨block, hblock, -⟩ := ((ready.tx i hi).descs n hn).2
      have hgood : _ = (kernel.tx i).buf n := ((hup i hi).descs n hn).2
      rw [← hgood, hblock]
      rfl
    · obtain ⟨i, hi, hva⟩ := txSetup_refused hdescs htx
      obtain ⟨block, hblock, -⟩ := (ready.tx i hi).block
      rw [hva] at hblock
      cases hblock
  · obtain ⟨⟨i, hi, hnot⟩, -⟩ := rxSetup_refused_cases hrxall hrx
    exact hnot _ _ (ready.rx i hi)

/-- An init that fails after a setup that has undone itself. -/
theorem unwind_not_sound {rxQueue txQueue : Queues} {rc₁ rc₂ : Int}
    {l₁ l₂ : Ledger Resource} {block : Nat}
    (hrx : xpnetRxQueueSetup kernel.rx xpnetRxNumQueues (fun _ => zeroQueue)
      (s.ledger.obtain .netPriv).2 = some (rc₁, rxQueue, l₁))
    (htx : xpnetTxQueueSetup kernel.tx xpnetTxNumQueues (fun _ => zeroQueue) l₁ =
      some (rc₂, txQueue, l₂))
    (h : ¬ ((kernel.RxGranted ∨ (kernel.rx 0).descs = false) ∧
      ∀ i < xpnetTxNumQueues, (kernel.tx i).descs = true))
    (heq : unwindInit block rxQueue txQueue modeless l₂ = some s') : ¬ s'.ledger.Sound := by
  obtain ⟨⟨_, l₃⟩, hrxdown, heq⟩ := Option.bind_eq_some_iff.mp heq
  obtain ⟨⟨_, l₄⟩, htxdown, heq⟩ := Option.map_eq_some_iff.mp heq
  cases heq
  by_cases hfirst : kernel.RxGranted ∨ (kernel.rx 0).descs = false
  · -- a TX queue without its pointers is not taken down, the `memset` is of `NULL`
    obtain ⟨_, _, _, htx', hiff⟩ := txSetup_removable kernel.tx xpnetTxNumQueues l₁
    rw [htx] at htx'
    cases htx'
    have hrem := (teardown_isSome txUninit xpnetTxNumQueues txQueue l₃).mp (by
      rw [xpnetTxTeardown] at htxdown
      rw [htxdown]
      rfl)
    exact absurd ⟨hfirst, hiff.mp hrem⟩ h
  · -- the block of the first RX queue has been freed, and is freed again
    obtain ⟨hrxall, hdescs⟩ := not_or.mp hfirst
    obtain ⟨-, hfreed⟩ := rxSetup_refused_cases hrxall hrx
    obtain ⟨block, hva, hfreed⟩ := hfreed (by simpa using hdescs)
    apply teardown_frees_twice hrxdown (by decide) hva ((within_txSetup htx).names hfreed)
    exact (uninitQueues_keeps htxdown).2.trans (Ledger.within_release _ _ _)

/-- Whatever such an init comes to, the memory is not as promised. -/
theorem Down.init_breaks (down : Down s) (hmem : kernel.kzalloc = true)
    (h : ¬ kernel.SparesQueues) (heq : xpNetdevInit kernel s = some (rc, s')) :
    ¬ MemoryKept ⟨s', .initReturned rc⟩ := by
  intro kept
  have hinit : (xpnetRxQueueSetup kernel.rx xpnetRxNumQueues (fun _ => zeroQueue)
      (s.ledger.obtain .netPriv).2).bind (fun rx =>
        (xpnetTxQueueSetup kernel.tx xpnetTxNumQueues (fun _ => zeroQueue) rx.2.2).bind
          fun tx => initFromMode kernel.toGlobalsKernel
            (s.ledger.obtain .netPriv).1 rx.2.1 tx.2.1 s.mode tx.2.2) = some (rc, s') := by
    rw [← heq]
    simp [xpNetdevInit, down.xpnet, hmem]
  obtain ⟨⟨rc₁, rxQueue, l₁⟩, hrx, hinit⟩ := Option.bind_eq_some_iff.mp hinit
  obtain ⟨⟨rc₂, txQueue, l₂⟩, htx, hinit⟩ := Option.bind_eq_some_iff.mp hinit
  dsimp only at htx hinit
  by_cases hgrants : kernel.Grants
  · rw [initFromMode_succeeds hgrants] at hinit
    cases hinit
    obtain ⟨priv, hpriv, hready⟩ := kept.succeeded rfl
    cases hpriv
    refine not_fullySetUp down hrx htx (fun hall => h ⟨fun _ => hall, fun hno => ?_⟩) hready
    exact absurd hgrants hno
  · rw [down.mode] at hinit
    obtain ⟨rc', -, hfails⟩ := initFromMode_fails hgrants (s.ledger.obtain .netPriv).1 rxQueue
      txQueue l₂
    rw [hfails] at hinit
    obtain ⟨s₁, hunwind, hrc⟩ := Option.map_eq_some_iff.mp hinit
    cases hrc
    refine unwind_not_sound hrx htx (fun hspares => h ⟨fun hyes => ?_, fun _ => hspares⟩)
      hunwind kept.sound
    exact absurd hyes hgrants

end Breaks

/-! ### Every sequence of requests -/

/-- Between requests the device is down, or up after an init that returned 0. -/
def DeviceInv (s : Device) : Prop :=
  Down s.netdev ∧ s.outcome ≠ .stuck ∧ s.outcome ≠ .initReturned 0 ∨
    (∃ priv, Up s.netdev priv) ∧ s.outcome = .initReturned 0

section Requests

variable {s : Device}

theorem DeviceInv.memoryKept (inv : DeviceInv s) : MemoryKept s := by
  rcases inv with ⟨down, hstuck, hzero⟩ | ⟨⟨priv, up⟩, hzero⟩
  · exact ⟨down.owes.sound, hstuck, fun _ _ _ => down.nothingLeft, fun h => absurd h hzero,
      fun _ => down.nothingLeft⟩
  · refine ⟨up.owes.sound, ?_, fun rc hrc hne => ?_, fun _ => ⟨priv, up.xpnet, up.fullySetUp⟩,
      fun h => ?_⟩
    · rw [hzero]
      simp
    · rw [hzero] at hrc
      cases hrc
      exact absurd rfl hne
    · rw [hzero] at h
      cases h

theorem DeviceInv.running (inv : DeviceInv s) : s.outcome ≠ .stuck := inv.memoryKept.returned

/-- An init that spares the queues. -/
theorem DeviceInv.init (inv : DeviceInv s) {kernel : NetdevKernel}
    (hkeeps : KeepsMemory s (.initNetdev kernel)) : DeviceInv (s.request (.initNetdev kernel)) := by
  have hrequest : ∀ rc netdev, xpNetdevInit kernel s.netdev = some (rc, netdev) →
      s.request (.initNetdev kernel) = ⟨netdev, .initReturned rc⟩ := by
    intro rc netdev heq
    simp [Device.request, inv.running, heq]
  rcases inv with ⟨down, -, -⟩ | ⟨⟨priv, up⟩, -⟩
  · by_cases hmem : kernel.kzalloc = true
    · have spares := hkeeps down.xpnet hmem
      by_cases hgrants : kernel.Grants
      · obtain ⟨netdev, priv, heq, up⟩ := down.init_succeeds hmem hgrants spares
        rw [hrequest _ _ heq]
        exact Or.inr ⟨⟨priv, up⟩, rfl⟩
      · obtain ⟨rc, netdev, heq, hrc, down'⟩ := down.init_fails hmem hgrants spares
        rw [hrequest _ _ heq]
        exact Or.inl ⟨down', by simp, by simpa using hrc⟩
    · have henomem : enomem ≠ 0 := by decide
      rw [hrequest (-enomem) s.netdev (by simp [xpNetdevInit, down.xpnet, hmem])]
      exact Or.inl ⟨down, by simp, by simpa using henomem⟩
  · rw [hrequest 0 s.netdev (by simp [xpNetdevInit, up.xpnet])]
    exact Or.inr ⟨⟨priv, up⟩, rfl⟩

theorem DeviceInv.deinit (inv : DeviceInv s) : DeviceInv (s.request .deinitNetdev) := by
  have hrequest : ∀ netdev, xpNetdevDeinit s.netdev = some netdev →
      s.request .deinitNetdev = ⟨netdev, .deinitReturned⟩ := by
    intro netdev heq
    simp [Device.request, inv.running, heq]
  rcases inv with ⟨down, -, -⟩ | ⟨⟨priv, up⟩, -⟩
  · rw [hrequest s.netdev (by simp [xpNetdevDeinit, down.xpnet])]
    exact Or.inl ⟨down, by simp, by simp⟩
  · obtain ⟨netdev, heq, down⟩ := up.deinit
    rw [hrequest netdev heq]
    exact Or.inl ⟨down, by simp, by simp⟩

/-- An init that does not spare the queues. -/
theorem DeviceInv.breaks (inv : DeviceInv s) {req : NetdevRequest} (h : ¬ KeepsMemory s req) :
    ¬ MemoryKept (s.request req) := by
  cases req with
  | deinitNetdev => exact absurd trivial h
  | initNetdev kernel =>
      obtain ⟨hdown, h⟩ := Classical.not_imp.mp h
      obtain ⟨hmem, hspares⟩ := Classical.not_imp.mp h
      rcases inv with ⟨down, hstuck, -⟩ | ⟨⟨priv, up⟩, -⟩
      · unfold Device.request
        dsimp only
        rw [if_neg hstuck]
        split
        case h_1 rc netdev heq => exact down.init_breaks hmem hspares heq
        case h_2 => exact fun kept => kept.returned rfl
      · rw [up.xpnet] at hdown
        cases hdown

end Requests

theorem deviceInv_start : DeviceInv .start :=
  Or.inl ⟨⟨rfl, rfl, Ledger.owes_blank⟩, by simp [Device.start], by simp [Device.start]⟩

/-- **The memory of a device.** After every sequence of inits and deinits of a device,
whatever the kernel answers: in every state on the way each block has been freed at
most once and with its length, a failed init and a deinit have left nothing, and a
successful init has left every queue fully set up, exactly when every init that gets
as far as the setups of the queues spares them. -/
theorem netdev_memory_iff (reqs : List NetdevRequest) :
    (∀ done, done <+: reqs → MemoryKept (history Device.request .start done)) ↔
      ∀ done req, done ++ [req] <+: reqs →
        KeepsMemory (history Device.request .start done) req := by
  refine history_iff deviceInv_start (fun _ inv => inv.memoryKept) (fun s req inv hkeeps => ?_)
    (fun _ _ inv hnot => inv.breaks hnot) reqs
  cases req with
  | initNetdev kernel => exact inv.init hkeeps
  | deinitNetdev => exact inv.deinit

/-- A kernel that refuses the block of the first RX queue and nothing else. -/
def refusingFirst : NetdevKernel :=
  { grantingGlobals with
    rx := fun i => ⟨i ≠ 0, fun _ => true⟩
    tx := fun _ => ⟨true, fun _ => true⟩ }

/-- An init that gets no memory for its RX queues and returns 0. -/
theorem set_up_without_memory :
    ¬ ∀ reqs, MemoryKept (history Device.request .start reqs) := by
  intro always
  have kept : MemoryKept (Device.start.request (.initNetdev refusingFirst)) :=
    always [.initNetdev refusingFirst]
  refine deviceInv_start.breaks (fun hkeeps => ?_) kept
  have hgrants : refusingFirst.Grants := ⟨⟨rfl, by decide, by decide, by decide⟩, rfl⟩
  exact absurd (((hkeeps rfl rfl).succeeds hgrants).1 0 (by decide)).1 (by decide)

end XpNet.Init
