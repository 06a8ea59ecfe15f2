/-
Interrupt events on their way to the process that has registered for them.

A handler puts each event into an `xp_work_t`, with the pid and the `siginfo` that the device
has at that moment, and queues it. `create_workqueue` runs the works one by one on each
processor, so in any order; `xp_task_work_handler` sends the event as a signal and frees the
work. `REGISTER_PID` changes the pid and `si_pid`, at any time. Handlers and works are single
steps here: nothing runs in the middle of one.

`events_delivered` is about every run. What was reported is what waits and what was taken, each
event once; of what was taken every event whose task is found is sent, and the works that are
left allocated are those that wait and those without a pid. And every signal names blocks that
were pending, or a queue, in the interrupt that reported it, and goes to the pid that was
registered then.
-/

import XpNet.Pci.Irq
import XpNet.Simulation

namespace XpNet.Pci

variable {δ : Type}

/-! ### The event as 32 bits -/

/-- The bits of `xp_intr_info_t`, the first field lowest. -/
def XpIntrInfo.pack (info : XpIntrInfo) : BitVec 32 :=
  0#6 ++ info.intrStatus ++ info.qNum ++ info.qType ++ info.hasQueueInfo ++ info.devId ++
    info.blockId ++ info.regType

/-- The fields that a reader of these bits sees. -/
def XpIntrInfo.unpack (bits : BitVec 32) : XpIntrInfo where
  regType := bits.extractLsb' 0 1
  blockId := bits.extractLsb' 1 8
  devId := bits.extractLsb' 9 6
  hasQueueInfo := bits.extractLsb' 15 1
  qType := bits.extractLsb' 16 1
  qNum := bits.extractLsb' 17 6
  intrStatus := bits.extractLsb' 23 3

open BitVec in
@[simp] theorem XpIntrInfo.unpack_pack (info : XpIntrInfo) : unpack info.pack = info := by
  obtain ⟨regType, blockId, devId, hasQueueInfo, qType, qNum, intrStatus⟩ := info
  simp (disch := omega) only [unpack, pack, extractLsb'_append_eq_of_le,
    extractLsb'_append_eq_of_add_le, Nat.reduceSub, extractLsb'_eq_self]

/-! ### State -/

/-- `XP_RT_SIGNAL`, with `SIGRTMIN` of the kernel, and `SI_QUEUE`. -/
def xpRtSignal : Int := 32 + 3
def siQueue : Int := -1

/-- `struct siginfo`. -/
structure SigInfo where
  siSigno : Int
  siErrno : Int
  siCode : Int
  siPid : Int
  siInt : BitVec 32
  deriving DecidableEq

/-- What `xp_task_work_handler` reads of an `xp_work_t`. -/
structure EventWork where
  appPid : Int
  sigInfo : SigInfo
  deriving DecidableEq

/-- A signal sent. -/
structure Signal where
  signo : Int
  pid : Int
  info : SigInfo
  deriving DecidableEq

/-- The registers, `app_pid` and `sig_info` of the device, its `w_queue`, how many `xp_work_t`
are allocated, and the signals sent so far. -/
structure EventState (δ : Type) where
  dev : δ
  appPid : Int
  sigInfo : SigInfo
  wQueue : List EventWork
  works : Nat
  signals : List Signal

/-- The device as `xp_pci_probe` leaves it, run by a thread of the process `tgid`. -/
def probedEvents (dev : δ) (pid tgid : Int) : EventState δ :=
  ⟨dev, pid, ⟨xpRtSignal, 0, siQueue, tgid, 0⟩, [], 0, []⟩

/-! ### Steps -/

/-- What the kernel answers to `xp_task_work_handler`: whether `pid_task` finds the task, and
the result of `send_sig_info`. -/
structure TaskKernel where
  pidTask : Int → Bool
  sendSigInfo : Int

/-- `xp_task_work_handler(w)`: whether it frees the work, and the signal it sends. -/
def xpTaskWorkHandler (kernel : TaskKernel) (work : EventWork) : Bool × Option Signal :=
  if work.appPid = 0 then (false, none)
  else if kernel.pidTask work.appPid then
    (true, if kernel.sendSigInfo < 0 then none
      else some ⟨xpRtSignal, work.appPid, work.sigInfo⟩)
  else (true, none)

/-- What happens to a device that is bound: the ioctl `REGISTER_PID` of a thread `pid` of the
process `tgid`, a change of its registers, its interrupts, and a work that is run. -/
inductive EventInput (δ : Type) where
  | registerPid (pid tgid : Int)
  | device (move : δ → δ)
  | irqHigh (kmalloc : Nat → Bool)
  | irqLow (kmalloc : Nat → Bool) (stale : BitVec 32)
  | runWork (i : Nat) (kernel : TaskKernel)

/-- What an input does to the works: which it queues, and which it takes out to run them. -/
structure Deeds where
  reports : List EventWork
  taken : List (EventWork × TaskKernel)

/-- The handlers' view of the device. -/
def EventState.irqPriv (s : EventState δ) (mode : AddressMode) (minor : Nat) : IrqPriv :=
  ⟨mode, minor, s.appPid, true⟩

/-- The `xp_work_t` of an event. -/
def EventState.eventWork (s : EventState δ) (work : XpWork) : EventWork :=
  ⟨work.appPid, { s.sigInfo with siInt := work.siInt.pack }⟩

/-- The end of a handler: its works are queued. -/
def EventState.interrupted (s : EventState δ) (r : Int × List XpWork × δ) :
    Deeds × EventState δ :=
  let works := r.2.1.map s.eventWork
  (⟨works, []⟩, { s with
    dev := r.2.2
    wQueue := s.wQueue ++ works
    works := s.works + works.length })

/-- Work `i` of the queue is run. -/
def EventState.ran (s : EventState δ) (i : Nat) (kernel : TaskKernel) (work : EventWork) :
    Deeds × EventState δ :=
  let r := xpTaskWorkHandler kernel work
  (⟨[], [(work, kernel)]⟩, { s with
    wQueue := s.wQueue.eraseIdx i
    works := if r.1 then s.works - 1 else s.works
    signals := s.signals ++ r.2.toList })

/-- One input. -/
def deliver (regs : Registers δ) (mode : AddressMode) (minor : Nat) (s : EventState δ) :
    EventInput δ → Deeds × EventState δ
  | .registerPid pid tgid =>
    (⟨[], []⟩, { s with appPid := pid, sigInfo := { s.sigInfo with siPid := tgid } })
  | .device move => (⟨[], []⟩, { s with dev := move s.dev })
  | .irqHigh kmalloc =>
    s.interrupted (xpMsiIrqHandlerHigh regs (s.irqPriv mode minor) kmalloc s.dev)
  | .irqLow kmalloc stale =>
    s.interrupted (xpMsiIrqHandlerLow regs (s.irqPriv mode minor) kmalloc stale s.dev)
  | .runWork i kernel => s.wQueue[i]?.elim (⟨[], []⟩, s) (s.ran i kernel)

/-! ### What a handler reports -/

/-- The event is that of a pending block, or carries a queue and the management bit was set. -/
def Reported (priv : IrqPriv) (table : RegBlocks) (mgmtBit : Nat) (regValue : Nat → BitVec 32)
    (info : XpIntrInfo) : Prop :=
  (∃ b < table.regBlocks, Pending table regValue b ∧ info = blockInfo priv table b) ∨
    (summaryBit regValue mgmtBit = true ∧ info.hasQueueInfo = 1)

section Handlers

variable {regs : Registers δ} {priv : IrqPriv} {table : RegBlocks} {regValue : Nat → BitVec 32}
  {kmalloc : Nat → Bool}

theorem irqBlocks_events (blocks : List Nat) (queued : List XpWork) :
    ∀ w ∈ (irqBlocks priv kmalloc table regValue blocks queued).2, w ∈ queued ∨
      ∃ b ∈ blocks, blockValue table regValue b ≠ 0 ∧ w = irqWork priv (blockInfo priv table b) := by
  induction blocks generalizing queued with
  | nil => exact fun w mem => .inl mem
  | cons b rest ih =>
      intro w mem
      unfold irqBlocks at mem
      split at mem
      · rename_i value
        split at mem
        · rcases ih _ w mem with before | ⟨b', mem', found⟩
          · rcases List.mem_append.mp before with before | this
            · exact .inl before
            · exact .inr ⟨b, List.mem_cons_self, value, List.mem_singleton.mp this⟩
          · exact .inr ⟨b', List.mem_cons_of_mem b mem', found⟩
        · exact .inl mem
      · rcases ih _ w mem with before | ⟨b', mem', found⟩
        · exact .inl before
        · exact .inr ⟨b', List.mem_cons_of_mem b mem', found⟩

theorem mgmtSources_events (sources : List Nat) (s : δ) :
    ∀ w ∈ (mgmtSources regs priv kmalloc sources s).2.1, w = irqWork priv w.siInt := by
  induction sources generalizing s with
  | nil => exact fun w mem => absurd mem List.not_mem_nil
  | cons i rest ih =>
      intro w mem
      unfold mgmtSources at mem
      dsimp only at mem
      split at mem
      · unfold mgmtReport at mem
        dsimp only at mem
        split at mem
        · exact absurd mem List.not_mem_nil
        · rw [List.mem_singleton.mp mem]
          rfl
      · exact ih _ w mem

/-- **One interrupt.** Its works carry the pid of the device and an event that was there to
report. -/
theorem handleSummary_events {mgmtBit : Nat} {mgmtFailed failed : Int → Int} {s : δ} :
    ∀ w ∈ (handleSummary regs priv kmalloc table mgmtBit mgmtFailed failed regValue s).2.1,
      w.appPid = priv.appPid ∧ Reported priv table mgmtBit regValue w.siInt := by
  intro w mem
  unfold handleSummary at mem
  split at mem
  · rename_i set
    have pid := mgmtSources_events _ s w mem
    have queue := mgmtSources_hasQueueInfo kmalloc _ s w mem
    rw [pid]
    exact ⟨rfl, .inr ⟨set, queue⟩⟩
  · split at mem
    · exact absurd mem List.not_mem_nil
    · rcases irqBlocks_events _ _ w mem with none | ⟨b, range, value, rfl⟩
      · exact absurd none List.not_mem_nil
      · have lt := List.mem_range.mp range
        exact ⟨rfl, .inl ⟨b, lt, (blockValue_ne_zero lt).mp value, rfl⟩⟩

end Handlers

/-! ### One input -/

/-- What an input may report in the state it finds. -/
def EventInput.Reports (regs : Registers δ) (mode : AddressMode) (minor : Nat) (s : EventState δ) :
    EventInput δ → XpIntrInfo → Prop
  | .irqHigh _ => Reported (s.irqPriv mode minor) xpHpRegs 116
      (highSummary regs (s.irqPriv mode minor) s.dev)
  | .irqLow _ stale => Reported (s.irqPriv mode minor) xpLpRegs 83
      (lowSummary regs (s.irqPriv mode minor) stale s.dev)
  | _ => fun _ => False

section Steps

variable {regs : Registers δ} {mode : AddressMode} {minor : Nat} {s : EventState δ}

theorem deliver_runWork (i : Nat) (kernel : TaskKernel) :
    deliver regs mode minor s (.runWork i kernel) =
      s.wQueue[i]?.elim (⟨[], []⟩, s) (s.ran i kernel) := rfl

theorem deliver_reports (i : EventInput δ) : ∀ w ∈ (deliver regs mode minor s i).1.reports,
    w.appPid = s.appPid ∧ w.sigInfo = { s.sigInfo with siInt := w.sigInfo.siInt } ∧
      i.Reports regs mode minor s (.unpack w.sigInfo.siInt) := by
  intro w mem
  cases i with
  | registerPid pid tgid => exact absurd mem List.not_mem_nil
  | device move => exact absurd mem List.not_mem_nil
  | irqHigh kmalloc =>
      obtain ⟨work, queued, rfl⟩ := List.mem_map.mp mem
      obtain ⟨pid, reported⟩ := handleSummary_events work queued
      refine ⟨pid, rfl, ?_⟩
      rw [EventState.eventWork, XpIntrInfo.unpack_pack]
      exact reported
  | irqLow kmalloc stale =>
      obtain ⟨work, queued, rfl⟩ := List.mem_map.mp mem
      obtain ⟨pid, reported⟩ := handleSummary_events work queued
      refine ⟨pid, rfl, ?_⟩
      rw [EventState.eventWork, XpIntrInfo.unpack_pack]
      exact reported
  | runWork i kernel =>
      rw [deliver_runWork] at mem
      cases found : s.wQueue[i]? with
      | none =>
          rw [found] at mem
          exact absurd mem List.not_mem_nil
      | some work =>
          rw [found] at mem
          exact absurd mem List.not_mem_nil

/-- The signals of the works taken, in the order in which they ran. -/
def sent (taken : List (EventWork × TaskKernel)) : List Signal :=
  taken.filterMap fun t => (xpTaskWorkHandler t.2 t.1).2

/-- The works taken that had no pid. -/
def unaddressed (taken : List (EventWork × TaskKernel)) : List (EventWork × TaskKernel) :=
  taken.filter fun t => t.1.appPid = 0

theorem sent_concat (taken : List (EventWork × TaskKernel)) (work : EventWork)
    (kernel : TaskKernel) :
    sent (taken ++ [(work, kernel)]) = sent taken ++ (xpTaskWorkHandler kernel work).2.toList := by
  rw [sent, List.filterMap_append, List.filterMap_cons, List.filterMap_nil]
  cases (xpTaskWorkHandler kernel work).2 with
  | _ => rfl

theorem unaddressed_concat (taken : List (EventWork × TaskKernel)) (work : EventWork)
    (kernel : TaskKernel) : (unaddressed (taken ++ [(work, kernel)])).length =
      (unaddressed taken).length + if work.appPid = 0 then 1 else 0 := by
  rw [unaddressed, List.filter_append, List.length_append]
  split
  · rename_i pid
    simp [unaddressed, pid]
  · rename_i pid
    simp [unaddressed, pid]

/-- A work is freed unless it has no pid. -/
theorem xpTaskWorkHandler_freed (kernel : TaskKernel) (work : EventWork) :
    (xpTaskWorkHandler kernel work).1 = !decide (work.appPid = 0) := by
  unfold xpTaskWorkHandler
  by_cases pid : work.appPid = 0
  · simp [pid]
  · rw [if_neg pid]
    split
    · simp [pid]
    · simp [pid]

/-- What was reported waits or was taken, and what became of it. -/
structure Fates (reports : List EventWork) (taken : List (EventWork × TaskKernel))
    (s : EventState δ) : Prop where
  once : reports.Perm (s.wQueue ++ taken.map Prod.fst)
  signals : s.signals = sent taken
  works : s.works = s.wQueue.length + (unaddressed taken).length

variable {reports : List EventWork} {taken : List (EventWork × TaskKernel)}

theorem Fates.interrupted (fates : Fates reports taken s)
    (r : Int × List XpWork × δ) :
    Fates (reports ++ (s.interrupted r).1.reports) (taken ++ (s.interrupted r).1.taken)
      (s.interrupted r).2 := by
  obtain ⟨once, signals, works⟩ := fates
  simp only [EventState.interrupted, List.append_nil]
  refine ⟨?_, signals, ?_⟩
  · refine (once.append_right _).trans ?_
    rw [List.append_assoc, List.append_assoc]
    exact List.perm_append_comm.append_left _
  · dsimp only
    rw [works, List.length_append]
    omega

theorem Fates.ran {i : Nat} {work : EventWork} (fates : Fates reports taken s)
    (found : s.wQueue[i]? = some work) (kernel : TaskKernel) :
    Fates (reports ++ (s.ran i kernel work).1.reports)
      (taken ++ (s.ran i kernel work).1.taken) (s.ran i kernel work).2 := by
  obtain ⟨once, signals, works⟩ := fates
  obtain ⟨lt, get⟩ := List.getElem?_eq_some_iff.mp found
  have out : s.wQueue.Perm (work :: s.wQueue.eraseIdx i) := by
    rw [← get]
    exact (List.getElem_cons_eraseIdx_perm lt).symm
  simp only [EventState.ran, List.append_nil]
  refine ⟨?_, ?_, ?_⟩
  · refine (once.trans (out.append_right _)).trans ?_
    rw [List.map_append, ← List.append_assoc]
    exact (List.perm_append_singleton work _).symm
  · rw [sent_concat, ← signals]
  · have length : (s.wQueue.eraseIdx i).length + 1 = s.wQueue.length := by
      rw [List.length_eraseIdx_of_lt lt]
      omega
    rw [unaddressed_concat, xpTaskWorkHandler_freed]
    by_cases pid : work.appPid = 0
    · simp [pid]
      omega
    · simp [pid]
      omega

/-- **Step.** Every input keeps the account. -/
theorem Fates.deliver (fates : Fates reports taken s) (i : EventInput δ) :
    Fates (reports ++ (deliver regs mode minor s i).1.reports)
      (taken ++ (deliver regs mode minor s i).1.taken) (deliver regs mode minor s i).2 := by
  have idle : ∀ s' : EventState δ, Fates reports taken s' →
      Fates (reports ++ []) (taken ++ []) s' := by
    intro s' same
    rw [List.append_nil, List.append_nil]
    exact same
  cases i with
  | registerPid pid tgid => exact idle _ ⟨fates.once, fates.signals, fates.works⟩
  | device move => exact idle _ ⟨fates.once, fates.signals, fates.works⟩
  | irqHigh kmalloc => exact fates.interrupted _
  | irqLow kmalloc stale => exact fates.interrupted _
  | runWork i kernel =>
      rw [deliver_runWork]
      cases found : s.wQueue[i]? with
      | none => exact idle s fates
      | some work => exact fates.ran found kernel

end Steps

/-! ### Runs -/

/-- The pid and the process registered after an input. -/
def EventInput.registers (was : Int × Int) : EventInput δ → Int × Int
  | .registerPid pid tgid => (pid, tgid)
  | _ => was

/-- The pid and the process registered last, at first those of the probe. -/
def registered (probe : Int × Int) (inputs : List (EventInput δ)) : Int × Int :=
  history EventInput.registers probe inputs

section Runs

variable (regs : Registers δ) (mode : AddressMode) (minor : Nat) (dev : δ) (pid tgid : Int)

/-- The device has the pid that was registered last, and its process. -/
theorem after_registered (inputs : List (EventInput δ)) :
    let s := after (deliver regs mode minor) (probedEvents dev pid tgid) inputs
    (s.appPid, s.sigInfo.siPid) = registered (pid, tgid) inputs := by
  intro s
  induction inputs using List.reverseRecOn with
  | nil => rfl
  | append_singleton done i ih =>
      dsimp only [s] at ih ⊢
      rw [after_concat, registered, history_concat, ← registered, ← ih]
      cases i with
      | runWork i kernel =>
          rw [deliver_runWork]
          cases (after (deliver regs mode minor) (probedEvents dev pid tgid) done).wQueue[i]? with
          | none => rfl
          | some work => rfl
      | _ => rfl

/-- **Run.** The account of a run. -/
theorem fates_of_run (inputs : List (EventInput δ)) :
    let deeds := answers (deliver regs mode minor) (probedEvents dev pid tgid) inputs
    Fates (deeds.flatMap Deeds.reports) (deeds.flatMap Deeds.taken)
      (after (deliver regs mode minor) (probedEvents dev pid tgid) inputs) := by
  intro deeds
  induction inputs using List.reverseRecOn with
  | nil => exact ⟨.refl _, rfl, rfl⟩
  | append_singleton done i ih =>
      dsimp only [deeds] at ih ⊢
      rw [after_concat, answers_concat, List.flatMap_append, List.flatMap_append,
        List.flatMap_singleton, List.flatMap_singleton]
      exact ih.deliver i

/-- What a signal says of the work it was sent for. -/
theorem sent_signal {taken : List (EventWork × TaskKernel)} {signal : Signal}
    (mem : signal ∈ sent taken) : ∃ work ∈ taken.map Prod.fst, work.appPid ≠ 0 ∧
      signal = ⟨xpRtSignal, work.appPid, work.sigInfo⟩ := by
  obtain ⟨⟨work, kernel⟩, ran, sends⟩ := List.mem_filterMap.mp mem
  refine ⟨work, List.mem_map_of_mem ran, ?_⟩
  unfold xpTaskWorkHandler at sends
  split at sends
  · cases sends
  · rename_i nonzero
    split at sends
    · dsimp only at sends
      split at sends
      · cases sends
      · exact ⟨nonzero, (Option.some.inj sends).symm⟩
    · cases sends

/-- **Events reach who has registered.** For every run of a bound device: each event that was
reported waits in the queue or was taken from it, once; the signals are those of the works
taken, but for a task that is gone or cannot be sent to; the works allocated are those in the
queue and those that were taken without a pid; and every signal goes to the pid that was
registered when its interrupt was taken, and names a block that was pending then, or a queue with
the management bit set. -/
theorem events_delivered (inputs : List (EventInput δ)) :
    let deeds := answers (deliver regs mode minor) (probedEvents dev pid tgid) inputs
    let taken := deeds.flatMap Deeds.taken
    let s := after (deliver regs mode minor) (probedEvents dev pid tgid) inputs
    (deeds.flatMap Deeds.reports).Perm (s.wQueue ++ taken.map Prod.fst) ∧
      s.signals = sent taken ∧ s.works = s.wQueue.length + (unaddressed taken).length ∧
      ∀ signal ∈ s.signals, ∃ done i, done ++ [i] <+: inputs ∧
        signal.signo = xpRtSignal ∧ signal.pid ≠ 0 ∧
        (signal.pid, signal.info.siPid) = registered (pid, tgid) done ∧
        i.Reports regs mode minor
          (after (deliver regs mode minor) (probedEvents dev pid tgid) done)
          (.unpack signal.info.siInt) := by
  intro deeds taken s
  obtain ⟨once, signals, works⟩ := fates_of_run regs mode minor dev pid tgid inputs
  refine ⟨once, signals, works, fun signal mem => ?_⟩
  rw [signals] at mem
  obtain ⟨work, ran, nonzero, rfl⟩ := sent_signal mem
  have reported := once.symm.subset (List.mem_append_right s.wQueue ran)
  obtain ⟨deed, at_, queued⟩ := List.mem_flatMap.mp reported
  obtain ⟨done, i, before, rfl⟩ := mem_answers at_
  obtain ⟨samePid, sameInfo, names⟩ := deliver_reports i work queued
  refine ⟨done, i, before, rfl, nonzero, ?_, names⟩
  rw [← after_registered regs mode minor dev pid tgid done, samePid, sameInfo]

end Runs

end XpNet.Pci
