/-
`xp_netdev_deinit` against the delayed receive work.

The steps of the deinit are interleaved with runs of `xpnet_rxtx_handler`, access
by access as `xpnet_rx_queue_process` makes them, and with the device. The handler
can start at any time until `cancel_delayed_work_sync` returns. The receive queues
are freed after that, but the trap table long before: a run is safe exactly when no
frame is in `xp_rx_skb_process` after `xp_trap_deinit` (`receive_work_safe_iff`).

Every receive queue has its descriptors and buffers when the deinit begins: an init that
dropped a refused setup of a queue is left out here, and so are the stores of the deinit
itself, which follow no freeing of what they go to.
-/

import XpNet.CallOrder
import XpNet.Histories
import XpNet.Rx.Model

namespace XpNet.Netdev

open XpNet.Interference (Prog)
open XpNet.Rx (RxProg xpnetRxQueueProcess)

/-! ### The steps of the deinit -/

inductive DeinitCall where
  /-- `kfree` of every configured trap. -/
  | freeTraps
  | kfreeTrapTable
  /-- `trap_table = NULL`. -/
  | clearTrapTable
  | netlinkSockDeinit
  | netdevAllRemove
  | clientSockDeinit
  | cancelDelayedWorkSync
  | flushWorkqueue
  | txTeardown
  | disableRxQueue (q : Nat)
  | clearDesc (q i : Nat)
  | freeRxBuf (q i : Nat)
  | freeRxDescs (q : Nat)
  | destroyWorkqueue
  | procRemove
  | kfree
  deriving DecidableEq, Repr

/-- `xp_trap_deinit`. -/
def xpTrapDeinit : List DeinitCall := [.freeTraps, .kfreeTrapTable, .clearTrapTable]

/-- `xp_netdev_mode_deinit`. -/
def xpNetdevModeDeinit : List DeinitCall :=
  xpTrapDeinit ++ [DeinitCall.netlinkSockDeinit, .netdevAllRemove, .clientSockDeinit]

/-- `xpnet_rx_queue_uninit(net_priv, queue, XPNET_RX_NUM_DESCS)`. -/
def xpnetRxQueueUninit (q : Nat) : List DeinitCall :=
  [.disableRxQueue q] ++
    ((List.range xpnetRxNumDescs).flatMap fun i => [DeinitCall.clearDesc q i, .freeRxBuf q i]) ++
    [.freeRxDescs q]

/-- `xpnet_rx_teardown(net_priv, XPNET_RX_NUM_QUEUES)`. -/
def xpnetRxTeardown : List DeinitCall := (List.range xpnetRxNumQueues).flatMap xpnetRxQueueUninit

/-- `xp_netdev_deinit(priv)` of an initialised device. -/
def xpNetdevDeinit : List DeinitCall :=
  xpNetdevModeDeinit ++
    ([DeinitCall.cancelDelayedWorkSync, .flushWorkqueue, .txTeardown] ++ (xpnetRxTeardown ++
      [DeinitCall.destroyWorkqueue, .procRemove, .kfree]))

/-! ### The receive work -/

/-- A running `xpnet_rxtx_handler`: the queue it polls, what is left of that poll, the
queues it polls after that, and whether it is in `xp_rx_skb_process`. -/
structure Work where
  queue : Nat
  rest : RxProg (Nat × Rx.PollExit)
  later : List Nat
  inSkb : Bool

/-- The next queue of `xpnet_rx_handle`; after the last the handler returns, having
queued itself again. -/
def xpnetRxHandle : List Nat → Option Work
  | [] => none
  | q :: later => some ⟨q, xpnetRxQueueProcess xpnetRxNumDescs, later, false⟩

/-- The next action of the work is the call of `xp_rx_skb_process`. -/
def Work.takesSkb (w : Work) : Bool :=
  match w.rest with
  | .act (.deliver _) _ _ => true
  | _ => false

/-- The descriptor that an action of a poll reads or writes, or the buffer of which. -/
def touched : Rx.Ev → Option Nat
  | .load i _ | .loadBuf i | .storeBuf i | .storeQword i _ => some i
  | .priv | .moveTail _ | .setCdp _ | .enableQueue | .deliver _ => none

/-- The descriptor that a move of the device reads or writes. -/
def deviceTouched (m : Rx.EnvMove) (rx : Rx.State) : Option Nat :=
  match m with
  | .memory _ => none
  | .complete _ _ | .fault _ _ _ | .halt => rx.current

/-! ### Interleavings -/

/-- The steps of the deinit so far, the receive queues and the handler. `freedAccess`
is a ghost: a freed descriptor or buffer has been accessed. -/
structure Teardown where
  done : List DeinitCall
  rx : Nat → Rx.State
  work : Option Work
  freedAccess : Bool

inductive Event where
  | deinit (c : DeinitCall)
  /-- The delayed work starts, with the DMA engine on or off. -/
  | start (dmaTrigger : Bool)
  /-- The next action of the handler. -/
  | work
  /-- `xp_rx_skb_process` returns. -/
  | processed
  | device (q : Nat) (m : Rx.EnvMove)

/-- Slot `i` of receive queue `q` has been freed, its descriptor or its buffer. -/
def Teardown.freed (s : Teardown) (q : Nat) (i : Nat) : Bool :=
  decide (.freeRxDescs q ∈ s.done ∨ .freeRxBuf q i ∈ s.done)

/-- What can happen next: the steps of the deinit come in order, and
`cancel_delayed_work_sync` returns only when the handler does not run, which does not
start after it. -/
def Enabled (s : Teardown) : Event → Prop
  | .deinit c => s.done ++ [c] <+: xpNetdevDeinit ∧
      (c = .cancelDelayedWorkSync → s.work.isNone = true)
  | .start _ => s.work.isNone = true ∧ .cancelDelayedWorkSync ∉ s.done
  | .work => (s.work.any fun w => !w.inSkb) = true
  | .processed => (s.work.any fun w => w.inSkb) = true
  | .device _ _ => True

instance (s : Teardown) : DecidablePred (Enabled s)
  | .deinit c => inferInstanceAs (Decidable (s.done ++ [c] <+: xpNetdevDeinit ∧
      (c = .cancelDelayedWorkSync → s.work.isNone = true)))
  | .start _ => inferInstanceAs (Decidable (_ ∧ _))
  | .work | .processed => inferInstanceAs (Decidable (_ = true))
  | .device _ _ => inferInstanceAs (Decidable True)

/-- One action of the handler. -/
def Teardown.afterWork (s : Teardown) (w : Work) : Teardown :=
  match w.rest with
  | .act lab upd next =>
      { s with
        rx := Function.update s.rx w.queue (upd (s.rx w.queue))
        work := some { w with rest := next (s.rx w.queue), inSkb := w.takesSkb }
        freedAccess := s.freedAccess || (touched lab).any (s.freed w.queue) }
  | .ret _ => { s with work := xpnetRxHandle w.later }
  | .diverge => s

/-- What a step of the deinit changes of the receive queues: a disabled queue stops
the device. -/
def deinitRx (rx : Nat → Rx.State) : DeinitCall → Nat → Rx.State
  | .disableRxQueue q => Function.update rx q { rx q with running := false }
  | _ => rx

/-- What an event changes. The stores of the deinit into descriptors, `clearDesc`, are not
counted in `freedAccess`: the queue is freed after them, and the rings are taken as allocated. -/
def Teardown.after (s : Teardown) : Event → Teardown
  | .deinit c => { s with done := s.done ++ [c], rx := deinitRx s.rx c }
  | .start dmaTrigger =>
      { s with work := if dmaTrigger then xpnetRxHandle (List.range xpnetRxNumQueues) else none }
  | .work => match s.work with
    | some w => s.afterWork w
    | none => s
  | .processed => { s with work := s.work.map fun w => { w with inSkb := false } }
  | .device q m =>
      { s with
        rx := Function.update s.rx q (Rx.envMove m (s.rx q))
        freedAccess := s.freedAccess || (deviceTouched m (s.rx q)).any (s.freed q) }

/-- One event; one that cannot happen changes nothing. -/
def teardownStep (s : Teardown) (e : Event) : Teardown := if Enabled s e then s.after e else s

/-- The teardown of a device with these receive queues after some events. -/
def teardownHistory (rx : Nat → Rx.State) (events : List Event) : Teardown :=
  history teardownStep ⟨[], rx, none, false⟩ events

/-- `trap_table` is neither freed nor null. -/
def TrapTableLive (done : List DeinitCall) : Prop :=
  .kfreeTrapTable ∉ done ∧ .clearTrapTable ∉ done

/-- `xp_rx_skb_process` runs with a live trap table only, and nothing of the receive
queues has been accessed after it was freed. -/
structure ReceiveSafe (s : Teardown) : Prop where
  table : ∀ w, s.work = some w → w.inSkb = true → TrapTableLive s.done
  queues : s.freedAccess = false

/-- No frame is in `xp_rx_skb_process` after `xp_trap_deinit`: none is when that
frees the table, and none is taken later. -/
def InTime (s : Teardown) : Event → Prop
  | .work => (s.work.any fun w => w.takesSkb) = true → .kfreeTrapTable ∉ s.done
  | .deinit .kfreeTrapTable => (s.work.any fun w => w.inSkb) = false
  | _ => True

/-! ### The order of the steps -/

/-- A step frees something of receive queue `q`. -/
def FreesRx (q : Nat) (c : DeinitCall) : Prop := c = .freeRxDescs q ∨ ∃ i, c = .freeRxBuf q i

theorem kfree_before_clear : Before xpNetdevDeinit .kfreeTrapTable .clearTrapTable := by
  have trap : Before ([DeinitCall.freeTraps, .kfreeTrapTable] ++ [.clearTrapTable])
      .kfreeTrapTable .clearTrapTable := before_append (by decide) (by decide)
  refine Before.append (Before.append trap (before_of_not_mem (by decide)))
    (before_of_not_mem ?_)
  simp [xpnetRxTeardown, xpnetRxQueueUninit]

theorem cancel_before {c : DeinitCall} (hc : c ∉ xpNetdevModeDeinit) :
    Before xpNetdevDeinit .cancelDelayedWorkSync c :=
  Before.append (before_of_not_mem hc) before_head

theorem not_mem_modeDeinit {q : Nat} {c : DeinitCall} (hc : FreesRx q c ∨ c = .disableRxQueue q) :
    c ∉ xpNetdevModeDeinit := by
  rcases hc with (rfl | ⟨i, rfl⟩) | rfl <;> simp [xpNetdevModeDeinit, xpTrapDeinit]

theorem disable_before {q : Nat} {c : DeinitCall} (hc : FreesRx q c) :
    Before xpNetdevDeinit (.disableRxQueue q) c := by
  have own : ∀ j, c ∈ xpnetRxQueueUninit j → j = q := by
    intro j hj
    rcases hc with rfl | ⟨i, rfl⟩
    · simpa [xpnetRxQueueUninit, eq_comm] using hj
    · simp only [xpnetRxQueueUninit, List.mem_append, List.mem_flatMap, List.mem_cons,
        reduceCtorEq, false_or, or_false, DeinitCall.freeRxBuf.injEq, List.not_mem_nil] at hj
      obtain ⟨_, _, rfl, -⟩ := hj
      rfl
  refine Before.append (before_of_not_mem (not_mem_modeDeinit (.inl hc))) (Before.append
    (before_of_not_mem ?_) (Before.append (before_flatMap own before_head _)
    (before_of_not_mem ?_)))
  · rcases hc with rfl | ⟨i, rfl⟩ <;> simp
  · rcases hc with rfl | ⟨i, rfl⟩ <;> simp

/-! ### Every interleaving -/

theorem not_inSkb_of_rxHandle {queues : List Nat} {w : Work} (h : xpnetRxHandle queues = some w) :
    w.inSkb = false := by
  cases queues with
  | nil => cases h
  | cons q later =>
      cases h
      rfl

/-- A disabled queue stays so whatever the device does. -/
theorem envMove_running {rx : Rx.State} (h : rx.running = false) (m : Rx.EnvMove) :
    (Rx.envMove m rx).running = false := by
  have hcurrent : rx.current = none := by simp [Rx.State.current, h]
  cases m <;> simp [Rx.envMove, hcurrent, h]

/-- What holds throughout as long as no frame comes too late. -/
structure TeardownInv (s : Teardown) : Prop where
  begins : s.done <+: xpNetdevDeinit
  safe : ReceiveSafe s
  stopped : .cancelDelayedWorkSync ∈ s.done → s.work = none
  disabled : ∀ q, .disableRxQueue q ∈ s.done → (s.rx q).running = false

section Steps

variable {s : Teardown}

/-- What is freed was disabled before, after the work was cancelled. -/
theorem TeardownInv.freed (inv : TeardownInv s) {q i : Nat} (h : s.freed q i = true) :
    .cancelDelayedWorkSync ∈ s.done ∧ .disableRxQueue q ∈ s.done := by
  obtain ⟨c, hc, hmem⟩ : ∃ c, FreesRx q c ∧ c ∈ s.done := by
    rcases of_decide_eq_true h with h | h
    · exact ⟨_, .inl rfl, h⟩
    · exact ⟨_, .inr ⟨i, rfl⟩, h⟩
  exact ⟨cancel_before (not_mem_modeDeinit (.inl hc)) _ inv.begins hmem,
    disable_before hc _ inv.begins hmem⟩

theorem tableLive_of_not_freed {done : List DeinitCall} (hbegin : done <+: xpNetdevDeinit)
    (h : .kfreeTrapTable ∉ done) : TrapTableLive done :=
  ⟨h, fun hclear => h (kfree_before_clear done hbegin hclear)⟩

/-- A step of the deinit keeps the invariant. -/
theorem TeardownInv.deinit (inv : TeardownInv s) {c : DeinitCall} (he : Enabled s (.deinit c))
    (htime : InTime s (.deinit c)) : TeardownInv (s.after (.deinit c)) where
  begins := he.1
  safe := by
    refine ⟨fun w hw hin => tableLive_of_not_freed he.1 fun hmem => ?_, inv.safe.queues⟩
    rcases List.mem_append.mp hmem with hmem | hmem
    · exact (inv.safe.table w hw hin).1 hmem
    · cases List.mem_singleton.mp hmem
      have hwork : s.work = some w := hw
      have hnone : (s.work.any fun w => w.inSkb) = false := htime
      rw [hwork] at hnone
      exact absurd hin (by simpa using hnone)
  stopped := by
    intro hmem
    rcases List.mem_append.mp hmem with hmem | hmem
    · exact inv.stopped hmem
    · exact Option.isNone_iff_eq_none.mp (he.2 (List.mem_singleton.mp hmem).symm)
  disabled := by
    intro q hmem
    change (deinitRx s.rx c q).running = false
    by_cases hc : c = .disableRxQueue q
    · subst hc
      simp [deinitRx]
    · have hbefore : .disableRxQueue q ∈ s.done := by
        rcases List.mem_append.mp hmem with hmem | hmem
        · exact hmem
        · exact absurd (List.mem_singleton.mp hmem).symm hc
      have hrunning := inv.disabled q hbefore
      unfold deinitRx
      split
      case h_1 q' =>
        have hne : q ≠ q' := fun h => hc (congrArg _ h.symm)
        rw [Function.update_of_ne hne]
        exact hrunning
      case h_2 => exact hrunning

/-- An action of the handler keeps the invariant. -/
theorem TeardownInv.work (inv : TeardownInv s) (he : Enabled s .work) (htime : InTime s .work) :
    TeardownInv (s.after .work) := by
  obtain ⟨w, hw, hout⟩ := (Option.any_eq_true _ _).mp he
  have hcancel : .cancelDelayedWorkSync ∉ s.done := by
    intro hmem
    rw [inv.stopped hmem] at hw
    cases hw
  have hfreed : ∀ q i, s.freed q i = false :=
    fun q i => Bool.eq_false_iff.mpr fun h => hcancel (inv.freed h).1
  have hdisable : ∀ q, .disableRxQueue q ∉ s.done := fun q hmem =>
    hcancel (cancel_before (not_mem_modeDeinit (.inr rfl)) _ inv.begins hmem)
  have hstep : s.after .work = s.afterWork w := by simp only [Teardown.after, hw]
  rw [hstep]
  unfold Teardown.afterWork
  split
  case h_1 lab upd next hrest =>
    refine ⟨inv.begins, ⟨?_, ?_⟩, fun hmem => absurd hmem hcancel,
      fun q hmem => absurd hmem (hdisable q)⟩
    · rintro w' hw' hin
      cases hw'
      exact tableLive_of_not_freed inv.begins (htime (by simpa [hw] using hin))
    · have htouch : (touched lab).any (s.freed w.queue) = false := by
        cases touched lab with
        | none => rfl
        | some i => exact hfreed w.queue i
      simp [inv.safe.queues, htouch]
  case h_2 =>
    exact ⟨inv.begins, ⟨fun w' hw' hin => absurd hin (by simp [not_inSkb_of_rxHandle hw']),
      inv.safe.queues⟩, fun hmem => absurd hmem hcancel, inv.disabled⟩
  case h_3 => exact inv

/-- An event in time keeps the invariant. -/
theorem TeardownInv.step (inv : TeardownInv s) {e : Event} (he : Enabled s e)
    (htime : InTime s e) : TeardownInv (s.after e) := by
  cases e with
  | deinit c => exact inv.deinit he htime
  | work => exact inv.work he htime
  | start dmaTrigger =>
      refine ⟨inv.begins, ⟨fun w hw hin => ?_, inv.safe.queues⟩,
        fun hmem => absurd hmem he.2, inv.disabled⟩
      have hw : (if dmaTrigger then xpnetRxHandle (List.range xpnetRxNumQueues) else none) =
        some w := hw
      split at hw
      · exact absurd hin (by simp [not_inSkb_of_rxHandle hw])
      · cases hw
  | processed =>
      refine ⟨inv.begins, ⟨fun w hw hin => ?_, inv.safe.queues⟩, fun hmem => ?_, inv.disabled⟩
      · obtain ⟨w', -, rfl⟩ := Option.map_eq_some_iff.mp hw
        cases hin
      · simp [Teardown.after, inv.stopped hmem]
  | device q m =>
      refine ⟨inv.begins, ⟨inv.safe.table, ?_⟩, inv.stopped, fun q' hmem => ?_⟩
      · suffices htouch : (deviceTouched m (s.rx q)).any (s.freed q) = false by
          simp [Teardown.after, inv.safe.queues, htouch]
        by_contra hbad
        obtain ⟨i, hi, hfree⟩ := (Option.any_eq_true _ _).mp (by simpa using hbad)
        have hrunning := inv.disabled q (inv.freed hfree).2
        cases m <;> simp [deviceTouched, Rx.State.current, hrunning] at hi
      · change (Function.update s.rx q (Rx.envMove m (s.rx q)) q').running = false
        by_cases hq : q' = q
        · subst hq
          rw [Function.update_self]
          exact envMove_running (inv.disabled q' hmem) m
        · rw [Function.update_of_ne hq]
          exact inv.disabled q' hmem

/-- A frame that comes too late is processed without a trap table. -/
theorem TeardownInv.broken {e : Event} (he : Enabled s e) (hlate : ¬ InTime s e) :
    ¬ ReceiveSafe (s.after e) := by
  intro safe
  cases e with
  | start dmaTrigger => exact hlate trivial
  | processed => exact hlate trivial
  | device q m => exact hlate trivial
  | work =>
      obtain ⟨htakes, hfreed⟩ := Classical.not_imp.mp hlate
      obtain ⟨w, hw, htakes⟩ := (Option.any_eq_true _ _).mp htakes
      have hstep : s.after .work = s.afterWork w := by simp only [Teardown.after, hw]
      rw [hstep] at safe
      cases hrest : w.rest with
      | act lab upd next =>
          refine (safe.table { w with rest := next (s.rx w.queue), inSkb := true } ?_ rfl).1 ?_
          · simp [Teardown.afterWork, hrest, htakes]
          · simpa [Teardown.afterWork, hrest] using hfreed
      | ret a => simp [Work.takesSkb, hrest] at htakes
      | diverge => simp [Work.takesSkb, hrest] at htakes
  | deinit c =>
      by_cases hc : c = .kfreeTrapTable
      · subst hc
        have hany : (s.work.any fun w => w.inSkb) = true := by simpa [InTime] using hlate
        obtain ⟨w, hw, hin⟩ := (Option.any_eq_true _ _).mp hany
        exact (safe.table w hw hin).1 (List.mem_append_right _ List.mem_cons_self)
      · exact hlate (by unfold InTime; split <;> simp_all)

end Steps

/-- **The receive work during a deinit.** In every interleaving of the deinit's steps
with the receive work and the device, from any state of the receive queues: every
state on the way is safe exactly when no frame is in `xp_rx_skb_process` after
`xp_trap_deinit`. -/
theorem receive_work_safe_iff (rx : Nat → Rx.State) (events : List Event) :
    (∀ done, done <+: events → ReceiveSafe (teardownHistory rx done)) ↔
      ∀ done e, done ++ [e] <+: events → Enabled (teardownHistory rx done) e →
        InTime (teardownHistory rx done) e := by
  refine history_iff (I := TeardownInv) (G := fun s e => Enabled s e → InTime s e)
    ⟨List.nil_prefix, ⟨fun w hw => (by cases hw), rfl⟩, fun h => (by cases h),
      fun q h => (by cases h)⟩ (fun _ inv => inv.safe) ?_ ?_ events
  · intro s e inv htime
    unfold teardownStep
    split
    case isTrue he => exact inv.step he (htime he)
    case isFalse => exact inv
  · intro s e inv hlate
    obtain ⟨he, hlate⟩ := Classical.not_imp.mp hlate
    rw [teardownStep, if_pos he]
    exact TeardownInv.broken he hlate

/-- A frame has arrived, and the work starts after the trap table is freed. -/
theorem frame_without_trap_table :
    ¬ ∀ events, ReceiveSafe (teardownHistory
      (fun _ => Rx.freshState .b0Compressed xpnetRxNumDescs) events) := by
  intro always
  have safe := always ([Event.device 0 (.complete (fun _ => 0) (64 * 2 ^ 16)),
    .deinit .freeTraps, .deinit .kfreeTrapTable, .start true] ++ List.replicate 13 .work)
  have hin : ((teardownHistory (fun _ => Rx.freshState .b0Compressed xpnetRxNumDescs)
      ([Event.device 0 (.complete (fun _ => 0) (64 * 2 ^ 16)), .deinit .freeTraps,
        .deinit .kfreeTrapTable, .start true] ++ List.replicate 13 .work)).work.any
        fun w => w.inSkb) = true := by
    decide +kernel
  obtain ⟨w, hw, hin⟩ := (Option.any_eq_true _ _).mp hin
  exact (safe.table w hw hin).1 (by decide +kernel)

end XpNet.Netdev
