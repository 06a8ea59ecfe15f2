/-
Transmit and receive with their registers and with `tx_dma_read_lock`.

`xpnet_start_xmit` holds the lock over the whole of `xpnet_hard_start_xmit` and
`xpnet_tx_complete`, so on A0 the queue is programmed with the flag 0. The receive poll
runs without the lock and programs its queue with `XPNET_AFLAG_ACQLOCK`. The code of the
two paths is that of `XpNet.Tx` and `XpNet.Rx`: `onTx` and `onRx` run it on its part of
the state and put the register accesses where it programs a queue.

* `xpnetStartXmit_keepsLock`, `xpnetRxtxHandler_keepsLock`: both paths keep the lock.
* `xpNdoStartXmit_runs`, `xpPacketSend_runs`, `xpnetRxQueueProcess_runs`: with registers
  and lock left out, every run is one of the programs of `XpNet.Tx` and `XpNet.Rx`.
-/

import XpNet.Regs.Access
import XpNet.Tx.Entries

namespace XpNet.Regs

open XpNet.Interference
open Relation (ReflTransGen)
open XpNet.Tx (TxProg XmitExit Datagram)
open XpNet.Rx (RxProg PollExit)

variable {δ α β : Type}

/-! ### Transmit -/

/-- A look at the data of the transmit path. -/
def lookTx (g : Tx.State → α) : RegProg δ α := Prog.look .priv fun s => g s.tx

/-- What `tx_queue[txqno]` is programmed from. -/
def txRegs (q : QueueRegs) : RegProg δ QueueRegs :=
  lookTx fun s => { q with dma := s.queue.dma }

/-- The register accesses of `__xpnet_skb_stat_enqueue`, which do not lock. -/
def txAccess (priv : PciPriv δ) (q : QueueRegs) : Tx.Ev → RegProg δ Unit
  | .setCdp idx => do
    let q ← txRegs q
    xpnetSetQCdp priv q idx 0
  | .enableQueue => xpnetQueueEnDis priv q 1 0 0
  | _ => pure ()

/-- Code of the transmit path. -/
def onTx (priv : PciPriv δ) (q : QueueRegs) (p : TxProg α) : RegProg δ α :=
  p.embed World.tx (fun t s => { s with tx := t }) .priv (txAccess priv q)

/-- `xpnet_start_xmit` on the state it finds. -/
def startXmitFrom (priv : PciPriv δ) (q : QueueRegs) (s : Tx.State) (skb : SkBuff) :
    RegProg δ XmitExit :=
  if s.dmaTrigger = 0 then
    onTx priv q (do
      Prog.emit (.kfreeSkb skb.expanded)
      pure .txdrop)
  else
    locked (do
      let exit ← onTx priv q (Tx.xpnetHardStartXmit (some skb))
      onTx priv q (Tx.completeAfter s.queue.xpqNumDesc exit))

/-- `xpnet_start_xmit`. -/
def xpnetStartXmit (priv : PciPriv δ) (q : QueueRegs) (skb : SkBuff) : RegProg δ XmitExit := do
  let s ← lookTx id
  startXmitFrom priv q s skb

/-- The path of `xp_ndo_start_xmit` for a buffer without headroom for the header. -/
def ndoExpand (priv : PciPriv δ) (q : QueueRegs) (dev : Nat) (skb : SkBuff) :
    RegProg δ (XmitExit × SkBuff) := do
  let allocOk ← lookTx Tx.State.allocOk
  if allocOk then do
    let hdr ← lookTx fun s => (s.netdev dev).txHeader
    let newSkb := skbPush (skbCopyExpand skb txHeaderLen) hdr.val
    let exit ← xpnetStartXmit priv q newSkb
    onTx priv q (Tx.ndoFinish dev skb (some newSkb) exit)
    pure (exit, skb)
  else .diverge

/-- The path of a buffer with headroom for the header. -/
def ndoInPlace (priv : PciPriv δ) (q : QueueRegs) (dev : Nat) (skb : SkBuff) :
    RegProg δ (XmitExit × SkBuff) := do
  let hdr ← lookTx fun s => (s.netdev dev).txHeader
  let pushed := skbPush skb hdr.val
  let exit ← xpnetStartXmit priv q pushed
  onTx priv q (Tx.ndoFinish dev pushed none exit)
  pure (exit, pushed)

/-- `xp_ndo_start_xmit`. -/
def xpNdoStartXmit (priv : PciPriv δ) (q : QueueRegs) (dev : Nat) (skb : SkBuff) :
    RegProg δ (XmitExit × SkBuff) := do
  let up ← lookTx fun s => (s.netdev dev).up
  if up then
    if skb.headroom < txHeaderLen then ndoExpand priv q dev skb
    else ndoInPlace priv q dev skb
  else do
    onTx priv q (Prog.emit (.kfreeSkb skb.expanded))
    pure (.txdrop, skb)

/-- `xp_packet_send(sk)`, the callback of the client socket. -/
def xpPacketSend (priv : PciPriv δ) (q : QueueRegs) (dequeued : Option Datagram) :
    RegProg δ Unit :=
  match dequeued with
  | none => pure ()
  | some d => do
    let _ ← xpnetStartXmit priv q d.payload
    pure ()

/-! ### Receive -/

/-- What the poll of queue `i` works on. -/
def rxState (i : Nat) (s : World δ) : Rx.State := { s.rx i with jiffiesDefer := s.jiffiesDefer }

def setRxState (i : Nat) (t : Rx.State) (s : World δ) : World δ :=
  { s with
    rx := Function.update s.rx i t
    jiffiesDefer := t.jiffiesDefer }

/-- What `rx_queue[i]` is programmed from. -/
def rxRegs (q : QueueRegs) (i : Nat) : RegProg δ QueueRegs :=
  Prog.look .priv fun s => { q with dma := (s.rx i).queue.dma }

/-- The register accesses of `xpnet_rx_queue_process`, which lock. -/
def rxAccess (priv : PciPriv δ) (q : QueueRegs) (i : Nat) : Rx.Ev → RegProg δ Unit
  | .setCdp idx => do
    let q ← rxRegs q i
    xpnetSetQCdp priv q idx xpnetAflagAcqlock
  | .enableQueue => xpnetQueueEnDis priv q 1 0 xpnetAflagAcqlock
  | _ => pure ()

/-- Code of the poll of queue `i`. -/
def onRx (priv : PciPriv δ) (q : QueueRegs) (i : Nat) (p : RxProg α) : RegProg δ α :=
  p.embed (rxState i) (setRxState i) .priv (rxAccess priv q i)

/-- `xpnet_rx_queue_process(net_priv, i, maxiter)`. -/
def xpnetRxQueueProcess (priv : PciPriv δ) (q : QueueRegs) (i maxiter : Nat) :
    RegProg δ (Nat × PollExit) := onRx priv q i (Rx.xpnetRxQueueProcess maxiter)

def setJiffiesDefer (jiffies : Nat) : RegProg δ Unit :=
  Prog.write .priv fun s => { s with jiffiesDefer := jiffies }

/-- `xpnet_rx_handle(net_priv)`. -/
def xpnetRxHandle (priv : PciPriv δ) (rxQueue : Nat → QueueRegs) (hz : Nat) :
    RegProg δ Unit := do
  let dmaTrigger ← lookTx Tx.State.dmaTrigger
  if dmaTrigger = 0 then setJiffiesDefer (3 * hz)
  else
    (List.range xpnetRxNumQueues).forM fun i => do
      let _ ← xpnetRxQueueProcess priv (rxQueue i) i xpnetRxNumDescs
      pure ()

/-- `xpnet_rxtx_handler(w)`, with the delay it queues itself with. -/
def xpnetRxtxHandler (priv : PciPriv δ) (rxQueue : Nat → QueueRegs) (hz : Nat) :
    RegProg δ Nat := do
  setJiffiesDefer 1
  xpnetRxHandle priv rxQueue hz
  Prog.look .priv World.jiffiesDefer

/-! ### The lock -/

section Lock

variable {priv : PciPriv δ} {q : QueueRegs} {held : Bool}

theorem keepsLock_look {g : World δ → α} {f : α → RegProg δ β}
    (rest : ∀ a, KeepsLock held (f a)) : KeepsLock held (Prog.look .priv g >>= f) :=
  .untouched rfl fun s => rest (g s)

theorem keepsLock_lookTx {g : Tx.State → α} {f : α → RegProg δ β}
    (rest : ∀ a, KeepsLock held (f a)) : KeepsLock held (lookTx g >>= f) := keepsLock_look rest

theorem setJiffiesDefer_keepsLock (jiffies : Nat) :
    KeepsLock held (setJiffiesDefer jiffies : RegProg δ Unit) := .untouched rfl fun _ => .ret

/-- With the lock held the transmit path may program its queue. -/
theorem txAccess_keepsLock (ev : Tx.Ev) : KeepsLock true (txAccess priv q ev) := by
  cases ev with
  | setCdp idx =>
      exact keepsLock_lookTx fun q => (xpnetSetQCdp_access noflag_agrees q idx).keepsLock
  | enableQueue => exact (xpnetQueueEnDis_access noflag_agrees q 1 0).keepsLock
  | _ => exact .ret

theorem onTx_keepsLock (p : TxProg α) : KeepsLock true (onTx priv q p) :=
  .embed rfl txAccess_keepsLock p

/-- Code that does not program the queue needs no lock. -/
theorem onTx_emit_keepsLock (expanded : Bool) :
    KeepsLock held (onTx priv q (Prog.emit (.kfreeSkb expanded))) := .untouched rfl fun _ => .ret

theorem ndoFinish_keepsLock (dev : Nat) (skb : SkBuff) (newSkb : Option SkBuff)
    (exit : XmitExit) : KeepsLock held (onTx priv q (Tx.ndoFinish dev skb newSkb exit)) := by
  unfold Tx.ndoFinish
  cases exit.rc with
  | ok =>
      cases newSkb with
      | none => exact .untouched rfl fun _ => .ret
      | some new => exact .untouched rfl fun _ => .untouched rfl fun _ => .ret
  | busy =>
      cases newSkb with
      | none => exact .untouched rfl fun _ => .ret
      | some new => exact .untouched rfl fun _ => .untouched rfl fun _ => .ret

theorem startXmitFrom_keepsLock (s : Tx.State) (skb : SkBuff) :
    KeepsLock false (startXmitFrom priv q s skb) := by
  unfold startXmitFrom
  split
  · exact .untouched rfl fun _ => .ret
  · exact Locking.critical rfl rfl ((onTx_keepsLock _).bind fun _ => onTx_keepsLock _)

theorem xpnetStartXmit_keepsLock (skb : SkBuff) :
    KeepsLock false (xpnetStartXmit priv q skb) :=
  keepsLock_lookTx fun s => startXmitFrom_keepsLock s skb

theorem xpNdoStartXmit_keepsLock (dev : Nat) (skb : SkBuff) :
    KeepsLock false (xpNdoStartXmit priv q dev skb) := by
  apply keepsLock_lookTx
  intro up
  split
  · split
    · apply keepsLock_lookTx
      intro allocOk
      split
      · apply keepsLock_lookTx
        intro hdr
        apply (xpnetStartXmit_keepsLock _).bind
        intro exit
        exact (ndoFinish_keepsLock _ _ _ _).bind fun _ => .ret
      · trivial
    · apply keepsLock_lookTx
      intro hdr
      apply (xpnetStartXmit_keepsLock _).bind
      intro exit
      exact (ndoFinish_keepsLock _ _ _ _).bind fun _ => .ret
  · exact (onTx_emit_keepsLock _).bind fun _ => .ret

theorem xpPacketSend_keepsLock (dequeued : Option Datagram) :
    KeepsLock false (xpPacketSend priv q dequeued) := by
  cases dequeued with
  | none => exact .ret
  | some d => exact (xpnetStartXmit_keepsLock _).bind fun _ => .ret

/-- With the lock free the poll may program its queue. -/
theorem rxAccess_keepsLock (i : Nat) (ev : Rx.Ev) : KeepsLock false (rxAccess priv q i ev) := by
  cases ev with
  | setCdp idx =>
      exact keepsLock_look fun q => (xpnetSetQCdp_access acqlock_agrees q idx).keepsLock
  | enableQueue => exact (xpnetQueueEnDis_access acqlock_agrees q 1 0).keepsLock
  | _ => exact .ret

theorem xpnetRxHandle_keepsLock (rxQueue : Nat → QueueRegs) (hz : Nat) :
    KeepsLock false (xpnetRxHandle priv rxQueue hz) := by
  apply keepsLock_lookTx
  intro dmaTrigger
  split
  · exact setJiffiesDefer_keepsLock _
  · apply Locking.forM
    intro i
    have poll : KeepsLock false (xpnetRxQueueProcess priv (rxQueue i) i xpnetRxNumDescs) :=
      .embed rfl (rxAccess_keepsLock i) _
    exact poll.bind fun _ => .ret

theorem xpnetRxtxHandler_keepsLock (rxQueue : Nat → QueueRegs) (hz : Nat) :
    KeepsLock false (xpnetRxtxHandler priv rxQueue hz) := by
  apply (setJiffiesDefer_keepsLock 1).bind
  intro _
  apply (xpnetRxHandle_keepsLock rxQueue hz).bind
  intro _
  exact .untouched rfl fun _ => .ret

end Lock

/-! ### The paths without registers and lock -/

section Model

variable {priv : PciPriv δ} {q : QueueRegs} {τ ε' : Type}

theorem locked_refines {get : World δ → τ} {R : α → β → Prop} {p : RegProg δ α}
    {r : Prog τ ε' β} (inside : Refines get R p r) : Refines get R (locked p) r :=
  .skip (fun _ => rfl) fun _ => inside.andThen fun _ => ⟨fun _ => rfl, fun _ => trivial⟩

theorem lookTx_refines {R : α → β → Prop} {γ : Type} {g : Tx.State → γ} {l : ε'}
    {f : γ → RegProg δ α} {h : γ → Prog Tx.State ε' β}
    (rest : ∀ c, Refines World.tx R (f c) (h c)) :
    Refines World.tx R (lookTx g >>= f) (Prog.look l g >>= h) :=
  .act (fun _ => rfl) fun s => rest (g s.tx)

theorem txAccess_alone (ev : Tx.Ev) :
    Always (fun _ u => ∀ s, World.tx (u s) = World.tx s) (txAccess priv q ev) := by
  cases ev with
  | setCdp idx =>
      refine ⟨fun _ => rfl, fun s => ?_⟩
      have access : Access true (xpnetSetQCdp priv { q with dma := s.tx.queue.dma } idx 0) :=
        xpnetSetQCdp_access noflag_agrees _ idx
      exact access.alone fun _ _ => rfl
  | enableQueue =>
      have access : Access true (xpnetQueueEnDis priv q 1 0 0) :=
        xpnetQueueEnDis_access noflag_agrees q 1 0
      exact access.alone fun _ _ => rfl
  | _ => trivial

theorem onTx_refines (p : TxProg α) : Refines World.tx Eq (onTx priv q p) p :=
  .embed (fun _ _ => rfl) txAccess_alone p

theorem startXmitFrom_refines (s : Tx.State) (skb : SkBuff) :
    Refines World.tx Eq (startXmitFrom priv q s skb) (Tx.startXmitFrom s skb) := by
  unfold startXmitFrom Tx.startXmitFrom
  split
  · exact onTx_refines _
  · apply locked_refines
    apply (onTx_refines _).bind
    rintro exit _ rfl
    exact onTx_refines _

/-- `xpnet_start_xmit` is the program of `XpNet.Tx`. -/
theorem xpnetStartXmit_refines (skb : SkBuff) :
    Refines World.tx Eq (xpnetStartXmit priv q skb) (Tx.xpnetStartXmit skb) :=
  lookTx_refines fun s => startXmitFrom_refines s skb

theorem ndoExpand_refines (dev : Nat) (skb : SkBuff) :
    Refines World.tx Eq (ndoExpand priv q dev skb) (Tx.ndoExpand dev skb) := by
  apply lookTx_refines
  intro allocOk
  split
  · apply lookTx_refines
    intro hdr
    apply (xpnetStartXmit_refines _).bind
    rintro exit _ rfl
    apply (onTx_refines _).bind
    rintro _ _ rfl
    exact .ret rfl
  · exact .diverge

theorem ndoInPlace_refines (dev : Nat) (skb : SkBuff) :
    Refines World.tx Eq (ndoInPlace priv q dev skb) (Tx.ndoInPlace dev skb) := by
  apply lookTx_refines
  intro hdr
  apply (xpnetStartXmit_refines _).bind
  rintro exit _ rfl
  apply (onTx_refines _).bind
  rintro _ _ rfl
  exact .ret rfl

/-- `xp_ndo_start_xmit` is the program of `XpNet.Tx`. -/
theorem xpNdoStartXmit_refines (dev : Nat) (skb : SkBuff) :
    Refines World.tx Eq (xpNdoStartXmit priv q dev skb) (Tx.xpNdoStartXmit dev skb) := by
  apply lookTx_refines
  intro up
  split
  · split
    · exact ndoExpand_refines dev skb
    · exact ndoInPlace_refines dev skb
  · apply (onTx_refines (Prog.emit (.kfreeSkb skb.expanded))).bind
    rintro _ _ rfl
    exact .ret rfl

theorem xpPacketSend_refines (dequeued : Option Datagram) :
    Refines World.tx Eq (xpPacketSend priv q dequeued) (Tx.xpPacketSend dequeued) := by
  cases dequeued with
  | none => exact .ret rfl
  | some d =>
      apply (xpnetStartXmit_refines _).bind
      rintro _ _ rfl
      exact .ret rfl

theorem rxAccess_alone (i : Nat) (ev : Rx.Ev) :
    Always (fun _ u => ∀ s, rxState i (u s) = rxState i s) (rxAccess priv q i ev) := by
  cases ev with
  | setCdp idx =>
      refine ⟨fun _ => rfl, fun s => ?_⟩
      have access : Access false
          (xpnetSetQCdp priv { q with dma := (s.rx i).queue.dma } idx xpnetAflagAcqlock) :=
        xpnetSetQCdp_access acqlock_agrees _ idx
      exact access.alone fun _ _ => rfl
  | enableQueue =>
      have access : Access false (xpnetQueueEnDis priv q 1 0 xpnetAflagAcqlock) :=
        xpnetQueueEnDis_access acqlock_agrees q 1 0
      exact access.alone fun _ _ => rfl
  | _ => trivial

theorem rxState_set (i : Nat) (t : Rx.State) (s : World δ) : rxState i (setRxState i t s) = t := by
  simp [rxState, setRxState]

/-- A poll of one queue is the program of `XpNet.Rx`. -/
theorem xpnetRxQueueProcess_refines (i maxiter : Nat) :
    Refines (rxState i) Eq (xpnetRxQueueProcess priv q i maxiter)
      (Rx.xpnetRxQueueProcess maxiter) :=
  .embed (rxState_set i) (rxAccess_alone i) _

section Runs

variable {rely : World δ → World δ → Prop} {s s' : World δ} {tr : List (World δ × Ev)}

/-- A run beside a device that does to the transmit queue what it may do is a run of the
program of `XpNet.Tx`. -/
theorem xpNdoStartXmit_runs {dev : Nat} {skb : SkBuff} {r : XmitExit × SkBuff}
    (run : Runs rely (xpNdoStartXmit priv q dev skb) s tr r s')
    (moves : ∀ s s', rely s s' → ReflTransGen Tx.Env s.tx s'.tx) :
    ∃ tr', Runs Tx.Env (Tx.xpNdoStartXmit dev skb) s.tx tr' r s'.tx := by
  obtain ⟨_, tr', run', rfl⟩ := (xpNdoStartXmit_refines dev skb).runs run moves
  exact ⟨tr', run'⟩

theorem xpPacketSend_runs {dequeued : Option Datagram} {u : Unit}
    (run : Runs rely (xpPacketSend priv q dequeued) s tr u s')
    (moves : ∀ s s', rely s s' → ReflTransGen Tx.Env s.tx s'.tx) :
    ∃ tr', Runs Tx.Env (Tx.xpPacketSend dequeued) s.tx tr' u s'.tx := by
  obtain ⟨_, tr', run', rfl⟩ := (xpPacketSend_refines dequeued).runs run moves
  exact ⟨tr', run'⟩

/-- The same of a poll of one receive queue. -/
theorem xpnetRxQueueProcess_runs {i maxiter : Nat} {r : Nat × PollExit}
    (run : Runs rely (xpnetRxQueueProcess priv q i maxiter) s tr r s')
    (moves : ∀ s s', rely s s' → ReflTransGen Rx.Env (rxState i s) (rxState i s')) :
    ∃ tr', Runs Rx.Env (Rx.xpnetRxQueueProcess maxiter) (rxState i s) tr' r (rxState i s') := by
  obtain ⟨_, tr', run', rfl⟩ := (xpnetRxQueueProcess_refines i maxiter).runs run moves
  exact ⟨tr', run'⟩

end Runs

end Model

end XpNet.Regs
