/-
Senders on many threads.

`XpNet.Tx` has the calls of `xpnet_start_xmit` one after the other. Here they come from any
number of threads at once, through interfaces, the client socket and the exported
`xp_packet_send`, beside threads that receive, serve interrupts and reach registers, and
beside interfaces that are opened and closed. `xpnet_start_xmit` holds `tx_dma_read_lock`
from its first look at the ring to its last: `ring` is what that lock protects, with the
invariant of `XpNet.Tx.Paths`. So the ring carries the frames whole, in the order in which
their senders had the lock, and those of one thread in its order (`senders_share_ring`).
-/

import XpNet.Interference.Sections
import XpNet.Regs.Serial
import XpNet.Tx.Beside

namespace XpNet.Regs

open XpNet.Interference
open Relation (ReflTransGen)
open XpNet.Pci (RegSize)
open XpNet.Tx (TxProg XmitExit Datagram Flowing Around Fixes withHeader)

variable {δ α β ι : Type}

/-! ### What the lock protects -/

/-- What may happen to the driver at any time: anything but to the transmit ring, which only
the device may change, and to the headers of the interfaces. -/
def Meanwhile (s s' : World δ) : Prop := Around s.tx s'.tx

/-- The size of the ring, the DMA engine and the headers are these. -/
def Fixed (n trigger : Nat) (headers : Nat → TxHeader) (s : World δ) : Prop :=
  s.tx.queue.xpqNumDesc = n ∧ s.tx.dmaTrigger = trigger ∧ s.tx.headers = headers

theorem fixed_meanwhile (n trigger : Nat) (headers : Nat → TxHeader) (s s' : World δ)
    (step : Meanwhile s s') (fixed : Fixed n trigger headers s) : Fixed n trigger headers s' := by
  obtain ⟨numDesc, engine⟩ := step.fixed
  exact ⟨numDesc.trans fixed.1, engine.trans fixed.2.1, step.1.trans fixed.2.2⟩

theorem flowing_meanwhile (n : Nat) (frames : List SkBuff) (s s' : World δ)
    (step : Meanwhile s s') (flowing : Flowing n frames s.tx) : Flowing n frames s'.tx :=
  flowing.around step

/-- The transmit ring of `n` descriptors, by the frames that were sent. -/
def ring (δ : Type) (n trigger : Nat) (headers : Nat → TxHeader) :
    Resource (World δ) Ev SkBuff where
  use := Ev.lockUse
  rely := Meanwhile
  always := Fixed n trigger headers
  inv frames s := Flowing n frames s.tx
  kept := fixed_meanwhile n trigger headers
  stable := flowing_meanwhile n

section Programs

variable {priv : PciPriv δ} {q : QueueRegs} {n trigger : Nat} {headers : Nat → TxHeader}
  {frames : List SkBuff}

/-- What leaves the transmit side alone may be done at any time. -/
theorem meanwhile_of_tx {s s' : World δ} (same : s'.tx = s.tx) : Meanwhile s s' := by
  rw [Meanwhile, same]
  exact ⟨rfl, _, .refl, rfl⟩

theorem quiet_look {g : World δ → β} {f : β → RegProg δ α}
    (rest : ∀ s, Fixed n trigger headers s → (ring δ n trigger headers).Passes frames (f (g s))) :
    (ring δ n trigger headers).Passes frames (Prog.look .priv g >>= f) :=
  .quiet ⟨trivial, rfl⟩ (fun _ _ => .refl) rest

/-! ### The section of `xpnet_start_xmit` -/

/-- What the transmit path does to registers, it does with the lock held. -/
theorem txAccess_holds (ev : Tx.Ev) : Holds (txAccess priv q ev) := by
  have write : ∀ vs regAddr, Holds (writeEachNoLock priv vs regAddr) := by
    intro vs
    induction vs with
    | nil => exact fun _ => trivial
    | cons v vs ih => exact fun regAddr => (storeReg_holds _ v).bind fun _ => ih _
  cases ev with
  | setCdp idx =>
      exact ⟨⟨trivial, rfl⟩, fun s => ⟨⟨rfl, rfl⟩, fun _ => write _ _⟩⟩
  | enableQueue =>
      refine ⟨⟨rfl, rfl⟩, fun s => ?_⟩
      have read : Holds (readEachNoLock priv [0] (dmaQRegOffset priv (cmdReg q) 1 q.xpqId)) :=
        ⟨⟨rfl, rfl⟩, fun _ => trivial⟩
      exact read.bind fun regval => write _ _
  | _ => trivial

/-- Code of the transmit path that leaves the size of the ring as it is. -/
theorem onTx_inner {p : TxProg α} (fixes : Takes Fixes p) :
    Takes (ring δ n trigger headers).Inner (onTx priv q p) := by
  apply Takes.embed _ _ fixes
  · intro ev
    apply ((txAccess_holds ev).takes.and (txAccess_alone ev).takes).mono
    rintro l u ⟨steady, alone⟩
    exact ⟨steady, fun s fixed => fixed_meanwhile _ _ _ _ _ (meanwhile_of_tx (alone s)) fixed⟩
  · rintro l u fixes
    refine ⟨⟨trivial, rfl⟩, fun s fixed => ?_⟩
    obtain ⟨numDesc, engine, same⟩ := fixes s.tx
    exact ⟨numDesc.trans fixed.1, engine.trans fixed.2.1, same.trans fixed.2.2⟩

/-- What `xpnet_start_xmit` does with the lock held, of a ring of `n` descriptors. -/
def sendHeld (n : Nat) (skb : SkBuff) : TxProg XmitExit := do
  let exit ← Tx.xpnetHardStartXmit (some skb)
  Tx.completeAfter n exit

theorem startXmitFrom_on {s : Tx.State} (engine : s.dmaTrigger ≠ 0) (skb : SkBuff) :
    Tx.startXmitFrom s skb = sendHeld s.queue.xpqNumDesc skb := if_neg engine

/-- With the lock held, `xpnet_start_xmit` puts its frame on the ring, or drops it. -/
theorem sendHeld_section (size : RingSize n) (engine : trigger ≠ 0) (skb : SkBuff) :
    (ring δ n trigger headers).Section [skb] (onTx priv q (sendHeld n skb)) where
  inner := by
    -- any ring of `n` descriptors with the engine on will do
    exact onTx_inner ((Tx.startXmit_fixes skb).2 (Tx.freshState 0 .b0Compressed n))
  ends := by
    rintro frames s ⟨numDesc, on, -⟩ flowing tr exit s' run
    have moves : ∀ s s' : World δ, Meanwhile s s' → ReflTransGen Around s.tx s'.tx :=
      fun _ _ step => .single step
    obtain ⟨_, tr', inside, rfl⟩ := (onTx_refines (sendHeld n skb)).runs run moves
    have from_ : Tx.startXmitFrom s.tx skb = sendHeld n skb := by
      rw [startXmitFrom_on (on ▸ engine), numDesc]
    rw [← from_] at inside
    exact flowing.beside size inside.look

/-! ### What each operation sends -/

theorem startXmit_passes (size : RingSize n) (skb : SkBuff) :
    (ring δ n trigger headers).Passes [skb] (xpnetStartXmit priv q skb) := by
  apply quiet_look
  rintro s ⟨numDesc, on, -⟩
  change (ring δ n trigger headers).Passes [skb] (startXmitFrom priv q s.tx skb)
  unfold startXmitFrom
  split
  case isTrue _ => exact .quiet ⟨trivial, rfl⟩ (fun s _ => .single (meanwhile_of_tx rfl)) fun _ _ => .ret
  case isFalse engine =>
    have body : (do
        let exit ← onTx priv q (Tx.xpnetHardStartXmit (some skb))
        onTx priv q (Tx.completeAfter s.tx.queue.xpqNumDesc exit)) =
        onTx priv q (sendHeld n skb) := by
      rw [numDesc]
      exact (Prog.embed_bind _ _).symm
    rw [body]
    have sent : (ring δ n trigger headers).Passes ([skb] ++ [])
        (Resource.holding .acquire .release (onTx priv q (sendHeld n skb)) .ret) :=
      .hold rfl rfl (sendHeld_section size (on ▸ engine) skb) fun _ => .ret
    exact sent

/-- A change of an interface that leaves its header. -/
theorem updNetdev_meanwhile (dev : Nat) (f : Tx.NetDevice → Tx.NetDevice)
    (header : ∀ d, (f d).txHeader = d.txHeader) (s : World δ) :
    Meanwhile s { s with tx := s.tx.updNetdev dev f } := by
  refine ⟨?_, s.tx, .refl, rfl⟩
  funext d
  by_cases same : d = dev
  · subst same
    simp [Tx.State.headers, Tx.State.updNetdev, header]
  · simp [Tx.State.headers, Tx.State.updNetdev, same]

theorem ndoFinish_passes (dev : Nat) (skb : SkBuff) (newSkb : Option SkBuff) (exit : XmitExit) :
    (ring δ n trigger headers).Passes [] (onTx priv q (Tx.ndoFinish dev skb newSkb exit)) := by
  unfold Tx.ndoFinish
  cases exit.rc with
  | ok =>
      have counted := fun s (_ : Fixed n trigger headers s) =>
        ReflTransGen.single (updNetdev_meanwhile (δ := δ) dev
          (fun d => { d with txPackets := d.txPackets + 1 }) (fun _ => rfl) s)
      cases newSkb with
      | none => exact .quiet ⟨trivial, rfl⟩ counted fun _ _ => .ret
      | some new =>
          exact .quiet ⟨trivial, rfl⟩ (fun _ _ => .refl) fun _ _ =>
            .quiet ⟨trivial, rfl⟩ counted fun _ _ => .ret
  | busy =>
      have stopped := fun s (_ : Fixed n trigger headers s) =>
        ReflTransGen.single (updNetdev_meanwhile (δ := δ) dev
          (fun d => { d with queueStopped := true }) (fun _ => rfl) s)
      cases newSkb with
      | none => exact .quiet ⟨trivial, rfl⟩ stopped fun _ _ => .ret
      | some new =>
          exact .quiet ⟨trivial, rfl⟩ (fun _ _ => .refl) fun _ _ =>
            .quiet ⟨trivial, rfl⟩ stopped fun _ _ => .ret

/-- A frame with its header, and the end of `xp_ndo_start_xmit`. -/
theorem ndoSend_passes (size : RingSize n) (dev : Nat) (skb sent : SkBuff)
    (newSkb : Option SkBuff) :
    (ring δ n trigger headers).Passes [sent] (do
      let exit ← xpnetStartXmit priv q sent
      onTx priv q (Tx.ndoFinish dev skb newSkb exit)
      pure (exit, skb)) :=
  (startXmit_passes size sent).bind fun exit =>
    (ndoFinish_passes dev skb newSkb exit).bind fun _ => .ret (w := [])

theorem fixed_header {s : World δ} (fixed : Fixed n trigger headers s) (dev : Nat) :
    (s.tx.netdev dev).txHeader = headers dev := congrFun fixed.2.2 dev

theorem ndoExpand_passes (size : RingSize n) (dev : Nat) {skb : SkBuff}
    (short : skb.headroom < txHeaderLen) :
    (ring δ n trigger headers).Passes [withHeader (headers dev) skb] (ndoExpand priv q dev skb) := by
  unfold withHeader
  rw [if_pos short]
  apply quiet_look
  intro s _
  split
  · apply quiet_look
    intro s fixed
    dsimp only
    rw [fixed_header fixed]
    exact ndoSend_passes size dev skb _ _
  · exact .diverge

theorem ndoInPlace_passes (size : RingSize n) (dev : Nat) {skb : SkBuff}
    (room : ¬ skb.headroom < txHeaderLen) :
    (ring δ n trigger headers).Passes [withHeader (headers dev) skb]
      (ndoInPlace priv q dev skb) := by
  unfold withHeader
  rw [if_neg room]
  apply quiet_look
  intro s fixed
  dsimp only
  rw [fixed_header fixed]
  exact ndoSend_passes size dev _ _ none

/-- An interface sends its frame behind its header, or drops it. -/
theorem ndoStartXmit_passes (size : RingSize n) (dev : Nat) (skb : SkBuff) :
    (ring δ n trigger headers).Passes [withHeader (headers dev) skb]
      (xpNdoStartXmit priv q dev skb) := by
  apply quiet_look
  intro s _
  split
  · split
    case isTrue short => exact ndoExpand_passes size dev short
    case isFalse room => exact ndoInPlace_passes size dev room
  · exact .quiet ⟨trivial, rfl⟩ (fun _ _ => .refl) fun _ _ => .ret

theorem packetSend_passes (size : RingSize n) (d : Datagram) :
    (ring δ n trigger headers).Passes [d.payload] (xpPacketSend priv q (some d)) :=
  (startXmit_passes size d.payload).bind fun _ => .ret (w := [])

/-! ### The other operations send nothing -/

theorem RegCall.body_access (r : RegCall) : Access true (r.body priv) := by
  cases r with
  | read regAddr regSize count =>
      change Access true (readHeld priv regAddr regSize count)
      unfold readHeld
      cases RegSize.ofNat? regSize with
      | none => exact .ret
      | some w => exact (loadLoop_access w count regAddr).bind fun _ => .ret
  | write rwValue regAddr regSize =>
      change Access true (writeHeld priv rwValue regAddr regSize)
      unfold writeHeld
      cases RegSize.ofNat? regSize with
      | none => exact .ret
      | some w => exact (storeLoop_access w rwValue regAddr).bind fun _ => .ret
  | load o => exact loadReg_access .dword o

/-- Register calls leave the transmit side alone. -/
theorem calls_passes {p : RegProg δ α} (calls : Calls priv p) :
    (ring δ n trigger headers).Passes [] p := by
  refine .ofBuilt (regMonitor priv) rfl (fun r => ?_) calls
  have alone : Always (fun _ u => ∀ s, World.tx (u s) = World.tx s) (r.body priv) :=
    (RegCall.body_access r).alone fun _ _ => rfl
  exact alone.takes.mono fun _ _ same s => meanwhile_of_tx (same s)

theorem writeFn_calls (reg : DmaReg) (value : List (BitVec 32)) (qnum : Nat) :
    Calls priv (writeFn priv xpnetAflagAcqlock reg value qnum) := by
  have flag : acqlock xpnetAflagAcqlock = true := rfl
  unfold writeFn
  rw [if_pos flag]
  exact (xpDevRegWrite_calls _ _ _).bind fun _ => .ret

/-- A poll programs its queue with the lock free. -/
theorem rxAccess_passes (i : Nat) (ev : Rx.Ev) :
    (ring δ n trigger headers).Passes [] (rxAccess priv q i ev) := by
  cases ev with
  | setCdp idx =>
      apply quiet_look
      intro s _
      exact calls_passes (.emit ⟨rfl, rfl⟩ (writeFn_calls _ _ _))
  | enableQueue =>
      have read : Calls priv (readFn priv xpnetAflagAcqlock (cmdReg q) [0] q.xpqId) := by
        have flag : acqlock xpnetAflagAcqlock = true := rfl
        unfold readFn
        rw [if_pos flag]
        exact (xpDevRegRead_calls _ _ _).bind fun _ => .ret
      exact calls_passes (.emit ⟨rfl, rfl⟩ (read.bind fun _ => writeFn_calls _ _ _))
  | _ => exact .ret

theorem rxtxHandler_passes (rxQueue : Nat → QueueRegs) (hz : Nat) :
    (ring δ n trigger headers).Passes [] (xpnetRxtxHandler priv rxQueue hz) := by
  have quiet : ∀ jiffies, (ring δ n trigger headers).Passes []
      (setJiffiesDefer jiffies : RegProg δ Unit) := by
    intro jiffies
    unfold setJiffiesDefer Prog.write
    exact .quiet ⟨trivial, rfl⟩ (fun s _ => .single (meanwhile_of_tx rfl)) fun _ _ => .ret
  have poll : ∀ i, (ring δ n trigger headers).Passes []
      (xpnetRxQueueProcess priv (rxQueue i) i xpnetRxNumDescs) := by
    intro i
    apply Resource.Passes.embed
    · exact ⟨trivial, rfl⟩
    · exact fun _ _ => meanwhile_of_tx rfl
    · exact rxAccess_passes i
  have handle : (ring δ n trigger headers).Passes [] (xpnetRxHandle priv rxQueue hz) := by
    apply quiet_look
    intro s _
    split
    · exact quiet _
    · exact .forM_silent (fun i => (poll i).bind fun _ => .ret (w := [])) _
  exact (quiet 1).bind fun _ => handle.bind fun _ => quiet_look fun _ _ => .ret

end Programs

/-! ### Operations -/

/-- What an operation sends at most, by the headers of the interfaces. -/
def Operation.sends (headers : Nat → TxHeader) : Operation δ → List SkBuff
  | .ndoStartXmit _ dev skb => [withHeader (headers dev) skb]
  | .socketSend _ dequeued => dequeued.toList.map Datagram.payload
  | .packetSend _ _ _ _ skb => [skb]
  | _ => []

/-- An operation on this device, that has its `xpnet`. -/
def Operation.OnBound (priv : PciPriv δ) : Operation δ → Prop
  | .netdevInit _ _ | .netdevDeinit _ => False
  | .drvWriteReg devPtr dev _ _ _ | .drvReadReg devPtr dev _ _ =>
    ∀ p, devPtr dev = some p → p = priv
  | .packetSend devPtr _ _ dev _ => ∀ p s, devPtr dev = some (p, s) → p = priv ∧ s.xpnet.isSome
  | _ => True

section Operations

variable {priv : PciPriv δ} {n trigger : Nat} {headers : Nat → TxHeader}

theorem packetSendDev_passes (size : RingSize n)
    {devPtr : Int → Option (PciPriv δ × HwNetdev)} {dev : Int}
    (slot : ∀ p s, devPtr dev = some (p, s) → p = priv ∧ s.xpnet.isSome) (q : QueueRegs)
    (kernel : NetdevKernel) (skb : SkBuff) :
    (ring δ n trigger headers).Passes [skb] (xpPacketSendDev devPtr q kernel dev skb) := by
  unfold xpPacketSendDev
  split
  · exact .ret
  · cases found : devPtr dev with
    | none => exact .ret
    | some there =>
        obtain ⟨p, s⟩ := there
        obtain ⟨rfl, up⟩ := slot p s found
        have running : ¬ s.xpnet.isNone = true := by simp [Option.isSome_iff_ne_none.mp up]
        have on : packetSendOn p q kernel s skb = (do
            let exit ← xpnetStartXmit p q skb
            if exit.rc ≠ .ok then pure (-1, s) else pure (0, s)) := by
          unfold packetSendOn ensureNetdev
          rw [if_neg running, Prog.pure_eq, Prog.ret_bind, if_neg running]
        have answer : ∀ exit : XmitExit, (ring δ n trigger headers).Passes []
            (if exit.rc ≠ .ok then pure (-1, s) else pure (0, s) : RegProg δ (Int × HwNetdev)) := by
          intro exit
          split
          · exact .ret
          · exact .ret
        dsimp only
        rw [on]
        exact ((startXmit_passes size skb).bind answer).bind fun _ => .ret (w := [])

/-- **Each operation** sends what it is to send, or less. -/
theorem Operation.passes (size : RingSize n) {op : Operation δ} (bound : op.OnBound priv) :
    (ring δ n trigger headers).Passes (op.sends headers) (op.prog priv) := by
  have silent : ∀ {op : Operation δ}, op.OnRegisters priv →
      (ring δ n trigger headers).Passes [] (op.prog priv) := fun only =>
    calls_passes (Operation.calls only)
  cases op with
  | netdevInit kernel s => exact bound.elim
  | netdevDeinit s => exact bound.elim
  | ndoStartXmit q dev skb => exact (ndoStartXmit_passes size dev skb).bind fun _ => .ret (w := [])
  | socketSend q dequeued =>
      cases dequeued with
      | none => exact .ret
      | some d => exact packetSend_passes size d
  | rxtxHandler rxQueue hz => exact (rxtxHandler_passes rxQueue hz).bind fun _ => .ret (w := [])
  | msiIrqHandlerHigh irq kmalloc => exact silent trivial
  | msiIrqHandlerLow irq kmalloc stale => exact silent trivial
  | devRegAccess kernel pciRw user => exact silent trivial
  | regProcWrite text bufsize status => exact silent trivial
  | queSeqShow queNo => exact silent trivial
  | drvWriteReg devPtr dev rwValue regAddr regSize => exact silent bound
  | drvReadReg devPtr dev regAddr regSize => exact silent bound
  | packetSend devPtr q kernel dev skb =>
      exact (packetSendDev_passes size bound q kernel skb).bind fun _ => .ret (w := [])

end Operations

/-! ### Interleavings -/

section Threads

variable [DecidableEq ι] {n : Nat} {priv : PciPriv δ} {ops : ι → List (Operation δ)}
  {w : World δ} {tr : List (ι × Ev)} {c : Config ι (World δ) Ev PUnit}

/-- **Senders share the ring.** With the A0 flag clear, whatever operations the threads perform
on a device that is up, in any interleaving, and whatever the device does meanwhile: with the
lock free, the shards in flight are the last shards of frames that were sent, some of them,
whole and in the order in which their threads had the lock, and of one thread in its order. -/
theorem senders_share_ring (size : RingSize n) (bound : ∀ i, ∀ op ∈ ops i, op.OnBound priv)
    (init : Tx.Initial n w.tx) (flag : w.tx.isA0 = false)
    (run : Interleaving Ev.lockUse Meanwhile ⟨threads priv ops, none, w⟩ tr c)
    (free : c.holder = none) :
    ∃ holds : List (ι × List SkBuff), holds.map Prod.fst = acquires Ev.lockUse tr ∧
      (∀ i, (Resource.own holds i).Sublist ((ops i).flatMap (Operation.sends w.tx.headers))) ∧
      ∃ accepted : List SkBuff, accepted.Sublist (holds.flatMap Prod.snd) ∧
        c.state.tx.wire <:+ accepted.flatMap Tx.wireShards := by
  have passes : ∀ i, (ring δ n w.tx.dmaTrigger w.tx.headers).Passes
      ((ops i).flatMap (Operation.sends w.tx.headers)) (threads priv ops i) := fun i =>
    .forM (ops i) fun op mem => Operation.passes size (bound i op mem)
  have numDesc : w.tx.queue.xpqNumDesc = n := (init.at size.pos).numDesc
  obtain ⟨holds, order, own, flowing⟩ := Interleaving.protected
    (m := ring δ n w.tx.dmaTrigger w.tx.headers) (fun _ _ step => .single step)
    ⟨numDesc, rfl, rfl⟩ (init.flowing size flag) passes run free
  exact ⟨holds, order, own, flowing.carries⟩

/-- A frame on an interface and one on the client socket, on two threads. -/
theorem senders_share_ring_two_frames :
    let priv : PciPriv (List (Nat × BitVec 32)) := ⟨Pci.recorder, .b0Compressed⟩
    let w : World (List (Nat × BitVec 32)) :=
      ⟨[], Tx.freshState 0 .b0Compressed xpnetTxNumDescs,
        fun _ => Rx.freshState .b0Compressed 1, 0⟩
    let ops : Bool → List (Operation (List (Nat × BitVec 32))) := fun i =>
      if i then [.ndoStartXmit ⟨0, some .tx, 0⟩ 0 (Tx.zeroFrame 24 2)]
      else [.socketSend ⟨0, some .tx, 0⟩ (some ⟨Tx.zeroFrame 0 100, Tx.header_zeroFrame⟩)]
    ∃ tr c, Interleaving Ev.lockUse Meanwhile ⟨threads priv ops, none, w⟩ tr c ∧
      c.state.tx.wire.length = 2 ∧ ∃ holds : List (Bool × List SkBuff),
        (∀ i, (Resource.own holds i).Sublist
          ((ops i).flatMap (Operation.sends w.tx.headers))) ∧
        ∃ accepted : List SkBuff, accepted.Sublist (holds.flatMap Prod.snd) ∧
          c.state.tx.wire <:+ accepted.flatMap Tx.wireShards := by
  intro priv w ops
  have bound : ∀ i, ∀ op ∈ ops i, op.OnBound priv := by
    intro i op mem
    cases i with
    | true =>
        cases List.mem_singleton.mp mem
        trivial
    | false =>
        cases List.mem_singleton.mp mem
        trivial
  have locking : ∀ i, Locking Ev.lockUse (threads priv ops i) false false := fun i =>
    .forM (fun op => op.keepsLock) (ops i)
  have length : (((threads priv ops true).exec w).bind fun r =>
      ((threads priv ops false).exec r.2).map fun r => r.2.tx.wire.length) = some 2 := by
    decide +kernel
  obtain ⟨⟨⟨⟩, m⟩, first, rest⟩ := Option.bind_eq_some_iff.mp length
  obtain ⟨⟨⟨⟩, s⟩, second, two⟩ := Option.map_eq_some_iff.mp rest
  have idle : Interleaving Ev.lockUse Meanwhile ⟨threads priv ops, none, w⟩ [] _ := .start
  obtain ⟨tr, one⟩ := idle.alone (i := true) rfl rfl (locking true) first
  have left : Function.update (threads priv ops) true (.ret ()) false = threads priv ops false :=
    Function.update_of_ne Bool.noConfusion _ _
  obtain ⟨tr', both⟩ := one.alone (i := false) rfl left (locking false) second
  have flag : w.tx.isA0 = false := by decide
  obtain ⟨holds, -, shared⟩ := senders_share_ring (w := w) ringSize_txNumDescs bound
    (Tx.initial_freshState 0 .b0Compressed _) flag both rfl
  exact ⟨tr', _, both, two, holds, shared⟩

end Threads

end XpNet.Regs
