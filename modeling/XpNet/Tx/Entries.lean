/-
The ways into the transmit side and the state of the interfaces over whole runs.

A frame comes in through an interface (`xp_ndo_start_xmit`), through the callback
of the UDP client socket, or through the exported `xp_packet_send`. A run is a
sequence of such calls and of openings and closings of interfaces, with the device
acting at any time.

* `queues_run_iff`: whenever the device owns no descriptor, the queues of all open
  interfaces run, if and only if no frame is submitted to one while the ring is
  busy: nothing starts a queue again that a busy result has stopped. In one run it is
  enough that the frames of this run find room.
-/

import XpNet.Tx.Busy

namespace XpNet.Tx

open XpNet.Interference
open Relation (ReflTransGen)

/-! ### Ways in -/

/-- `skb_pull(skb, n)`, of bytes in the linear part. -/
def skbPull (skb : SkBuff) (n : Nat) (linear : n ≤ skb.data.length) : SkBuff where
  headroom := skb.headroom + n
  data := skb.data.drop n
  frags := skb.frags
  len := skb.len - n
  dataLen := skb.dataLen
  expanded := skb.expanded
  dataLen_eq := skb.dataLen_eq
  len_eq := by
    have := skb.len_eq
    rw [List.length_drop]
    omega

/-- The bytes of a UDP header. -/
def udpHeaderLen : Nat := 8

/-- A buffer on the receive queue of a UDP socket: its header is in the linear part. -/
structure Datagram where
  skb : SkBuff
  header : udpHeaderLen ≤ skb.data.length

/-- The datagram without its UDP header. -/
def Datagram.payload (d : Datagram) : SkBuff := skbPull d.skb udpHeaderLen d.header

/-- `xp_packet_send(sk)` of `xp_netdev_intf.c`, the callback of the UDP client
socket, with what it dequeues. -/
def xpPacketSend (dequeued : Option Datagram) : TxProg Unit :=
  match dequeued with
  | none => pure ()
  | some d => do
    -- a busy result is only reported
    let _ ← xpnetStartXmit d.payload
    pure ()

/-- A device of `xp_pcie_dev_ptr`: whether it has an `xpnet`, and whether
`xp_netdev_init` would give it one. -/
structure PcieDev where
  xpnet : Bool
  initGives : Bool
  deriving DecidableEq, Repr

/-- `xp_packet_send(dev, skb)` of `xp_pcie_slave.c`. The state is that of the
device's `xpnet`. -/
def xpPacketSendDev (devPtr : Int → Option PcieDev) (dev : Int) (skb : SkBuff) : TxProg Int :=
  if dev ≥ maxDevSupported then pure (-1)
  else match devPtr dev with
  | none => pure (-1)
  | some d =>
    if !(d.xpnet || d.initGives) then pure (-1)
    else do
      let exit ← xpnetStartXmit skb
      if exit.rc ≠ .ok then pure (-1) else pure 0

/-- A frame on its way into the transmit side. -/
inductive Entry where
  | ndoStartXmit (dev : Nat) (skb : SkBuff)
  | socket (datagram : Datagram)
  | packetSend (devPtr : Int → Option PcieDev) (dev : Int) (skb : SkBuff)

/-- The entry's call. Its result says whether the buffer is reported back to a
caller, with `NETDEV_TX_BUSY` or `-1`. -/
def Entry.prog : Entry → TxProg Bool
  | .ndoStartXmit dev skb => do
    let r ← xpNdoStartXmit dev skb
    pure (decide (r.1.rc = .busy))
  | .socket datagram => do
    xpPacketSend (some datagram)
    pure false
  | .packetSend devPtr dev skb => do
    let rc ← xpPacketSendDev devPtr dev skb
    pure (decide (rc = -1))

/-! ### Interfaces -/

/-- `xp_ndo_open`, and the flag that the kernel sets after it. -/
def xpNdoOpen (dev : Nat) : TxProg Unit := do
  Prog.write .priv fun s => s.updNetdev dev fun d => { d with queueStopped := false }
  Prog.write .priv fun s => s.updNetdev dev fun d => { d with up := true }

/-- `xp_ndo_stop`, and the flag that the kernel clears after it. -/
def xpNdoStop (dev : Nat) : TxProg Unit := do
  Prog.write (.stopQueue dev) fun s => s.updNetdev dev fun d => { d with queueStopped := true }
  Prog.write .priv fun s => s.updNetdev dev fun d => { d with up := false }

inductive NetCall where
  | ndoOpen (dev : Nat)
  | ndoStop (dev : Nat)
  | transmit (e : Entry)

def NetCall.prog : NetCall → TxProg Unit
  | .ndoOpen dev => xpNdoOpen dev
  | .ndoStop dev => xpNdoStop dev
  | .transmit e => do let _ ← e.prog

/-- A sequence of calls. -/
def runNet : List NetCall → TxProg Unit
  | [] => pure ()
  | call :: calls => do
    call.prog
    runNet calls

/-- The interface is open after these calls. -/
def opened (dev : Nat) (calls : List NetCall) : Bool :=
  calls.foldl (fun was call => match call with
    | .ndoOpen d => if d = dev then true else was
    | .ndoStop d => if d = dev then false else was
    | .transmit _ => was) false

/-- The buffer that `xp_ndo_start_xmit` passes on, by the header of the interface. -/
def withHeader (hdr : TxHeader) (skb : SkBuff) : SkBuff :=
  skbPush (if skb.headroom < txHeaderLen then skbCopyExpand skb txHeaderLen else skb) hdr.val

/-- What `xp_ndo_start_xmit` passes to `xpnet_start_xmit`. -/
def toSend (s : State) (dev : Nat) (skb : SkBuff) : SkBuff :=
  withHeader (s.netdev dev).txHeader skb

/-- What the end of `xp_ndo_start_xmit` does to its interface. -/
def finished (exit : XmitExit) (d : NetDevice) : NetDevice :=
  match exit.rc with
  | .ok => { d with txPackets := d.txPackets + 1 }
  | .busy => { d with queueStopped := true }

/-- The buffer that the end of `xp_ndo_start_xmit` releases: of a buffer and its
expanded copy, the one that `xpnet_start_xmit` has not. -/
def releasedAtEnd (skb : SkBuff) (newSkb : Option SkBuff) (exit : XmitExit) : List Bool :=
  match newSkb with
  | some new => [if exit.rc = .busy then new.expanded else skb.expanded]
  | none => []

section Submissions

variable {rely : State → State → Prop} {s s' : State} {tr : List (State × Ev)}

@[simp] theorem freed_nil : freed [] = [] := rfl

@[simp] theorem freed_cons (s : State) (lab : Ev) (tr : List (State × Ev)) :
    freed ((s, lab) :: tr) = lab.freed ++ freed tr := List.flatMap_cons

@[simp] theorem freed_append (tr tr' : List (State × Ev)) :
    freed (tr ++ tr') = freed tr ++ freed tr' := List.flatMap_append

/-- What the end of a submission changes and releases. -/
theorem runs_ndoFinish {dev : Nat} {skb : SkBuff} {newSkb : Option SkBuff} {exit : XmitExit}
    (run : Runs rely (ndoFinish dev skb newSkb exit) s tr () s') :
    ∃ t, ReflTransGen rely s t ∧ ReflTransGen rely (t.updNetdev dev (finished exit)) s' ∧
      freed tr = releasedAtEnd skb newSkb exit := by
  have written : ∀ (lab : Ev) {t : State} {tr' : List (State × Ev)}, lab.freed = [] →
      Runs rely (Prog.write lab fun s => s.updNetdev dev (finished exit)) t tr' () s' →
      ∃ u, ReflTransGen rely t u ∧ ReflTransGen rely (u.updNetdev dev (finished exit)) s' ∧
        freed tr' = [] := by
    intro lab t tr' quiet run
    cases run with
    | act steps rest =>
        cases rest with
        | ret later => exact ⟨_, steps, later, by simp [quiet]⟩
  have released : ∀ (lab : Ev) {e : Bool} {tr' : List (State × Ev)}, lab.freed = [] →
      Runs rely (Prog.emit (.kfreeSkb e) >>= fun _ =>
        Prog.write lab fun s => s.updNetdev dev (finished exit)) s tr' () s' →
      ∃ u, ReflTransGen rely s u ∧ ReflTransGen rely (u.updNetdev dev (finished exit)) s' ∧
        freed tr' = [e] := by
    intro lab e tr' quiet run
    obtain ⟨t, _, rest, steps, rfl⟩ := runs_emit run
    obtain ⟨u, steps', later, hfreed⟩ := written lab quiet rest
    exact ⟨u, steps.trans steps', later, by simp [hfreed, Ev.freed]⟩
  cases newSkb with
  | none =>
      cases exit with
      | txok => exact written .priv rfl run
      | txdrop => exact written .priv rfl run
      | txbusy => exact written (.stopQueue dev) rfl run
  | some new =>
      cases exit with
      | txok => exact released .priv rfl run
      | txdrop => exact released .priv rfl run
      | txbusy => exact released (.stopQueue dev) rfl run

/-- A submission to an interface that is down, or one that hands a frame over. -/
theorem runs_ndo {dev : Nat} {skb left : SkBuff} {exit : XmitExit}
    (env : ∀ s s', rely s s' → s'.netdev = s.netdev)
    (run : Runs rely (xpNdoStartXmit dev skb) s tr (exit, left) s') :
    ((s.netdev dev).up = false ∧ exit = .txdrop ∧ ReflTransGen rely s s' ∧
        freed tr = [skb.expanded]) ∨
      ((s.netdev dev).up = true ∧ ∃ t m u tr', ReflTransGen rely s t ∧
        Runs rely (xpnetStartXmit (toSend s dev skb)) t tr' exit m ∧ ReflTransGen rely m u ∧
        ReflTransGen rely (u.updNetdev dev (finished exit)) s' ∧
        freed tr = freed tr' ++ (if skb.headroom < txHeaderLen then
          [if exit.rc = .busy then true else skb.expanded] else [])) := by
  have same : ∀ {s t}, ReflTransGen rely s t → t.netdev = s.netdev := by
    intro s t steps
    induction steps with
    | refl => rfl
    | tail _ step ih => exact (env _ _ step).trans ih
  -- from the header on
  have send : ∀ {t t' : State} {tr' : List (State × Ev)} {new sent kept : SkBuff}
      {newSkb : Option SkBuff}, Runs rely (do
          let exit ← xpnetStartXmit new
          ndoFinish dev sent newSkb exit
          pure (exit, kept)) t tr' (exit, left) t' →
      ∃ m u tr'', Runs rely (xpnetStartXmit new) t tr'' exit m ∧ ReflTransGen rely m u ∧
        ReflTransGen rely (u.updNetdev dev (finished exit)) t' ∧
        freed tr' = freed tr'' ++ releasedAtEnd sent newSkb exit := by
    intro t t' tr' new sent kept newSkb run
    obtain ⟨-, m, tr₁, tr₂, first, finish, rfl⟩ := runs_sendAndFinish run
    obtain ⟨u, before, after, hfreed⟩ := runs_ndoFinish finish
    exact ⟨m, u, tr₁, first, before, after, by simp [hfreed]⟩
  obtain ⟨t, _, rest, steps, rfl⟩ := runs_look run
  rw [same steps] at rest
  split at rest
  case isFalse hdown =>
    obtain ⟨_, _, last, steps', rfl⟩ := runs_emit rest
    cases last with
    | ret later =>
        exact .inl ⟨by simpa using hdown, rfl, (steps.trans steps').trans later,
          by simp [Ev.freed]⟩
  case isTrue hup =>
    refine .inr ⟨hup, ?_⟩
    split at rest
    case isTrue hroom =>
      obtain ⟨u, _, alloc, steps', rfl⟩ := runs_look rest
      split at alloc
      · obtain ⟨v, _, header, steps'', rfl⟩ := runs_look alloc
        have hsteps := (steps.trans steps').trans steps''
        rw [same hsteps] at header
        obtain ⟨m, w, tr', inner, before, after, hfreed⟩ := send header
        have sent : Runs rely (xpnetStartXmit (toSend s dev skb)) v tr' exit m := by
          rw [toSend, withHeader, if_pos hroom]
          exact inner
        refine ⟨v, m, w, tr', hsteps, sent, before, after, ?_⟩
        simp [hfreed, Ev.freed, hroom, releasedAtEnd, skbPush, skbCopyExpand]
      · cases alloc
    case isFalse hroom =>
      obtain ⟨v, _, header, steps', rfl⟩ := runs_look rest
      have hsteps := steps.trans steps'
      rw [same hsteps] at header
      obtain ⟨m, w, tr', inner, before, after, hfreed⟩ := send header
      have sent : Runs rely (xpnetStartXmit (toSend s dev skb)) v tr' exit m := by
        rw [toSend, withHeader, if_neg hroom]
        exact inner
      refine ⟨v, m, w, tr', hsteps, sent, before, after, ?_⟩
      simp [hfreed, Ev.freed, hroom, releasedAtEnd]

/-- A submission that goes through to a given call of `xpnet_start_xmit`. -/
theorem exists_ndo {dev : Nat} {skb : SkBuff} {exit : XmitExit} (up : (s.netdev dev).up = true)
    (memory : s.allocOk = true) {m : State}
    (inner : Runs rely (xpnetStartXmit (toSend s dev skb)) s tr exit m) :
    ∃ tr' left, Runs rely (xpNdoStartXmit dev skb) s tr' (exit, left)
      (m.updNetdev dev (finished exit)) := by
  have finish : ∀ sent newSkb, ∃ tr', Runs rely (ndoFinish dev sent newSkb exit) m tr' ()
      (m.updNetdev dev (finished exit)) := by
    intro sent newSkb
    cases exit <;> cases newSkb <;>
      first
      | exact ⟨_, .act .refl (.ret .refl)⟩
      | exact ⟨_, .act .refl (.act .refl (.ret .refl))⟩
  have send : ∀ (new sent kept : SkBuff) (newSkb : Option SkBuff),
      Runs rely (xpnetStartXmit new) s tr exit m →
      ∃ tr', Runs rely (do
          let exit ← xpnetStartXmit new
          ndoFinish dev sent newSkb exit
          pure (exit, kept)) s tr' (exit, kept) (m.updNetdev dev (finished exit)) := by
    intro new sent kept newSkb inner
    obtain ⟨tr', last⟩ := finish sent newSkb
    exact ⟨_, runs_bind.mpr ⟨exit, m, tr, _, inner,
      runs_bind.mpr ⟨(), _, tr', [], last, .ret .refl, rfl⟩, rfl⟩⟩
  by_cases hroom : skb.headroom < txHeaderLen
  · rw [toSend, withHeader, if_pos hroom] at inner
    obtain ⟨tr', run⟩ := send _ skb skb (some (skbPush (skbCopyExpand skb txHeaderLen)
      (s.netdev dev).txHeader.val)) inner
    have expand : Runs rely (ndoExpand dev skb) s ((s, .priv) :: (s, .priv) :: tr') (exit, skb)
        (m.updNetdev dev (finished exit)) :=
      .look (by rw [memory, if_pos rfl]; exact .look run)
    exact ⟨_, skb, .look (by rw [up, if_pos rfl, if_pos hroom]; exact expand)⟩
  · rw [toSend, withHeader, if_neg hroom] at inner
    obtain ⟨tr', run⟩ := send _ (skbPush skb (s.netdev dev).txHeader.val)
      (skbPush skb (s.netdev dev).txHeader.val) none inner
    have inPlace : Runs rely (ndoInPlace dev skb) s ((s, .priv) :: tr') _
        (m.updNetdev dev (finished exit)) := .look run
    exact ⟨_, _, .look (by rw [up, if_pos rfl, if_neg hroom]; exact inPlace)⟩

end Submissions

/-! ### Runs -/

section Runs

variable {n : Nat} {a0 : Bool} {s s' : State} {tr : List (State × Ev)}

theorem SomeIdle.updNetdev (idle : SomeIdle n a0 s) (dev : Nat) (f : NetDevice → NetDevice) :
    SomeIdle n a0 (s.updNetdev dev f) := by
  obtain ⟨r, hr, idle⟩ := idle
  exact ⟨r, hr, ⟨⟨idle.base.indices.numDesc, idle.base.indices.head, idle.base.indices.tail⟩,
    idle.base.flag, idle.base.linked, idle.base.fifo⟩, idle.armed⟩

/-- `xpnet_start_xmit`, verified under no assumption. -/
theorem wp_startXmit_idle (size : RingSize n) (skb : SkBuff) (idle : SomeIdle n a0 s) :
    wp Env (fun _ _ => True) (TxGuar False) (xpnetStartXmit skb) (fun _ t => SomeIdle n a0 t) s :=
  wp_unassumed (fun _ _ h => h.elim) (wp_startXmit size skb idle)

/-- When the ring is not busy, the answer is not. -/
theorem not_txbusy (size : RingSize n) {skb : SkBuff} {exit : XmitExit} (idle : SomeIdle n a0 s)
    (room : ¬ RingBusy s skb) (run : Runs Env (xpnetStartXmit skb) s tr exit s') :
    exit ≠ .txbusy := by
  obtain ⟨r, rfl, idle⟩ := idle
  have hnum := idle.base.indices.numDesc
  have htail := idle.base.indices.tail
  intro busy
  exact room ((runs_startXmit_busy (env_stable_sameRing room) env_keepsBuffers
    (hnum ▸ size) (by rw [hnum, htail]; exact r.tail_lt) run).mp busy)

/-- When it is busy and the device does nothing, so is the answer. -/
theorem exists_txbusy (size : RingSize n) {skb : SkBuff} (idle : SomeIdle n a0 s)
    (busy : RingBusy s skb) : ∃ tr m, Runs Idling (xpnetStartXmit skb) s tr .txbusy m ∧
      SomeIdle n a0 m ∧ m.netdev = s.netdev := by
  obtain ⟨tr, exit, m, run⟩ := Runs.of_wp (wp_startXmit_idle size skb idle) Idling
  have hidle : SomeIdle n a0 m :=
    (run.mono fun _ _ h => h.elim).post (wp_startXmit_idle size skb idle)
  obtain ⟨r, rfl, idle⟩ := idle
  have hnum := idle.base.indices.numDesc
  have htail := idle.base.indices.tail
  obtain rfl := (runs_startXmit_busy (idling_stable _) idling_keepsBuffers
    (hnum ▸ size) (by rw [hnum, htail]; exact r.tail_lt) run).mpr busy
  exact ⟨tr, m, run, hidle, run.keeps (fun _ _ h => h.elim) (startXmit_frees skb)⟩

/-- What a call of `xpnet_start_xmit` leaves. -/
theorem runs_startXmit_idle (size : RingSize n) {skb : SkBuff} {exit : XmitExit}
    (idle : SomeIdle n a0 s) (run : Runs Env (xpnetStartXmit skb) s tr exit s') :
    SomeIdle n a0 s' ∧ s'.netdev = s.netdev :=
  ⟨run.post (wp_startXmit_idle size skb idle),
    run.keeps (fun _ _ step => env_netdev (.single step)) (startXmit_frees skb)⟩

/-- A frame on its way in: it is handed to `xpnet_start_xmit`, if anything is done with
it, and then an interface that it was submitted to is updated. -/
theorem runs_entry_xmit {e : Entry} {back : Bool} (run : Runs Env e.prog s tr back s') :
    ReflTransGen Env s s' ∨ ∃ skb tr' exit m, Runs Env (xpnetStartXmit skb) s tr' exit m ∧
      (ReflTransGen Env m s' ∨ ∃ dev sent, e = .ndoStartXmit dev sent ∧ skb = toSend s dev sent ∧
        ReflTransGen Env (m.updNetdev dev (finished exit)) s') := by
  cases e with
  | ndoStartXmit dev skb =>
      obtain ⟨⟨exit, left⟩, m, _, _, ndo, last, -⟩ := runs_bind.mp run
      cases last with
      | ret later =>
          rcases runs_ndo (fun _ _ step => env_netdev (.single step)) ndo with
            ⟨-, -, steps, -⟩ | ⟨-, t, v, u, tr', before, inner, between, after, -⟩
          · exact .inl (steps.trans later)
          · exact .inr ⟨_, tr', exit, u, (inner.before before).later between,
              .inr ⟨dev, skb, rfl, rfl, after.trans later⟩⟩
  | socket datagram =>
      obtain ⟨_, m, _, _, sent, last, -⟩ := runs_bind.mp run
      obtain ⟨exit, t, tr', _, inner, ended, -⟩ := runs_bind.mp sent
      cases last with
      | ret later =>
          cases ended with
          | ret steps => exact .inr ⟨_, tr', exit, t, inner, .inl (steps.trans later)⟩
  | packetSend devPtr dev skb =>
      obtain ⟨rc, m, _, _, sent, last, -⟩ := runs_bind.mp run
      cases last with
      | ret later =>
          unfold xpPacketSendDev at sent
          split at sent
          · cases sent with
            | ret steps => exact .inl (steps.trans later)
          split at sent
          · cases sent with
            | ret steps => exact .inl (steps.trans later)
          split at sent
          · cases sent with
            | ret steps => exact .inl (steps.trans later)
          · obtain ⟨exit, t, tr', _, inner, ended, -⟩ := runs_bind.mp sent
            have hsteps : ReflTransGen Env t m := by
              split at ended
              · cases ended with
                | ret steps => exact steps
              · cases ended with
                | ret steps => exact steps
            exact .inr ⟨_, tr', exit, t, inner, .inl (hsteps.trans later)⟩

/-- What a frame on its way in leaves: only an interface it is submitted to
changes, and its queue stops only if the ring is busy. -/
theorem runs_entry (size : RingSize n) {e : Entry} {back : Bool} (idle : SomeIdle n a0 s)
    (run : Runs Env e.prog s tr back s') :
    s'.netdev = s.netdev ∨ ∃ dev skb exit, e = .ndoStartXmit dev skb ∧
      s'.netdev = (s.updNetdev dev (finished exit)).netdev ∧
      (exit = .txbusy → RingBusy s (toSend s dev skb)) := by
  rcases runs_entry_xmit run with steps | ⟨_, _, exit, m, inner, steps | ⟨dev, skb, rfl, rfl, steps⟩⟩
  · exact .inl (env_netdev steps)
  · have hnetdev := (runs_startXmit_idle size idle inner).2
    exact .inl ((env_netdev steps).trans hnetdev)
  · have hnetdev := (runs_startXmit_idle size idle inner).2
    refine .inr ⟨dev, skb, exit, rfl, ?_, fun busy => ?_⟩
    · rw [env_netdev steps]
      simp only [State.updNetdev, hnetdev]
    · by_contra room
      exact not_txbusy size idle room inner busy

/-- Opening and stopping an interface are two writes to it. -/
theorem runs_switch {lab lab' : Ev} {dev : Nat} {f g : NetDevice → NetDevice}
    (run : Runs Env (do
        Prog.write lab fun s => s.updNetdev dev f
        Prog.write lab' fun s => s.updNetdev dev g) s tr () s') :
    ∃ t u, ReflTransGen Env s t ∧ ReflTransGen Env (t.updNetdev dev f) u ∧
      ReflTransGen Env (u.updNetdev dev g) s' := by
  obtain ⟨t, _, rest, before, -⟩ := runs_write run
  cases rest with
  | act between last =>
      cases last with
      | ret after => exact ⟨t, _, before, between, after⟩

/-- What they make of the interfaces. -/
theorem netdev_of_switch {lab lab' : Ev} {dev : Nat} {f g : NetDevice → NetDevice}
    (run : Runs Env (do
        Prog.write lab fun s => s.updNetdev dev f
        Prog.write lab' fun s => s.updNetdev dev g) s tr () s') :
    s'.netdev dev = g (f (s.netdev dev)) ∧ ∀ d, d ≠ dev → s'.netdev d = s.netdev d := by
  obtain ⟨t, u, before, between, after⟩ := runs_switch run
  have hnetdev := env_netdev after
  simp only [State.updNetdev, env_netdev between, env_netdev before] at hnetdev
  constructor
  · simp [hnetdev]
  · intro d hd
    simp [hnetdev, hd]

/-! ### Properties that every call keeps -/

/-- What the device, the updates of the interfaces and `xpnet_start_xmit` keep. -/
structure KeptByCalls (I : State → Prop) : Prop where
  device : Stable Env I
  interfaces : ∀ s dev f, I s → I (s.updNetdev dev f)
  startXmit : ∀ skb s tr exit s', Runs Env (xpnetStartXmit skb) s tr exit s' → I s → I s'

section Kept

variable {I : State → Prop}

/-- Opening and stopping an interface keep it. -/
theorem KeptByCalls.switch (kept : KeptByCalls I) {lab lab' : Ev} {dev : Nat}
    {f g : NetDevice → NetDevice} (run : Runs Env (do
        Prog.write lab fun s => s.updNetdev dev f
        Prog.write lab' fun s => s.updNetdev dev g) s tr () s') (holds : I s) : I s' := by
  obtain ⟨t, u, before, between, after⟩ := runs_switch run
  have ht := kept.interfaces t dev f (kept.device.steps before holds)
  exact kept.device.steps after (kept.interfaces u dev g (kept.device.steps between ht))

/-- Every call keeps it. -/
theorem KeptByCalls.call (kept : KeptByCalls I) {call : NetCall}
    (run : Runs Env call.prog s tr () s') (holds : I s) : I s' := by
  cases call with
  | ndoOpen dev => exact kept.switch run holds
  | ndoStop dev => exact kept.switch run holds
  | transmit e =>
      obtain ⟨back, m, _, _, sent, last, -⟩ := runs_bind.mp run
      cases last with
      | ret later =>
          rcases runs_entry_xmit (sent.later later) with
            steps | ⟨skb, tr', exit, t, inner, steps | ⟨dev, _, -, -, steps⟩⟩
          · exact kept.device.steps steps holds
          · exact kept.device.steps steps (kept.startXmit _ _ _ _ _ inner holds)
          · exact kept.device.steps steps
              (kept.interfaces t dev _ (kept.startXmit _ _ _ _ _ inner holds))

/-- Every run of calls keeps it. -/
theorem KeptByCalls.runNet (kept : KeptByCalls I) {calls : List NetCall} :
    ∀ {s : State} {tr : List (State × Ev)}, Runs Env (runNet calls) s tr () s' → I s → I s' := by
  induction calls with
  | nil =>
      intro s tr run holds
      cases run with
      | ret steps => exact kept.device.steps steps holds
  | cons call calls ih =>
      intro s tr run holds
      obtain ⟨_, m, _, _, first, rest, -⟩ := runs_bind.mp run
      exact ih rest (kept.call first holds)

/-- The queue stays idle. -/
theorem keptByCalls_idle (size : RingSize n) (a0 : Bool) : KeptByCalls (SomeIdle n a0) where
  device := env_stable_someIdle n a0
  interfaces _ dev f idle := idle.updNetdev dev f
  startXmit _ _ _ _ _ run idle := (runs_startXmit_idle size idle run).1

end Kept

/-! ### Calls one after the other -/

@[simp] theorem opened_concat (dev : Nat) (done : List NetCall) (call : NetCall) :
    opened dev (done ++ [call]) = match call with
      | .ndoOpen d => if d = dev then true else opened dev done
      | .ndoStop d => if d = dev then false else opened dev done
      | .transmit _ => opened dev done := by
  simp [opened]

theorem runs_runNet_concat {rely : State → State → Prop} {done : List NetCall} {call : NetCall} :
    ∀ {s : State} {tr : List (State × Ev)}, Runs rely (runNet (done ++ [call])) s tr () s' ↔
      ∃ m tr₁ tr₂, Runs rely (runNet done) s tr₁ () m ∧ Runs rely call.prog m tr₂ () s' ∧
        tr = tr₁ ++ tr₂ := by
  induction done with
  | nil =>
      intro s tr
      constructor
      · intro run
        obtain ⟨_, m, tr₁, tr₂, first, last, rfl⟩ := runs_bind.mp run
        cases last with
        | ret steps => exact ⟨s, [], tr₁, .ret .refl, first.later steps, by simp⟩
      · rintro ⟨m, tr₁, tr₂, first, last, rfl⟩
        cases first with
        | ret steps =>
            exact runs_bind.mpr ⟨(), s', tr₂, [], last.before steps, .ret .refl, by simp⟩
  | cons c done ih =>
      intro s tr
      constructor
      · intro run
        obtain ⟨_, m, tr₁, tr₂, first, rest, rfl⟩ := runs_bind.mp run
        obtain ⟨m', tr₃, tr₄, before, last, rfl⟩ := ih.mp rest
        exact ⟨m', _, tr₄, runs_bind.mpr ⟨(), m, tr₁, tr₃, first, before, rfl⟩, last, by simp⟩
      · rintro ⟨m, tr₁, tr₂, run, last, rfl⟩
        obtain ⟨_, m', tr₃, tr₄, first, rest, rfl⟩ := runs_bind.mp run
        exact runs_bind.mpr ⟨(), m', tr₃, _, first, ih.mpr ⟨m, tr₄, tr₂, rest, last, rfl⟩,
          by simp⟩

/-- What every run of calls keeps. -/
structure NetInv (n : Nat) (a0 : Bool) (done : List NetCall) (s : State) : Prop where
  idle : SomeIdle n a0 s
  up : ∀ dev, opened dev done = true → (s.netdev dev).up = true

/-- The queues of the open interfaces run. -/
def OpenRunning (done : List NetCall) (s : State) : Prop :=
  ∀ dev, opened dev done = true → (s.netdev dev).queueStopped = false

/-- Whenever the device owns no descriptor, the queues of the open interfaces run. -/
def QueuesRun (done : List NetCall) (s : State) : Prop :=
  (∀ i < s.queue.xpqNumDesc, s.owned i = false) → OpenRunning done s

/-- A frame that a call submits to an open interface finds room in the ring. -/
def FindsRoom (done : List NetCall) (s : State) : NetCall → Prop
  | .transmit (.ndoStartXmit dev skb) =>
      opened dev done = true → ¬ RingBusy s (toSend s dev skb)
  | _ => True

/-- One call keeps the invariant, and the queues running if it finds room. -/
theorem NetInv.step (size : RingSize n) {done : List NetCall} {call : NetCall}
    (inv : NetInv n a0 done s) (run : Runs Env call.prog s tr () s') :
    NetInv n a0 (done ++ [call]) s' ∧
      (OpenRunning done s → FindsRoom done s call → OpenRunning (done ++ [call]) s') := by
  have hidle := (keptByCalls_idle size a0).call run inv.idle
  cases call with
  | ndoOpen dev =>
      obtain ⟨hdev, hother⟩ := netdev_of_switch run
      refine ⟨⟨hidle, fun d hopen => ?_⟩, fun running _ d hopen => ?_⟩
      · by_cases hd : d = dev
        · rw [hd, hdev]
        · rw [hother d hd]
          exact inv.up d (by simpa [Ne.symm hd] using hopen)
      · by_cases hd : d = dev
        · rw [hd, hdev]
        · rw [hother d hd]
          exact running d (by simpa [Ne.symm hd] using hopen)
  | ndoStop dev =>
      obtain ⟨-, hother⟩ := netdev_of_switch run
      have hopened : ∀ d, opened d (done ++ [.ndoStop dev]) = true →
          opened d done = true ∧ s'.netdev d = s.netdev d := by
        intro d hopen
        by_cases hd : d = dev
        · subst hd
          simp at hopen
        · exact ⟨by simpa [Ne.symm hd] using hopen, hother d hd⟩
      refine ⟨⟨hidle, fun d hopen => ?_⟩, fun running _ d hopen => ?_⟩
      · rw [(hopened d hopen).2]
        exact inv.up d (hopened d hopen).1
      · rw [(hopened d hopen).2]
        exact running d (hopened d hopen).1
  | transmit e =>
      obtain ⟨back, m, _, _, sent, last, -⟩ := runs_bind.mp run
      cases last with
      | ret later =>
          have sent := sent.later later
          rcases runs_entry size inv.idle sent with
            hsame | ⟨dev, skb, exit, rfl, hnetdev, hbusy⟩
          · refine ⟨⟨hidle, fun d hopen => ?_⟩, fun running _ d hopen => ?_⟩
            · rw [hsame]
              exact inv.up d (by simpa using hopen)
            · rw [hsame]
              exact running d (by simpa using hopen)
          · have hup : ∀ d, (s'.netdev d).up = (s.netdev d).up := by
              intro d
              rw [hnetdev]
              by_cases hd : d = dev
              · subst hd
                cases exit <;> simp [State.updNetdev, finished, XmitExit.rc]
              · simp [State.updNetdev, hd]
            refine ⟨⟨hidle, fun d hopen => ?_⟩, fun running room d hopen => ?_⟩
            · rw [hup]
              exact inv.up d (by simpa using hopen)
            · have hwas : opened d done = true := by simpa using hopen
              rw [hnetdev]
              by_cases hd : d = dev
              · subst hd
                cases exit with
                | txbusy => exact absurd (hbusy rfl) (room hwas)
                | txok => simpa [State.updNetdev, finished, XmitExit.rc] using running d hwas
                | txdrop => simpa [State.updNetdev, finished, XmitExit.rc] using running d hwas
              · simpa [State.updNetdev, hd] using running d hwas

/-- Every run of calls keeps the invariant. -/
theorem netInv_of_runs (size : RingSize n) {s₀ : State} (init : Initial n s₀)
    {done : List NetCall} (run : Runs Env (runNet done) s₀ tr () s) :
    NetInv n s₀.isA0 done s := by
  induction done using List.reverseRecOn generalizing tr s with
  | nil =>
      cases run with
      | ret steps =>
          exact ⟨(env_stable_someIdle _ _).steps steps ⟨_, rfl, init.idle size.pos⟩,
            fun dev h => by simp [opened] at h⟩
  | append_singleton done call ih =>
      obtain ⟨m, _, _, before, last, -⟩ := runs_runNet_concat.mp run
      exact ((ih before).step size last).1

/-- Opening an interface leaves room in the ring. -/
theorem room_of_open {skb : SkBuff} {d dev : Nat} (room : ¬ RingBusy s (toSend s dev skb))
    (run : Runs Env (xpNdoOpen d) s tr () s') : ¬ RingBusy s' (toSend s' dev skb) := by
  have stable := env_stable_sameRing room
  obtain ⟨t, u, before, between, after⟩ := runs_switch run
  have same₁ := (stable.steps before (.refl _ _)).updNetdev d
    fun d => { d with queueStopped := false }
  have same₂ := (stable.steps between same₁).updNetdev d fun d => { d with up := true }
  have hsend : toSend s' dev skb = toSend s dev skb := by
    obtain ⟨hdev, hother⟩ := netdev_of_switch run
    unfold toSend
    by_cases hd : dev = d
    · rw [hd, hdev]
    · rw [hother dev hd]
  rw [hsend]
  exact (stable.steps after same₂).room room

/-- A run of calls each of which finds room when it begins. -/
inductive RoomyRun (s₀ : State) : List NetCall → State → Prop where
  | start {s : State} : ReflTransGen Env s₀ s → RoomyRun s₀ [] s
  | call {done call m} {tr : List (State × Ev)} {s : State} : RoomyRun s₀ done m →
      FindsRoom done m call → Runs Env call.prog m tr () s → RoomyRun s₀ (done ++ [call]) s

theorem RoomyRun.runs {s₀ : State} {done : List NetCall} (roomy : RoomyRun s₀ done s) :
    ∃ tr, Runs Env (runNet done) s₀ tr () s := by
  induction roomy with
  | start steps => exact ⟨[], .ret steps⟩
  | call _ _ last ih =>
      obtain ⟨tr, before⟩ := ih
      exact ⟨_, runs_runNet_concat.mpr ⟨_, _, _, before, last, rfl⟩⟩

/-- In such a run the queues of the open interfaces run. -/
theorem RoomyRun.openRunning (size : RingSize n) {s₀ : State} (init : Initial n s₀)
    {done : List NetCall} (roomy : RoomyRun s₀ done s) : OpenRunning done s := by
  induction roomy with
  | start _ => exact fun dev h => by simp [opened] at h
  | call before room last ih =>
      obtain ⟨_, run⟩ := before.runs
      exact ((netInv_of_runs size init run).step size last).2 ih room

/-- A run is one of these if every run of the calls finds room. -/
theorem roomyRun_of_runs {s₀ : State} {calls done : List NetCall}
    (room : ∀ done call, done ++ [call] <+: calls → ∀ tr s, Runs Env (runNet done) s₀ tr () s →
      FindsRoom done s call)
    (hbegin : done <+: calls) (run : Runs Env (runNet done) s₀ tr () s) :
    RoomyRun s₀ done s := by
  induction done using List.reverseRecOn generalizing tr s with
  | nil =>
      cases run with
      | ret steps => exact .start steps
  | append_singleton done call ih =>
      obtain ⟨m, _, _, before, last, -⟩ := runs_runNet_concat.mp run
      exact .call (ih ((List.prefix_append _ _).trans hbegin) before)
        (room done call hbegin _ m before) last

/-- The device gives back the first `k` descriptors, with their error bits. -/
theorem exists_drained (s : State) (k : Nat) : ∃ t, ReflTransGen Env s t ∧
    (∀ i < k, t.owned i = false) ∧ t.allocOk = s.allocOk ∧
      ∀ i, errorIndication (t.desc i).qword0 = errorIndication (s.desc i).qword0 := by
  induction k with
  | zero => exact ⟨s, .refl, fun i hi => absurd hi (Nat.not_lt_zero i), rfl, fun _ => rfl⟩
  | succ k ih =>
      obtain ⟨t, steps, hfree, halloc, herr⟩ := ih
      refine ⟨_, steps.tail ⟨.complete k, rfl⟩, fun i hi => ?_, ?_, fun i => ?_⟩
      · rcases Nat.lt_succ_iff_lt_or_eq.mp hi with hlt | rfl
        · exact env_stable_free i _ _ ⟨.complete k, rfl⟩ (hfree i hlt)
        · change State.owned (onOwned i clearOwn t) i = false
          unfold onOwned
          split
          · rw [State.owned, updDesc_self]
            exact ownership_clearOwn _
          · rename_i hown
            simpa using hown
      · rw [← halloc]
        change (onOwned k clearOwn t).allocOk = t.allocOk
        unfold onOwned
        split <;> rfl
      · rw [← herr i]
        change errorIndication ((onOwned k clearOwn t).desc i).qword0 = _
        unfold onOwned
        split
        · by_cases hik : i = k
          · subst hik
            rw [updDesc_self]
            exact errorIndication_clearOwn _
          · rw [updDesc_of_ne _ _ hik]
        · rfl

/-- A frame for an open interface, submitted while the ring is busy, can leave the
interface's queue stopped when the ring has drained. -/
theorem stopped_of_busy (size : RingSize n) {s₀ : State} (init : Initial n s₀)
    {done : List NetCall} {dev : Nat} {skb : SkBuff} (run : Runs Env (runNet done) s₀ tr () s)
    (hopen : opened dev done = true) (busy : RingBusy s (toSend s dev skb)) :
    ∃ tr' t, Runs Env (runNet (done ++ [.transmit (.ndoStartXmit dev skb)])) s₀ tr' () t ∧
      (∀ i < t.queue.xpqNumDesc, t.owned i = false) ∧ (t.netdev dev).queueStopped = true := by
  -- the allocator has memory, and the device does nothing before the answer
  have run := run.later (.single ⟨.memory true, rfl⟩)
  have inv := netInv_of_runs size init run
  obtain ⟨_, m, inner, -, hnetdev⟩ := exists_txbusy size inv.idle
    (show RingBusy _ (toSend _ dev skb) from busy)
  obtain ⟨tr', left, ndo⟩ := exists_ndo (inv.up dev hopen) rfl inner
  have sent : Runs Idling (NetCall.transmit (.ndoStartXmit dev skb)).prog _ _ () _ :=
    runs_bind.mpr ⟨_, _, _, [], runs_bind.mpr ⟨_, _, _, [], ndo, .ret .refl, rfl⟩,
      .ret .refl, rfl⟩
  have whole := runs_runNet_concat.mpr ⟨_, _, _, run, sent.mono fun _ _ h => h.elim, rfl⟩
  -- then it gives everything back
  obtain ⟨t, steps, hfree, -⟩ := exists_drained (m.updNetdev dev (finished .txbusy)) n
  have whole := whole.later steps
  refine ⟨_, t, whole, ?_, ?_⟩
  · obtain ⟨r, hr, idle⟩ := (netInv_of_runs size init whole).idle
    rw [idle.base.indices.numDesc, hr]
    exact hfree
  · rw [env_netdev steps]
    simp [State.updNetdev, finished, XmitExit.rc]

/-- **The queues of open interfaces.** In every run whose frames find room, with the device
acting at any time: whenever no call is in progress and the device owns no descriptor, the
queues of all open interfaces run. And they do so in every run of a sequence of calls if and
only if in none a frame is submitted to an open interface while the ring is busy. -/
theorem queues_run_iff (size : RingSize n) {s₀ : State} (init : Initial n s₀) :
    (∀ done s, RoomyRun s₀ done s → QueuesRun done s) ∧ ∀ calls,
    ((∀ done, done <+: calls → ∀ tr s, Runs Env (runNet done) s₀ tr () s → QueuesRun done s) ↔
      ∀ done call, done ++ [call] <+: calls → ∀ tr s, Runs Env (runNet done) s₀ tr () s →
        FindsRoom done s call) := by
  refine ⟨fun done s roomy _ => roomy.openRunning size init, fun calls => ?_⟩
  constructor
  · intro hall done call hbegin tr s run
    cases call with
    | ndoOpen dev => trivial
    | ndoStop dev => trivial
    | transmit e =>
        cases e with
        | socket datagram => trivial
        | packetSend devPtr dev skb => trivial
        | ndoStartXmit dev skb =>
            intro hopen busy
            obtain ⟨tr', t, whole, hfree, hstopped⟩ := stopped_of_busy size init run hopen busy
            have running := hall _ hbegin tr' t whole hfree dev (by simpa using hopen)
            rw [hstopped] at running
            cases running
  · intro room done hbegin tr s run _
    exact (roomyRun_of_runs room hbegin run).openRunning size init

end Runs

/-- A datagram of 100 zero bytes has its header. -/
theorem header_zeroFrame : udpHeaderLen ≤ (zeroFrame 0 100).data.length := by decide

/-- A frame of 100 zero bytes, with headroom for the header. -/
def interfaceFrame : SkBuff := zeroFrame txHeaderLen 100

/-- An interface is opened, and submits this frame. -/
def openAndSend : List NetCall := [.ndoOpen 0, .transmit (.ndoStartXmit 0 interfaceFrame)]

theorem queues_run_iff_interface : ∃ tr s, Runs Env (runNet openAndSend)
    (freshState 0 .b0Compressed xpnetTxNumDescs) tr () s ∧ QueuesRun openAndSend s := by
  have init := initial_freshState 0 .b0Compressed xpnetTxNumDescs
  have hexec : ((runNet openAndSend).exec (freshState 0 .b0Compressed xpnetTxNumDescs)).isSome =
      true := by
    decide +kernel
  obtain ⟨⟨⟨⟩, s⟩, hrun⟩ := Option.isSome_iff_exists.mp hexec
  obtain ⟨tr, run⟩ := Runs.of_exec hrun
  refine ⟨tr, s, run, ((queues_run_iff ringSize_txNumDescs init).2 openAndSend).mpr
    (fun done call hbegin tr m before => ?_) _ (List.prefix_refl _) tr s run⟩
  have hbegin : done ++ [call] <+:
      [NetCall.ndoOpen 0] ++ [.transmit (.ndoStartXmit 0 interfaceFrame)] := hbegin
  rcases List.prefix_concat_iff.mp hbegin with whole | first
  · obtain ⟨rfl, hlast⟩ := List.append_inj' whole rfl
    cases List.singleton_inj.mp hlast
    have before : Runs Env (runNet ([] ++ [.ndoOpen 0])) _ tr () m := before
    obtain ⟨t, _, _, start, opening, -⟩ := runs_runNet_concat.mp before
    cases start with
    | ret steps => exact fun _ => room_of_open (by decide +kernel) (opening.before steps)
  · have first : done ++ [call] <+: [] ++ [NetCall.ndoOpen 0] := first
    rcases List.prefix_concat_iff.mp first with whole | none
    · obtain ⟨rfl, hlast⟩ := List.append_inj' whole rfl
      cases List.singleton_inj.mp hlast
      trivial
    · exact absurd (List.prefix_nil.mp none) (by simp)

/-- An interface is opened and submits a frame more than the ring holds. -/
def fillRing : List NetCall :=
  .ndoOpen 0 :: List.replicate xpnetTxNumDescs (.transmit (.ndoStartXmit 0 (zeroFrame 24 100)))

/-- The queue that the last frame stops is still stopped when the ring has drained. -/
theorem stopped_when_drained :
    ¬ ∀ s₀ : State, Initial xpnetTxNumDescs s₀ → ∀ calls tr s,
      Runs Env (runNet calls) s₀ tr () s → QueuesRun calls s := by
  intro hall
  have init := initial_freshState 0 .b0Compressed xpnetTxNumDescs
  have hexec : ((runNet fillRing).exec (freshState 0 .b0Compressed xpnetTxNumDescs)).map
      (fun r => (r.2.netdev 0).queueStopped) = some true := by
    decide +kernel
  obtain ⟨⟨⟨⟩, s⟩, hrun, hstopped⟩ := Option.map_eq_some_iff.mp hexec
  obtain ⟨tr, run⟩ := Runs.of_exec hrun
  obtain ⟨t, steps, hfree, -⟩ := exists_drained s xpnetTxNumDescs
  have whole := run.later steps
  obtain ⟨r, hr, idle⟩ := (netInv_of_runs ringSize_txNumDescs init whole).idle
  have running := hall _ init _ _ t whole
    (by rw [idle.base.indices.numDesc, hr]; exact hfree) 0 (by decide)
  rw [env_netdev steps] at running
  exact absurd (hstopped.symm.trans running) (by decide)

end XpNet.Tx
