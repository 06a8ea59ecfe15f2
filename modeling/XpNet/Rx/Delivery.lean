/-
What becomes of the bytes that the device writes, from the ring to the sockets and
interfaces.

The polls of a queue run with the device acting between any two of their accesses, and with
netlink messages handled between any two. `World` keeps what the device has written, and
what has come to the driver: the messages, and the frames that the polls hand over. No code
reads it.

Whatever the device reports, the frames handed over are the first of those written, in
order and each once; and each goes where the interfaces and traps of that moment send it
(`ring_reaches_interfaces`). When a descriptor is turned down nothing is handed over any
more, and nothing in the wrong place.
-/

import XpNet.Intf.Switchboard
import XpNet.Rx.Armed
import XpNet.Rx.Polls
import XpNet.Rx.Row
import XpNet.Rx.Stores

namespace XpNet.Rx

open XpNet.Interference

/-! ### Around the queue -/

/-- What the calls of `xp_rx_skb_process` get beside the bytes of their frames: socket
buffers with them, and the answers to their allocations. -/
structure Buffers where
  skb : Nat → Frame → Intf.RxSkb
  alloc : Nat → Nat → Bool
  bytes : ∀ k f, (skb k f).bytes = f

structure World where
  written : List Frame
  inputs : List Intf.RxInput

/-- The frame of an input, if it is one. -/
def frameOf : Intf.RxInput → Option Frame
  | .message _ _ => none
  | .frame _ skb => some skb.bytes

def frames (inputs : List Intf.RxInput) : List Frame := inputs.filterMap frameOf

/-- A frame comes to the driver when the poll delivers it. -/
def handedOver (bufs : Buffers) : Ev → World → World
  | .deliver frame, w => { w with
      inputs := w.inputs ++
        [.frame (bufs.alloc w.inputs.length) (bufs.skb w.inputs.length frame)] }
  | _, w => w

def deviceActs (m : EnvMove) (x : State × World) : State × World :=
  (envMove m x.1, { x.2 with written := x.2.written ++ writtenBy m x.1 })

def messageComes (kernel : Intf.Kernel) (msg : Intf.XpNlMsg) (x : State × World) : State × World :=
  (x.1, { x.2 with inputs := x.2.inputs ++ [.message kernel msg] })

/-- The device acts, or a message is handled. -/
inductive Around (x : State × World) : State × World → Prop where
  | device (m : EnvMove) : Around x (deviceActs m x)
  | message (kernel : Intf.Kernel) (msg : Intf.XpNlMsg) : Around x (messageComes kernel msg x)

/-- The frames that have come to the driver are the first of those written. -/
def InLine (x : State × World) : Prop := ∃ pending, x.2.written = frames x.2.inputs ++ pending

/-- The host has taken `back`, and what is written behind it is `P`. -/
def Flows (P : List Frame → State → Prop) (back : List Frame) (x : State × World) : Prop :=
  ∃ pend, P pend x.1 ∧ x.2.written = frames x.2.inputs ++ (back ++ pend)

/-- What the device writes comes last. -/
def Grows (P : List Frame → State → Prop) : Prop :=
  ∀ pend s m, P pend s → P (pend ++ writtenBy m s) (envMove m s)

section World

variable {P : List Frame → State → Prop} {back : List Frame} {x : State × World}

theorem frames_message (inputs : List Intf.RxInput) (kernel : Intf.Kernel) (msg : Intf.XpNlMsg) :
    frames (inputs ++ [.message kernel msg]) = frames inputs := by
  simp [frames, frameOf]

theorem frames_frame (inputs : List Intf.RxInput) (alloc : Nat → Bool) (skb : Intf.RxSkb) :
    frames (inputs ++ [.frame alloc skb]) = frames inputs ++ [skb.bytes] := by
  simp [frames, frameOf]

theorem Flows.inLine (flows : Flows P back x) : InLine x := by
  obtain ⟨pend, -, written⟩ := flows
  exact ⟨back ++ pend, written⟩

theorem stable_flows (grows : Grows P) : Stable Around (Flows P back) := by
  rintro x _ step ⟨pend, holds, written⟩
  cases step with
  | device m =>
      refine ⟨pend ++ writtenBy m x.1, grows pend x.1 m holds, ?_⟩
      change x.2.written ++ writtenBy m x.1 = _
      rw [written, List.append_assoc, List.append_assoc]
      rfl
  | message kernel msg =>
      refine ⟨pend, holds, ?_⟩
      change x.2.written = frames (x.2.inputs ++ [.message kernel msg]) ++ _
      rw [frames_message]
      exact written

end World

/-! ### One access -/

section Accesses

variable {bufs : Buffers} {P : List Frame → State → Prop} {back : List Frame} {x : State × World}

/-- What a program of the driver does to the world, whether or not it returns. -/
abbrev Delivers (bufs : Buffers) {α : Type} (p : RxProg α) (Q : α → State × World → Prop)
    (x : State × World) : Prop :=
  Upholds Around InLine (p.ghost (handedOver bufs)) Q x

theorem Flows.ret {α : Type} {Q : α → State × World → Prop} {a : α} (flows : Flows P back x)
    (grows : Grows P) (post : ∀ y, Flows P back y → Q a y) : Delivers bufs (.ret a) Q x :=
  .ret (stable_flows grows) flows fun y hy => ⟨hy.inLine, post y hy⟩

theorem Flows.look {α β : Type} {l : Ev} {g : State → α} {f : α → RxProg β}
    {Q : β → State × World → Prop} (flows : Flows P back x) (grows : Grows P)
    (silent : handedOver bufs l = id)
    (rest : ∀ y, Flows P back y → Delivers bufs (f (g y.1)) Q y) :
    Delivers bufs (Prog.look l g >>= f) Q x := by
  refine .ghost_look (stable_flows grows) flows fun y hy => ⟨hy.inLine, ?_⟩
  rw [silent]
  exact rest y hy

theorem Flows.write {β : Type} {l : Ev} {u : State → State} {f : Unit → RxProg β}
    {Q : β → State × World → Prop} (P' : List Frame → State → Prop) (flows : Flows P back x)
    (grows : Grows P) (silent : handedOver bufs l = id) (step : ∀ pend s, P pend s → P' pend (u s))
    (rest : ∀ y, Flows P' back y → Delivers bufs (f ()) Q y) :
    Delivers bufs (Prog.write l u >>= f) Q x := by
  refine .ghost_write (stable_flows grows) flows fun y hy => ⟨hy.inLine, ?_⟩
  obtain ⟨pend, holds, written⟩ := hy
  rw [silent]
  exact rest _ ⟨pend, step pend y.1 holds, written⟩

end Accesses

/-! ### The states of a queue -/

/-- The row starts at `t`, and the host is before it, with `K` of the descriptors it has. -/
def RowAt (n : Nat) (mode : AddressMode) (lo t tail : Nat) (K : (Nat → Desc) → Prop)
    (pend : List Frame) (s : State) : Prop :=
  Row n mode lo t pend s ∧ s.queue.tail = tail ∧ K s.desc

/-- Slot `i` is as `d`. -/
def SlotIs (i : Nat) (d : Desc) (desc : Nat → Desc) : Prop := desc i = d

/-- The pass has ended, and the host is back at the first slot. -/
def Ended (n : Nat) (mode : AddressMode) (K : State → Prop) (pend : List Frame) (s : State) :
    Prop :=
  pend = [] ∧ Row n mode n n [] s ∧ s.queue.tail = 0 ∧ K s

/-- The host stays at a slot that the device owns, or not yet. -/
def StuckAt (n i : Nat) (K : Desc → Prop) (_ : List Frame) (s : State) : Prop := Stuck n i K s

section States

variable {n lo t tail i : Nat} {mode : AddressMode} {d : Desc} {pend : List Frame} {s : State}

theorem grows_row (n : Nat) (mode : AddressMode) (t tail : Nat) :
    Grows (RowAt n mode t t tail fun _ => True) := by
  rintro pend s m ⟨row, htail, -⟩
  obtain ⟨row', htail', -⟩ := row.moves (Nat.le_refl t) m
  exact ⟨row', htail'.trans htail, trivial⟩

theorem grows_slot (n : Nat) (mode : AddressMode) (i tail : Nat) (d : Desc) :
    Grows (RowAt n mode i (i + 1) tail (SlotIs i d)) := by
  rintro pend s m ⟨row, htail, hslot⟩
  obtain ⟨row', htail', low⟩ := row.moves (Nat.le_succ i) m
  exact ⟨row', htail'.trans htail, (low i (Nat.lt_succ_self i)).trans hslot⟩

theorem grows_ended {K : State → Prop} (alloc : ∀ s ok, K s → K { s with allocOk := ok }) :
    Grows (Ended n mode K) := by
  rintro pend s m ⟨rfl, row, htail, hK⟩
  obtain ⟨nothing, same⟩ := envMove_of_none (row.device.trans (if_neg (by simp))) m
  rw [nothing, same]
  exact ⟨rfl, row.congr rfl rfl rfl, htail, alloc s _ hK⟩

theorem grows_stuck (n i : Nat) (K : Desc → Prop) : Grows (StuckAt n i K) :=
  fun _ _ m stuck => stuck.moves m

end States

/-! ### A descriptor that is turned down -/

section Polls

variable {bufs : Buffers} {n i size : Nat} {mode : AddressMode} {d : Desc} {f : Frame}
  {back : List Frame} {x : State × World} {K : Desc → Prop}

/-- The host stays at a slot of the device. -/
abbrev Stays (n : Nat) (x : State × World) : Prop :=
  ∃ i back, Flows (StuckAt n i fun d => ownership d.qword0 = true) back x

/-- A store to the slot that the host stays at. -/
theorem Flows.storeStuck {β : Type} {l : Ev} {g : Desc → Desc} {f : Unit → RxProg β}
    {Q : β → State × World → Prop} (K' : Desc → Prop) (flows : Flows (StuckAt n i K) back x)
    (silent : handedOver bufs l = id) (keeps : ∀ d, (g d).cdp = d.cdp) (here : ∀ d, K d → K' (g d))
    (rest : ∀ y, Flows (StuckAt n i K') back y → Delivers bufs (f ()) Q y) :
    Delivers bufs (storeDesc l i g >>= f) Q x :=
  flows.write (StuckAt n i K') (grows_stuck n i K) silent
    (fun _ _ stuck => Stuck.upd stuck (keeps _) (here _ stuck.here)) rest

theorem rejectDesc_eq (n i : Nat) (count : Stats → Stats) :
    rejectDesc n i count = xpnetRxDescReset n i >>= fun _ => loadQword0 i >>= fun qword0 =>
      storeDesc (.storeQword i 0) i (setQword0 (enabledBits qword0)) >>= fun _ =>
      Prog.write .priv fun s => { s with stats := count s.stats } := rfl

/-- It is armed where it is, and is the device's then. -/
theorem delivers_rejectDesc (count : Stats → Stats)
    (flows : Flows (StuckAt n i fun _ => True) back x) :
    Delivers bufs (rejectDesc n i count) (fun _ y => Stays n y) x := by
  have grows := grows_stuck n i
  let owned (d : Desc) : Prop := ownership d.qword0 = true
  rw [rejectDesc_eq, rxDescReset_bind]
  refine flows.look (grows _) rfl fun y hy => ?_
  refine hy.storeStuck (fun _ => True) rfl (fun _ => rfl) (fun _ _ => trivial) fun y hy => ?_
  refine hy.storeStuck (fun _ => True) rfl (fun _ => rfl) (fun _ _ => trivial) fun y hy => ?_
  refine hy.storeStuck (fun _ => True) rfl (fun _ => rfl) (fun _ _ => trivial) fun y hy => ?_
  refine hy.storeStuck owned rfl (fun _ => rfl) (fun _ _ => ownership_ownBit) fun y hy => ?_
  refine hy.look (grows _) rfl fun y hy => ?_
  refine hy.storeStuck owned rfl (fun _ => rfl) (fun _ _ => ownership_enabledBits _)
    fun y hy => ?_
  refine hy.write (f := .ret) (StuckAt n i owned) (grows _) rfl (fun _ s stuck => ?_)
    fun y hy => ?_
  · exact Stuck.congr stuck rfl stuck.ahead
  · exact hy.ret (grows _) fun _ hz => ⟨i, back, hz⟩

/-! ### A packet that is taken -/

/-- The host is between two rounds. -/
def Lined (n : Nat) (mode : AddressMode) (x : State × World) : Prop :=
  (∃ t < n, Flows (RowAt n mode t t t fun _ => True) [] x) ∨ Stays n x

theorem stable_lined : Stable Around (Lined n mode) := by
  rintro x x' step (⟨t, ht, flows⟩ | ⟨i, back, flows⟩)
  · exact .inl ⟨t, ht, stable_flows (grows_row n mode t t) x x' step flows⟩
  · exact .inr ⟨i, back, stable_flows (grows_stuck n i _) x x' step flows⟩

theorem Lined.inLine (lined : Lined n mode x) : InLine x := by
  rcases lined with ⟨t, -, flows⟩ | ⟨i, back, flows⟩
  · exact flows.inLine
  · exact flows.inLine

theorem Lined.ret {α : Type} {Q : α → State × World → Prop} {a : α} (lined : Lined n mode x)
    (post : ∀ y, Lined n mode y → Q a y) : Delivers bufs (.ret a) Q x :=
  .ret stable_lined lined fun y hy => ⟨hy.inLine, post y hy⟩

/-- A store to the slot that the host has taken. -/
theorem Flows.storeSlot {β : Type} {l : Ev} {g : Desc → Desc} {p : Unit → RxProg β}
    {Q : β → State × World → Prop} {tail : Nat}
    (flows : Flows (RowAt n mode i (i + 1) tail (SlotIs i d)) back x)
    (silent : handedOver bufs l = id) (keeps : (g d).cdp = d.cdp ∧ (g d).qword3 = d.qword3)
    (rest : ∀ y, Flows (RowAt n mode i (i + 1) tail (SlotIs i (g d))) back y →
      Delivers bufs (p ()) Q y) :
    Delivers bufs (storeDesc l i g >>= p) Q x := by
  refine flows.write _ (grows_slot n mode i tail d) silent ?_ rest
  rintro pend s ⟨row, htail, rfl⟩
  exact ⟨row.upd keeps, htail, updDesc_self s i g⟩

/-- What the swap leaves is read as it went over the wire. -/
theorem readBytes_swapped {va va' : Image} (fits : size ≤ xpnetMaxPacketSize)
    (swapped : xpnetEndianSwap32 va size mode = some va') :
    readBytes va' size = wireBytes va size mode := by
  simp only [xpnetMaxPacketSize] at fits
  rcases Nat.eq_zero_or_pos size with rfl | pos
  · rfl
  · rw [xpnetEndianSwap32_eq va mode pos (by omega)] at swapped
    cases swapped
    rfl

/-- The byte swap ends with the bytes that the device wrote, or does not end. -/
theorem delivers_swapBuffer (done : Done mode d f)
    (fits : pktSize mode d.qword1 ≤ xpnetMaxPacketSize)
    (flows : Flows (RowAt n mode i (i + 1) i (SlotIs i d)) [f] x) :
    Delivers bufs (swapBuffer mode i (pktSize mode d.qword1)) (fun _ y =>
      ∃ va, readBytes va (pktSize mode d.qword1) = f ∧
        Flows (RowAt n mode i (i + 1) i (SlotIs i (setVa va d))) [f] y) x := by
  refine flows.look (grows_slot n mode i i d) rfl fun y hy => ?_
  have hslot : y.1.desc i = d := by
    obtain ⟨pend, ⟨-, -, hslot⟩, -⟩ := hy
    exact hslot
  rw [hslot]
  cases swapped : xpnetEndianSwap32 d.bufSta.va (pktSize mode d.qword1) mode with
  | none => exact .diverge (stable_flows (grows_slot n mode i i d)) hy fun z hz => hz.inLine
  | some va =>
      have bytes := (readBytes_swapped fits swapped).trans done.frame.symm
      refine hy.storeSlot (p := .ret) (g := setVa va) rfl ⟨rfl, rfl⟩ fun z hz => ?_
      exact hz.ret (grows_slot n mode i i _) fun w hw => ⟨va, bytes, hw⟩

/-- Handing over the frame leaves the queue between two rounds. -/
theorem delivers_deliver {P : List Frame → State → Prop} (grows : Grows P)
    (flows : Flows P [f] x)
    (next : ∀ pend s, P pend s → ∃ t < n, RowAt n mode t t t (fun _ => True) pend
      { s with delivered := s.delivered ++ [f] }) :
    Delivers bufs (Prog.write (.deliver f) fun s => { s with delivered := s.delivered ++ [f] })
      (fun _ y => Lined n mode y) x := by
  refine .act (stable_flows grows) flows fun y hy => ⟨hy.inLine, ?_⟩
  obtain ⟨pend, holds, written⟩ := hy
  obtain ⟨t, ht, row⟩ := next pend y.1 holds
  have lined : Lined n mode ({ y.1 with delivered := y.1.delivered ++ [f] },
      handedOver bufs (.deliver f) y.2) := by
    refine .inl ⟨t, ht, pend, row, ?_⟩
    change y.2.written = frames (y.2.inputs ++ [.frame _ _]) ++ ([] ++ pend)
    rw [written, frames_frame, bufs.bytes, List.append_assoc]
    rfl
  exact lined.ret fun z hz => hz

/-- From a row that starts at the host's slot. -/
theorem delivers_deliver_row {t : Nat} (ht : t < n)
    (flows : Flows (RowAt n mode t t t fun _ => True) [f] x) :
    Delivers bufs (Prog.write (.deliver f) fun s => { s with delivered := s.delivered ++ [f] })
      (fun _ y => Lined n mode y) x :=
  delivers_deliver (grows_row n mode t t) flows fun _ _ ⟨row, htail, _⟩ =>
    ⟨t, ht, row.congr rfl rfl rfl, htail, trivial⟩

/-- The next pass begins where the chain does. -/
theorem delivers_restart (pos : 0 < n) (flows : Flows (Ended n mode fun _ => True) [f] x) :
    Delivers bufs (do
        xpnetSetQCdp 0
        xpnetQueueEnable
        Prog.write (.deliver f) fun s => { s with delivered := s.delivered ++ [f] })
      (fun _ y => Lined n mode y) x := by
  refine flows.write (Ended n mode fun s => s.cdp = s.queue.dma) (grows_ended fun _ _ h => h) rfl
    ?cdp fun y hy => ?_
  case cdp =>
    rintro pend s ⟨rfl, row, htail, -⟩
    exact ⟨rfl, row.setCdp _, htail, by simp⟩
  refine hy.write (RowAt n mode 0 0 0 fun _ => True) (grows_ended fun _ _ h => h) rfl ?enable
    fun z hz => delivers_deliver_row pos hz
  rintro pend s ⟨rfl, row, htail, hcdp⟩
  exact ⟨row.restart pos hcdp, htail, trivial⟩

/-- What follows the swap gives the slot back and hands the frame over. -/
theorem delivers_handOver (ring : RingSize n) (hi : i < n) (bytes : readBytes d.bufSta.va size = f)
    (flows : Flows (RowAt n mode i (i + 1) i (SlotIs i d)) [f] x) :
    Delivers bufs (handOver n i size) (fun _ y => Lined n mode y) x := by
  refine flows.look (grows_slot n mode i i d) rfl fun y hy => ?_
  have frame : readBytes (y.1.desc i).bufSta.va size = f := by
    obtain ⟨pend, ⟨-, -, hslot⟩, -⟩ := hy
    rw [hslot, bytes]
  rw [frame]
  refine hy.storeSlot (g := fun d => { d with qword1 := d.bufSta.len }) rfl ⟨rfl, rfl⟩
    fun z hz => ?_
  refine hz.write (RowAt n mode (i + 1) (i + 1) i fun _ => True) (grows_slot n mode i i _) rfl ?own
    fun w hw => ?_
  case own =>
    rintro pend s ⟨row, htail, -⟩
    have armed : ((s.updDesc i (setQword0 ownBit)).desc i).qword0 = ownBit := by
      rw [updDesc_self]
      rfl
    exact ⟨(row.upd ⟨rfl, rfl⟩).arm armed, htail, trivial⟩
  have hnext : xpnetAddAndWrap i 1 n = (i + 1) % n :=
    xpnetAddAndWrap_eq ring (Nat.le_of_lt hi) ring.pos
  by_cases hlast : i + 1 = n
  · have hzero : xpnetAddAndWrap i 1 n = 0 := by rw [hnext, hlast, Nat.mod_self]
    rw [hzero]
    refine hw.write (Ended n mode fun _ => True) (grows_row n mode (i + 1) i) rfl ?_
      fun v hv => delivers_restart ring.pos hv
    rintro pend s ⟨row, -, -⟩
    rw [hlast] at row
    obtain rfl := row.ended
    exact ⟨rfl, row.setTail 0, rfl, trivial⟩
  · have hsucc : xpnetAddAndWrap i 1 n = i + 1 := by rw [hnext, Nat.mod_eq_of_lt (by omega)]
    rw [hsucc]
    refine hw.write (RowAt n mode (i + 1) (i + 1) (i + 1) fun _ => True)
      (grows_row n mode (i + 1) i) rfl ?_ fun v hv => ?_
    · rintro pend s ⟨row, -, -⟩
      exact ⟨row.setTail (i + 1), rfl, trivial⟩
    · rw [restartAtZero, if_neg (Nat.succ_ne_zero i)]
      exact delivers_deliver_row (by omega) hv

theorem delivers_takePacket (ring : RingSize n) (hi : i < n) (done : Done mode d f)
    (fits : pktSize mode d.qword1 ≤ xpnetMaxPacketSize)
    (flows : Flows (RowAt n mode i (i + 1) i (SlotIs i d)) [f] x) :
    Delivers bufs (takePacket mode n i (pktSize mode d.qword1)) (fun _ y => Lined n mode y) x := by
  rw [takePacket_eq]
  refine .ghost_seq (delivers_swapBuffer done fits flows) ?_
  rintro _ y ⟨va, bytes, hy⟩
  exact delivers_handOver ring hi bytes hy

/-! ### A round -/

/-- The host turns down the slot it has looked at. -/
theorem Flows.turnDown (flows : Flows (RowAt n mode i (i + 1) i (SlotIs i d)) [f] x) :
    Flows (StuckAt n i fun _ => True) [f] x := by
  obtain ⟨pend, ⟨row, htail, -⟩, written⟩ := flows
  exact ⟨pend, row.stuck htail trivial, written⟩

/-- The host leaves the slot it has looked at where it is. -/
theorem Flows.leave (done : Done mode d f)
    (flows : Flows (RowAt n mode i (i + 1) i (SlotIs i d)) [f] x) :
    Flows (RowAt n mode i i i fun _ => True) [] x := by
  obtain ⟨pend, ⟨row, htail, hslot⟩, written⟩ := flows
  exact ⟨f :: pend, ⟨row.untake (hslot.symm ▸ done), htail, trivial⟩, written⟩

/-- A descriptor of the host is taken, turned down, or left for want of memory. -/
theorem delivers_pollOwned (ring : RingSize n) (hi : i < n) (done : Done mode d f)
    (flows : Flows (RowAt n mode i (i + 1) i (SlotIs i d)) [f] x) :
    Delivers bufs (pollOwned mode n i) (fun _ y => Lined n mode y) x := by
  let held := RowAt n mode i (i + 1) i (SlotIs i d)
  have grows : Grows held := grows_slot n mode i i d
  refine flows.write held grows rfl ?jiffies fun y hy => ?_
  case jiffies =>
    rintro pend s ⟨row, htail, hslot⟩
    exact ⟨row.congr rfl rfl rfl, htail, hslot⟩
  refine Flows.look hy grows rfl fun z hz => ?_
  have hslot : z.1.desc i = d := by
    obtain ⟨pend, ⟨-, -, hslot⟩, -⟩ := hz
    exact hslot
  rw [hslot]
  dsimp only
  split
  case isTrue =>
    refine .ghost_seq (delivers_rejectDesc _ (Flows.turnDown hz)) fun _ w stays => ?_
    exact Lined.ret (.inr stays) fun _ h => h
  case isFalse fits =>
    refine Flows.look hz grows rfl fun w hw => ?_
    split
    · refine .ghost_seq (delivers_takePacket ring hi done (Nat.not_lt.mp fits) hw) fun _ v lined => ?_
      exact lined.ret fun _ h => h
    · exact Lined.ret (.inl ⟨i, hi, Flows.leave done hw⟩) fun _ h => h

/-- A slot that the host owns holds the first of what is in the row. -/
theorem Flows.first (flows : Flows (RowAt n mode i i i fun _ => True) [] x) (hi : i < n)
    (host : ownership (x.1.desc i).qword0 = false) :
    ∃ f, Done mode (x.1.desc i) f ∧
      Flows (RowAt n mode i (i + 1) i (SlotIs i (x.1.desc i))) [f] x := by
  obtain ⟨pend, ⟨row, htail, -⟩, written⟩ := flows
  cases pend with
  | nil =>
      rw [row.armed i hi (.inr (Nat.le_refl i))] at host
      cases host
  | cons f pend => exact ⟨f, row.first, pend, ⟨row.take, htail, rfl⟩, written⟩

theorem host_of_error {q : BitVec 64} (error : q >>> 0 = 1) : ownership q = false := by
  rw [BitVec.ushiftRight_zero] at error
  rw [error]
  decide

/-- A round at a row. -/
theorem delivers_pollRound_row (ring : RingSize n) (hi : i < n)
    (flows : Flows (RowAt n mode i i i fun _ => True) [] x) :
    Delivers bufs pollRound (fun _ y => Lined n mode y) x := by
  have grows := grows_row n mode i i
  refine flows.look grows rfl fun y hy => ?_
  have here : y.1.queue.tail = i ∧ y.1.queue.xpqNumDesc = n ∧ y.1.mode = mode := by
    obtain ⟨pend, ⟨row, htail, -⟩, -⟩ := hy
    exact ⟨htail, row.numDesc, row.mode_eq⟩
  simp only [id, here]
  refine hy.look grows rfl fun z hz => ?_
  split
  case isTrue error =>
    obtain ⟨f, -, held⟩ := hz.first hi (host_of_error error)
    refine .ghost_seq (delivers_rejectDesc _ held.turnDown) fun _ w stays => ?_
    exact Lined.ret (.inr stays) fun _ h => h
  case isFalse =>
    refine hz.look grows rfl fun w hw => ?_
    split
    case isTrue => exact Lined.ret (.inl ⟨i, hi, hw⟩) fun _ h => h
    case isFalse own =>
      obtain ⟨f, done, held⟩ := hw.first hi (Bool.eq_false_iff.mpr own)
      exact delivers_pollOwned ring hi done held

/-- A round at the slot that the host stays at finds it owned by the device. -/
theorem delivers_pollRound_stuck
    (flows : Flows (StuckAt n i fun d => ownership d.qword0 = true) back x) :
    Delivers bufs pollRound (fun _ y => Lined n mode y) x := by
  have grows := grows_stuck n i fun d => ownership d.qword0 = true
  have owned : ∀ {y : State × World},
      Flows (StuckAt n i fun d => ownership d.qword0 = true) back y →
        ownership (y.1.desc i).qword0 = true := by
    rintro y ⟨pend, stuck, -⟩
    exact stuck.here
  refine flows.look grows rfl fun y hy => ?_
  have here : y.1.queue.tail = i := by
    obtain ⟨pend, stuck, -⟩ := hy
    exact stuck.tail
  simp only [id, here]
  refine hy.look grows rfl fun z hz => ?_
  split
  case isTrue error =>
    have host := host_of_error error
    rw [owned hz] at host
    cases host
  case isFalse =>
    refine hz.look grows rfl fun w hw => ?_
    rw [owned hw]
    exact Lined.ret (.inr ⟨i, back, hw⟩) fun _ h => h

theorem delivers_pollRound (ring : RingSize n) (lined : Lined n mode x) :
    Delivers bufs pollRound (fun _ y => Lined n mode y) x := by
  rcases lined with ⟨i, hi, flows⟩ | ⟨i, back, flows⟩
  · exact delivers_pollRound_row ring hi flows
  · exact delivers_pollRound_stuck flows

/-! ### Runs -/

theorem delivers_pollLoop (ring : RingSize n) (fuel count : Nat) (lined : Lined n mode x) :
    Delivers bufs (pollLoop fuel count) (fun _ y => Lined n mode y) x := by
  induction fuel generalizing count x with
  | zero => exact lined.ret fun _ h => h
  | succ fuel ih =>
      refine .ghost_seq (delivers_pollRound ring lined) fun exit y hy => ?_
      cases exit with
      | none => exact ih (count + 1) hy
      | some exit => exact hy.ret fun _ h => h

theorem delivers_runPolls (ring : RingSize n) (polls : List Nat) (lined : Lined n mode x) :
    Delivers bufs (runPolls polls) (fun _ y => Lined n mode y) x := by
  unfold Delivers runPolls
  rw [Prog.ghost_forM]
  refine Upholds.forM stable_lined (fun _ h => h.inLine) (fun maxiter y hy => ?_) polls lined
  refine .ghost_seq (delivers_pollLoop ring maxiter 0 hy) fun _ _ lined => ?_
  exact lined.ret fun _ h => h

end Polls

/-- A window is a row of good frames. -/
theorem Window.row {n lo t : Nat} {mode : AddressMode} {back pend : List Frame} {s : State}
    (w : Window n mode lo t back pend s) : Row n mode lo t pend s := by
  refine ⟨w.numDesc, w.linked, w.mode_eq, w.fits, w.current, w.stopped, fun j hj => ?_, w.armed⟩
  have filled := w.filled j hj
  exact ⟨by rw [filled.bits]; decide, filled.frame⟩

/-- A queue that has been set up is between two rounds. -/
theorem Initial.lined {n : Nat} {s : State} (ring : RingSize n) (init : Initial n s) :
    Lined n s.mode (s, { written := [], inputs := [] }) := by
  obtain ⟨t, ht, pend, w, htail, -⟩ := init.ready ring
  have conserved := w.conserved
  rw [init.2.2.1, init.2.2.2] at conserved
  cases pend with
  | nil => exact .inl ⟨t, ht, [], ⟨w.row, htail, trivial⟩, rfl⟩
  | cons f pend => cases conserved

/-- The world is there in every run. -/
theorem world_runs {polls : List Nat} {s₀ s : State} {p : RxProg Unit} {tr : List (State × Ev)}
    (bufs : Buffers) (w₀ : World)
    (run : Reach Env (fun _ _ => True) (runPolls polls) s₀ p s tr) :
    ∃ w tr', Reach Around (fun _ _ => True) ((runPolls polls).ghost (handedOver bufs))
      (s₀, w₀) (p.ghost (handedOver bufs)) (s, w) tr' := by
  refine run.ghost fun s s' w step => ?_
  obtain ⟨m, rfl⟩ := step
  exact ⟨_, .device m⟩

/-- **From the ring to the interfaces.** Whatever the device completes, with or without an
error and of any length, and whatever messages are handled meanwhile: the frames that come to
the driver are the first of those the device has written, in order and each once, and each is
delivered as the switchboard of that moment delivers it. -/
theorem ring_reaches_interfaces {n : Nat} {s₀ s : State} {polls : List Nat} {w : World}
    {p : Prog (State × World) Ev Unit} {tr : List ((State × World) × Ev)} (ring : RingSize n)
    (hashMin : UInt32 → Intf.Bucket) (bufs : Buffers) (init : Initial n s₀)
    (run : Reach Around (fun _ _ => True) ((runPolls polls).ghost (handedOver bufs))
      (s₀, { written := [], inputs := [] }) p (s, w) tr) :
    (∃ pending, w.written = frames w.inputs ++ pending) ∧
      answers (Intf.driverStep hashMin) .start w.inputs =
        answers Intf.Switchboard.step .start w.inputs := by
  constructor
  · exact (run.upholds (delivers_runPolls ring polls (init.lined ring))).holds
  · exact (Intf.simulates_switchboard hashMin).answers Intf.pictures_start w.inputs

/-! ### A run -/

/-- Socket buffers with the bytes at their start, and memory for all of them. -/
def plainBuffers : Buffers where
  skb _ f := { data := memcpy (fun _ => 0) f, len := f.length }
  alloc _ _ := true
  bytes _ f := readBytes_memcpy (fun _ => 0) f

/-- An interface is set up for port 5; the device completes a frame from that port, reports an
error and completes the frame again, and the host polls twice. -/
def portThenError : List (Option (State × World → State × World)) :=
  [some (messageComes Intf.grantingKernel
      (.intfAdd ⟨1, ⟨List.replicate Intf.ifnamsiz 0, Intf.length_replicate_ifnamsiz⟩⟩)),
    some (messageComes Intf.grantingKernel (.linkAdd ⟨1, 5⟩)),
    some (messageComes Intf.grantingKernel
      (.trapSet ⟨4, 0, Intf.xpNlHostifTrapNetdev, 9, Intf.xpNlOperationAdd⟩)),
    some (deviceActs (.complete Intf.portFrame.data (25 * 2 ^ 16))),
    some (deviceActs (.fault 1 Intf.portFrame.data (25 * 2 ^ 16))),
    some (deviceActs (.complete Intf.portFrame.data (25 * 2 ^ 16)))] ++ List.replicate 60 none

theorem portThenError_around (f : State × World → State × World) (mem : some f ∈ portThenError)
    (x : State × World) : Around x (f x) := by
  rcases List.mem_append.mp mem with acts | host
  · simp only [List.mem_cons, Option.some.injEq, List.not_mem_nil, or_false] at acts
    rcases acts with rfl | rfl | rfl | rfl | rfl | rfl
    · exact .message _ _
    · exact .message _ _
    · exact .message _ _
    · exact .device _
    · exact .device _
    · exact .device _
  · cases List.eq_of_mem_replicate host

/-- The first frame reaches the interface, without its header; the one behind the error does
not. -/
theorem ring_reaches_interfaces_error :
    let config := ((runPolls [4, 4]).ghost (handedOver plainBuffers)).play portThenError
      (freshState .b0Compressed 4, { written := [], inputs := [] })
    config.1.result? = some () ∧ config.2.2.written.length = 3 ∧
      (frames config.2.2.inputs).length = 1 ∧
      answers (Intf.driverStep fun _ => 0) .start config.2.2.inputs =
        [[], [], [], [.toInterface 1 [7], .released]] ∧
      (∃ pending, config.2.2.written = frames config.2.2.inputs ++ pending) ∧
      answers (Intf.driverStep fun _ => 0) .start config.2.2.inputs =
        answers Intf.Switchboard.step .start config.2.2.inputs := by
  intro config
  have hdone : config.1.result? = some () := by decide +kernel
  obtain ⟨tr, run⟩ := Reach.of_play_free ((runPolls [4, 4]).ghost (handedOver plainBuffers))
    (freshState .b0Compressed 4, { written := [], inputs := [] }) portThenError
    portThenError_around
  have main := ring_reaches_interfaces ⟨by decide, by decide⟩ (fun _ => 0) plainBuffers
    (initial_freshState .b0Compressed 4) run
  exact ⟨hdone, by decide +kernel, by decide +kernel, by decide +kernel, main⟩

end XpNet.Rx
