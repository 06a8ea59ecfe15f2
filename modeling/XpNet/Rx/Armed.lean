/-
The descriptors that the device has been given and has not written yet.

Four pieces of code arm a receive descriptor: the initialization of the queue, a packet
that is taken, and the two branches that reject one. They store different words of it,
and leave those alone that neither they nor the device change. Whatever the device
writes to the descriptors it owns, one that it has not written since the host armed it
has the ownership bit alone, the full length, and its own buffer; and when there is no
memory for a socket buffer the queue is left as it is (`runPolls_armed`).

Which descriptors the device has written since they were armed is a ghost: no code reads
it, and a run has one way to go on with it (`touched_runs`).
-/

import XpNet.Interference.Upheld
import XpNet.Interference.Track
import XpNet.Rx.Swap

namespace XpNet.Rx

open XpNet.Interference
open Relation (ReflTransGen)

/-! ### What the device has written -/

/-- Arming a descriptor begins with the store of its length, which no one else makes; the
device has not written it then. -/
def armedBy : Ev → (Nat → Bool) → Nat → Bool
  | .storeQword i k, touched => if k = 1 then Function.update touched i false else touched
  | _, touched => touched

/-- The device writes a descriptor that it owns; and memory for socket buffers comes and
goes. -/
inductive Touches : State × (Nat → Bool) → State × (Nat → Bool) → Prop where
  | desc (s : State) (touched : Nat → Bool) (i : Nat) (qword0 : BitVec 64) (va : Image)
      (qword1 : Nat) (own : s.owned i = true) :
      Touches (s, touched)
        (s.updDesc i (writeBack qword0 va qword1), Function.update touched i true)
  | memory (s : State) (touched : Nat → Bool) (ok : Bool) :
      Touches (s, touched) ({ s with allocOk := ok }, touched)

/-- The ghost is there in every run. -/
theorem touched_runs {polls : List Nat} {s₀ s : State} {p : RxProg Unit} {tr : List (State × Ev)}
    (touched₀ : Nat → Bool)
    (run : Reach (DeviceWrites fun _ => True) (fun _ _ => True) (runPolls polls) s₀ p s tr) :
    ∃ touched tr', Reach Touches (fun _ _ => True) ((runPolls polls).ghost armedBy)
      (s₀, touched₀) (p.ghost armedBy) (s, touched) tr' := by
  refine run.ghost fun s s' touched step => ?_
  cases step with
  | desc i qword0 va own allowed => exact ⟨_, .desc s touched i qword0 va _ own⟩
  | memory ok => exact ⟨_, .memory s touched ok⟩

/-! ### What is kept -/

/-- A descriptor has its buffer, and is armed when the device owns it and has not written
it. -/
structure KeptDesc (dma : Nat) (d : Desc) (touched : Bool) : Prop where
  buffer : d.bufSta.dma = dma
  qword2 : d.qword2 = dma
  len : d.bufSta.len = xpnetMaxPacketSize
  armed : ownership d.qword0 = true → touched = false →
    d.qword0 = ownBit ∧ d.qword1 = xpnetMaxPacketSize

/-- All descriptors are so, with these buffers. -/
def Kept (dmas : Nat → Nat) (x : State × (Nat → Bool)) : Prop :=
  ∀ i, KeptDesc (dmas i) (x.1.desc i) (x.2 i)

/-- Descriptor `i` is as `d`, and written or not. -/
def Holds (i : Nat) (d : Desc) (b : Bool) (x : State × (Nat → Bool)) : Prop :=
  x.1.desc i = d ∧ x.2 i = b

section Keeps

variable {dmas : Nat → Nat} {x : State × (Nat → Bool)} {i : Nat} {d : Desc} {b : Bool}

/-- A descriptor that is changed, and the others. -/
theorem Kept.upd (kept : Kept dmas x) {f : Desc → Desc} {touched : Nat → Bool}
    (hother : ∀ j, j ≠ i → touched j = x.2 j)
    (hdesc : KeptDesc (dmas i) (f (x.1.desc i)) (touched i)) :
    Kept dmas (x.1.updDesc i f, touched) := by
  intro j
  change KeptDesc _ ((x.1.updDesc i f).desc j) (touched j)
  by_cases hj : j = i
  · subst hj
    rw [updDesc_self]
    exact hdesc
  · rw [updDesc_of_ne x.1 f hj, hother j hj]
    exact kept j

theorem stable_kept : Stable Touches (Kept dmas) := by
  rintro _ _ step kept
  cases step with
  | desc s touched i qword0 va qword1 own =>
      refine kept.upd (fun j hj => Function.update_of_ne hj _ _) ?_
      rw [Function.update_self]
      exact ⟨(kept i).buffer, (kept i).qword2, (kept i).len, fun _ h => by cases h⟩
  | memory s touched ok => exact kept

/-- A descriptor of the host stays as it is. -/
theorem stable_holds (hown : ownership d.qword0 = false) : Stable Touches (Holds i d b) := by
  rintro _ _ step ⟨hd, hb⟩
  cases step with
  | desc s touched j qword0 va qword1 own =>
      have hij : i ≠ j := by
        rintro rfl
        rw [State.owned, hd, hown] at own
        cases own
      exact ⟨(updDesc_of_ne s _ hij).trans hd, (Function.update_of_ne hij _ _).trans hb⟩
  | memory s touched ok => exact ⟨hd, hb⟩

theorem stable_touched : Stable Touches fun x => x.2 i = true := by
  rintro _ _ step htouched
  cases step with
  | desc s touched j qword0 va qword1 own =>
      by_cases hij : i = j
      · subst hij
        exact Function.update_self _ _ _
      · exact (Function.update_of_ne hij _ _).trans htouched
  | memory s touched ok => exact htouched

/-- One that the device has been given is armed until the device writes it. -/
theorem stable_given :
    Stable Touches fun x => x.2 i = true ∨ (x.1.desc i).qword0 = ownBit := by
  rintro _ _ step given
  cases step with
  | desc s touched j qword0 va qword1 own =>
      by_cases hij : i = j
      · subst hij
        exact .inl (Function.update_self _ _ _)
      · refine given.imp ?_ ?_
        · intro htouched
          exact (Function.update_of_ne hij _ _).trans htouched
        · intro hbits
          rw [updDesc_of_ne s _ hij]
          exact hbits
  | memory s touched ok => exact given

end Keeps

/-! ### The polls -/

section Polls

variable {dmas : Nat → Nat} {x : State × (Nat → Bool)} {n i size : Nat} {d : Desc} {b : Bool}
  {mode : AddressMode}

/-- What a program of the driver keeps, with the ghost. -/
abbrev Keeps {α : Type} (dmas : Nat → Nat) (p : RxProg α) (Q : α → State × (Nat → Bool) → Prop)
    (x : State × (Nat → Bool)) : Prop :=
  Upholds Touches (Kept dmas) (p.ghost armedBy) Q x

/-- What is known of a descriptor that the host holds. -/
abbrev HeldKept (dmas : Nat → Nat) (i : Nat) (d : Desc) (b : Bool)
    (x : State × (Nat → Bool)) : Prop :=
  Kept dmas x ∧ Holds i d b x

theorem stable_heldKept (hown : ownership d.qword0 = false) :
    Stable Touches (HeldKept dmas i d b) :=
  stable_kept.and (stable_holds hown)

theorem armedBy_other {j : Nat} (k : Fin 4) (hj : j ≠ i) (touched : Nat → Bool) :
    armedBy (.storeQword i k) touched j = touched j := by
  change (if k = 1 then Function.update touched i false else touched) j = touched j
  split
  · exact Function.update_of_ne hj _ _
  · rfl

/-- A store to a descriptor that the host holds and goes on holding. -/
theorem HeldKept.store (held : HeldKept dmas i d b x) {f : Desc → Desc} {touched : Nat → Bool}
    {b' : Bool} {d' : Desc} (hf : f d = d') (hother : ∀ j, j ≠ i → touched j = x.2 j)
    (hself : touched i = b')
    (hdesc : KeptDesc (dmas i) d b → KeptDesc (dmas i) d' b') :
    HeldKept dmas i d' b' (x.1.updDesc i f, touched) := by
  obtain ⟨kept, hd, hb⟩ := held
  have hbefore := kept i
  rw [hd, hb] at hbefore
  have hafter := hdesc hbefore
  have heq : f (x.1.desc i) = d' := by rw [hd, hf]
  rw [← hself] at hafter
  exact ⟨kept.upd hother (heq ▸ hafter), (updDesc_self x.1 i f).trans heq, hself⟩

/-- Words that the host stores while it holds the descriptor. -/
theorem HeldKept.write {α : Type} {p : RxProg α} {Q : α → State × (Nat → Bool) → Prop}
    (held : HeldKept dmas i d b x) (hown : ownership d.qword0 = false) {k : Fin 4} (b' : Bool)
    (hb' : b' = if k = 1 then false else b) (d' : Desc) {f : Desc → Desc} (hf : f d = d')
    (hdesc : KeptDesc (dmas i) d b → KeptDesc (dmas i) d' b')
    (rest : ∀ y, HeldKept dmas i d' b' y → Keeps dmas p Q y) :
    Keeps dmas (storeDesc (.storeQword i k) i f >>= fun _ => p) Q x := by
  refine .ghost_write (stable_heldKept hown) held fun y hy => ⟨hy.1, rest _ ?_⟩
  refine hy.store hf (fun j hj => armedBy_other k hj _) ?_ hdesc
  change (if k = 1 then Function.update y.2 i false else y.2) i = b'
  rw [hb']
  split
  · exact Function.update_self _ _ _
  · exact hy.2.2

/-- The store that gives an armed descriptor to the device. -/
theorem HeldKept.give {α : Type} {p : RxProg α} {Q : α → State × (Nat → Bool) → Prop}
    (held : HeldKept dmas i d false x) (hown : ownership d.qword0 = false)
    (hsize : d.qword1 = xpnetMaxPacketSize)
    (rest : ∀ y, Kept dmas y → (y.2 i = true ∨ (y.1.desc i).qword0 = ownBit) → Keeps dmas p Q y) :
    Keeps dmas (storeDesc (.storeQword i 0) i (setQword0 ownBit) >>= fun _ => p) Q x := by
  refine .ghost_write (stable_heldKept hown) held fun y hy => ⟨hy.1, ?_⟩
  obtain ⟨kept, hd, hb⟩ := hy
  have hbefore := kept i
  rw [hd] at hbefore
  have hdesc : (y.1.updDesc i (setQword0 ownBit)).desc i = setQword0 ownBit d := by
    rw [updDesc_self, hd]
  refine rest _ (kept.upd (fun j hj => armedBy_other 0 hj _) ?_) (.inr (by rw [hdesc]; rfl))
  rw [hd]
  exact ⟨hbefore.buffer, hbefore.qword2, hbefore.len, fun _ _ => ⟨rfl, hsize⟩⟩

/-- The stores of `__xpnet_rx_desc_reset`, one after the other. -/
theorem rxDescReset_bind {α : Type} (n i : Nat) (p : RxProg α) :
    (xpnetRxDescReset n i >>= fun _ => p) =
      (Prog.look .priv fun s : State => (s.desc (xpnetAddAndWrap i 1 n)).cdp) >>= fun next =>
        storeDesc (.storeQword i 3) i (fun d => { d with qword3 := next }) >>= fun _ =>
        storeDesc (.storeQword i 2) i (fun d => { d with qword2 := d.bufSta.dma }) >>= fun _ =>
        storeDesc (.storeQword i 1) i (fun d => { d with qword1 := xpnetMaxPacketSize }) >>=
          fun _ =>
        storeDesc (.storeQword i 0) i (setQword0 ownBit) >>= fun _ => p := rfl

/-- `__xpnet_rx_desc_reset` arms a descriptor of the host. -/
theorem keeps_rxDescReset {α : Type} {p : RxProg α} {Q : α → State × (Nat → Bool) → Prop}
    (held : HeldKept dmas i d b x) (hown : ownership d.qword0 = false)
    (rest : ∀ y, Kept dmas y → (y.2 i = true ∨ (y.1.desc i).qword0 = ownBit) → Keeps dmas p Q y) :
    Keeps dmas (xpnetRxDescReset n i >>= fun _ => p) Q x := by
  rw [rxDescReset_bind]
  refine .ghost_look (stable_heldKept hown) held fun y hy => ⟨hy.1, ?_⟩
  let next := (y.1.desc (xpnetAddAndWrap i 1 n)).cdp
  refine hy.write hown b rfl { d with qword3 := next } rfl ?q3 fun _ h3 => ?_
  case q3 => exact fun h => ⟨h.buffer, h.qword2, h.len, h.armed⟩
  refine h3.write hown b rfl { d with qword3 := next, qword2 := d.bufSta.dma } rfl ?q2
    fun _ h2 => ?_
  case q2 => exact fun h => ⟨h.buffer, h.buffer, h.len, h.armed⟩
  refine h2.write hown false rfl
    { d with qword3 := next, qword2 := d.bufSta.dma, qword1 := xpnetMaxPacketSize } rfl ?q1
    fun _ h1 => ?_
  case q1 => exact fun h => ⟨h.buffer, h.qword2, h.len, fun ho => by cases hown.symm.trans ho⟩
  exact h1.give hown rfl rest

/-- `xpnet_rx_desc_enable` leaves it armed, unless the device has written it. -/
theorem keeps_rxDescEnable (kept : Kept dmas x)
    (given : x.2 i = true ∨ (x.1.desc i).qword0 = ownBit) :
    Keeps dmas (xpnetRxDescEnable i) (fun _ y => Kept dmas y) x := by
  refine .ghost_look (stable_kept.and stable_given) ⟨kept, given⟩ fun y ⟨kept, given⟩ => ⟨kept, ?_⟩
  by_cases hbits : (y.1.desc i).qword0 = ownBit
  · rw [hbits]
    refine .act (stable_kept.and stable_given) ⟨kept, .inr hbits⟩ fun z ⟨kept, given⟩ =>
      ⟨kept, .ret stable_kept (kept.upd (fun j hj => armedBy_other 0 hj _) ?_) fun _ h => ⟨h, h⟩⟩
    have hdesc := kept i
    refine ⟨hdesc.buffer, hdesc.qword2, hdesc.len, fun _ hb => ⟨rfl, ?_⟩⟩
    have hz := given.resolve_left (Bool.eq_false_iff.mp hb)
    exact (hdesc.armed (by rw [hz]; exact ownership_ownBit) hb).2
  · refine .act (stable_kept.and stable_touched) ⟨kept, given.resolve_right hbits⟩
      fun z ⟨kept, htouched⟩ =>
        ⟨kept, .ret stable_kept (kept.upd (fun j hj => armedBy_other 0 hj _) ?_) fun _ h => ⟨h, h⟩⟩
    have hdesc := kept i
    exact ⟨hdesc.buffer, hdesc.qword2, hdesc.len, fun _ hb => by cases hb.symm.trans htouched⟩

/-- The two branches that reject a descriptor. -/
theorem keeps_rejectDesc (held : HeldKept dmas i d b x) (hown : ownership d.qword0 = false)
    (count : Stats → Stats) :
    Keeps dmas (rejectDesc n i count) (fun _ y => Kept dmas y) x := by
  refine keeps_rxDescReset held hown fun y kept given => ?_
  refine .ghost_seq (keeps_rxDescEnable kept given) fun _ z kept => ?_
  refine .act stable_kept kept fun z kept => ⟨kept, ?_⟩
  exact .ret stable_kept kept fun _ h => ⟨h, h⟩

/-- The byte swap writes the buffer of the descriptor, or does not end. -/
theorem keeps_swapBuffer (held : HeldKept dmas i d b x) (hown : ownership d.qword0 = false) :
    Keeps dmas (swapBuffer mode i size)
      (fun _ y => ∃ d, ownership d.qword0 = false ∧ HeldKept dmas i d b y) x := by
  refine .ghost_look (stable_heldKept hown) held fun y hy => ⟨hy.1, ?_⟩
  split
  · rename_i va _
    refine .act (stable_heldKept hown) hy fun z hz => ⟨hz.1, ?_⟩
    have hstored : HeldKept dmas i (setVa va d) b (z.1.updDesc i (setVa va), z.2) :=
      hz.store rfl (fun _ _ => rfl) hz.2.2 fun h => ⟨h.buffer, h.qword2, h.len, h.armed⟩
    exact .ret (stable_heldKept (d := setVa va d) hown) hstored fun w hw =>
      ⟨hw.1, setVa va d, hown, hw⟩
  · exact .diverge (stable_heldKept hown) hy fun _ h => h.1

/-- What follows it arms the descriptor. -/
theorem keeps_handOver (held : HeldKept dmas i d b x) (hown : ownership d.qword0 = false) :
    Keeps dmas (handOver n i size) (fun _ y => Kept dmas y) x := by
  have hlen : d.bufSta.len = xpnetMaxPacketSize := by
    have hdesc := held.1 i
    rw [held.2.1] at hdesc
    exact hdesc.len
  refine .ghost_look (stable_heldKept hown) held fun y hy => ⟨hy.1, ?_⟩
  refine HeldKept.write hy hown false rfl { d with qword1 := d.bufSta.len } rfl ?q1 fun _ h1 => ?_
  case q1 => exact fun h => ⟨h.buffer, h.qword2, h.len, fun ho => by cases hown.symm.trans ho⟩
  refine h1.give hown hlen fun y kept _ => ?_
  refine .ghost_write stable_kept kept fun z kept => ⟨kept, ?_⟩
  refine .ghost_seq (p := restartAtZero _) (M := fun _ y => Kept dmas y) ?_ fun _ w kept => ?_
  · unfold restartAtZero
    split
    · refine .act stable_kept kept fun _ kept => ⟨kept, ?_⟩
      refine .act stable_kept kept fun _ kept => ⟨kept, ?_⟩
      exact .ret stable_kept kept fun _ h => ⟨h, h⟩
    · exact .ret stable_kept kept fun _ h => ⟨h, h⟩
  · refine .act stable_kept kept fun _ kept => ⟨kept, ?_⟩
    exact .ret stable_kept kept fun _ h => ⟨h, h⟩

/-- The packet that is taken. -/
theorem keeps_takePacket (held : HeldKept dmas i d b x) (hown : ownership d.qword0 = false) :
    Keeps dmas (takePacket mode n i size) (fun _ y => Kept dmas y) x := by
  rw [takePacket_eq]
  exact .ghost_seq (keeps_swapBuffer held hown) fun _ _ ⟨_, hown, held⟩ =>
    keeps_handOver held hown

/-- A descriptor of the host with no error. -/
theorem keeps_pollOwned (held : HeldKept dmas i d b x) (hown : ownership d.qword0 = false) :
    Keeps dmas (pollOwned mode n i) (fun _ y => Kept dmas y) x := by
  unfold pollOwned loadQword1
  refine .ghost_write (stable_heldKept hown) held fun y hy => ⟨hy.1, ?_⟩
  have hy' : HeldKept dmas i d b ({ y.1 with jiffiesDefer := 0 }, armedBy .priv y.2) := hy
  refine .ghost_look (stable_heldKept hown) hy' fun z hz => ⟨hz.1, ?_⟩
  dsimp only
  split
  · refine .ghost_seq (keeps_rejectDesc hz hown _) fun _ _ kept => ?_
    exact .ret stable_kept kept fun _ h => ⟨h, h⟩
  · refine .ghost_look (stable_heldKept hown) hz fun w hw => ⟨hw.1, ?_⟩
    split
    · refine .ghost_seq (keeps_takePacket hw hown) fun _ _ kept => ?_
      exact .ret stable_kept kept fun _ h => ⟨h, h⟩
    · exact .ret stable_kept hw.1 fun _ h => ⟨h, h⟩

theorem keeps_pollRound (kept : Kept dmas x) :
    Keeps dmas pollRound (fun _ y => Kept dmas y) x := by
  unfold pollRound loadQword0
  refine .ghost_look stable_kept kept fun y hy => ⟨hy, ?_⟩
  refine .ghost_look stable_kept hy fun z hz => ⟨hz, ?_⟩
  split
  · rename_i hone
    have hone : (z.1.desc y.1.queue.tail).qword0 = 1 := by simpa using hone
    have hown : ownership (z.1.desc y.1.queue.tail).qword0 = false := by
      rw [hone]
      decide
    refine .ghost_seq (keeps_rejectDesc ⟨hz, rfl, rfl⟩ hown _) fun _ _ kept => ?_
    exact .ret stable_kept kept fun _ h => ⟨h, h⟩
  · refine .ghost_look stable_kept hz fun w hw => ⟨hw, ?_⟩
    split
    · exact .ret stable_kept hw fun _ h => ⟨h, h⟩
    · rename_i howned
      exact keeps_pollOwned ⟨hw, rfl, rfl⟩ (Bool.eq_false_iff.mpr howned)

theorem keeps_pollLoop (fuel count : Nat) (kept : Kept dmas x) :
    Keeps dmas (pollLoop fuel count) (fun _ y => Kept dmas y) x := by
  induction fuel generalizing count x with
  | zero => exact .ret stable_kept kept fun _ h => ⟨h, h⟩
  | succ fuel ih =>
      refine .ghost_seq (keeps_pollRound kept) fun exit y hy => ?_
      cases exit with
      | none => exact ih _ hy
      | some exit => exact .ret stable_kept hy fun _ h => ⟨h, h⟩

theorem keeps_runPolls (polls : List Nat) (kept : Kept dmas x) :
    Keeps dmas (runPolls polls) (fun _ y => Kept dmas y) x := by
  unfold Keeps runPolls
  rw [Prog.ghost_forM]
  refine Upholds.forM stable_kept (fun _ h => h) (fun maxiter y hy => ?_) polls kept
  refine .ghost_seq (keeps_pollLoop maxiter 0 hy) fun _ _ kept => ?_
  exact .ret stable_kept kept fun _ h => ⟨h, h⟩

/-- A round that returns something else. -/
theorem leaves_other {p : RxProg Unit} {exit : Option PollExit} (hne : exit ≠ some .noMemory) :
    Leaves State.queue (fun exit => exit = some .noMemory) (p >>= fun _ => pure exit) :=
  Returns.leaves (Returns.bind fun _ => hne)

/-- A round that finds no memory has changed nothing of the queue. -/
theorem leaves_pollOwned :
    Leaves State.queue (fun exit => exit = some .noMemory) (pollOwned mode n i) := by
  unfold pollOwned loadQword1
  refine .write (fun _ => rfl) (.look fun qword1 => ?_)
  dsimp only
  split
  · exact leaves_other (by decide)
  refine .look fun skb => ?_
  split
  · exact leaves_other (by decide)
  · trivial

theorem leaves_pollRound : Leaves State.queue (fun exit => exit = some .noMemory) pollRound := by
  unfold pollRound loadQword0
  refine .look fun s => .look fun qword0 => ?_
  split
  · exact leaves_other (by decide)
  refine .look fun qword0 => ?_
  split
  · trivial
  · exact leaves_pollOwned

/-- What the device can write depends on the queue only. -/
theorem writes_queue (s s' t : State) (step : DeviceWrites (fun _ => True) s s')
    (hqueue : t.queue = s.queue) :
    ∃ t', DeviceWrites (fun _ => True) t t' ∧ t'.queue = s'.queue := by
  have hdesc : t.desc = s.desc := congrArg Queue.descMeta hqueue
  cases step with
  | @desc i qword0 va qword1 own allowed =>
      have hown : t.owned i = true := by rw [State.owned, hdesc]; exact own
      refine ⟨_, @DeviceWrites.desc _ t i qword0 va qword1 hown trivial, ?_⟩
      unfold State.updDesc
      rw [hqueue, hdesc]
  | memory ok => exact ⟨_, .memory t t.allocOk, hqueue⟩

end Polls

/-! ### Every run -/

/-- What `xpnet_rx_queue_init` makes of a descriptor. -/
theorem keptDesc_init (n dma : Nat) (bufs : Nat → Image × Nat) (i : Nat) :
    KeptDesc (bufs i).2 ((xpnetRxQueueInit n dma bufs).descMeta i) false := by
  let q : Queue := {
    xpqNumDesc := n, status := .stopped, tail := 0, head := 0, dma := dma
    descMeta := fun i => xpnetRxDescInit dma i
      { va := (bufs i).1, dma := (bufs i).2, len := xpnetMaxPacketSize } }
  obtain ⟨hbuf, hqword1, hqword2⟩ := linkAndEnable_keeps q i
  have hchain : ((xpnetQueueDescLink q false).descMeta i).qword0 = 0 :=
    queueDescLink_qword0 q false i
  refine ⟨congrArg Shard.dma hbuf, hqword2, congrArg Shard.len hbuf, fun hown _ => ⟨?_, hqword1⟩⟩
  change ownership ((xpnetRxQueueLinkAndEnable q).descMeta i).qword0 = true at hown
  change ((xpnetRxQueueLinkAndEnable q).descMeta i).qword0 = ownBit
  unfold xpnetRxQueueLinkAndEnable at hown ⊢
  dsimp only at hown ⊢
  split
  · rw [setQword0, hchain]
    change enabledBits 0 = ownBit
    decide
  · rename_i hout
    rw [if_neg hout, hchain] at hown
    exact absurd hown (by decide)

/-- A descriptor as the host arms it, with this buffer. -/
structure FullyArmed (dma : Nat) (d : Desc) : Prop where
  qword0 : d.qword0 = ownBit
  qword1 : d.qword1 = xpnetMaxPacketSize
  qword2 : d.qword2 = dma

/-- Two buffers share no byte. -/
def Apart (dma dma' : Nat) : Prop :=
  dma + xpnetMaxPacketSize ≤ dma' ∨ dma' + xpnetMaxPacketSize ≤ dma

theorem Apart.symm {dma dma' : Nat} (h : Apart dma dma') : Apart dma' dma := Or.symm h

/-- **Armed descriptors.** A queue is set up with buffers of which the allocator gives none
while another that shares a byte with it is in use. Then in every state of every sequence
of polls, whatever the device writes to the descriptors that it owns, each descriptor
that it owns and has not written is fully armed with its own buffer, and no two have
buffers that share a byte; and a round of a poll that finds no memory leaves the queue
as the device alone could have. -/
theorem runPolls_armed (n dma : Nat) (bufs : Nat → Image × Nat) (s₀ : State)
    (init : s₀.queue = xpnetRxQueueInit n dma bufs)
    (alloc : ∀ i < n, ∀ j < i, Apart (bufs i).2 (bufs j).2) :
    (∀ polls p s touched tr, Reach Touches (fun _ _ => True) ((runPolls polls).ghost armedBy)
        (s₀, fun _ => false) p (s, touched) tr →
      ∀ i < n, (s.owned i = true → touched i = false → FullyArmed (bufs i).2 (s.desc i)) ∧
        ∀ j < n, j ≠ i → Apart (s.desc i).bufSta.dma (s.desc j).bufSta.dma) ∧
    ∀ s tr s', Runs (DeviceWrites fun _ => True) pollRound s tr (some .noMemory) s' →
      ∃ t, ReflTransGen (DeviceWrites fun _ => True) s t ∧ t.queue = s'.queue := by
  constructor
  · intro polls p s touched tr run i hi
    have start : Kept (fun i => (bufs i).2) (s₀, fun _ => false) := by
      intro i
      change KeptDesc _ (s₀.queue.descMeta i) false
      rw [init]
      exact keptDesc_init n dma bufs i
    have kept := (run.upholds (keeps_runPolls polls start)).holds
    refine ⟨fun hown htouched => ?_, fun j hj hne => ?_⟩
    · obtain ⟨hbits, hsize⟩ := (kept i).armed hown htouched
      exact ⟨hbits, hsize, (kept i).qword2⟩
    · have hbi : (s.desc i).bufSta.dma = (bufs i).2 := (kept i).buffer
      have hbj : (s.desc j).bufSta.dma = (bufs j).2 := (kept j).buffer
      rw [hbi, hbj]
      rcases Nat.lt_or_gt_of_ne hne with hlt | hgt
      · exact alloc i hi j hlt
      · exact (alloc j hj i hgt).symm
  · exact fun s tr s' run => run.leaves writes_queue leaves_pollRound rfl

/-- The driver's queue, with buffers one after the other. -/
theorem runPolls_armed_fresh :
    (∀ polls p s touched tr, Reach Touches (fun _ _ => True) ((runPolls polls).ghost armedBy)
        (freshState .b0Uncompressed xpnetRxNumDescs, fun _ => false) p (s, touched) tr →
      ∀ i < xpnetRxNumDescs,
        (s.owned i = true → touched i = false →
          FullyArmed (xpnetMaxPacketSize * i) (s.desc i)) ∧
        ∀ j < xpnetRxNumDescs, j ≠ i → Apart (s.desc i).bufSta.dma (s.desc j).bufSta.dma) ∧
    ∀ s tr s', Runs (DeviceWrites fun _ => True) pollRound s tr (some .noMemory) s' →
      ∃ t, ReflTransGen (DeviceWrites fun _ => True) s t ∧ t.queue = s'.queue :=
  runPolls_armed xpnetRxNumDescs xpnetDescSize (fun i => (fun _ => 0, xpnetMaxPacketSize * i))
    (freshState .b0Uncompressed xpnetRxNumDescs) rfl fun _ _ j hj =>
      .inr ((Nat.mul_succ _ j).symm.trans_le (Nat.mul_le_mul_left _ hj))

end XpNet.Rx
