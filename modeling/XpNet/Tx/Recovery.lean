/-
Whether a queue can be brought to accept a frame again.

A queue is `Usable` when the DMA engine is on, a descriptor is free, and no error is
reported in the one at `tail`. A usable queue accepts the next frame once the device
has given that descriptor back. One that is not usable never becomes so: a busy call
does not complete anything, and no call takes an error report back
(`stuck_of_startXmit`).

* `accepts_iff`: from every reachable state, some continuation of device steps and
  calls ends with a frame that is accepted, if and only if the call in progress can end
  with a usable queue.
-/

import XpNet.Tx.Counters

namespace XpNet.Tx

open XpNet.Interference
open Relation (ReflTransGen)

/-! ### What a call leaves of the queue -/

/-- What `xpnet_hard_start_xmit` leaves: only an accepted frame moves the indices. -/
structure Front.Sends (d : Front) (exit : XmitExit) (e : Front) : Prop where
  status : e.status = d.status
  isA0 : e.isA0 = d.isA0
  same : exit ≠ .txok → e = d

theorem Front.Sends.refl (d : Front) (exit : XmitExit) : d.Sends exit d := ⟨rfl, rfl, fun _ => rfl⟩

/-- What `xpnet_tx_complete` leaves: `head` may move, and on A0 the ring starts over. -/
structure Front.Completes (d e : Front) : Prop where
  status : e.status = d.status
  isA0 : e.isA0 = d.isA0
  tail : e.tail = if d.isA0 then 0 else d.tail

/-- On A0 every frame starts at the first descriptor. -/
def Front.Rewound (d : Front) : Prop := d.isA0 = true → d.tail = 0

section Calls

variable {d : Front}

theorem txErrorDrop_sends (skb : SkBuff) :
    Tracks State.front (txErrorDrop (some skb)) d d.Sends :=
  .act (fun _ => rfl) fun _ _ => .act (fun _ => rfl) fun _ _ => .act (fun _ => rfl) fun _ _ =>
    .refl d _

theorem xmitEnqueued_sends (skb : SkBuff) (tail n shards : Nat) (res : EnqueueResult) :
    Tracks State.front (xmitEnqueued skb tail n shards res) d d.Sends := by
  cases res with
  | queueBusy => exact .refl d _
  | queueError => exact .act (fun _ => rfl) fun _ _ => .refl d _
  | ok =>
      refine .act (fun _ => rfl) fun _ _ => .act (fun _ => rfl) fun _ _ => fun s hs => ?_
      subst hs
      exact ⟨rfl, rfl, fun h => absurd rfl h⟩

theorem hardStartXmit_sends (skb : SkBuff) :
    Tracks State.front (xpnetHardStartXmit (some skb)) d d.Sends :=
  hardStartXmit_tracks aside_front (xmitEnqueued_sends skb) (.refl d _) (txErrorDrop_sends skb)

/-- The loop moves `head` only. -/
theorem txCompleteLoop_front (numDesc tail head iter : Nat) :
    Tracks State.front (txCompleteLoop numDesc tail head iter) d
      fun _ e => e.status = d.status ∧ e.isA0 = d.isA0 ∧ e.tail = d.tail := by
  apply Always.tracks _ ⟨rfl, rfl, rfl⟩
  exact txCompleteLoop_always (fun _ _ _ h => h) (fun _ _ h => h) _ _ _ _

theorem rewindA0_front (isA0 : Bool) : Tracks State.front (rewindA0 isA0) d
    fun _ e => e.status = d.status ∧ e.isA0 = d.isA0 ∧ e.tail = if isA0 then 0 else d.tail := by
  cases isA0 with
  | false => exact ⟨rfl, rfl, rfl⟩
  | true =>
      intro s hs
      subst hs
      exact ⟨rfl, rfl, rfl⟩

theorem txComplete_completes (maxiter : Nat) :
    Tracks State.front (xpnetTxComplete maxiter) d fun _ e => d.Completes e := by
  refine Tracks.look fun s hs => (txCompleteLoop_front _ _ _ _).bind ?_
  rintro _ e ⟨hstatus, hflag, htail⟩
  refine (rewindA0_front _).mono ?_
  rintro _ f ⟨hstatus', hflag', htail'⟩
  have hA0 : s.isA0 = d.isA0 := congrArg Front.isA0 hs
  refine ⟨hstatus'.trans hstatus, hflag'.trans hflag, ?_⟩
  rw [htail', htail]
  exact congrArg (fun a0 : Bool => if a0 = true then 0 else d.tail) hA0

/-- What `xpnet_start_xmit` leaves: a frame that it does not accept leaves `tail` where
it is, and a busy answer everything. -/
structure Front.StartsXmit (d : Front) (exit : XmitExit) (e : Front) : Prop where
  status : e.status = d.status
  rewound : d.Rewound → e.Rewound
  tail : exit ≠ .txok → d.Rewound → e.tail = d.tail
  busy : exit = .txbusy → e = d

theorem Front.StartsXmit.refl (d : Front) (exit : XmitExit) : d.StartsXmit exit d :=
  ⟨rfl, id, fun _ _ => rfl, fun _ => rfl⟩

/-- A call that is not busy completes what is done. -/
theorem Front.Sends.completes {m e : Front} {exit : XmitExit} (sends : d.Sends exit m)
    (ready : exit ≠ .txbusy) (completes : m.Completes e) : d.StartsXmit exit e := by
  refine ⟨completes.status.trans sends.status, fun _ ha => ?_, fun refused rewound => ?_,
    fun busy => absurd busy ready⟩
  · rw [completes.tail, ← completes.isA0, if_pos ha]
  · rw [completes.tail, sends.same refused]
    split
    · rename_i ha
      exact (rewound ha).symm
    · rfl

theorem startXmit_front (skb : SkBuff) :
    Tracks State.front (xpnetStartXmit skb) d d.StartsXmit := by
  refine Tracks.look fun s _ => ?_
  change Tracks _ (startXmitFrom s skb) _ _
  unfold startXmitFrom
  split
  · exact .act (fun _ => rfl) fun _ _ => .refl d _
  · refine (hardStartXmit_sends skb).bind fun exit m sends => ?_
    unfold completeAfter
    split
    · rename_i ok
      have ready : exit ≠ .txbusy := by
        rintro rfl
        cases ok
      exact (txComplete_completes _).bind fun _ e completes => sends.completes ready completes
    · rename_i busy
      have refused : exit ≠ .txok := by
        rintro rfl
        exact busy rfl
      obtain rfl := sends.same refused
      exact .refl _ exit

end Calls

/-! ### Usable queues -/

/-- The queue needs nothing but the device to give its next descriptor back. -/
def Usable (s : State) : Prop :=
  s.dmaTrigger ≠ 0 ∧ s.queue.status = .active ∧ s.numFreeDesc ≠ 0 ∧
    errorIndication (s.desc s.queue.tail).qword0 = false

instance (s : State) : Decidable (Usable s) := inferInstanceAs (Decidable (_ ∧ _ ∧ _ ∧ _))

/-- Between two calls on a queue that is not usable. -/
structure Stuck (s : State) : Prop where
  rewound : s.front.Rewound
  unusable : ¬ Usable s

section Stuck

variable {skb : SkBuff} {s s' : State} {tr : List (State × Ev)} {exit : XmitExit}

/-- A queue is no more usable where an error report stays and nothing else changes. -/
theorem not_usable_of_same (stuck : ¬ Usable s) (hfront : s'.front = s.front)
    (houtside : s'.outside = s.outside) (keeps : KeepsErrors s s') : ¬ Usable s' := by
  obtain ⟨hstatus, hnum, hhead, htail, -⟩ := Front.mk.inj hfront
  have htrigger : s'.dmaTrigger = s.dmaTrigger := congrArg Outside.dmaTrigger houtside
  rintro ⟨on, active, free, ok⟩
  refine stuck ⟨htrigger ▸ on, hstatus ▸ active, ?_, ?_⟩
  · unfold State.numFreeDesc at free ⊢
    rw [← hnum, ← hhead, ← htail]
    exact free
  · by_contra herr
    have := keeps s.queue.tail (by simpa using herr)
    rw [← htail, ok] at this
    cases this

theorem env_stable_stuck : Stable Env Stuck := by
  intro s s' h stuck
  refine ⟨env_front s s' h ▸ stuck.rewound, ?_⟩
  exact not_usable_of_same stuck.unusable (env_front s s' h) (env_outside s s' h)
    (env_keepsErrors h)

/-- A frame meets an error at `tail`: it is not copied, and the error stays. -/
theorem runs_startXmit_errorAtTail (on : s.dmaTrigger ≠ 0)
    (err : errorIndication (s.desc s.queue.tail).qword0 = true)
    (run : Runs Env (xpnetStartXmit skb) s tr exit s') : exit ≠ .txok ∧ KeepsErrors s s' := by
  obtain ⟨m, _, hard, rest⟩ := runs_startXmit_hard on run
  have kept : exit ≠ .txok ∧ KeepsErrors s m := by
    rcases runs_hardStartXmit_cases on hard with ⟨rfl | ⟨rfl, -⟩, keeps⟩ |
      ⟨-, w, _, _, steps, usable, -⟩
    · exact ⟨nofun, keeps⟩
    · exact ⟨nofun, keeps⟩
    · -- the error would still be there
      have := (Bool.or_eq_false_iff.mp usable).2
      rw [keepsErrors_of_steps steps _ err] at this
      cases this
  refine kept.imp_right fun keeps => keeps.trans ?_
  rcases rest with ⟨-, later⟩ | ⟨-, maxiter, _, complete⟩
  · exact keepsErrors_of_steps later
  · exact keepsErrors_of_complete complete

/-- A full ring answers busy. -/
theorem runs_startXmit_full (on : s.dmaTrigger ≠ 0) (active : s.queue.status = .active)
    (full : s.numFreeDesc = 0) (run : Runs Env (xpnetStartXmit skb) s tr exit s') :
    exit = .txbusy := by
  obtain ⟨m, _, hard, -⟩ := runs_startXmit_hard on run
  rcases runs_hardStartXmit_cases on hard with ⟨rfl | ⟨rfl, -⟩, -⟩ | ⟨fits, -⟩
  · rcases (runs_hardStartXmit_txdrop hard).mp rfl with down | ⟨some, -⟩
    · exact absurd active down
    · exact absurd full some
  · rfl
  · exact absurd full fits.2.2.1

/-- No call turns the DMA engine on or off. -/
theorem trigger_of_startXmit (run : Runs Env (xpnetStartXmit skb) s tr exit s') :
    s'.dmaTrigger = s.dmaTrigger := by
  have counts := counts_of_runs run
  split at counts
  · exact congrArg Outside.dmaTrigger counts.2
  · generalize hd : s'.outside = e at counts
    have hd' : s'.dmaTrigger = e.dmaTrigger := congrArg Outside.dmaTrigger hd
    rw [hd']
    cases counts <;> rfl

/-- **No call makes a queue usable again**, and none that it is not accepts a frame. -/
theorem stuck_of_startXmit (stuck : Stuck s) (run : Runs Env (xpnetStartXmit skb) s tr exit s') :
    exit ≠ .txok ∧ Stuck s' := by
  have front := run.tracks env_front (startXmit_front skb)
  have hrewound := front.rewound stuck.rewound
  have htrigger := trigger_of_startXmit run
  by_cases on : s.dmaTrigger = 0
  · have counts := counts_of_runs run
    rw [if_pos on] at counts
    refine ⟨by rw [counts.1]; exact nofun, hrewound, fun usable => ?_⟩
    exact usable.1 (htrigger.trans on)
  by_cases active : s.queue.status = .active
  · by_cases full : s.numFreeDesc = 0
    · obtain rfl := runs_startXmit_full on active full run
      refine ⟨nofun, hrewound, fun usable => usable.2.2.1 ?_⟩
      obtain ⟨-, hnum, hhead, htail, -⟩ := Front.mk.inj (front.busy rfl)
      unfold State.numFreeDesc at full ⊢
      rw [hnum, hhead, htail]
      exact full
    · have err : errorIndication (s.desc s.queue.tail).qword0 = true := by
        by_contra ok
        exact stuck.unusable ⟨on, active, full, by simpa using ok⟩
      obtain ⟨refused, keeps⟩ := runs_startXmit_errorAtTail on err run
      refine ⟨refused, hrewound, fun usable => ?_⟩
      have htail : s'.queue.tail = s.queue.tail := front.tail refused stuck.rewound
      have ok := usable.2.2.2
      rw [htail, keeps _ err] at ok
      cases ok
  · have dropped := (runs_startXmit_txdrop run).mpr (.inr (.inl active))
    refine ⟨by rw [dropped]; exact nofun, hrewound, fun usable => active ?_⟩
    exact front.status.symm.trans usable.2.1

/-- Between two calls the queue of an A0 device is rewound. -/
theorem keptByCalls_rewound : KeptByCalls fun s => s.front.Rewound where
  device s s' h rewound := by
    change s'.front.Rewound
    rw [env_front s s' h]
    exact rewound
  interfaces _ _ _ rewound := rewound
  startXmit skb _ _ _ _ run rewound := (run.tracks env_front (startXmit_front skb)).rewound rewound

theorem Initial.rewound {n : Nat} (init : Initial n s) : s.front.Rewound := by
  obtain ⟨-, dma, bufs, hq⟩ := init
  intro ha
  have ha : s.isA0 = true := ha
  change s.queue.tail = 0
  rw [hq, ha]
  rfl

/-- No call changes the DMA engine's switch or the status of the queue. -/
theorem keptByCalls_switches (trigger : Nat) (status : QueueStatus) :
    KeptByCalls fun s => s.dmaTrigger = trigger ∧ s.queue.status = status where
  device s s' h same :=
    ⟨(congrArg Outside.dmaTrigger (env_outside s s' h)).trans same.1,
      (congrArg Front.status (env_front s s' h)).trans same.2⟩
  interfaces _ _ _ same := same
  startXmit skb _ _ _ _ run same :=
    ⟨(trigger_of_startXmit run).trans same.1,
      (run.tracks env_front (startXmit_front skb)).status.trans same.2⟩

theorem Initial.active {n : Nat} (init : Initial n s) : s.queue.status = .active := by
  obtain ⟨-, dma, bufs, hq⟩ := init
  rw [hq]
  cases s.isA0 <;> rfl

/-- No call makes a queue that is not usable so. -/
theorem keptByCalls_stuck : KeptByCalls Stuck where
  device := env_stable_stuck
  interfaces _ _ _ stuck := ⟨stuck.rewound, stuck.unusable⟩
  startXmit _ _ _ _ _ run stuck := (stuck_of_startXmit stuck run).2

end Stuck

/-! ### Recovery -/

/-- A linear frame that one descriptor can carry. -/
structure ShortFrame (skb : SkBuff) : Prop where
  pos : 0 < skb.len
  le : skb.len ≤ xpnetMaxDmaSegmentSize
  linear : skb.dataLen = 0

/-- What is left of a run, and then more calls, can end with `xpnet_start_xmit`
accepting the frame. -/
def Accepts (skb : SkBuff) (p : TxProg Unit) (s : State) : Prop :=
  ∃ more tr t, Runs Env (do
    p
    runNet more
    xpnetStartXmit skb) s tr .txok t

/-- Every short frame is answered busy from now on. -/
def BusyForever (s : State) : Prop :=
  ∀ skb, ShortFrame skb → ∀ more tr exit t, Runs Env (do
    runNet more
    xpnetStartXmit skb) s tr exit t → exit = .txbusy

section Recovery

variable {n : Nat} {a0 : Bool} {skb : SkBuff} {s : State}

/-- One descriptor of the driver's ring stays free, and the room in the others does not
wrap. -/
theorem SomeIdle.room (idle : SomeIdle xpnetTxNumDescs a0 s) :
    s.numFreeDesc ≤ xpnetTxNumDescs - 1 ∧ u32Mul s.numFreeDesc xpnetMaxDmaSegmentSize =
      s.numFreeDesc * xpnetMaxDmaSegmentSize := by
  obtain ⟨r, hr, idle⟩ := idle
  have hfree : s.numFreeDesc ≤ xpnetTxNumDescs - 1 := by
    rw [State.numFreeDesc, idle.base.indices.free (hr ▸ ringSize_txNumDescs), ← hr]
    have := r.busy_add_free
    omega
  refine ⟨hfree, Nat.mod_eq_of_lt ?_⟩
  unfold xpnetTxNumDescs at hfree
  unfold xpnetMaxDmaSegmentSize
  omega

/-- The checks refuse no short frame. -/
theorem ShortFrame.not_refused (short : ShortFrame skb) (idle : SomeIdle xpnetTxNumDescs a0 s)
    (active : s.queue.status = .active) : ¬ Refuses s skb := by
  rintro (down | ⟨free, hzero | hlong | hfrags⟩)
  · exact down active
  · exact absurd hzero (Nat.ne_of_gt short.pos)
  · rw [idle.room.2] at hlong
    have := short.le.trans (Nat.le_mul_of_pos_left _ (Nat.pos_of_ne_zero free))
    exact absurd hlong (Nat.not_lt.mpr this)
  · exact hfrags short.linear

/-- It takes no more than that one. -/
theorem ShortFrame.needed (short : ShortFrame skb) (htail : s.queue.tail < s.queue.xpqNumDesc) :
    needed s skb = [s.queue.tail] := by
  have hcount : shardCount skb.len = 1 := by
    have hpos := shardCount_pos short.pos
    have hle := shardCount_le (k := 1) (by simpa using short.le)
    omega
  rw [Tx.needed, hcount, slots_succ, slot_zero htail]
  rfl

/-- **A usable queue** accepts a short frame, once the device has given the descriptor
at `tail` back. -/
theorem Usable.accepts (short : ShortFrame skb) (idle : SomeIdle xpnetTxNumDescs a0 s)
    (usable : Usable s) : ∃ tr t, Runs Env (xpnetStartXmit skb) s tr .txok t := by
  obtain ⟨t, steps, hfree, -, herr⟩ := exists_drained s xpnetTxNumDescs
  have hfront := kept_of_steps env_front steps
  have houtside := kept_of_steps env_outside steps
  have idle' := (env_stable_someIdle _ _).steps steps idle
  obtain ⟨-, htail⟩ := idle'.size_tail ringSize_txNumDescs
  have htail' : t.queue.tail = s.queue.tail := congrArg Front.tail hfront
  have husable : t.unusable t.queue.tail = false := by
    obtain ⟨r, hr, idle'⟩ := idle'
    apply Bool.or_eq_false_iff.mpr
    constructor
    · apply hfree
      rw [idle'.base.indices.tail, ← hr]
      exact r.tail_lt
    · rw [herr, htail']
      exact usable.2.2.2
  obtain ⟨hstatus, hnum, hhead, -⟩ := Front.mk.inj hfront
  have hfree' : t.numFreeDesc = s.numFreeDesc := by
    unfold State.numFreeDesc
    rw [hnum, hhead, htail']
  have room : ¬ RingBusy t skb := by
    rintro (⟨-, -, hnone⟩ | ⟨-, i, hi, hbad⟩)
    · exact usable.2.2.1 (hfree'.symm.trans hnone)
    · rw [short.needed htail, List.mem_singleton] at hi
      rw [hi, husable] at hbad
      cases hbad
  obtain ⟨tr, exit, t', run⟩ := Runs.of_wp (wp_startXmit_idle ringSize_txNumDescs skb idle') Env
  have ready : exit ≠ .txbusy := not_txbusy ringSize_txNumDescs idle' room run
  have kept : exit ≠ .txdrop := by
    intro dropped
    rcases (runs_startXmit_txdrop run).mp dropped with off | refused
    · exact usable.1 ((congrArg Outside.dmaTrigger houtside).symm.trans off)
    · exact short.not_refused idle' (hstatus.trans usable.2.1) refused
  cases exit with
  | txok => exact ⟨tr, t', run.before steps⟩
  | txdrop => exact absurd rfl kept
  | txbusy => exact absurd rfl ready

/-- With the DMA engine on, a queue that is not usable stays busy. -/
theorem Stuck.busyForever (idle : SomeIdle xpnetTxNumDescs a0 s) (on : s.dmaTrigger ≠ 0)
    (active : s.queue.status = .active) (stuck : Stuck s) : BusyForever s := by
  intro skb short more tr exit t run
  obtain ⟨_, u, _, _, calls, sent, -⟩ := runs_bind.mp run
  obtain ⟨htrigger, hactive⟩ := (keptByCalls_switches _ _).runNet calls ⟨rfl, active⟩
  have idle' := (keptByCalls_idle ringSize_txNumDescs a0).runNet calls idle
  have refused := (stuck_of_startXmit (keptByCalls_stuck.runNet calls stuck) sent).1
  cases exit with
  | txok => exact absurd rfl refused
  | txbusy => rfl
  | txdrop =>
      rcases (runs_startXmit_txdrop sent).mp rfl with off | bad
      · exact absurd (htrigger.symm.trans off) on
      · exact absurd bad (short.not_refused idle' hactive)

/-- With the DMA engine off every frame is dropped. -/
theorem trigger_of_busyForever (idle : SomeIdle xpnetTxNumDescs a0 s) (short : ShortFrame skb)
    (busy : BusyForever s) : s.dmaTrigger ≠ 0 := by
  intro off
  obtain ⟨tr, exit, t, sent⟩ := Runs.of_wp (wp_startXmit_idle ringSize_txNumDescs skb idle) Env
  have hbusy := busy skb short [] _ exit t
    (runs_bind.mpr ⟨(), s, [], tr, .ret .refl, sent, rfl⟩)
  have hdrop := (runs_startXmit_txdrop sent).mpr (.inl off)
  rw [hbusy] at hdrop
  cases hdrop

/-- **Recovery.** From every state that a sequence of calls can reach, with the device
acting at any time, some continuation ends with a short frame accepted if and only if
the calls can end with a usable queue. Between two calls this is so if and only if the
queue is usable, and with the DMA engine on every later frame is answered busy if and
only if it is not. -/
theorem accepts_iff {s₀ : State} (init : Initial xpnetTxNumDescs s₀) {calls : List NetCall}
    {p : TxProg Unit} {tr : List (State × Ev)}
    (run : Reach Env (fun _ _ => True) (runNet calls) s₀ p s tr) (short : ShortFrame skb) :
    (Accepts skb p s ↔ ∃ tr' t, Runs Env p s tr' () t ∧ Usable t) ∧
      (p = .ret () → (Accepts skb p s ↔ Usable s) ∧
        (BusyForever s ↔ s.dmaTrigger ≠ 0 ∧ ¬ Usable s)) := by
  -- the queue is idle, active and, on A0, rewound when the calls have ended
  have ended : ∀ {tr' t}, Runs Env p s tr' () t → SomeIdle xpnetTxNumDescs s₀.isA0 t ∧
      t.front.Rewound ∧ t.queue.status = .active := by
    intro tr' t rest
    have whole := run.runs rest
    refine ⟨(netInv_of_runs ringSize_txNumDescs init whole).idle, ?_, ?_⟩
    · exact keptByCalls_rewound.runNet whole init.rewound
    · exact ((keptByCalls_switches _ _).runNet whole ⟨rfl, init.active⟩).2
  have main : Accepts skb p s ↔ ∃ tr' t, Runs Env p s tr' () t ∧ Usable t := by
    constructor
    · rintro ⟨more, _, _, all⟩
      obtain ⟨_, t, tr', _, rest, later, -⟩ := runs_bind.mp all
      obtain ⟨_, u, _, _, calls, sent, -⟩ := runs_bind.mp later
      refine ⟨tr', t, rest, ?_⟩
      by_contra unusable
      have stuck := keptByCalls_stuck.runNet calls ⟨(ended rest).2.1, unusable⟩
      exact (stuck_of_startXmit stuck sent).1 rfl
    · rintro ⟨tr', t, rest, usable⟩
      obtain ⟨tr'', t', sent⟩ := usable.accepts short (ended rest).1
      have later : Runs Env (do
          runNet []
          xpnetStartXmit skb) t tr'' .txok t' :=
        runs_bind.mpr ⟨(), t, [], tr'', .ret .refl, sent, rfl⟩
      exact ⟨[], _, t', runs_bind.mpr ⟨(), t, tr', _, rest, later, rfl⟩⟩
  refine ⟨main, ?_⟩
  rintro rfl
  obtain ⟨idle, rewound, active⟩ := ended (.ret .refl)
  refine ⟨main.trans ⟨?_, fun usable => ⟨[], s, .ret .refl, usable⟩⟩, ?_, ?_⟩
  · rintro ⟨_, t, rest, usable⟩
    cases rest with
    | ret steps =>
        by_contra unusable
        exact (env_stable_stuck.steps steps ⟨rewound, unusable⟩).unusable usable
  · intro busy
    refine ⟨trigger_of_busyForever idle short busy, fun usable => ?_⟩
    obtain ⟨tr', t, sent⟩ := usable.accepts short idle
    cases busy skb short [] _ _ t (runs_bind.mpr ⟨(), s, [], tr', .ret .refl, sent, rfl⟩)
  · rintro ⟨on, unusable⟩
    exact Stuck.busyForever idle on active ⟨rewound, unusable⟩

end Recovery

/-- A datagram of 100 zero bytes comes in. -/
def sendDatagram : List NetCall := [.transmit (.socket ⟨zeroFrame 0 100, header_zeroFrame⟩)]

theorem shortFrame_zeroFrame : ShortFrame (zeroFrame 0 100) := ⟨by decide, by decide, rfl⟩

/-- Elsewhere than on A0 the frame is followed by another one, though the device has
reported an error for it. -/
theorem accepts_after_fault : ∃ s tr, Reach Env (fun _ _ => True) (runNet sendDatagram)
    (freshState 0 .b0Compressed xpnetTxNumDescs) (.ret ()) s tr ∧
      errorIndication (s.desc 0).qword0 = true ∧ Accepts (zeroFrame 0 100) (.ret ()) s := by
  have init := initial_freshState 0 .b0Compressed xpnetTxNumDescs
  have hexec : ((runNet sendDatagram).exec (freshState 0 .b0Compressed xpnetTxNumDescs)).map
      (fun r => (decide (Usable (envMove (.fault 0) r.2)),
        errorIndication ((envMove (.fault 0) r.2).desc 0).qword0)) = some (true, true) := by
    decide +kernel
  obtain ⟨⟨⟨⟩, s⟩, hrun, hboth⟩ := Option.map_eq_some_iff.mp hexec
  obtain ⟨husable, herr⟩ := Prod.mk.inj hboth
  obtain ⟨tr, run⟩ := Runs.of_exec hrun
  have fault : Env s (envMove (.fault 0) s) := ⟨.fault 0, rfl⟩
  have reach := (run.reach .start).env fault
  exact ⟨_, _, reach, herr, ((accepts_iff init reach shortFrame_zeroFrame).2 rfl).1.mpr
    (of_decide_eq_true husable)⟩

/-- On A0 no frame is accepted after it, and every short one is answered busy. -/
theorem stuck_after_fault : ∃ s tr, Runs Idling (runNet sendDatagram)
    (freshState 1 .a0Uncompressed xpnetTxNumDescs) tr () s ∧
      (∀ skb, ¬ Accepts skb (.ret ()) (envMove (.fault 0) s)) ∧
      BusyForever (envMove (.fault 0) s) := by
  have init := initial_freshState 1 .a0Uncompressed xpnetTxNumDescs
  have hexec : ((runNet sendDatagram).exec (freshState 1 .a0Uncompressed xpnetTxNumDescs)).map
      (fun r => decide (Usable (envMove (.fault 0) r.2))) = some false := by
    decide +kernel
  obtain ⟨⟨⟨⟩, s⟩, hrun, hunusable⟩ := Option.map_eq_some_iff.mp hexec
  obtain ⟨tr, run⟩ : ∃ tr, Runs Idling _ _ tr _ _ := Runs.of_exec hrun
  have fault : Env s (envMove (.fault 0) s) := ⟨.fault 0, rfl⟩
  have faulted : Runs Env _ _ tr _ _ := (run.mono fun _ _ h => h.elim).later (.single fault)
  have stuck : Stuck (envMove (.fault 0) s) :=
    ⟨keptByCalls_rewound.runNet faulted init.rewound, of_decide_eq_false hunusable⟩
  refine ⟨s, tr, run, ?_, ?_⟩
  · rintro skb ⟨more, _, _, all⟩
    obtain ⟨_, u, _, _, rest, later, -⟩ := runs_bind.mp all
    obtain ⟨_, v, _, _, calls, sent, -⟩ := runs_bind.mp later
    cases rest with
    | ret steps =>
        have stuck' := keptByCalls_stuck.runNet calls (env_stable_stuck.steps steps stuck)
        exact (stuck_of_startXmit stuck' sent).1 rfl
  · obtain ⟨on, active⟩ := (keptByCalls_switches _ _).runNet faulted ⟨rfl, init.active⟩
    exact stuck.busyForever (netInv_of_runs ringSize_txNumDescs init faulted).idle
      (by rw [on]; decide) active

end XpNet.Tx
