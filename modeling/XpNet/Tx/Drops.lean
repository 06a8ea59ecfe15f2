/-
Whether a frame that would fit an empty ring is ever dropped.

`xpnet_hard_start_xmit` compares the length of a frame with the room in the free
descriptors: with none free it answers busy, with some but too few it drops the
frame. So a frame that is neither enqueued nor kept for another try is one that is
too long for the room there is while there is some (`sendsOrKeeps_iff`). An A0 ring
starts over after every call and always has all its room.
-/

import XpNet.Tx.Recovery

namespace XpNet.Tx

open XpNet.Interference

/-! ### The ring of an A0 device -/

/-- On A0 every frame finds the ring empty. -/
def Front.Emptied (d : Front) : Prop := d.isA0 = true → d.head = d.numDesc - 1 ∧ d.tail = 0

section Emptied

variable {d : Front} {n : Nat} {s : State}

theorem rewindA0_empties (isA0 : Bool) : Tracks State.front (rewindA0 isA0) d
    fun _ e => e.isA0 = d.isA0 ∧ (isA0 = true → e.head = e.numDesc - 1 ∧ e.tail = 0) := by
  cases isA0 with
  | false => exact ⟨rfl, nofun⟩
  | true =>
      intro s hs
      subst hs
      exact ⟨rfl, fun _ => ⟨rfl, rfl⟩⟩

theorem txComplete_empties (maxiter : Nat) :
    Tracks State.front (xpnetTxComplete maxiter) d fun _ e => e.Emptied := by
  refine Tracks.look fun s hs => (txCompleteLoop_front _ _ _ _).bind ?_
  rintro _ e ⟨-, hflag, -⟩
  have hA0 : s.isA0 = d.isA0 := congrArg Front.isA0 hs
  refine (rewindA0_empties _).mono ?_
  rintro _ f ⟨hflag', hempty⟩ ha
  exact hempty (hA0.trans (hflag.symm.trans (hflag'.symm.trans ha)))

theorem startXmit_empties (skb : SkBuff) (empty : d.Emptied) :
    Tracks State.front (xpnetStartXmit skb) d fun _ e => e.Emptied := by
  refine Tracks.look fun s _ => ?_
  change Tracks _ (startXmitFrom s skb) _ _
  unfold startXmitFrom
  split
  · exact .act (fun _ => rfl) fun _ _ => empty
  · refine (hardStartXmit_sends skb).bind fun exit m sends => ?_
    unfold completeAfter
    split
    · exact (txComplete_empties _).bind fun _ _ empty => empty
    · rename_i busy
      have refused : exit ≠ .txok := by
        rintro rfl
        exact busy rfl
      obtain rfl := sends.same refused
      exact empty

theorem keptByCalls_emptied : KeptByCalls fun s => s.front.Emptied where
  device s s' h empty := by
    change s'.front.Emptied
    rw [env_front s s' h]
    exact empty
  interfaces _ _ _ empty := empty
  startXmit skb _ _ _ _ run empty := run.tracks env_front (startXmit_empties skb empty)

theorem Initial.emptied (init : Initial n s) : s.front.Emptied := by
  obtain ⟨-, dma, bufs, hq⟩ := init
  intro ha
  have ha : s.isA0 = true := ha
  change s.queue.head = s.queue.xpqNumDesc - 1 ∧ s.queue.tail = 0
  rw [hq, ha]
  exact ⟨rfl, rfl⟩

/-- All descriptors but one are free. -/
theorem Front.Emptied.numFreeDesc {a0 : Bool} (size : RingSize n) (idle : SomeIdle n a0 s)
    (empty : s.front.Emptied) (ha : s.isA0 = true) : s.numFreeDesc = n - 1 := by
  obtain ⟨hhead, htail⟩ := empty ha
  have hhead : s.queue.head = s.queue.xpqNumDesc - 1 := hhead
  have htail : s.queue.tail = 0 := htail
  have hnum : s.queue.xpqNumDesc = n := by
    obtain ⟨r, rfl, idle⟩ := idle
    exact idle.base.indices.numDesc
  have pos := size.pos
  have hring := At.free (r := emptyRing n pos) (s := s)
    ⟨hnum, hhead.trans (congrArg (· - 1) hnum), htail⟩ size
  have hbusy : (emptyRing n pos).busy = 0 := by
    simp [Ring.busy, emptyRing, Nat.sub_add_cancel pos]
  rw [State.numFreeDesc, hring, Ring.free, hbusy]
  rfl

end Emptied

/-! ### Drops -/

/-- A linear frame that fits the driver's ring when it is empty. -/
structure FitsEmpty (skb : SkBuff) : Prop where
  pos : 0 < skb.len
  le : skb.len ≤ (xpnetTxNumDescs - 1) * xpnetMaxDmaSegmentSize
  linear : skb.dataLen = 0

/-- A call that starts now returns, and either the frame is enqueued and counted as
sent, or the answer is busy and the frame not released. -/
def SendsOrKeeps (s : State) (skb : SkBuff) : Prop :=
  ¬ Crashes Env (xpnetHardStartXmit (some skb)) s ∧
    ∀ tr exit s', Runs Env (xpnetHardStartXmit (some skb)) s tr exit s' →
      (exit = .txok ∧ s'.stats = countSent skb.len s.stats) ∨ (exit = .txbusy ∧ freed tr = [])

/-- The ring is full, or has room for the frame. -/
def FullOrRoom (s : State) (skb : SkBuff) : Prop :=
  s.numFreeDesc = 0 ∨ skb.len ≤ s.numFreeDesc * xpnetMaxDmaSegmentSize

section Drops

variable {skb : SkBuff} {a0 : Bool} {s : State}

theorem wp_hardStartXmit_some (skb : SkBuff) (idle : SomeIdle xpnetTxNumDescs a0 s) :
    wp Env (fun _ _ => True) (TxGuar False) (xpnetHardStartXmit (some skb))
      (fun _ t => SomeIdle xpnetTxNumDescs a0 t) s := by
  obtain ⟨r, hr, idle⟩ := idle
  have size : RingSize r.size := hr ▸ ringSize_txNumDescs
  exact hr ▸ wp_unassumed (fun _ _ h => h.elim) (wp_hardStartXmit_idle size (some skb) idle)

/-- The checks refuse a frame that fits the empty ring when it is too long for the room
there is. -/
theorem FitsEmpty.refuses_iff (fits : FitsEmpty skb) (idle : SomeIdle xpnetTxNumDescs a0 s)
    (active : s.queue.status = .active) : Refuses s skb ↔ ¬ FullOrRoom s skb := by
  unfold Refuses FullOrRoom
  rw [idle.room.2, not_or, Nat.not_le]
  constructor
  · rintro (down | ⟨free, hzero | hlong | hfrags⟩)
    · exact absurd active down
    · exact absurd hzero (Nat.ne_of_gt fits.pos)
    · exact ⟨free, hlong⟩
    · exact absurd fits.linear hfrags
  · rintro ⟨free, hlong⟩
    exact .inr ⟨free, .inr (.inl hlong)⟩

/-- What a run does with a frame that it does not drop. -/
theorem sentOrKept_of_runs {tr : List (State × Ev)} {exit : XmitExit} {s' : State}
    (run : Runs Env (xpnetHardStartXmit (some skb)) s tr exit s') (kept : exit ≠ .txdrop) :
    (exit = .txok ∧ s'.stats = countSent skb.len s.stats) ∨ (exit = .txbusy ∧ freed tr = []) := by
  have counts := run.tracks env_outside (hardStartXmit_counts skb)
  have hfreed := run.outputs (hardStartXmit_frees skb)
  cases exit with
  | txok =>
      generalize hout : s'.outside = e at counts
      cases counts with
      | sent => exact .inl ⟨rfl, congrArg Outside.stats hout⟩
  | txdrop => exact absurd rfl kept
  | txbusy => exact .inr ⟨rfl, hfreed.symm⟩

/-- **Drops.** In every state between two calls that a sequence of calls can reach, with
the device acting at any time: a frame that fits the empty ring is enqueued or kept for
another try, if and only if the ring is full or has room for the frame now. On A0 it
always has. -/
theorem sendsOrKeeps_iff {s₀ : State} (init : Initial xpnetTxNumDescs s₀) {calls : List NetCall}
    {tr : List (State × Ev)} (run : Runs Env (runNet calls) s₀ tr () s) (fits : FitsEmpty skb) :
    (SendsOrKeeps s skb ↔ FullOrRoom s skb) ∧ (s.isA0 = true → FullOrRoom s skb) := by
  have idle := (netInv_of_runs ringSize_txNumDescs init run).idle
  have active := ((keptByCalls_switches _ _).runNet run ⟨rfl, init.active⟩).2
  have verified := wp_hardStartXmit_some skb idle
  have hrefuses := fits.refuses_iff idle active
  refine ⟨⟨?_, ?_⟩, fun ha => .inr ?_⟩
  · rintro ⟨-, sends⟩
    by_contra short
    obtain ⟨tr', exit, s', call⟩ := Runs.of_wp verified Env
    obtain rfl := (runs_hardStartXmit_txdrop call).mpr (hrefuses.mpr short)
    rcases sends _ _ _ call with ⟨h, -⟩ | ⟨h, -⟩
    · cases h
    · cases h
  · intro room
    refine ⟨not_crashes_of_wp verified, fun tr' exit s' call => sentOrKept_of_runs call ?_⟩
    intro dropped
    exact hrefuses.mp ((runs_hardStartXmit_txdrop call).mp dropped) room
  · rw [(keptByCalls_emptied.runNet run init.emptied).numFreeDesc ringSize_txNumDescs idle ha]
    exact fits.le

end Drops

/-- A frame of two descriptors. -/
theorem fitsEmpty_zeroFrame : FitsEmpty (zeroFrame 0 5000) := ⟨by decide, by decide, rfl⟩

/-- The first frame on A0. -/
theorem sendsOrKeeps_on_a0 :
    SendsOrKeeps (freshState 1 .a0Uncompressed xpnetTxNumDescs) (zeroFrame 0 5000) := by
  have run : Runs Env (runNet []) (freshState 1 .a0Uncompressed xpnetTxNumDescs) [] ()
      (freshState 1 .a0Uncompressed xpnetTxNumDescs) := .ret .refl
  have main := sendsOrKeeps_iff (initial_freshState 1 .a0Uncompressed xpnetTxNumDescs) run
    fitsEmpty_zeroFrame
  exact main.1.mpr (main.2 (by decide))

/-- Eight datagrams of one descriptor each. -/
def sendDatagrams : List NetCall :=
  List.replicate 8 (.transmit (.socket ⟨zeroFrame 0 100, header_zeroFrame⟩))

/-- Elsewhere than on A0, with eight of the nine usable descriptors in flight and no error
reported, a frame of two descriptors is dropped. -/
theorem dropped_when_nearly_full : ∃ s tr, Runs Env (runNet sendDatagrams)
    (freshState 0 .b0Compressed xpnetTxNumDescs) tr () s ∧ s.queue.status = .active ∧
      (∀ i < xpnetTxNumDescs, errorIndication (s.desc i).qword0 = false) ∧
      FitsEmpty (zeroFrame 0 5000) ∧ ¬ SendsOrKeeps s (zeroFrame 0 5000) := by
  have init := initial_freshState 0 .b0Compressed xpnetTxNumDescs
  have hexec : ((runNet sendDatagrams).exec (freshState 0 .b0Compressed xpnetTxNumDescs)).map
      (fun r => (r.2.numFreeDesc, decide (∀ i < xpnetTxNumDescs,
        errorIndication (r.2.desc i).qword0 = false))) = some (1, true) := by
    decide +kernel
  obtain ⟨⟨⟨⟩, s⟩, hrun, hboth⟩ := Option.map_eq_some_iff.mp hexec
  obtain ⟨hfree, hclean⟩ := Prod.mk.inj hboth
  obtain ⟨tr, run⟩ : ∃ tr, Runs Env _ _ tr _ _ := Runs.of_exec hrun
  have idle := (netInv_of_runs ringSize_txNumDescs init run).idle
  have active := ((keptByCalls_switches _ _).runNet run ⟨rfl, init.active⟩).2
  refine ⟨s, tr, run, active, of_decide_eq_true hclean, fitsEmpty_zeroFrame, ?_⟩
  rintro ⟨-, sends⟩
  have hrefuses : Refuses s (zeroFrame 0 5000) :=
    .inr ⟨by rw [hfree]; decide, .inr (.inl (by rw [hfree]; decide))⟩
  obtain ⟨tr', exit, s', call⟩ := Runs.of_wp (wp_hardStartXmit_some _ idle) Env
  obtain rfl := (runs_hardStartXmit_txdrop call).mpr hrefuses
  rcases sends _ _ _ call with ⟨h, -⟩ | ⟨h, -⟩
  · cases h
  · cases h

end XpNet.Tx
