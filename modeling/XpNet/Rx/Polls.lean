/-
Runs of `xpnet_rx_queue_process`, with the device acting at any time.

Between two rounds the queue is `Ready`: a window starts at `tail`. Every round
goes from a ready queue to a ready queue and keeps the frames in order, and a
round that finds a frame takes it if there is memory for it.

* `frames_in_order`: in runs whose completions are all good frames, the frames
  are delivered once each and in order, and no poll leaves one behind.
* `frames_left_behind`: after an error the poll stays at the slot the device has
  left, and the frames that follow are never delivered.
-/

import XpNet.Interference.Trace
import XpNet.Rx.Window

namespace XpNet.Rx

open XpNet.Interference

/-- The weakest precondition under good completions, with every action keeping
the frames in order. -/
abbrev RxWp {α : Type} (p : RxProg α) (Q : α → State → Prop) (s : State) : Prop :=
  wp GoodEnv (fun _ _ => True) (fun _ _ t => InOrder t) p Q s

/-- A queue between two rounds; under `b` a frame is pending. -/
def Ready (n : Nat) (mode : AddressMode) (b : Prop) (s : State) : Prop :=
  ∃ t < n, Between n mode t t t [] (fun pend _ => b → pend ≠ []) s

/-- Descriptor `i` is `d`. -/
def AtDesc (i : Nat) (d : Desc) (_ : List Frame) (desc : Nat → Desc) : Prop := desc i = d

section Rounds

variable {n : Nat} {mode : AddressMode} {i t lo tail : Nat} {back : List Frame} {b : Prop}
  {s : State} {d : Desc} {f : Frame} {K : List Frame → (Nat → Desc) → Prop}

theorem Between.inOrder (h : Between n mode lo t tail back K s) : InOrder s := by
  obtain ⟨pend, w, -⟩ := h
  exact w.inOrder

theorem Between.desc_eq (h : Between n mode lo t tail back (AtDesc i d) s) : s.desc i = d := by
  obtain ⟨_, _, _, hd⟩ := h
  exact hd

theorem stable_pending (n : Nat) (mode : AddressMode) (t tail : Nat) (b : Prop) :
    Stable GoodEnv (Between n mode t t tail [] fun pend _ => b → pend ≠ []) :=
  goodEnv_between (Nat.le_refl t) fun _ _ _ _ _ hK hb => List.append_ne_nil_of_left_ne_nil (hK hb) _

theorem stable_atDesc (n : Nat) (mode : AddressMode) (i tail : Nat) (back : List Frame) (d : Desc) :
    Stable GoodEnv (Between n mode i (i + 1) tail back (AtDesc i d)) :=
  goodEnv_between (Nat.le_succ i) fun _ _ _ _ same hK => (same i (Nat.lt_succ_self i)).trans hK

theorem stable_open (n : Nat) (mode : AddressMode) (t tail : Nat) (back : List Frame) :
    Stable GoodEnv (Between n mode t t tail back fun _ _ => True) :=
  goodEnv_between (Nat.le_refl t) fun _ _ _ _ _ _ => trivial

theorem stable_ready (n : Nat) (mode : AddressMode) (b : Prop) :
    Stable GoodEnv (Ready n mode b) := by
  rintro s s' step ⟨t, ht, h⟩
  exact ⟨t, ht, stable_pending n mode t t b s s' step h⟩

/-- A store to the descriptor the host is working on. -/
theorem Between.store (h : Between n mode i (i + 1) tail back (AtDesc i d) s) (g : Desc → Desc)
    (keeps : (g d).cdp = d.cdp ∧ (g d).qword3 = d.qword3) :
    Between n mode i (i + 1) tail back (AtDesc i (g d)) (s.updDesc i g) := by
  obtain ⟨pend, w, htail, rfl⟩ := h
  exact ⟨pend, w.upd keeps, htail, updDesc_self s i g⟩

/-! ### Taking a packet -/

theorem wp_swapBuffer (filled : Filled mode d f)
    (h : Between n mode i (i + 1) i [f] (AtDesc i d) s) :
    RxWp (swapBuffer mode i (pktSize mode d.qword1)) (fun _ t =>
      Between n mode i (i + 1) i [f] (AtDesc i (setVa
        (swapWords d.bufSta.va (swappedWords (pktSize mode d.qword1) mode)) d)) t) s := by
  refine wp_look (stable_atDesc n mode i i [f] d) h fun t ht _ => ⟨ht.inOrder, ?_⟩
  rw [ht.desc_eq, xpnetEndianSwap32_of_frameOk filled.frameOk]
  apply wp_act (stable_atDesc n mode i i [f] d) ht
  intro u hu _
  have hu' := hu.store (setVa
    (swapWords d.bufSta.va (swappedWords (pktSize mode d.qword1) mode))) ⟨rfl, rfl⟩
  exact ⟨hu'.inOrder, wp_ret (stable_atDesc n mode i i [f] _) hu' fun _ h => h⟩

/-- Handing over the frame leaves the queue ready. -/
theorem wp_deliver (ht : t < n) (h : Between n mode t t t [f] (fun _ _ => True) s) :
    RxWp (Prog.write (.deliver f) fun s => { s with delivered := s.delivered ++ [f] })
      (fun _ u => Ready n mode False u) s := by
  apply wp_act (stable_open n mode t t [f]) h
  intro u hu _
  obtain ⟨pend, w, htail, -⟩ := hu
  have w' := w.deliver
  exact ⟨w'.inOrder, wp_ret (stable_ready n mode False)
    ⟨t, ht, pend, w', htail, fun hb => hb.elim⟩ fun _ h => h⟩

/-- From the end of the ring the device is started over. -/
theorem wp_restart (pos : 0 < n) (w : Wrapped n mode [f] (fun _ => True) s) :
    RxWp (do
        xpnetSetQCdp 0
        xpnetQueueEnable
        Prog.write (.deliver f) fun s => { s with delivered := s.delivered ++ [f] })
      (fun _ u => Ready n mode False u) s := by
  refine wp_write (goodEnv_wrapped fun _ _ h => h) w fun u hu _ => ?_
  have hu' : Wrapped n mode [f] (fun s => s.cdp = s.queue.dma)
      { u with cdp := u.queue.dma + 0 * xpnetDescSize } :=
    ⟨hu.numDesc, hu.linked, hu.mode_eq, hu.tail, hu.stopped, hu.armed, hu.conserved, by simp⟩
  refine ⟨⟨_, hu.conserved⟩, wp_write (goodEnv_wrapped fun _ _ h => h) hu' fun v hv _ => ?_⟩
  have hw := hv.restart pos
  exact ⟨hw.inOrder, wp_deliver pos ⟨[], hw, hv.tail, trivial⟩⟩

/-- Moving `tail` past the taken packet, and what follows. -/
theorem wp_moveTail (size : RingSize n) (hi : i < n)
    (h : Between n mode (i + 1) (i + 1) i [f] (fun _ _ => True) s) :
    RxWp (do
        let tail := xpnetAddAndWrap i 1 n
        Prog.write (.moveTail tail) fun s => { s with queue := { s.queue with tail := tail } }
        restartAtZero tail
        Prog.write (.deliver f) fun s => { s with delivered := s.delivered ++ [f] })
      (fun _ u => Ready n mode False u) s := by
  have hnext : xpnetAddAndWrap i 1 n = (i + 1) % n :=
    xpnetAddAndWrap_eq size (Nat.le_of_lt hi) size.pos
  apply wp_write (stable_open n mode (i + 1) i [f]) h
  intro u hu _
  obtain ⟨pend, w, htail, -⟩ := hu
  by_cases hlast : i + 1 = n
  · have hzero : xpnetAddAndWrap i 1 n = 0 := by rw [hnext, hlast, Nat.mod_self]
    rw [hlast] at w
    rw [hzero]
    have w' := w.wrap
    exact ⟨⟨_, w'.conserved⟩, wp_restart size.pos w'⟩
  · have hsucc : xpnetAddAndWrap i 1 n = i + 1 := by rw [hnext, Nat.mod_eq_of_lt (by omega)]
    rw [hsucc]
    have w' : Window n mode (i + 1) (i + 1) [f] pend
        { u with queue := { u.queue with tail := i + 1 } } :=
      ⟨w.numDesc, w.linked, w.mode_eq, w.fits, w.device, w.stopped, w.filled, w.armed, w.conserved⟩
    refine ⟨w'.inOrder, ?_⟩
    rw [restartAtZero, if_neg (Nat.succ_ne_zero i)]
    exact wp_deliver (by omega) ⟨pend, w', rfl, trivial⟩

/-- A packet is taken, its slot given back, and its frame delivered. -/
theorem wp_takePacket (size : RingSize n) (hi : i < n) (filled : Filled mode d f)
    (h : Between n mode i (i + 1) i [f] (AtDesc i d) s) :
    RxWp (takePacket mode n i (pktSize mode d.qword1)) (fun _ u => Ready n mode False u) s := by
  have stable := stable_atDesc n mode i i [f]
  apply wp_seq (wp_swapBuffer filled h)
  intro _ t ht
  refine wp_look (stable _) ht fun u hu _ => ⟨hu.inOrder, ?_⟩
  have hframe : readBytes (u.desc i).bufSta.va (pktSize mode d.qword1) = f := by
    rw [hu.desc_eq, filled.frame]
    rfl
  rw [hframe]
  apply wp_write (stable _) hu
  intro v hv _
  have hv' := hv.store (fun d => { d with qword1 := d.bufSta.len }) ⟨rfl, rfl⟩
  refine ⟨hv'.inOrder, wp_write (stable _) hv' fun x hx _ => ?_⟩
  have hx' := hx.store (setQword0 ownBit) ⟨rfl, rfl⟩
  refine ⟨hx'.inOrder, wp_moveTail size hi ?_⟩
  have harmed := congrArg Desc.qword0 hx'.desc_eq
  obtain ⟨pend, w, htail, -⟩ := hx'
  exact ⟨pend, w.arm harmed, htail, trivial⟩

/-! ### A round -/

/-- What a round that ends the poll, or goes on, leaves behind. -/
def RoundPost (n : Nat) (mode : AddressMode) (b : Prop) : Option PollExit → State → Prop
  | none, s => Ready n mode False s
  | some exit, s => Ready n mode False s ∧ (exit = .noMemory ∨ ¬ b)

/-- A descriptor that holds a frame: it is taken, or there is no memory for it. -/
theorem wp_pollOwned (size : RingSize n) (hi : i < n) (filled : Filled mode d f)
    (h : Between n mode i (i + 1) i [f] (AtDesc i d) s) :
    RxWp (pollOwned mode n i) (RoundPost n mode b) s := by
  have stable := stable_atDesc n mode i i [f] d
  apply wp_write stable h
  intro t ht _
  have ht' : Between n mode i (i + 1) i [f] (AtDesc i d) { t with jiffiesDefer := 0 } := by
    obtain ⟨pend, w, htail, hd⟩ := ht
    exact ⟨pend, ⟨w.numDesc, w.linked, w.mode_eq, w.fits, w.device, w.stopped, w.filled, w.armed,
      w.conserved⟩, htail, hd⟩
  refine ⟨ht'.inOrder, wp_look stable ht' fun u hu _ => ⟨hu.inOrder, ?_⟩⟩
  rw [hu.desc_eq]
  dsimp only
  rw [if_neg (Nat.not_lt.mpr filled.frameOk.1)]
  refine wp_look stable hu fun v hv _ => ⟨hv.inOrder, ?_⟩
  by_cases hmem : v.allocOk = true
  · rw [if_pos hmem]
    exact wp_seq (wp_takePacket size hi filled hv) fun _ x hx =>
      wp_ret (stable_ready n mode False) hx fun _ h => h
  · rw [if_neg hmem]
    obtain ⟨pend, w, htail, hd⟩ := hv
    have held : Window n mode i (i + 1) ([] ++ [f]) pend v := w
    have w' : Window n mode i i [] (f :: pend) v :=
      held.untake (by rw [show v.desc i = d from hd]; exact filled)
    exact wp_ret (stable_ready n mode False) ⟨i, hi, _, w', htail, fun hb => hb.elim⟩
      fun _ h => ⟨h, .inl rfl⟩

/-- The next descriptor is the device's, or holds the first frame pending. -/
theorem Between.next (hi : i < n) (h : Between n mode i i i [] (fun pend _ => b → pend ≠ []) s) :
    ((s.desc i).qword0 = ownBit ∧ ¬ b) ∨
      ∃ f, Filled mode (s.desc i) f ∧ Between n mode i (i + 1) i [f] (AtDesc i (s.desc i)) s := by
  obtain ⟨pend, w, htail, hb⟩ := h
  cases pend with
  | nil => exact .inl ⟨w.armed i hi (.inr (Nat.le_refl _)), fun hb' => hb hb' rfl⟩
  | cons f pend =>
    obtain ⟨w', filled⟩ := w.take
    exact .inr ⟨f, filled, pend, w', htail, rfl⟩

theorem wp_pollRound (size : RingSize n) (h : Ready n mode b s) :
    RxWp pollRound (RoundPost n mode b) s := by
  apply wp_look (stable_ready n mode b) h
  intro t ht _
  obtain ⟨i, hi, hbetween⟩ := ht
  have htail : t.queue.tail = i := by
    obtain ⟨_, _, htail, -⟩ := hbetween
    exact htail
  have hstate : t.queue.xpqNumDesc = n ∧ t.mode = mode := by
    obtain ⟨_, w, -⟩ := hbetween
    exact ⟨w.numDesc, w.mode_eq⟩
  refine ⟨hbetween.inOrder, ?_⟩
  simp only [id, htail, hstate.1, hstate.2]
  have stable := stable_pending n mode i i b
  refine wp_look stable hbetween fun u hu _ => ⟨hu.inOrder, ?_⟩
  have hclean : (u.desc i).qword0 >>> 0 ≠ 1 := by
    rcases hu.next hi with ⟨hown, -⟩ | ⟨f, filled, -⟩
    · rw [hown]
      decide
    · rw [filled.bits]
      decide
  rw [if_neg hclean]
  refine wp_look stable hu fun v hv _ => ⟨hv.inOrder, ?_⟩
  rcases hv.next hi with ⟨hown, hb⟩ | ⟨f, filled, held⟩
  · rw [hown, if_pos ownership_ownBit]
    obtain ⟨pend, w, htail, -⟩ := hv
    exact wp_ret (stable_ready n mode False) ⟨i, hi, pend, w, htail, fun hb => hb.elim⟩
      fun _ h => ⟨h, .inr hb⟩
  · rw [filled.bits, if_neg (by decide)]
    exact wp_pollOwned size hi filled held

/-! ### A poll -/

/-- The rounds after the first packet. -/
theorem wp_pollLoop (size : RingSize n) {fuel count : Nat} (pos : 0 < count)
    (h : Ready n mode False s) :
    RxWp (pollLoop fuel count) (fun r t => Ready n mode False t ∧ 0 < r.1) s := by
  induction fuel generalizing count s with
  | zero => exact wp_ret (stable_ready n mode False) h fun _ h => ⟨h, pos⟩
  | succ fuel ih =>
    apply wp_seq (wp_pollRound size h)
    intro exit t ht
    cases exit with
    | none => exact ih (Nat.succ_pos count) ht
    | some exit => exact wp_ret (stable_ready n mode False) ht.1 fun _ h => ⟨h, pos⟩

/-- A poll that takes no packet found none pending, or had no memory. -/
theorem wp_queueProcess (size : RingSize n) (rounds : Nat) (h : Ready n mode b s) :
    RxWp (xpnetRxQueueProcess (rounds + 1)) (fun r t =>
      Ready n mode False t ∧ (r.1 = 0 → r.2 = .noMemory ∨ ¬ b)) s := by
  apply wp_seq (wp_pollRound size h)
  intro exit t ht
  cases exit with
  | none =>
    exact wp_mono (fun r u hu => ⟨hu.1, fun hzero => absurd hzero (Nat.ne_of_gt hu.2)⟩)
      (wp_pollLoop size Nat.one_pos ht)
  | some exit => exact wp_ret (stable_ready n mode False) ht.1 fun _ h => ⟨h, fun _ => ht.2⟩

theorem wp_runPolls (size : RingSize n) (polls : List Nat) (h : Ready n mode False s) :
    RxWp (runPolls polls) (fun _ t => Ready n mode False t) s := by
  refine wp_forM (stable_ready n mode False) (fun maxiter s h => ?_) polls h
  cases maxiter with
  | zero =>
    exact wp_seq (wp_ret (stable_ready n mode False) h fun _ h => h) fun _ _ ht =>
      wp_ret (stable_ready n mode False) ht fun _ h => h
  | succ rounds =>
    exact wp_seq (wp_queueProcess size rounds h) fun _ _ ht =>
      wp_ret (stable_ready n mode False) ht.1 fun _ h => h

/-! ### Runs -/

/-- Enabling the descriptors of a queue keeps its chain and arms every one. -/
theorem linkAndEnable_spec {q : Queue} (pos : 0 < q.xpqNumDesc)
    (fresh : ∀ i < q.xpqNumDesc,
      (q.descMeta i).cdp = q.dma + i * xpnetDescSize ∧ (q.descMeta i).qword0 = 0) :
    Linked false (xpnetRxQueueLinkAndEnable q) ∧
      ∀ i < q.xpqNumDesc, ((xpnetRxQueueLinkAndEnable q).descMeta i).qword0 = ownBit := by
  have chain := linked_queueDescLink pos fun i hi => (fresh i hi).1
  have henabled : ∀ i < q.xpqNumDesc, (xpnetRxQueueLinkAndEnable q).descMeta i =
      setQword0 (enabledBits ((xpnetQueueDescLink q false).descMeta i).qword0)
        ((xpnetQueueDescLink q false).descMeta i) := fun i hi => if_pos hi
  constructor
  · intro i hi
    rw [henabled i hi]
    exact chain i hi
  · intro i hi
    rw [henabled i hi, queueDescLink_qword0, (fresh i hi).2]
    change enabledBits 0 = ownBit
    decide

/-- A queue that has been set up and enabled is ready. -/
theorem Initial.ready (size : RingSize n) (init : Initial n s) : Ready n s.mode False s := by
  obtain ⟨⟨dma, bufs, hqueue, hcdp⟩, hrun, hcompleted, hdelivered⟩ := init
  have pos := size.pos
  obtain ⟨hlinked, harmed⟩ := linkAndEnable_spec (q := {
    xpqNumDesc := n, status := .stopped, tail := 0, head := 0, dma := dma
    descMeta := fun i => xpnetRxDescInit dma i
      { va := (bufs i).1, dma := (bufs i).2, len := xpnetMaxPacketSize } }) pos
    fun _ _ => ⟨rfl, rfl⟩
  have hdma : s.queue.dma = dma := by rw [hqueue]; rfl
  refine ⟨0, pos, [], ?_, by rw [hqueue]; rfl, fun hb => hb.elim⟩
  constructor
  · rw [hqueue]
    rfl
  · rw [hqueue]
    exact hlinked
  · rfl
  · exact Nat.zero_le _
  · intro _
    refine ⟨hrun, ?_⟩
    rw [hdma, hcdp]
    simp
  · exact fun h => absurd h (Nat.ne_of_lt pos)
  · intro j hj
    cases hj
  · intro i hi _
    rw [State.desc, hqueue]
    exact harmed i hi
  · rw [hcompleted, hdelivered]
    rfl

/-- A device that has stopped between two polls has filled every slot. -/
theorem Ready.pending_of_stopped (h : Ready n mode b s) (stopped : s.running = false) :
    Ready n mode True s := by
  obtain ⟨t, ht, pend, w, htail, -⟩ := h
  refine ⟨t, ht, pend, w, htail, fun _ hnil => ?_⟩
  subst hnil
  have := (w.device ht).1
  rw [stopped] at this
  cases this

/-- The environment completes frames and delivers none. -/
theorem envMove_inOrder (m : EnvMove) (h : InOrder s) : InOrder (envMove m s) := by
  obtain ⟨pending, hpending⟩ := h
  unfold envMove
  split
  · split
    · exact ⟨pending ++ goodFrame s.mode _ _, by rw [hpending, List.append_assoc]; rfl⟩
    · exact ⟨pending, hpending⟩
  · split
    · exact ⟨pending, hpending⟩
    · exact ⟨pending, hpending⟩
  · split
    · exact ⟨pending, hpending⟩
    · exact ⟨pending, hpending⟩
  · exact ⟨pending, hpending⟩
  · exact ⟨pending, hpending⟩

/-- **Frames in order.** In a run whose completions are all good frames, the frames
delivered are at every point the first of those completed, each once and in order;
and a poll that starts with the device stopped and takes no packet leaves none
undelivered, unless there was no memory for it. -/
theorem frames_in_order {s₀ : State} {polls : List Nat} {p : RxProg Unit} {tr : List (State × Ev)}
    (size : RingSize n) (init : Initial n s₀)
    (run : Reach GoodEnv (fun _ _ => True) (runPolls polls) s₀ p s tr) :
    (∃ pending, s.completed = s.delivered ++ pending) ∧
      (p = .ret () → s.running = false → ∀ rounds tr' exit s',
        Runs GoodEnv (xpnetRxQueueProcess (rounds + 1)) s tr' (0, exit) s' →
        exit = .noMemory ∨ s'.delivered = s'.completed) := by
  have verified := wp_runPolls size polls (init.ready size)
  constructor
  · exact run.invariant (J := fun _ s => InOrder s) verified ⟨[], by rw [init.2.2.1, init.2.2.2]; rfl⟩
      (fun _ _ _ ⟨m, _, hm⟩ h => hm ▸ envMove_inOrder m h) fun _ _ _ _ guar _ => guar
  · rintro rfl stopped rounds tr' exit s' poll
    have ready := (run.post verified).pending_of_stopped stopped
    rcases (poll.post (wp_queueProcess size rounds ready)).2 rfl with hmem | hnone
    · exact .inl hmem
    · exact absurd trivial hnone

end Rounds

/-! ### Two runs -/

/-- The device completes its descriptor with a packet of one byte, or of 17 where
the length does not count the 16 bytes of the uncompressed A0 device. -/
def completeByte : State → State := envMove (.complete (fun _ => 0) (17 * 2 ^ 16))

theorem frameOk_byte (mode : AddressMode) : FrameOk mode (17 * 2 ^ 16) := by
  cases mode with
  | a0Uncompressed => exact ⟨by decide, fun _ => by decide⟩
  | b0Uncompressed => exact ⟨by decide, fun h => by cases h⟩
  | b0Compressed => exact ⟨by decide, fun h => by cases h⟩

theorem completeByte_good (s : State) : GoodEnv s (completeByte s) := by
  have good : GoodMove s.mode (.complete (fun _ => 0) (17 * 2 ^ 16)) := frameOk_byte s.mode
  exact ⟨_, good, rfl⟩

/-- The device fills the ring; the host takes one packet. -/
theorem frames_in_order_full_ring :
    let config := (runPolls [1]).play (List.replicate 10 (some completeByte) ++
      List.replicate 20 none) (freshState .a0Uncompressed xpnetRxNumDescs)
    config.2.delivered = [[0]] ∧ config.2.running = false ∧
      (∃ pending, config.2.completed = [[0]] ++ pending) ∧
      ∀ rounds tr' exit s', Runs GoodEnv (xpnetRxQueueProcess (rounds + 1)) config.2 tr' (0, exit) s' →
        exit = .noMemory ∨ s'.delivered = s'.completed := by
  intro config
  have hdelivered : config.2.delivered = [[0]] := by decide +kernel
  have hstopped : config.2.running = false := by decide +kernel
  have hdone : config.1.result? = some () := by decide +kernel
  obtain ⟨_, run⟩ := Reach.of_play_free (runPolls [1]) (freshState .a0Uncompressed xpnetRxNumDescs)
    (List.replicate 10 (some completeByte) ++ List.replicate 20 none) (by
      intro f hf s
      rcases List.mem_append.mp hf with hf | hf
      · cases List.eq_of_mem_replicate hf
        exact completeByte_good s
      · cases List.eq_of_mem_replicate hf)
  have main := frames_in_order ⟨by decide, by decide⟩
    (initial_freshState .a0Uncompressed xpnetRxNumDescs) run
  refine ⟨hdelivered, hstopped, ?_, main.2 (Prog.eq_ret_of_result? hdone) hstopped⟩
  obtain ⟨pending, hpending⟩ := main.1
  exact ⟨pending, hdelivered ▸ hpending⟩

/-- The device reports an error in the first slot and fills the others; the host
polls once. -/
def errorThenFrames : List (Option (State → State)) :=
  some (envMove (.fault 1 (fun _ => 0) 0)) :: (List.replicate 9 (some completeByte) ++
    List.replicate 20 none)

/-- After an error in the first slot the nine packets behind it stay undelivered. -/
theorem frames_left_behind :
    ¬ ∀ s₀ : State, Initial xpnetRxNumDescs s₀ → ∀ polls p s tr,
      Reach Env (fun _ _ => True) (runPolls polls) s₀ p s tr →
      (∃ pending, s.completed = s.delivered ++ pending) ∧
        (p = .ret () → s.running = false → ∀ rounds tr' exit s',
          Runs Env (xpnetRxQueueProcess (rounds + 1)) s tr' (0, exit) s' →
          exit = .noMemory ∨ s'.delivered = s'.completed) := by
  intro hordered
  have moves : ∀ f, some f ∈ errorThenFrames → ∀ s, Env s (f s) := by
    intro f hf s
    rcases List.mem_cons.mp hf with hf | hf
    · cases hf
      exact ⟨_, rfl⟩
    · rcases List.mem_append.mp hf with hf | hf
      · cases List.eq_of_mem_replicate hf
        exact ⟨_, rfl⟩
      · cases List.eq_of_mem_replicate hf
  obtain ⟨_, run⟩ := Reach.of_play_free (runPolls [1]) (freshState .b0Compressed xpnetRxNumDescs)
    errorThenFrames moves
  have hdone : ((runPolls [1]).play errorThenFrames
      (freshState .b0Compressed xpnetRxNumDescs)).1.result? = some () := by decide +kernel
  have hpoll : ((xpnetRxQueueProcess 1).exec ((runPolls [1]).play errorThenFrames
      (freshState .b0Compressed xpnetRxNumDescs)).2).map (fun r => (r.1, r.2.delivered,
        r.2.completed.length)) = some ((0, .stillOwned), [], 9) := by decide +kernel
  obtain ⟨⟨_, s'⟩, hexec, hr⟩ := Option.map_eq_some_iff.mp hpoll
  simp only [Prod.mk.injEq] at hr
  obtain ⟨rfl, hdelivered, hcompleted⟩ := hr
  have hruns : ∃ tr', Runs Env (xpnetRxQueueProcess 1) _ tr' (0, .stillOwned) s' := Runs.of_exec hexec
  obtain ⟨tr', poll⟩ := hruns
  rcases (hordered _ (initial_freshState .b0Compressed xpnetRxNumDescs) _ _ _ _ run).2
    (Prog.eq_ret_of_result? hdone) (by decide +kernel) 0 tr' _ s' poll with h | h
  · cases h
  · rw [← h, hdelivered] at hcompleted
    cases hcompleted

end XpNet.Rx
