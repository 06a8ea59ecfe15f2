/-
The counters over whole runs of transmit attempts.

`Attempts s₀ calls tally s` is a run of `calls` from `s₀` that ends in `s`, with the
device acting at any time; `tally` is what an observer of the calls counts.
`counters_match_iff`: the counters match the tally in every run, exactly when no call
of a run miscounts (`Miscounts`): its frame is consumed while the DMA engine is off,
or has an error behind its first descriptor, or is one of an interface that the
checks refuse. In one run it is enough that no call of this run miscounts.
-/

import XpNet.Tx.Counters

namespace XpNet.Tx

open XpNet.Interference
open Relation (ReflTransGen)

/-! ### The observer -/

/-- A transmit attempt, or the opening or closing of an interface. -/
inductive Attempt where
  | startXmit (skb : SkBuff)
  | ndoStartXmit (dev : Nat) (skb : SkBuff)
  | ndoOpen (dev : Nat)
  | ndoStop (dev : Nat)

/-- What an observer of the attempts counts: the frames that `xpnet_start_xmit`
consumed, the bytes of those that were enqueued, and how many of these each interface
submitted; and whether an attempt answered busy and still changed a counter. -/
structure Tally where
  consumed : Nat
  enqueuedBytes : Nat
  enqueuedOf : Nat → Nat
  busyCounted : Bool

def Tally.zero : Tally := ⟨0, 0, fun _ => 0, false⟩

/-- A call of `xpnet_start_xmit`, with the counters before and after it. -/
def Tally.call (tally : Tally) (skb : SkBuff) (exit : XmitExit) (before after : Stats) : Tally where
  consumed := if exit.rc = .ok then tally.consumed + 1 else tally.consumed
  enqueuedBytes :=
    if exit = .txok then tally.enqueuedBytes + skb.len else tally.enqueuedBytes
  enqueuedOf := tally.enqueuedOf
  busyCounted := tally.busyCounted ||
    decide (exit.rc = .busy ∧ ¬ (after.txPackets = before.txPackets ∧
      after.txDropped = before.txDropped))

/-- The frame was that of an interface. -/
def Tally.ofInterface (tally : Tally) (dev : Nat) (exit : XmitExit) : Tally :=
  { tally with
    enqueuedOf := Function.update tally.enqueuedOf dev
      (if exit = .txok then tally.enqueuedOf dev + 1 else tally.enqueuedOf dev) }

/-- One attempt, from a tally and a state to those after it. -/
inductive Attempted (tally : Tally) (s : State) : Attempt → Tally → State → Prop where
  | startXmit {skb tr exit s'} : Runs Env (xpnetStartXmit skb) s tr exit s' →
      Attempted tally s (.startXmit skb) (tally.call skb exit s.stats s'.stats) s'
  | ndoStartXmit {dev skb tr exit left s'} :
      Runs Env (xpNdoStartXmit dev skb) s tr (exit, left) s' →
      Attempted tally s (.ndoStartXmit dev skb)
        (if (s.netdev dev).up then
          (tally.call (toSend s dev skb) exit s.stats s'.stats).ofInterface dev exit
        else tally) s'
  | ndoOpen {dev tr s'} : Runs Env (xpNdoOpen dev) s tr () s' →
      Attempted tally s (.ndoOpen dev) tally s'
  | ndoStop {dev tr s'} : Runs Env (xpNdoStop dev) s tr () s' →
      Attempted tally s (.ndoStop dev) tally s'

/-- A run of attempts, each of them one that is `good` in the state it begins in. -/
inductive GoodAttempts (good : State → Attempt → Prop) (s₀ : State) :
    List Attempt → Tally → State → Prop where
  | start : GoodAttempts good s₀ [] .zero s₀
  | device {done tally s s'} : GoodAttempts good s₀ done tally s → Env s s' →
      GoodAttempts good s₀ done tally s'
  | attempt {done tally s call tally' s'} : GoodAttempts good s₀ done tally s → good s call →
      Attempted tally s call tally' s' → GoodAttempts good s₀ (done ++ [call]) tally' s'

/-- A run of attempts. -/
abbrev Attempts : State → List Attempt → Tally → State → Prop := GoodAttempts fun _ _ => True

/-- The counters are what the observer counts. -/
structure Matches (tally : Tally) (s : State) : Prop where
  consumed : tally.consumed = s.stats.txPackets + s.stats.txDropped
  bytes : s.stats.txBytes = tally.enqueuedBytes
  quiet : tally.busyCounted = false
  interfaces : ∀ dev, (s.netdev dev).txPackets = tally.enqueuedOf dev

/-- No counter of the driver has counted. -/
structure ZeroCounters (s : State) : Prop where
  packets : s.stats.txPackets = 0
  bytes : s.stats.txBytes = 0
  dropped : s.stats.txDropped = 0
  interfaces : ∀ dev, (s.netdev dev).txPackets = 0

/-- The call can end in a way that the counters do not match. -/
def Miscounts (s : State) : Attempt → Prop
  | .startXmit skb => Miscounted s skb
  | .ndoStartXmit dev skb => (s.netdev dev).up = true ∧
      (Miscounted s (toSend s dev skb) ∨ Refuses s (toSend s dev skb))
  | .ndoOpen _ => False
  | .ndoStop _ => False

/-! ### One call -/

section Calls

variable {n : Nat} {a0 : Bool} {skb : SkBuff} {tally : Tally} {s s' : State}
  {tr : List (State × Ev)} {exit : XmitExit}

theorem Matches.of_outside (holds : Matches tally s) (same : s'.outside = s.outside) :
    Matches tally s' := by
  have hstats : s'.stats = s.stats := congrArg Outside.stats same
  have hnetdev : s'.netdev = s.netdev := congrArg Outside.netdev same
  exact ⟨hstats ▸ holds.consumed, hstats ▸ holds.bytes, holds.quiet, hnetdev ▸ holds.interfaces⟩

/-- A call that does not miscount keeps the counters matching. -/
theorem Matches.call (size : RingSize n) (idle : SomeIdle n a0 s) (good : ¬ Miscounted s skb)
    (run : Runs Env (xpnetStartXmit skb) s tr exit s') (holds : Matches tally s) :
    Matches (tally.call skb exit s.stats s'.stats) s' := by
  have on : s.dmaTrigger ≠ 0 := fun off => good (.inl off)
  have counts := counts_of_runs run
  rw [if_neg on] at counts
  have hnetdev : s'.netdev = s.netdev := (runs_startXmit_idle size idle run).2
  have hinterfaces : ∀ dev, (s'.netdev dev).txPackets = tally.enqueuedOf dev := fun dev => by
    rw [hnetdev]
    exact holds.interfaces dev
  have hconsumed := holds.consumed
  have hbytes := holds.bytes
  have hquiet := holds.quiet
  generalize hs' : s'.outside = e at counts
  have hstats : s'.stats = e.stats := congrArg Outside.stats hs'
  rw [hstats]
  cases counts with
  | sent =>
      refine ⟨?_, ?_, ?_, hinterfaces⟩
      · simp [Tally.call, XmitExit.rc, hstats, Outside.count, countSent, State.outside, hconsumed]
        omega
      · simp [Tally.call, hstats, Outside.count, countSent, State.outside, hbytes]
      · simp [Tally.call, XmitExit.rc, hquiet]
  | error =>
      refine ⟨?_, ?_, ?_, hinterfaces⟩
      · simp [Tally.call, XmitExit.rc, hstats, Outside.count, countError, State.outside, hconsumed]
        omega
      · simp [Tally.call, hstats, Outside.count, countError, State.outside, hbytes]
      · simp [Tally.call, XmitExit.rc, hquiet]
  | busy =>
      refine ⟨?_, ?_, ?_, hinterfaces⟩
      · simp [Tally.call, XmitExit.rc, hstats, State.outside, hconsumed]
      · simp [Tally.call, hstats, State.outside, hbytes]
      · simp [Tally.call, State.outside, hquiet]
  | aborted =>
      -- a busy answer that counts has an error behind the first descriptor
      have same := quiet_of_txbusy size idle on (fun hidden => good (.inr hidden)) run
      rw [same] at hs'
      have hdropped := congrArg (fun d => d.stats.txDropped) hs'
      simp [State.outside, Outside.count, countAborted] at hdropped

/-- An interface whose frame is not dropped counts it if it was enqueued. -/
theorem Matches.ofInterface {dev : Nat} {m : State} (holds : Matches tally m)
    (stats : s'.stats = m.stats) (netdev : s'.netdev = (m.updNetdev dev (finished exit)).netdev)
    (kept : exit ≠ .txdrop) : Matches (tally.ofInterface dev exit) s' := by
  refine ⟨stats ▸ holds.consumed, stats ▸ holds.bytes, holds.quiet, fun d => ?_⟩
  rw [netdev]
  have hd := holds.interfaces d
  by_cases hdev : d = dev
  · subst hdev
    cases exit with
    | txok => simp [State.updNetdev, finished, XmitExit.rc, Tally.ofInterface, hd]
    | txdrop => exact absurd rfl kept
    | txbusy => simp [State.updNetdev, finished, XmitExit.rc, Tally.ofInterface, hd]
  · simp [State.updNetdev, Tally.ofInterface, hdev, hd]

/-- A submission ends without a call of `xpnet_start_xmit`, or with what one made. -/
theorem runs_ndo_cases (size : RingSize n) (idle : SomeIdle n a0 s) {dev : Nat} {left : SkBuff}
    (run : Runs Env (xpNdoStartXmit dev skb) s tr (exit, left) s') :
    SomeIdle n a0 s' ∧ (((s.netdev dev).up = false ∧ s'.outside = s.outside) ∨
      ((s.netdev dev).up = true ∧ ∃ m tr',
        Runs Env (xpnetStartXmit (toSend s dev skb)) s tr' exit m ∧
        s'.stats = m.stats ∧ s'.netdev = (m.updNetdev dev (finished exit)).netdev)) := by
  have stable := env_stable_someIdle n a0
  rcases runs_ndo (fun _ _ step => env_netdev (.single step)) run with
    ⟨hdown, -, steps, -⟩ | ⟨hup, t, m, u, tr', before, inner, between, after, -⟩
  · exact ⟨stable.steps steps idle, .inl ⟨hdown, kept_of_steps env_outside steps⟩⟩
  · have hidle := (runs_startXmit_idle size (stable.steps before idle) inner).1
    have hafter := kept_of_steps env_outside after
    have hbetween := kept_of_steps env_outside between
    have hstats : s'.stats = m.stats := (congrArg Outside.stats hafter).trans
      (congrArg Outside.stats hbetween)
    have hnetdev : s'.netdev = (m.updNetdev dev (finished exit)).netdev := by
      rw [env_netdev after]
      simp only [State.updNetdev, env_netdev between]
    exact ⟨stable.steps after ((stable.steps between hidle).updNetdev _ _),
      .inr ⟨hup, m, tr', inner.before before, hstats, hnetdev⟩⟩

/-- Opening and stopping an interface counts nothing. -/
theorem Matches.switch {lab lab' : Ev} {dev : Nat} {f g : NetDevice → NetDevice}
    (keeps : ∀ d, (g (f d)).txPackets = d.txPackets)
    (run : Runs Env (do
        Prog.write lab fun s => s.updNetdev dev f
        Prog.write lab' fun s => s.updNetdev dev g) s tr () s')
    (holds : Matches tally s) : Matches tally s' := by
  obtain ⟨hdev, hother⟩ := netdev_of_switch run
  have hstats : s'.stats = s.stats := by
    refine run.tracks (f := State.stats) (F := fun _ e => e = s.stats)
      (fun _ _ h => congrArg Outside.stats (env_outside _ _ h)) ?_
    exact .act (fun _ => rfl) fun _ _ => .act (fun _ => rfl) fun _ _ => rfl
  refine ⟨hstats ▸ holds.consumed, hstats ▸ holds.bytes, holds.quiet, fun d => ?_⟩
  rw [← holds.interfaces d]
  by_cases hd : d = dev
  · rw [hd, hdev, keeps]
  · rw [hother d hd]

end Calls

/-! ### Runs -/

section Runs

variable {n : Nat} {a0 : Bool} {s₀ s s' : State} {done calls : List Attempt} {call : Attempt}
  {tally tally' : Tally} {good : State → Attempt → Prop}

theorem Attempted.idle (size : RingSize n) (step : Attempted tally s call tally' s')
    (idle : SomeIdle n a0 s) : SomeIdle n a0 s' := by
  cases step with
  | startXmit run => exact (runs_startXmit_idle size idle run).1
  | ndoStartXmit run => exact (runs_ndo_cases size idle run).1
  | ndoOpen run => exact (keptByCalls_idle size _).switch run idle
  | ndoStop run => exact (keptByCalls_idle size _).switch run idle

theorem GoodAttempts.idle (size : RingSize n) (init : Initial n s₀)
    (run : GoodAttempts good s₀ done tally s) : SomeIdle n s₀.isA0 s := by
  induction run with
  | start => exact ⟨_, rfl, init.idle size.pos⟩
  | device _ step ih => exact env_stable_someIdle _ _ _ _ step ih
  | attempt _ _ step ih => exact step.idle size ih

/-- One attempt that does not miscount. -/
theorem Matches.attempted (size : RingSize n) (idle : SomeIdle n a0 s)
    (fine : ¬ Miscounts s call) (step : Attempted tally s call tally' s')
    (holds : Matches tally s) : Matches tally' s' := by
  cases step with
  | startXmit run => exact holds.call size idle fine run
  | ndoStartXmit run =>
      rcases (runs_ndo_cases size idle run).2 with
        ⟨hdown, houtside⟩ | ⟨hup, m, tr', inner, hstats, hnetdev⟩
      · rw [hdown]
        exact holds.of_outside houtside
      · rw [hup, if_pos rfl, hstats]
        have counted := holds.call size idle (fun bad => fine ⟨hup, .inl bad⟩) inner
        refine counted.ofInterface hstats hnetdev fun dropped => ?_
        rcases (runs_startXmit_txdrop inner).mp dropped with off | refuses
        · exact fine ⟨hup, .inl (.inl off)⟩
        · exact fine ⟨hup, .inr refuses⟩
  | ndoOpen run => exact holds.switch (fun _ => rfl) run
  | ndoStop run => exact holds.switch (fun _ => rfl) run

/-- A run of calls none of which miscounts. -/
theorem GoodAttempts.matches (size : RingSize n) (init : Initial n s₀) (zero : ZeroCounters s₀)
    (run : GoodAttempts (fun s call => ¬ Miscounts s call) s₀ done tally s) :
    Matches tally s := by
  induction run with
  | start =>
      refine ⟨?_, zero.bytes, rfl, zero.interfaces⟩
      rw [zero.packets, zero.dropped]
      rfl
  | device _ step ih => exact ih.of_outside (env_outside _ _ step)
  | attempt before fine step ih => exact ih.attempted size (before.idle size init) fine step

/-- A run is one of these if every run of the calls is. -/
theorem Attempts.allGood (run : Attempts s₀ done tally s) (hbegin : done <+: calls)
    (fine : ∀ done call, done ++ [call] <+: calls → ∀ tally s, Attempts s₀ done tally s →
      good s call) : GoodAttempts good s₀ done tally s := by
  induction run with
  | start => exact .start
  | device _ step ih => exact .device (ih hbegin) step
  | attempt before _ step ih =>
      exact .attempt (ih ((List.prefix_append _ _).trans hbegin))
        (fine _ _ hbegin _ _ before) step

/-- A miscount, on a state in which it happens now. -/
theorem consumed_ne_of_now (size : RingSize n) {a0 : Bool} {skb : SkBuff} {exit : XmitExit}
    {t : State} {tr : List (State × Ev)} (idle : SomeIdle n a0 s) (bad : MiscountsNow s skb)
    (run : Runs Env (xpnetStartXmit skb) s tr exit t) (holds : Matches tally s) :
    (tally.call skb exit s.stats t.stats).consumed ≠ t.stats.txPackets + t.stats.txDropped := by
  have hconsumed := holds.consumed
  rcases bad with off | aborts
  · have counts := counts_of_runs run
    rw [if_pos off] at counts
    obtain ⟨rfl, same⟩ := counts
    have hsame : t.stats = s.stats := congrArg Outside.stats same
    rw [hsame]
    simp only [Tally.call, XmitExit.rc, if_true]
    omega
  · obtain ⟨rfl, counted⟩ := aborts.runs size idle run
    have hcounted : t.stats = countAborted s.stats := congrArg Outside.stats counted
    rw [hcounted]
    simp only [Tally.call, XmitExit.rc, countAborted, reduceCtorEq, if_false]
    omega

/-- A call that can miscount does so in some run. -/
theorem exists_miscount (size : RingSize n) (init : Initial n s₀) {call : Attempt}
    (before : Attempts s₀ done tally s) (holds : Matches tally s) (bad : Miscounts s call) :
    ∃ tally' s', Attempts s₀ (done ++ [call]) tally' s' ∧ ¬ Matches tally' s' := by
  have later : ∀ {t : State}, ReflTransGen Env s t → Attempts s₀ done tally t := by
    intro t steps
    induction steps with
    | refl => exact before
    | tail _ step ih => exact .device ih step
  have idle := before.idle size init
  have stable := env_stable_someIdle n s₀.isA0
  cases call with
  | startXmit skb =>
      obtain ⟨t, steps, -, now⟩ := exists_miscountsNow size idle bad
      obtain ⟨tr, exit, m, run⟩ :=
        Runs.of_wp (wp_startXmit_idle size skb (stable.steps steps idle)) Env
      refine ⟨_, m, .attempt (later steps) trivial (.startXmit run), fun holds' => ?_⟩
      exact consumed_ne_of_now size (stable.steps steps idle) now run
        (holds.of_outside (kept_of_steps env_outside steps)) holds'.consumed
  | ndoStartXmit dev skb =>
      obtain ⟨hup, bad⟩ := bad
      -- from a state in which the allocator has memory, the submission goes through
      have submit : ∀ {t : State}, ReflTransGen Env s t → t.allocOk = true →
          ∃ tr exit m, Runs Env (xpnetStartXmit (toSend s dev skb)) t tr exit m ∧
            Attempts s₀ (done ++ [.ndoStartXmit dev skb])
              ((tally.call (toSend s dev skb) exit t.stats m.stats).ofInterface dev exit)
              (m.updNetdev dev (finished exit)) := by
        intro t steps halloc
        have hnetdev := env_netdev steps
        have hsend : toSend t dev skb = toSend s dev skb := by
          unfold toSend
          rw [hnetdev]
        obtain ⟨tr, exit, m, run⟩ :=
          Runs.of_wp (wp_startXmit_idle size (toSend s dev skb) (stable.steps steps idle)) Env
        have hupt : (t.netdev dev).up = true := by rw [hnetdev, hup]
        obtain ⟨tr', left, ndo⟩ := exists_ndo hupt halloc (hsend ▸ run)
        have attempted : Attempted tally t (.ndoStartXmit dev skb) _ _ := .ndoStartXmit ndo
        have whole : Attempts s₀ _ _ _ := .attempt (later steps) trivial attempted
        rw [hupt, if_pos rfl, hsend] at whole
        exact ⟨tr, exit, m, run, whole⟩
      rcases bad with bad | refuses
      · obtain ⟨t, steps, halloc, now⟩ := exists_miscountsNow size idle bad
        obtain ⟨tr, exit, m, run, whole⟩ := submit steps halloc
        refine ⟨_, _, whole, fun holds' => ?_⟩
        exact consumed_ne_of_now size (stable.steps steps idle) now run
          (holds.of_outside (kept_of_steps env_outside steps)) holds'.consumed
      · have memory : ReflTransGen Env s { s with allocOk := true } := .single ⟨.memory true, rfl⟩
        obtain ⟨tr, exit, m, run, whole⟩ := submit memory rfl
        obtain rfl := (runs_startXmit_txdrop run).mpr (.inr refuses)
        have hnetdev := (runs_startXmit_idle size (stable.steps memory idle) run).2
        refine ⟨_, _, whole, fun holds' => ?_⟩
        -- the interface counts the frame, which was not enqueued
        have hcount := holds'.interfaces dev
        simp [State.updNetdev, finished, XmitExit.rc, Tally.ofInterface, Tally.call, hnetdev,
          holds.interfaces] at hcount
  | ndoOpen dev => exact bad.elim
  | ndoStop dev => exact bad.elim

/-- **The counters.** In every run of attempts none of which miscounts, with the device acting
at any time: the frames consumed are those sent or dropped, the bytes counted are those of the
frames enqueued, no busy answer has changed a counter, and each interface counts its frames that
were enqueued. And it is so in every run of a sequence of attempts, after each of its calls, if
and only if no call of a run can miscount. -/
theorem counters_match_iff (size : RingSize n) (init : Initial n s₀) (zero : ZeroCounters s₀) :
    (∀ done tally s, GoodAttempts (fun s call => ¬ Miscounts s call) s₀ done tally s →
      Matches tally s) ∧ ∀ calls,
    ((∀ done, done <+: calls → ∀ tally s, Attempts s₀ done tally s → Matches tally s) ↔
      ∀ done call, done ++ [call] <+: calls → ∀ tally s, Attempts s₀ done tally s →
        ¬ Miscounts s call) := by
  refine ⟨fun _ _ _ run => run.matches size init zero, fun calls => ?_⟩
  constructor
  · intro hall done call hbegin tally s before bad
    have holds := hall done ((List.prefix_append _ _).trans hbegin) tally s before
    obtain ⟨tally', s', whole, hno⟩ := exists_miscount size init before holds bad
    exact hno (hall _ hbegin tally' s' whole)
  · intro fine done hbegin tally s run
    exact (run.allGood hbegin fine).matches size init zero

end Runs

theorem zeroCounters_freshState (hwFlags : BitVec 32) (mode : AddressMode) (numDesc : Nat) :
    ZeroCounters (freshState hwFlags mode numDesc) := ⟨rfl, rfl, rfl, fun _ => rfl⟩

/-- A frame that takes one descriptor has no error behind it. -/
theorem not_errorBehind_one {s : State} {skb : SkBuff} (one : shardCount skb.len ≤ 1)
    (htail : s.queue.tail < s.queue.xpqNumDesc) : ¬ ErrorBehind s skb := by
  rintro ⟨-, -, i, hi, hne, -⟩
  obtain ⟨j, hj, rfl⟩ := mem_slots.mp hi
  obtain rfl : j = 0 := by omega
  exact hne (slot_zero htail)

/-- Nothing but the device acts before the first call. -/
theorem Attempts.steps_of_nil {s₀ s : State} {done : List Attempt} {tally : Tally}
    (run : Attempts s₀ done tally s) (hnil : done = []) : ReflTransGen Env s₀ s := by
  induction run with
  | start => exact .refl
  | device _ step ih => exact (ih hnil).tail step
  | attempt _ _ _ _ => simp at hnil

/-- One frame of 100 bytes, on the driver's own ring. -/
theorem counters_match_one_frame : ∃ tally s,
    Attempts (freshState 0 .b0Compressed xpnetTxNumDescs) [.startXmit (zeroFrame 0 100)] tally s ∧
      Matches tally s := by
  have init := initial_freshState 0 .b0Compressed xpnetTxNumDescs
  have hexec : ((xpnetStartXmit (zeroFrame 0 100)).exec
      (freshState 0 .b0Compressed xpnetTxNumDescs)).isSome = true := by
    decide +kernel
  obtain ⟨⟨exit, s⟩, hrun⟩ := Option.isSome_iff_exists.mp hexec
  obtain ⟨tr, run⟩ := Runs.of_exec hrun
  have sent : Attempts _ ([] ++ [.startXmit (zeroFrame 0 100)]) _ s :=
    .attempt .start trivial (.startXmit (run : Runs Env _ _ _ _ _))
  refine ⟨_, s, sent, ((counters_match_iff ringSize_txNumDescs init
    (zeroCounters_freshState 0 .b0Compressed _)).2 _).mpr ?_ _ (List.prefix_refl _) _ s sent⟩
  intro done call hbegin tally t before
  obtain ⟨rfl, rfl⟩ : done = [] ∧ call = .startXmit (zeroFrame 0 100) := by
    rcases List.prefix_concat_iff.mp hbegin with heq | hbefore
    · obtain ⟨rfl, hlast⟩ := List.append_inj' heq rfl
      exact ⟨rfl, List.singleton_inj.mp hlast⟩
    · exact absurd (List.prefix_nil.mp hbefore) (by simp)
  have steps := before.steps_of_nil rfl
  rintro (off | hidden)
  · rw [show t.dmaTrigger = 1 from congrArg Outside.dmaTrigger (kept_of_steps env_outside steps)]
      at off
    cases off
  · exact not_errorBehind_one (by decide)
      ((before.idle ringSize_txNumDescs init).size_tail ringSize_txNumDescs).2 hidden

/-- With the DMA engine off the frame is consumed, and counted neither as sent nor as dropped. -/
theorem engine_off_uncounted :
    ¬ ∀ s₀ : State, Initial xpnetTxNumDescs s₀ → ZeroCounters s₀ → ∀ calls tally s,
      Attempts s₀ calls tally s → Matches tally s := by
  intro hheld
  let s₀ := { freshState 0 .b0Compressed xpnetTxNumDescs with dmaTrigger := 0 }
  obtain ⟨harmed, queue⟩ := initial_freshState 0 .b0Compressed xpnetTxNumDescs
  have init : Initial xpnetTxNumDescs s₀ := ⟨harmed, queue⟩
  have zero : ZeroCounters s₀ := ⟨rfl, rfl, rfl, fun _ => rfl⟩
  have hexec : ((xpnetStartXmit (zeroFrame 0 100)).exec s₀).map
      (fun r => (r.1, r.2.stats.txPackets + r.2.stats.txDropped)) = some (.txdrop, 0) := by
    decide +kernel
  obtain ⟨⟨exit, s⟩, hrun, hcount⟩ := Option.map_eq_some_iff.mp hexec
  obtain ⟨rfl, hnone⟩ := Prod.mk.inj hcount
  obtain ⟨tr, run⟩ := Runs.of_exec hrun
  have sent : Attempts s₀ ([] ++ [.startXmit (zeroFrame 0 100)]) _ s :=
    .attempt .start trivial (.startXmit run)
  have hconsumed := (hheld s₀ init zero _ _ s sent).consumed
  rw [hnone] at hconsumed
  cases hconsumed

end XpNet.Tx
