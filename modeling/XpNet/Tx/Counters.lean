/-
What a call of `xpnet_start_xmit` does to the counters, by its exit.

`startXmit_tracks` lists the possibilities. Two of them do not count what the call
answers: with the DMA engine off the frame is consumed and not counted, and an
error found in a later descriptor of the frame counts a drop and answers busy. The
rest of the file says when these happen: never if the frame is none that
`Miscounts`, and on every run that starts so once the device has acted
(`miscount_of_now`).
-/

import XpNet.Tx.Entries

namespace XpNet.Tx

open XpNet.Interference
open Relation (ReflTransGen)

/-! ### The counters of a call -/

/-- A frame that was enqueued. -/
def countSent (len : Nat) (t : Stats) : Stats :=
  { t with txPackets := t.txPackets + 1, txBytes := t.txBytes + len }

/-- A frame that the checks refuse. -/
def countError (t : Stats) : Stats :=
  { t with txErrors := t.txErrors + 1, txDropped := t.txDropped + 1 }

/-- An error found in one of a frame's descriptors. -/
def countAborted (t : Stats) : Stats :=
  { t with txAbortedErrors := t.txAbortedErrors + 1, txDropped := t.txDropped + 1 }

def Outside.count (d : Outside) (f : Stats → Stats) : Outside := { d with stats := f d.stats }

/-- What a call of `xpnet_hard_start_xmit` makes of the counters. -/
inductive XmitCounts (skb : SkBuff) (d : Outside) : XmitExit → Outside → Prop where
  | sent : XmitCounts skb d .txok (d.count (countSent skb.len))
  | error : XmitCounts skb d .txdrop (d.count countError)
  | busy : XmitCounts skb d .txbusy d
  | aborted : XmitCounts skb d .txbusy (d.count countAborted)

section Calls

variable {d : Outside}

theorem stores_stats {f : Stats → Stats} (s : State) (hs : s.outside = d) :
    (s.updStats f).outside = d.count f := by
  subst hs
  rfl

theorem txErrorDrop_counts (skb : SkBuff) :
    Tracks State.outside (txErrorDrop (some skb)) d (XmitCounts skb d) := by
  apply Tracks.store stores_stats
  refine .act (fun _ => rfl) fun _ _ => ?_
  apply Tracks.store stores_stats
  exact .error

/-- From its first descriptor on no frame is dropped. -/
abbrev Kept (skb : SkBuff) (d : Outside) (exit : XmitExit) (e : Outside) : Prop :=
  exit ≠ .txdrop ∧ XmitCounts skb d exit e

theorem xmitEnqueued_counts (skb : SkBuff) (tail n shards : Nat) (res : EnqueueResult) :
    Tracks State.outside (xmitEnqueued skb tail n shards res) d (Kept skb d) := by
  cases res with
  | queueBusy => exact ⟨nofun, .busy⟩
  | queueError =>
      apply Tracks.store stores_stats
      exact ⟨nofun, .aborted⟩
  | ok =>
      refine .act (fun _ => rfl) fun _ _ => ?_
      apply Tracks.store stores_stats
      refine .act (fun _ => rfl) fun _ _ => ?_
      exact ⟨nofun, .sent⟩

theorem hardStartXmit_counts (skb : SkBuff) :
    Tracks State.outside (xpnetHardStartXmit (some skb)) d (XmitCounts skb d) :=
  hardStartXmit_tracks aside_outside
    (fun tail n shards res =>
      (xmitEnqueued_counts skb tail n shards res).mono fun _ _ kept => kept.2)
    .busy (txErrorDrop_counts skb)

/-- **The counters of a call**, by its exit. -/
theorem startXmit_tracks (skb : SkBuff) :
    Tracks State.outside (xpnetStartXmit skb) d fun exit e =>
      if d.dmaTrigger = 0 then exit = .txdrop ∧ e = d else XmitCounts skb d exit e := by
  refine .act (fun _ => rfl) fun s hs => ?_
  have htrigger : s.dmaTrigger = d.dmaTrigger := congrArg Outside.dmaTrigger hs
  change Tracks _ (startXmitFrom s skb) _ _
  unfold startXmitFrom
  rw [htrigger]
  by_cases hoff : d.dmaTrigger = 0
  · rw [if_pos hoff]
    refine .act (fun _ => rfl) fun _ _ => ?_
    exact (if_pos hoff).mpr ⟨rfl, rfl⟩
  · simp only [if_neg hoff]
    refine (hardStartXmit_counts skb).bind fun exit e counts => ?_
    unfold completeAfter
    split
    · refine (txComplete_tracks _).bind ?_
      rintro _ _ rfl
      exact counts
    · exact counts

theorem env_outside (s s' : State) (h : Env s s') : s'.outside = s.outside := by
  obtain ⟨_, _, rfl⟩ := env_bitEnv h
  rfl

/-- The same, of a run. -/
theorem counts_of_runs {skb : SkBuff} {s s' : State} {tr : List (State × Ev)} {exit : XmitExit}
    (run : Runs Env (xpnetStartXmit skb) s tr exit s') :
    if s.dmaTrigger = 0 then exit = .txdrop ∧ s'.outside = s.outside
    else XmitCounts skb s.outside exit s'.outside :=
  run.tracks env_outside (startXmit_tracks skb)

end Calls

/-! ### Drops -/

/-- The checks of `xpnet_hard_start_xmit` refuse the frame. -/
def Refuses (s : State) (skb : SkBuff) : Prop :=
  s.queue.status ≠ .active ∨ (s.numFreeDesc ≠ 0 ∧
    (skb.len = 0 ∨ skb.len > u32Mul s.numFreeDesc xpnetMaxDmaSegmentSize ∨ skb.dataLen ≠ 0))

section Drops

variable {skb : SkBuff} {s s' : State} {tr : List (State × Ev)} {exit : XmitExit}

theorem env_front (s s' : State) (h : Env s s') : s'.front = s.front := by
  obtain ⟨_, _, rfl⟩ := env_bitEnv h
  rfl

/-- A frame is dropped when the checks refuse it, and only then. -/
theorem runs_hardStartXmit_txdrop (run : Runs Env (xpnetHardStartXmit (some skb)) s tr exit s') :
    exit = .txdrop ↔ Refuses s skb := by
  obtain ⟨t, _, rest, steps, -⟩ := runs_look run
  obtain ⟨hstatus, hnum, hhead, htail, -⟩ := Front.mk.inj (kept_of_steps env_front steps)
  have hfree : xpnetGetFreeDesc t.queue.xpqNumDesc t.queue.head t.queue.tail = s.numFreeDesc := by
    rw [hnum, hhead, htail]
    rfl
  simp only [id] at rest
  revert rest
  refine xmitFrom_cases (P := fun p => Runs Env p t _ exit s' → _) ?refused ?full ?checked
  case refused =>
    rw [hfree, hstatus]
    exact fun hrefused drop => iff_of_true (txErrorDrop_exit drop) hrefused
  case full =>
    rw [hfree, hstatus]
    intro hactive hnone busy
    cases busy
    refine iff_of_false (by decide) ?_
    rintro (hdown | ⟨hsome, -⟩)
    · exact hdown hactive
    · exact hsome hnone
  case checked =>
    rw [hfree, hstatus]
    intro hactive hsome hpos hle hlinear check
    have kept : Kept skb t.outside exit s'.outside := check.tracks env_outside <|
      xmitChecked_tracks aside_outside (xmitEnqueued_counts skb _ _)
        ⟨(fun h => by cases h), .busy⟩ _ _
    refine iff_of_false kept.1 ?_
    rintro (hdown | ⟨-, hzero | hlong | hfrags⟩)
    · exact hdown hactive
    · exact hpos hzero
    · exact absurd hle (Nat.not_le.mpr hlong)
    · exact hfrags hlinear

/-- The same, of `xpnet_start_xmit`, which drops every frame while the DMA engine is
off. -/
theorem runs_startXmit_txdrop (run : Runs Env (xpnetStartXmit skb) s tr exit s') :
    exit = .txdrop ↔ s.dmaTrigger = 0 ∨ Refuses s skb := by
  obtain ⟨t, _, rest, steps, -⟩ := runs_look run
  have htrigger : t.dmaTrigger = s.dmaTrigger :=
    congrArg Outside.dmaTrigger (kept_of_steps env_outside steps)
  simp only [id, startXmitFrom, htrigger] at rest
  split at rest
  case isTrue hoff =>
    obtain ⟨_, _, last, -, -⟩ := runs_emit rest
    cases last
    simp [hoff]
  case isFalse hon =>
    obtain ⟨exit', _, _, _, first, last, -⟩ := runs_bind.mp rest
    rw [runs_completeAfter last, or_iff_right hon]
    exact runs_hardStartXmit_txdrop (first.before steps)

end Drops

/-! ### Errors behind the first descriptor -/

/-- The frame passes the checks of its first descriptor, if the device has given it
back, and the device owns or has reported an error in a later one. -/
def ErrorBehind (s : State) (skb : SkBuff) : Prop :=
  RingFits s skb ∧ errorIndication (s.desc s.queue.tail).qword0 = false ∧
    ∃ i ∈ needed s skb, i ≠ s.queue.tail ∧ s.unusable i = true

/-- The error is there, and the device owns none of the frame's descriptors. -/
structure AbortsNow (s : State) (skb : SkBuff) : Prop where
  fits : RingFits s skb
  free : ∀ i ∈ needed s skb, s.owned i = false
  first : errorIndication (s.desc s.queue.tail).qword0 = false
  error : ∃ i ∈ needed s skb, s.unusable i = true

section Errors

variable {n : Nat} {a0 : Bool} {skb : SkBuff} {s s' : State} {tr : List (State × Ev)}
  {exit : XmitExit}

/-- No error report is taken back. -/
def KeepsErrors (s s' : State) : Prop := ∀ i, errorIndication (s.desc i).qword0 = true →
  errorIndication (s'.desc i).qword0 = true

theorem KeepsErrors.trans {t : State} (first : KeepsErrors s t) (second : KeepsErrors t s') :
    KeepsErrors s s' := fun i err => second i (first i err)

/-- The device takes none back. -/
theorem env_keepsErrors (h : Env s s') : KeepsErrors s s' := by
  intro i err
  obtain ⟨m, rfl⟩ := h
  have move : ∀ (j : Nat) (g : BitVec 64 → BitVec 64),
      (∀ q, errorIndication q = true → errorIndication (g q) = true) →
      errorIndication ((onOwned j g s).desc i).qword0 = true := by
    intro j g keeps
    unfold onOwned
    split
    · by_cases hij : i = j
      · subst hij
        rw [updDesc_self]
        exact keeps _ err
      · rw [updDesc_of_ne _ _ hij]
        exact err
    · exact err
  cases m with
  | complete j => exact move j _ fun q hq => by simpa using hq
  | fault j => exact move j _ fun q _ => by simp
  | memory ok => exact err

theorem env_stable_error (i : Nat) :
    Stable Env fun s => errorIndication (s.desc i).qword0 = true :=
  fun _ _ h err => env_keepsErrors h i err

theorem keepsErrors_of_steps (steps : ReflTransGen Env s s') : KeepsErrors s s' :=
  fun i err => (env_stable_error i).steps steps err

/-- Nor does a call that drops its frame. -/
theorem keepsErrors_of_drop (run : Runs Env (txErrorDrop (some skb)) s tr exit s') :
    KeepsErrors s s' := by
  intro i err
  apply run.invariant (env_stable_error i) _ err
  exact ⟨fun _ h => h, fun _ => ⟨fun _ h => h, fun _ => ⟨fun _ h => h, fun _ => trivial⟩⟩⟩

/-- Nor does the completion. -/
theorem keepsErrors_of_complete {maxiter : Nat}
    (run : Runs Env (xpnetTxComplete maxiter) s tr () s') : KeepsErrors s s' := by
  intro i err
  apply run.invariant (env_stable_error i) _ err
  exact txComplete_always (fun _ _ _ h => h) (fun _ _ h => h) (fun _ h => h) maxiter

/-- The checks that the frame passes before those of its descriptors. -/
theorem RingFits.of_same {t : State} (hfront : t.front = s.front)
    (houtside : t.outside = s.outside) (fits : RingFits s skb) : RingFits t skb := by
  obtain ⟨hstatus, hnum, hhead, htail, -⟩ := Front.mk.inj hfront
  have htrigger : t.dmaTrigger = s.dmaTrigger := congrArg Outside.dmaTrigger houtside
  have hfree : t.numFreeDesc = s.numFreeDesc := by
    unfold State.numFreeDesc
    rw [hnum, hhead, htail]
  unfold RingFits at fits ⊢
  rw [htrigger, hstatus, hfree]
  exact fits

/-- A descriptor that the host owns without error stays as it is. -/
theorem desc_of_usable {t : State} {i : Nat} (h : s.unusable i = false)
    (steps : ReflTransGen Env s t) : t.desc i = s.desc i ∧ t.unusable i = false := by
  induction steps with
  | refl => exact ⟨rfl, h⟩
  | tail _ step ih =>
      obtain ⟨hsame, husable⟩ := ih
      have hstep := env_of_free step (Bool.or_eq_false_iff.mp husable).1
      refine ⟨hstep.trans hsame, ?_⟩
      rw [State.unusable, hstep]
      exact husable

/-- Once its first descriptor has passed, a frame without an error behind it finds
room. -/
theorem room_of_first (ok : ¬ ErrorBehind s skb) (fits : RingFits s skb) {w : State}
    (steps : ReflTransGen Env s w) (first : w.unusable s.queue.tail = false) :
    ¬ RingBusy w skb := by
  obtain ⟨-, hnum, -, htail, -⟩ := Front.mk.inj (kept_of_steps env_front steps)
  have hneeded : needed w skb = needed s skb := by
    unfold needed
    rw [hnum, htail]
  rintro (⟨-, -, hnone⟩ | ⟨-, i, hi, hbad⟩)
  · exact (fits.of_same (kept_of_steps env_front steps)
      (kept_of_steps env_outside steps)).2.2.1 hnone
  · rw [hneeded] at hi
    by_cases hfirst : i = s.queue.tail
    · rw [hfirst, first] at hbad
      cases hbad
    · -- the device has reported no error in the first one, or it would still be there
      have herr : errorIndication (s.desc s.queue.tail).qword0 = false := by
        by_contra herr
        have := (Bool.or_eq_false_iff.mp first).2
        rw [keepsErrors_of_steps steps _ (by simpa using herr)] at this
        cases this
      have husable : s.unusable i = false := by
        by_contra hun
        exact ok ⟨fits, herr, i, hi, hfirst, by simpa using hun⟩
      rw [(desc_of_usable husable steps).2] at hbad
      cases hbad

/-- What becomes of a frame: it is refused, the ring is full, its first descriptor
cannot be used, or it is copied. If it is not copied, errors stay where they are. -/
theorem runs_hardStartXmit_cases (on : s.dmaTrigger ≠ 0)
    (run : Runs Env (xpnetHardStartXmit (some skb)) s tr exit s') :
    ((exit = .txdrop ∨ (exit = .txbusy ∧ s'.outside = s.outside ∧ (s.numFreeDesc = 0 ∨
        ∃ w, ReflTransGen Env s w ∧ w.unusable s.queue.tail = true))) ∧ KeepsErrors s s') ∨
      (RingFits s skb ∧ ∃ w tr' free, ReflTransGen Env s w ∧
        w.unusable s.queue.tail = false ∧
        Runs Env (xmitFrame skb w.queue.tail w.queue.xpqNumDesc free) w tr' exit s') := by
  have same : ∀ {t t' : State}, ReflTransGen Env t t' → t'.outside = t.outside :=
    fun steps => kept_of_steps env_outside steps
  obtain ⟨t, _, rest, steps, -⟩ := runs_look run
  obtain ⟨hstatus, hnum, hhead, htail, -⟩ := Front.mk.inj (kept_of_steps env_front steps)
  have hfree : xpnetGetFreeDesc t.queue.xpqNumDesc t.queue.head t.queue.tail = s.numFreeDesc := by
    rw [hnum, hhead, htail]
    rfl
  simp only [id] at rest
  revert rest
  refine xmitFrom_cases (P := fun p => Runs Env p t _ exit s' → _) ?refused ?full ?checked
  case refused =>
    exact fun _ drop => .inl ⟨.inl (txErrorDrop_exit drop),
      (keepsErrors_of_steps steps).trans (keepsErrors_of_drop drop)⟩
  case full =>
    rw [hfree]
    intro _ hnone busy
    cases busy with
    | ret later =>
        exact .inl ⟨.inr ⟨rfl, by rw [same later, same steps], .inl hnone⟩,
          keepsErrors_of_steps (steps.trans later)⟩
  rw [hfree, hstatus, htail, hnum]
  intro hactive hsome hpos hle hlinear check
  obtain ⟨v, _, head, steps', -⟩ := runs_look check
  have hv := steps.trans steps'
  split at head
  · rename_i hown
    obtain ⟨u, _, busy, steps'', -⟩ := runs_emit head
    cases busy with
    | ret later =>
        refine .inl ⟨.inr ⟨rfl, by rw [same later, same steps'', same hv], .inr ⟨v, hv, ?_⟩⟩,
          keepsErrors_of_steps ((hv.trans steps'').trans later)⟩
        simp [State.unusable, hown]
  rename_i hown
  obtain ⟨w, tr', sane, steps'', -⟩ := runs_look head
  have hw := hv.trans steps''
  split at sane
  · rename_i herr
    cases sane with
    | ret later =>
        refine .inl ⟨.inr ⟨rfl, by rw [same later, same hw], .inr ⟨w, hw, ?_⟩⟩,
          keepsErrors_of_steps (hw.trans later)⟩
        simp [State.unusable, herr]
  rename_i herr
  have hgiven : w.owned s.queue.tail = false :=
    (env_stable_free s.queue.tail).steps steps'' (by simpa [State.owned] using hown)
  obtain ⟨-, hnumw, -, htailw, -⟩ := Front.mk.inj (kept_of_steps env_front hw)
  refine .inr ⟨⟨on, hactive, hsome, hpos, hle, hlinear⟩, w, tr', s.numFreeDesc, hw, ?_, ?_⟩
  · exact Bool.or_eq_false_iff.mpr ⟨hgiven, by simpa using herr⟩
  · rw [htailw, hnumw]
    exact sane

/-- The ring that a frame finds. -/
theorem SomeIdle.size_tail (size : RingSize n) (idle : SomeIdle n a0 s) :
    RingSize s.queue.xpqNumDesc ∧ s.queue.tail < s.queue.xpqNumDesc := by
  obtain ⟨r, rfl, idle⟩ := idle
  rw [idle.base.indices.numDesc, idle.base.indices.tail]
  exact ⟨size, r.tail_lt⟩

/-- A call of `xpnet_start_xmit` with the DMA engine on: the call of
`xpnet_hard_start_xmit` in it, and then that of `xpnet_tx_complete`, unless the answer
is busy. -/
theorem runs_startXmit_hard (on : s.dmaTrigger ≠ 0)
    (run : Runs Env (xpnetStartXmit skb) s tr exit s') :
    ∃ m tr', Runs Env (xpnetHardStartXmit (some skb)) s tr' exit m ∧
      ((exit = .txbusy ∧ ReflTransGen Env m s') ∨
        (exit ≠ .txbusy ∧ ∃ maxiter tr'', Runs Env (xpnetTxComplete maxiter) m tr'' () s')) := by
  obtain ⟨t, _, rest, steps, -⟩ := runs_look run
  have htrigger : t.dmaTrigger = s.dmaTrigger :=
    congrArg Outside.dmaTrigger (kept_of_steps env_outside steps)
  simp only [id, startXmitFrom, htrigger, if_neg on] at rest
  obtain ⟨exit', m, tr', _, first, last, -⟩ := runs_bind.mp rest
  obtain rfl := runs_completeAfter last
  refine ⟨m, tr', first.before steps, ?_⟩
  unfold completeAfter at last
  split at last
  case isTrue hok =>
    obtain ⟨_, v, _, _, complete, done, -⟩ := runs_bind.mp last
    cases done with
    | ret later =>
        refine .inr ⟨fun busy => ?_, _, _, complete.later later⟩
        rw [busy] at hok
        cases hok
  case isFalse hbusy =>
    cases last with
    | ret later =>
        refine .inl ⟨?_, later⟩
        cases exit with
        | txok => exact absurd rfl hbusy
        | txdrop => exact absurd rfl hbusy
        | txbusy => rfl

/-- What follows `xpnet_hard_start_xmit` counts nothing. -/
theorem outside_of_hard {m : State}
    (rest : (exit = .txbusy ∧ ReflTransGen Env m s') ∨
      (exit ≠ .txbusy ∧ ∃ maxiter tr'', Runs Env (xpnetTxComplete maxiter) m tr'' () s')) :
    s'.outside = m.outside := by
  rcases rest with ⟨-, later⟩ | ⟨-, maxiter, _, complete⟩
  · exact kept_of_steps env_outside later
  · exact complete.tracks env_outside (txComplete_tracks maxiter)

/-- An answer busy counts nothing, unless there is an error behind the first
descriptor. -/
theorem quiet_of_txbusy (size : RingSize n) (idle : SomeIdle n a0 s) (on : s.dmaTrigger ≠ 0)
    (ok : ¬ ErrorBehind s skb) (run : Runs Env (xpnetStartXmit skb) s tr .txbusy s') :
    s'.outside = s.outside := by
  obtain ⟨m, _, hard, rest⟩ := runs_startXmit_hard on run
  rw [outside_of_hard rest]
  rcases runs_hardStartXmit_cases on hard with ⟨hdrop | ⟨-, hquiet, -⟩, -⟩ |
    ⟨fits, w, _, _, steps, first, copy⟩
  · cases hdrop
  · exact hquiet
  · have room := room_of_first ok fits steps first
    have fitsw : RingFits w skb :=
      fits.of_same (kept_of_steps env_front steps) (kept_of_steps env_outside steps)
    obtain ⟨hsize, htail⟩ := ((env_stable_someIdle n a0).steps steps idle).size_tail size
    have busy := (runs_xmitFrame_busy (env_stable_sameRing room) env_keepsBuffers hsize htail
      fitsw (.refl w skb) copy).mp rfl
    exact absurd (.inr ⟨fitsw, busy⟩) room

theorem AbortsNow.later {t : State} (aborts : AbortsNow s skb) (steps : ReflTransGen Env s t)
    (htail : s.queue.tail < s.queue.xpqNumDesc) : AbortsNow t skb := by
  have stable := env_stable_sameRing_of_free fun _ => aborts.free
  have same := stable.steps steps (.refl s skb)
  have hneeded : needed t skb = needed s skb := by
    unfold needed
    rw [same.numDesc, same.tail]
  have hbits := same.bits aborts.fits
  refine ⟨aborts.fits.of_same (kept_of_steps env_front steps) (kept_of_steps env_outside steps),
    ?_, ?_, ?_⟩
  · intro i hi
    rw [hneeded] at hi
    rw [State.owned, hbits i hi]
    exact aborts.free i hi
  · rw [same.tail, hbits _ (tail_mem_needed htail aborts.fits)]
    exact aborts.first
  · obtain ⟨i, hi, herr⟩ := aborts.error
    refine ⟨i, hneeded ▸ hi, ?_⟩
    rw [State.unusable, hbits i hi]
    exact herr

/-- With the error there already, the answer is busy and a drop is counted. -/
theorem AbortsNow.runs (size : RingSize n) (idle : SomeIdle n a0 s) (aborts : AbortsNow s skb)
    (run : Runs Env (xpnetStartXmit skb) s tr exit s') :
    exit = .txbusy ∧ s'.outside = s.outside.count countAborted := by
  obtain ⟨-, htail⟩ := idle.size_tail size
  obtain ⟨m, _, hard, rest⟩ := runs_startXmit_hard aborts.fits.1 run
  rw [outside_of_hard rest]
  rcases runs_hardStartXmit_cases aborts.fits.1 hard with
    ⟨hdrop | ⟨-, -, hnone | ⟨w, steps, hbad⟩⟩, -⟩ | ⟨-, w, _, _, steps, -, copy⟩
  · obtain ⟨-, hactive, -, hpos, hle, hlinear⟩ := aborts.fits
    rcases (runs_hardStartXmit_txdrop hard).mp hdrop with hdown | ⟨-, hzero | hlong | hfrags⟩
    · exact absurd hactive hdown
    · exact absurd hzero hpos
    · exact absurd hle (Nat.not_le.mpr hlong)
    · exact absurd hlinear hfrags
  · exact absurd hnone aborts.fits.2.2.1
  · have husable : s.unusable s.queue.tail = false :=
      Bool.or_eq_false_iff.mpr ⟨aborts.free _ (tail_mem_needed htail aborts.fits), aborts.first⟩
    rw [(desc_of_usable husable steps).2] at hbad
    cases hbad
  · have aborts' := aborts.later steps htail
    obtain ⟨hsize, htailw⟩ := ((env_stable_someIdle n a0).steps steps idle).size_tail size
    obtain ⟨res, v, _, hok, hbusy, last, houtside⟩ := runs_xmitFrame_check
      (env_stable_sameRing_of_free fun _ => aborts'.free) env_keepsBuffers hsize htailw
      aborts'.fits (.refl w skb) copy
    rw [← kept_of_steps env_outside steps, ← houtside env_outside]
    cases res with
    | ok =>
        obtain ⟨i, hi, hbad⟩ := aborts'.error
        rw [hok.mp rfl i hi] at hbad
        cases hbad
    | queueBusy =>
        obtain ⟨i, hi, hown⟩ := hbusy rfl
        rw [aborts'.free i hi] at hown
        cases hown
    | queueError =>
        exact last.tracks env_outside (F := fun exit e => exit = .txbusy ∧
          e = v.outside.count countAborted) (Tracks.store stores_stats ⟨rfl, rfl⟩)

/-- The device can bring an error behind the first descriptor out. -/
theorem exists_abortsNow (size : RingSize n) (idle : SomeIdle n a0 s) (hidden : ErrorBehind s skb) :
    ∃ t, ReflTransGen Env s t ∧ t.allocOk = true ∧ AbortsNow t skb := by
  obtain ⟨fits, hfirst, i, hi, hne, hbad⟩ := hidden
  -- the allocator has memory, and the device reports the error if it owns the descriptor
  obtain ⟨u, steps, halloc, htailu, hiu⟩ : ∃ u, ReflTransGen Env s u ∧ u.allocOk = true ∧
      u.desc s.queue.tail = s.desc s.queue.tail ∧
        errorIndication (u.desc i).qword0 = true := by
    have memory : ReflTransGen Env s { s with allocOk := true } := .single ⟨.memory true, rfl⟩
    by_cases hown : s.owned i = true
    · refine ⟨_, memory.tail ⟨.fault i, rfl⟩, ?_⟩
      change (onOwned i setError { s with allocOk := true }).allocOk = true ∧ _
      have howned : State.owned { s with allocOk := true } i = true := hown
      simp only [envMove, onOwned, howned, if_true]
      refine ⟨rfl, updDesc_of_ne _ _ hne.symm, ?_⟩
      rw [updDesc_self]
      exact errorIndication_setError _
    · refine ⟨_, memory, rfl, rfl, ?_⟩
      change errorIndication (s.desc i).qword0 = true
      rw [State.unusable, Bool.or_eq_true] at hbad
      exact hbad.resolve_left hown
  obtain ⟨t, steps', hfree, halloc', herr⟩ := exists_drained u n
  have before := steps.trans steps'
  obtain ⟨-, hnum, -, htail, -⟩ := Front.mk.inj (kept_of_steps env_front before)
  have hneeded : needed t skb = needed s skb := by
    unfold needed
    rw [hnum, htail]
  refine ⟨t, before, halloc'.trans halloc, ?_, ?_, ?_, ?_⟩
  · exact fits.of_same (kept_of_steps env_front before) (kept_of_steps env_outside before)
  · intro j hj
    obtain ⟨r, rfl, idle⟩ := idle
    rw [hneeded, needed, idle.base.indices.numDesc] at hj
    obtain ⟨k, -, rfl⟩ := mem_slots.mp hj
    exact hfree _ (slot_lt r.size_pos _ _)
  · rw [htail, herr, htailu]
    exact hfirst
  · refine ⟨i, hneeded ▸ hi, ?_⟩
    rw [State.unusable, herr i, hiu, Bool.or_true]

/-! ### Miscounts -/

/-- The frame can end in a way that the counters of the driver do not match. -/
def Miscounted (s : State) (skb : SkBuff) : Prop := s.dmaTrigger = 0 ∨ ErrorBehind s skb

/-- It does. -/
def MiscountsNow (s : State) (skb : SkBuff) : Prop := s.dmaTrigger = 0 ∨ AbortsNow s skb

theorem exists_miscountsNow (size : RingSize n) (idle : SomeIdle n a0 s)
    (bad : Miscounted s skb) :
    ∃ t, ReflTransGen Env s t ∧ t.allocOk = true ∧ MiscountsNow t skb := by
  rcases bad with off | hidden
  · exact ⟨{ s with allocOk := true }, .single ⟨.memory true, rfl⟩, rfl, .inl off⟩
  · obtain ⟨t, steps, halloc, aborts⟩ := exists_abortsNow size idle hidden
    exact ⟨t, steps, halloc, .inr aborts⟩

end Errors

end XpNet.Tx
