/-
What `xpnet_tx_complete` retires, with the device acting at any moment.

A slot in flight is `finished` when the device has given it back without an error. The
device takes no slot back and withdraws no error report, so slots that are finished when
the call starts are finished when the loop comes to them, and a slot with an error stops
the loop. What happens to a slot in between is up to the device. `txComplete_retires`
bounds the slots retired from both sides; with an idle device the bounds meet
(`txComplete_alone`).
-/

import XpNet.Tx.Counters
import XpNet.Tx.Runs

namespace XpNet.Tx

open XpNet.Interference
open Relation (ReflTransGen)

/-! ### Slots that may be retired -/

/-- The device reported an error in descriptor `i`. -/
def State.failed (s : State) (i : Nat) : Bool := errorIndication (s.desc i).qword0

/-- The device gave descriptor `i` back, and without an error. -/
def State.finished (s : State) (i : Nat) : Bool := !s.failed i && !s.owned i

/-- A longer condition holds longer. -/
theorem takeWhile_prefix_takeWhile {α : Type} {f g : α → Bool} (weaker : ∀ a, f a → g a) :
    ∀ l : List α, l.takeWhile f <+: l.takeWhile g
  | [] => List.prefix_rfl
  | a :: l => by
      rw [List.takeWhile_cons, List.takeWhile_cons]
      split
      case isTrue h =>
        rw [if_pos (weaker a h)]
        exact List.prefix_cons_inj a |>.mpr (takeWhile_prefix_takeWhile weaker l)
      case isFalse => exact List.nil_prefix

theorem env_stable_at (r : Ring) : Stable Env (At r) :=
  fun s s' step => bitEnv_stable_at r s s' (env_bitEnv step)

section Slots

variable {s s' : State} {i : Nat}

/-- What has become of the slots from one state to a later one. -/
structure Later (s s' : State) : Prop where
  failed : ∀ i, s.failed i = true → s'.failed i = true
  freed : ∀ i, s.owned i = false → s'.owned i = false
  finished : ∀ i, s.finished i = true → s'.finished i = true

theorem Later.refl (s : State) : Later s s := ⟨fun _ h => h, fun _ h => h, fun _ h => h⟩

theorem Later.trans {t : State} (first : Later s t) (second : Later t s') : Later s s' where
  failed i h := second.failed i (first.failed i h)
  freed i h := second.freed i (first.freed i h)
  finished i h := second.finished i (first.finished i h)

/-- An update that leaves the descriptors alone. -/
theorem later_of_desc (same : ∀ i, s'.desc i = s.desc i) : Later s s' := by
  refine ⟨fun i h => ?_, fun i h => ?_, fun i h => ?_⟩
  · rwa [State.failed, same]
  · rwa [State.owned, same]
  · rwa [State.finished, State.failed, State.owned, same]

theorem env_later (step : Env s s') : Later s s' := by
  have failed : ∀ i, s.failed i = true → s'.failed i = true := env_keepsErrors step
  have freed : ∀ i, s.owned i = false → s'.owned i = false := fun i =>
    env_stable_free i s s' step
  refine ⟨failed, freed, fun i h => ?_⟩
  -- a descriptor of the host stays as it is
  obtain ⟨hfailed, howned⟩ : s.failed i = false ∧ s.owned i = false := by
    simpa [State.finished] using h
  obtain ⟨m, rfl⟩ := step
  have move : ∀ j g, (onOwned j g s).desc i = s.desc i := by
    intro j g
    unfold onOwned
    split
    case isTrue hj =>
      refine updDesc_of_ne s _ fun hij => ?_
      rw [hij, hj] at howned
      cases howned
    case isFalse => rfl
  have same : (envMove m s).desc i = s.desc i := by
    cases m with
    | complete j => exact move j _
    | fault j => exact move j _
    | memory ok => rfl
  rw [State.finished, State.failed, State.owned, same]
  exact h

theorem later_of_steps (steps : ReflTransGen Env s s') : Later s s' := by
  induction steps with
  | refl => exact .refl s
  | tail _ step ih => exact ih.trans (env_later step)

end Slots

/-! ### The loop -/

section Loop

variable {r : Ring} {s s' : State} {tr : List (State × Ev)}

/-- A run of actions that keep the descriptors. -/
theorem later_of_runs {α : Type} {p : TxProg α} {a : α} (run : Runs Env p s tr a s')
    (keeps : Always (fun _ u => ∀ t i, (u t).desc i = t.desc i) p) : Later s s' := by
  induction run with
  | ret steps => exact later_of_steps steps
  | act steps _ ih =>
      exact (later_of_steps steps).trans ((later_of_desc (keeps.1 _)).trans (ih (keeps.2 _)))

theorem txCompleteLoop_keeps (n tail head iter : Nat) :
    Always (fun _ u => ∀ (t : State) i, (u t).desc i = t.desc i)
      (txCompleteLoop n tail head iter) :=
  txCompleteLoop_always (fun _ _ _ _ => rfl) (fun _ _ _ => rfl) n tail head iter

/-- An action that retires nothing. -/
theorem retired_cons (lab : Ev) (quiet : ∀ i, lab ≠ .moveHead i) (t : State)
    (tr : List (State × Ev)) : retired ((t, lab) :: tr) = retired tr := by
  cases lab with
  | moveHead i => exact absurd rfl (quiet i)
  | _ => rfl

/-- Waiting retires nothing. -/
theorem retired_awaitOwnership {head attempts : Nat} {u : Unit}
    (run : Runs Env (awaitOwnership head attempts) s tr u s') : retired tr = [] := by
  have labels := run.always (awaitOwnership_always (P := fun lab _ => lab = .load head) head rfl
    attempts)
  rw [retired, List.flatMap_eq_nil_iff]
  intro x hx
  obtain ⟨_, label⟩ := labels x hx
  rw [label]

/-- `gone` is what a call retires of `window`, the slots it may come to. -/
structure Retires (window : List Nat) (s : State) (gone : List Nat) (s' : State) : Prop where
  least : window.takeWhile s.finished <+: gone
  most : gone <+: window.takeWhile fun i => !s.failed i && !s'.owned i

/-- The call ends at a slot that is not finished. -/
theorem Retires.stop {window : List Nat} (first : ∀ i, window.head? = some i → s.finished i = false) :
    Retires window s [] s' := by
  refine ⟨?_, List.nil_prefix⟩
  cases window with
  | nil => exact List.prefix_rfl
  | cons i window => rw [List.takeWhile_cons, if_neg (by simp [first i rfl])]

/-- Seen from an earlier and a later state. -/
theorem Retires.widen {window gone : List Nat} {t u : State} (before : Later s t)
    (retires : Retires window t gone u) (after : Later u s') : Retires window s gone s' := by
  refine ⟨(takeWhile_prefix_takeWhile before.finished window).trans retires.least,
    retires.most.trans (takeWhile_prefix_takeWhile (fun j h => ?_) window)⟩
  simp only [Bool.and_eq_true, Bool.not_eq_true', ← Bool.not_eq_true] at h ⊢
  refine ⟨fun failed => h.1 (before.failed j failed), fun owned => ?_⟩
  rw [after.freed j (by simpa using h.2)] at owned
  cases owned

/-- One more slot is retired. -/
theorem Retires.next {window gone : List Nat} {i : Nat} {t : State} (later : Later s t)
    (sound : s.failed i = false) (rest : Retires window t gone s') (free : s'.owned i = false) :
    Retires (i :: window) s (i :: gone) s' := by
  have least := (takeWhile_prefix_takeWhile later.finished window).trans rest.least
  have weaker : ∀ j, (!t.failed j && !s'.owned j) = true → (!s.failed j && !s'.owned j) = true := by
    intro j h
    simp only [Bool.and_eq_true, Bool.not_eq_true', ← Bool.not_eq_true] at h ⊢
    exact ⟨fun failed => h.1 (later.failed j failed), h.2⟩
  have most := rest.most.trans (takeWhile_prefix_takeWhile weaker window)
  refine ⟨?_, ?_⟩
  · rw [List.takeWhile_cons]
    split
    · exact (List.prefix_cons_inj i).mpr least
    · exact List.nil_prefix
  · rw [List.takeWhile_cons, if_pos (by simp [sound, free])]
    exact (List.prefix_cons_inj i).mpr most

/-- Where the loop leaves the indices. -/
def Popped (r : Ring) (count : Nat) (s : State) : Prop :=
  ∃ r' : Ring, r'.size = r.size ∧ At r' s ∧ r'.inflight = r.inflight.drop count

theorem Popped.stay (found : At r s) : Popped r 0 s := ⟨r, rfl, found, rfl⟩

theorem Popped.next {count : Nat} (busy : 0 < r.busy) (popped : Popped r.pop count s) :
    Popped r (count + 1) s := by
  obtain ⟨r', hsize, found, hin⟩ := popped
  refine ⟨r', hsize, found, ?_⟩
  rw [hin, r.inflight_pop busy, List.drop_succ_cons]

/-- The loop ends with a message, at a slot that is not finished. -/
theorem runs_loop_stop {t : State} {lab : Ev} {u : Unit} (later : Later s t) (found : At r t)
    {window : List Nat} {i : Nat} (first : window.head? = some i) (unfinished : t.finished i = false)
    (quiet : ∀ j, lab ≠ .moveHead j) (run : Runs Env (Prog.emit lab) t tr u s') :
    Retires window s (retired tr) s' ∧ Popped r (retired tr).length s' := by
  cases run with
  | act steps rest =>
      cases rest with
      | ret after =>
          rw [retired_cons _ quiet]
          refine ⟨.stop fun j hj => ?_, .stay ((env_stable_at r).steps (steps.trans after) found)⟩
          rw [first] at hj
          cases hj
          by_contra h
          rw [later.finished i (by simpa using h)] at unfinished
          cases unfinished

/-- **The completion loop**, with `iter` rounds left. -/
theorem runs_txCompleteLoop {u : Unit} : ∀ (iter : Nat) {r : Ring} {s : State}
    {tr : List (State × Ev)}, RingSize r.size → iter ≤ r.busy → At r s →
    Runs Env (txCompleteLoop r.size r.tail r.head iter) s tr u s' →
    Retires (r.inflight.take iter) s (retired tr) s' ∧ Popped r (retired tr).length s'
  | 0, r, s, tr, _, _, found, run => by
      cases run with
      | ret steps => exact ⟨.stop (fun i h => by cases h), .stay ((env_stable_at r).steps steps found)⟩
  | iter + 1, r, s, tr, size, hiter, found, run => by
      have busy : 0 < r.busy := by omega
      have hnext : xpnetAddAndWrap r.head 1 r.size = slot r.size r.head 1 :=
        xpnetAddAndWrap_eq size (Nat.le_of_lt r.head_lt) size.pos
      have window : r.inflight.take (iter + 1) =
          slot r.size r.head 1 :: r.pop.inflight.take iter := by
        rw [r.inflight_pop busy, List.take_succ_cons]
      simp only [txCompleteLoop, hnext] at run
      rw [if_neg (r.head_succ_ne_tail busy)] at run
      -- the load that looks for an error
      obtain ⟨t, tr₁, checked, steps, rfl⟩ := runs_look run
      have later := later_of_steps steps
      have ht := (env_stable_at r).steps steps found
      rw [retired_cons (.load _) fun _ => Ev.noConfusion]
      split at checked
      case isTrue failed =>
        have unfinished : t.finished (slot r.size r.head 1) = false := by
          simp [State.finished, State.failed, failed]
        exact runs_loop_stop later ht (window ▸ rfl) unfinished (by simp) checked
      case isFalse sound =>
        -- the wait for the device, and the load after it
        obtain ⟨_, v, tr₂, tr₃, wait, waited, rfl⟩ := runs_bind.mp checked
        have later := later.trans (later_of_runs wait (awaitOwnership_always _ (fun _ _ => rfl) _))
        have hv : At r v := wait.invariant (env_stable_at r)
          (awaitOwnership_always _ (fun _ h => h) _) ht
        obtain ⟨w, tr₄, loaded, steps', rfl⟩ := runs_look waited
        have later := later.trans (later_of_steps steps')
        have hw := (env_stable_at r).steps steps' hv
        have quiet : retired (tr₂ ++ (w, .load (slot r.size r.head 1)) :: tr₄) = retired tr₄ := by
          rw [retired, List.flatMap_append, ← retired, ← retired, retired_awaitOwnership wait,
            retired_cons (.load _) (fun _ => Ev.noConfusion), List.nil_append]
        rw [quiet]
        split at loaded
        case isTrue owned =>
          have unfinished : w.finished (slot r.size r.head 1) = false := by
            simp [State.finished, State.owned, owned]
          exact runs_loop_stop later hw (window ▸ rfl) unfinished (by simp) loaded
        case isFalse free =>
          -- `head` moves past the slot
          obtain ⟨x, tr₅, rest, steps'', rfl⟩ := runs_write loaded
          have hx := (env_stable_at r).steps steps'' hw
          have free : x.owned (slot r.size r.head 1) = false :=
            (later_of_steps steps'').freed _ (by simpa [State.owned] using free)
          have later_x := later.trans (later_of_steps steps'')
          have sound : s.failed (slot r.size r.head 1) = false := by
            by_contra h
            exact sound ((later_of_steps steps).failed _ (by simpa using h))
          let y := x.updQueue fun q => { q with head := xpnetAddAndWrap q.head 1 q.xpqNumDesc }
          have later_y : Later s y := later_x.trans (later_of_desc fun _ => rfl)
          have hpop : At r.pop y := hx.pop size
          obtain ⟨retires, popped⟩ := runs_txCompleteLoop (r := r.pop) iter size
            (by have := r.busy_pop busy; omega) hpop rest
          have gone : retired ((x, .moveHead (slot r.size r.head 1)) :: tr₅) =
              slot r.size r.head 1 :: retired tr₅ := rfl
          rw [gone, window]
          refine ⟨.next later_y sound retires ?_, popped.next busy⟩
          exact (later_of_runs rest (txCompleteLoop_keeps _ _ _ _)).freed _ free

end Loop

/-! ### The call -/

section Call

variable {n maxiter : Nat} {s s' : State} {tr : List (State × Ev)}

theorem runs_txComplete (size : RingSize n) (ring : SomeRing n s)
    (run : Runs Env (xpnetTxComplete maxiter) s tr () s') :
    Retires (s.inflight.take maxiter) s (retired tr) s' ∧
      s'.inflight = if s.isA0 then [] else s.inflight.drop (retired tr).length := by
  obtain ⟨r, rfl, found⟩ := ring
  obtain ⟨t, tr', rest, steps, rfl⟩ := runs_look run
  have ht := (env_stable_at r).steps steps found
  simp only [id, ht.busy size] at rest
  rw [ht.numDesc, ht.tail, ht.head] at rest
  obtain ⟨_, u, tr₁, tr₂, loop, rewind, rfl⟩ := runs_bind.mp rest
  have hiter : (if r.busy > maxiter then maxiter else r.busy) ≤ r.busy := by split <;> omega
  have window : r.inflight.take (if r.busy > maxiter then maxiter else r.busy) =
      r.inflight.take maxiter := by
    have hlen : r.inflight.length = r.busy := length_slots _ _ _
    split
    · rfl
    · rw [List.take_of_length_le (by omega), List.take_of_length_le (by omega)]
  obtain ⟨retires, r', hsize, hu, popped⟩ := runs_txCompleteLoop _ size hiter ht loop
  rw [window] at retires
  have hflag : t.isA0 = s.isA0 :=
    kept_of_steps (f := State.isA0) (fun _ _ step => (env_inflight step).2.2.1) steps
  rw [found.inflight size, ← hflag, retired_cons .priv fun _ => Ev.noConfusion]
  clear run rest
  cases ha : t.isA0 with
  | false =>
      rw [ha] at rewind
      cases rewind with
      | ret after =>
          rw [List.append_nil]
          refine ⟨retires.widen (later_of_steps steps) (later_of_steps after), ?_⟩
          have hs' := (env_stable_at r').steps after hu
          rw [hs'.inflight (hsize ▸ size), popped]
          rfl
  | true =>
      rw [ha] at rewind
      obtain ⟨v, _, rest, before, rfl⟩ := runs_write (f := pure) rewind
      cases rest with
      | ret after =>
          have gone : retired (tr₁ ++ [(v, .rewind)]) = retired tr₁ := by
            rw [retired, List.flatMap_append]
            exact List.append_nil _
          let w := v.updQueue fun q => { q with head := q.xpqNumDesc - 1, tail := 0 }
          have same : Later v w := later_of_desc fun _ => rfl
          have later : Later u s' :=
            (later_of_steps before).trans (same.trans (later_of_steps after))
          have hw : At (emptyRing r'.size r'.size_pos) w :=
            ((env_stable_at r').steps before hu).rewind
          rw [gone]
          refine ⟨retires.widen (later_of_steps steps) later, ?_⟩
          rw [((env_stable_at _).steps after hw).inflight (hsize ▸ size), emptyRing_inflight]
          rfl

/-- **What a call retires.** Whatever the device does meanwhile, `xpnet_tx_complete` retires
slots in flight from the oldest on, at most `maxiter` of them: at least those that are
finished when it starts, up to the first that is not, and at most those up to the first
that had failed by then or that the device still owns when it returns. The other slots
stay in flight, but on A0 the ring starts over without them. -/
theorem txComplete_retires (size : RingSize n) (ring : SomeRing n s)
    (run : Runs Env (xpnetTxComplete maxiter) s tr () s') :
    (s.inflight.take maxiter).takeWhile s.finished <+: retired tr ∧
      retired tr <+: (s.inflight.take maxiter).takeWhile (fun i => !s.failed i && !s'.owned i) ∧
      s'.inflight = if s.isA0 then [] else s.inflight.drop (retired tr).length := by
  obtain ⟨⟨least, most⟩, left⟩ := runs_txComplete size ring run
  exact ⟨least, most, left⟩

/-- Two slots in flight, with the device done with the first. -/
def firstFinished : State :=
  { freshState 0 .b0Compressed xpnetTxNumDescs with
    queue := { (freshState 0 .b0Compressed xpnetTxNumDescs).queue with
      tail := 2
      descMeta := fun i => if i = 1 then
          setQword0 ownBit ((freshState 0 .b0Compressed xpnetTxNumDescs).queue.descMeta 1)
        else (freshState 0 .b0Compressed xpnetTxNumDescs).queue.descMeta i } }

theorem txComplete_retires_first : ∃ tr s',
    Runs Env (xpnetTxComplete xpnetTxNumDescs) firstFinished tr () s' ∧
      [0] <+: retired tr ∧ s'.inflight = [0, 1].drop (retired tr).length := by
  have idle : ∃ s', (xpnetTxComplete xpnetTxNumDescs).exec firstFinished = some ((), s') := by
    have done : ((xpnetTxComplete xpnetTxNumDescs).exec firstFinished).isSome = true := by
      decide +kernel
    obtain ⟨⟨_, s'⟩, h⟩ := Option.isSome_iff_exists.mp done
    exact ⟨s', h⟩
  obtain ⟨s', idle⟩ := idle
  obtain ⟨tr, run⟩ := Runs.of_exec idle
  have ring : SomeRing xpnetTxNumDescs firstFinished :=
    ⟨⟨xpnetTxNumDescs, 9, 2, by decide, by decide⟩, rfl, rfl, rfl, rfl⟩
  have inflight : firstFinished.inflight = [0, 1] := by decide +kernel
  have finished : ([0, 1].take xpnetTxNumDescs).takeWhile firstFinished.finished = [0] := by
    decide +kernel
  have bounds := txComplete_retires ringSize_txNumDescs ring run
  rw [inflight, finished] at bounds
  exact ⟨tr, s', run, bounds.1, bounds.2.2⟩

/-- With an idle device the bounds meet. -/
theorem txComplete_alone (size : RingSize n) (ring : SomeRing n s) (flag : s.isA0 = false)
    (run : (xpnetTxComplete maxiter).exec s = some ((), s')) :
    s'.inflight =
      s.inflight.drop ((s.inflight.take maxiter).takeWhile s.finished).length := by
  obtain ⟨tr, alone⟩ : ∃ tr, Runs (fun _ _ => False) _ s tr () s' := Runs.of_exec run
  obtain ⟨⟨least, most⟩, left⟩ := runs_txComplete size ring (alone.mono fun _ _ => False.elim)
  have same : ∀ i, s'.desc i = s.desc i := by
    intro i
    exact alone.invariant (I := fun t => t.desc i = s.desc i) (fun _ _ => False.elim)
      (txComplete_always (fun _ _ _ h => h) (fun _ _ h => h) (fun _ h => h) maxiter) rfl
  have meets : (fun i => !s.failed i && !s'.owned i) = s.finished := by
    funext i
    rw [State.owned, same]
    rfl
  rw [meets] at most
  rw [left, flag, least.eq_of_length_le most.length_le]
  rfl

end Call

end XpNet.Tx
