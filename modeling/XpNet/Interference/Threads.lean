/-
Threads that share one lock, in an environment.

`Step` interleaves the threads of a `Config` action by action: a thread takes the lock
only when nobody has it. In an `Interleaving` the environment moves by `rely` between any
two of their actions.

A configuration is `Locked` if each thread uses the lock well, from where it is (`Locking`).
Every interleaving keeps that (`Interleaving.locked`), and then

* `Config.Locked.allowed`: the next action of each finds the lock as it needs it;
* `Config.Locked.progress`: some thread can go on, unless none has anything left to do, or
  the one with the lock has run away;
* `Interleaving.alone`: with the lock free, a thread may go on by itself to its end.
-/

import XpNet.Interference.Locking
import Mathlib.Logic.Function.Basic

namespace XpNet.Interference

open Function (update)

variable {ι σ ε α : Type}

/-! ### Threads -/

/-- What is left of each thread, who has the lock, and the state. -/
structure Config (ι σ ε α : Type) where
  prog : ι → Prog σ ε α
  holder : Option ι
  state : σ

/-- Every thread has returned. -/
def Config.Done (c : Config ι σ ε α) : Prop := ∀ i, ∃ a, c.prog i = .ret a

/-- Who has taken the lock, in that order. -/
def acquires (use : ε → LockUse) (tr : List (ι × ε)) : List ι :=
  (tr.filter fun x => use x.2 = .acquire).map Prod.fst

theorem acquires_append (use : ε → LockUse) (tr tr' : List (ι × ε)) :
    acquires use (tr ++ tr') = acquires use tr ++ acquires use tr' := by
  unfold acquires
  rw [List.filter_append, List.map_append]

theorem acquires_lock {use : ε → LockUse} {i : ι} {l : ε} (acquired : use l = .acquire) :
    acquires use [(i, l)] = [i] := by simp [acquires, acquired]

theorem acquires_other {use : ε → LockUse} {i : ι} {l : ε} (other : use l ≠ .acquire) :
    acquires use [(i, l)] = [] := by simp [acquires, other]

section Threads

variable [DecidableEq ι]

/-- Thread `i` takes the action `l`. -/
inductive Step (use : ε → LockUse) : Config ι σ ε α → ι → ε → Config ι σ ε α → Prop where
  | acquire {c : Config ι σ ε α} {i : ι} {l : ε} {u : σ → σ} {k : σ → Prog σ ε α} :
      c.prog i = .act l u k → use l = .acquire → c.holder = none →
      Step use c i l ⟨update c.prog i (k c.state), some i, u c.state⟩
  | release {c : Config ι σ ε α} {i : ι} {l : ε} {u : σ → σ} {k : σ → Prog σ ε α} :
      c.prog i = .act l u k → use l = .release →
      Step use c i l ⟨update c.prog i (k c.state), none, u c.state⟩
  | other {c : Config ι σ ε α} {i : ι} {l : ε} {u : σ → σ} {k : σ → Prog σ ε α} :
      c.prog i = .act l u k → use l ≠ .acquire → use l ≠ .release →
      Step use c i l ⟨update c.prog i (k c.state), c.holder, u c.state⟩

/-- The threads run, in any order, and the environment moves between their actions. The
list is the actions, with who took them. -/
inductive Interleaving (use : ε → LockUse) (rely : σ → σ → Prop) (c₀ : Config ι σ ε α) :
    List (ι × ε) → Config ι σ ε α → Prop where
  | start : Interleaving use rely c₀ [] c₀
  | env {tr : List (ι × ε)} {c : Config ι σ ε α} {s : σ} :
      Interleaving use rely c₀ tr c → rely c.state s →
      Interleaving use rely c₀ tr { c with state := s }
  | step {tr : List (ι × ε)} {c c' : Config ι σ ε α} {i : ι} {l : ε} :
      Interleaving use rely c₀ tr c → Step use c i l c' →
      Interleaving use rely c₀ (tr ++ [(i, l)]) c'

/-- The environment of threads that are by themselves. -/
def NoMoves (_ _ : σ) : Prop := False

/-- A thread can take its next action unless that takes a lock that is held. -/
theorem Step.exists_of_next {use : ε → LockUse} {c : Config ι σ ε α} {i : ι} {l : ε}
    {u : σ → σ} {k : σ → Prog σ ε α} (next : c.prog i = .act l u k)
    (free : use l = .acquire → c.holder = none) : ∃ c', Step use c i l c' := by
  by_cases acquired : use l = .acquire
  · exact ⟨_, .acquire next acquired (free acquired)⟩
  · by_cases released : use l = .release
    · exact ⟨_, .release next released⟩
    · exact ⟨_, .other next acquired released⟩

/-- What a thread does when it takes an action. -/
structure Step.Effect (use : ε → LockUse) (c : Config ι σ ε α) (i : ι) (l : ε) (u : σ → σ)
    (k : σ → Prog σ ε α) (c' : Config ι σ ε α) : Prop where
  prog : c'.prog = update c.prog i (k c.state)
  state : c'.state = u c.state
  acquire : use l = .acquire → c.holder = none ∧ c'.holder = some i
  release : use l = .release → c'.holder = none
  other : use l ≠ .acquire → use l ≠ .release → c'.holder = c.holder

theorem Step.effect {use : ε → LockUse} {c c' : Config ι σ ε α} {i : ι} {l : ε}
    (step : Step use c i l c') :
    ∃ u k, c.prog i = .act l u k ∧ Step.Effect use c i l u k c' := by
  cases step with
  | acquire next acquired free =>
      refine ⟨_, _, next, rfl, rfl, fun _ => ⟨free, rfl⟩, fun released => ?_, fun ne => ?_⟩
      · cases acquired.symm.trans released
      · exact absurd acquired ne
  | release next released =>
      refine ⟨_, _, next, rfl, rfl, fun acquired => ?_, fun _ => rfl, fun _ ne => ?_⟩
      · cases acquired.symm.trans released
      · exact absurd released ne
  | other next notAcquire notRelease =>
      exact ⟨_, _, next, rfl, rfl, fun acquired => absurd acquired notAcquire,
        fun released => absurd released notRelease, fun _ _ => rfl⟩

/-- The step of a thread whose next action is known. -/
theorem Step.effect_of_next {use : ε → LockUse} {c c' : Config ι σ ε α} {i : ι} {l l' : ε}
    {u : σ → σ} {k : σ → Prog σ ε α} (step : Step use c i l' c')
    (next : c.prog i = .act l u k) : l' = l ∧ Step.Effect use c i l u k c' := by
  obtain ⟨u', k', next', effect⟩ := step.effect
  cases next.symm.trans next'
  exact ⟨rfl, effect⟩

end Threads

/-! ### Threads that use the lock well -/

/-- An action that a thread may take with the lock in state `held`, and that leaves the
lock alone. -/
def Steady (use : ε → LockUse) (held : Bool) (l : ε) : Prop :=
  (use l).Allowed held ∧ (use l).after held = held

theorem Steady.ne_acquire {use : ε → LockUse} {held : Bool} {l : ε} (steady : Steady use held l) :
    use l ≠ .acquire := by
  intro acquired
  obtain ⟨allowed, kept⟩ := steady
  rw [acquired] at allowed kept
  cases allowed.symm.trans kept.symm

theorem Steady.ne_release {use : ε → LockUse} {held : Bool} {l : ε} (steady : Steady use held l) :
    use l ≠ .release := by
  intro released
  obtain ⟨allowed, kept⟩ := steady
  rw [released] at allowed kept
  cases allowed.symm.trans kept.symm

section Users

variable [DecidableEq ι] {use : ε → LockUse} {rely : σ → σ → Prop} {c c' : Config ι σ ε α}
  {i : ι} {l : ε}

/-- Each thread finds the lock as it needs it, and gives it back. -/
def Config.Locked (use : ε → LockUse) (c : Config ι σ ε α) : Prop :=
  ∀ i, Locking use (c.prog i) (decide (c.holder = some i)) false

theorem Step.Effect.holder_self {u : σ → σ} {k : σ → Prog σ ε α}
    (effect : Step.Effect use c i l u k c') :
    decide (c'.holder = some i) = (use l).after (decide (c.holder = some i)) := by
  cases used : use l with
  | acquire =>
      rw [(effect.acquire used).2]
      exact decide_eq_true rfl
  | release =>
      rw [effect.release used]
      exact decide_eq_false (by simp)
  | needs state =>
      rw [effect.other (by simp [used]) (by simp [used])]
      rfl
  | untouched =>
      rw [effect.other (by simp [used]) (by simp [used])]
      rfl

/-- The others do not have the lock when it is taken, and none of them had it when it is
given back. -/
theorem Step.Effect.holder_other {u : σ → σ} {k : σ → Prog σ ε α} {j : ι}
    (effect : Step.Effect use c i l u k c')
    (allowed : (use l).Allowed (decide (c.holder = some i))) (ne : j ≠ i) :
    decide (c'.holder = some j) = decide (c.holder = some j) := by
  have apart : ¬ some i = some j := fun same => ne (Option.some.inj same).symm
  cases used : use l with
  | acquire =>
      obtain ⟨free, taken⟩ := effect.acquire used
      rw [free, taken, decide_eq_false apart, decide_eq_false (by simp)]
  | release =>
      rw [used] at allowed
      have holds : c.holder = some i := of_decide_eq_true allowed
      rw [effect.release used, holds, decide_eq_false apart, decide_eq_false (by simp)]
  | needs state => rw [effect.other (by simp [used]) (by simp [used])]
  | untouched => rw [effect.other (by simp [used]) (by simp [used])]

/-- **Step.** -/
theorem Config.Locked.step (locked : c.Locked use) (step : Step use c i l c') :
    c'.Locked use := by
  obtain ⟨u, k, next, effect⟩ := step.effect
  have here := locked i
  rw [next] at here
  intro j
  rw [effect.prog]
  by_cases same : j = i
  · subst same
    rw [Function.update_self, effect.holder_self]
    exact here.2 c.state
  · rw [Function.update_of_ne same, effect.holder_other here.1 same]
    exact locked j

/-- **Run.** -/
theorem Interleaving.locked {progs₀ : ι → Prog σ ε α} {s₀ : σ} {tr : List (ι × ε)}
    (run : Interleaving use rely ⟨progs₀, none, s₀⟩ tr c)
    (locking : ∀ i, Locking use (progs₀ i) false false) : c.Locked use := by
  induction run with
  | start => exact fun i => by simpa using locking i
  | env _ _ ih => exact ih
  | step _ step ih => exact ih.step step

/-- The next action of a thread finds the lock as it needs it. -/
theorem Config.Locked.allowed (locked : c.Locked use) (next : (c.prog i).label? = some l) :
    (use l).Allowed (decide (c.holder = some i)) := by
  have here := locked i
  generalize c.prog i = p at next here
  cases p with
  | ret a => cases next
  | act l' u k =>
      cases next
      exact here.1
  | diverge => cases next

/-- Some thread can go on, unless none has anything left to do or the holder has run away. -/
theorem Config.Locked.progress (locked : c.Locked use) :
    (∀ i, (c.prog i).label? = none) ∨ (∃ i, c.holder = some i ∧ c.prog i = .diverge) ∨
      ∃ i l c', Step use c i l c' := by
  cases holder : c.holder with
  | none =>
      by_cases idle : ∀ i, (c.prog i).label? = none
      · exact .inl idle
      · obtain ⟨i, goes⟩ := not_forall.mp idle
        generalize isNext : c.prog i = p at goes
        cases p with
        | ret a => exact absurd rfl goes
        | act l u k =>
            exact .inr (.inr ⟨i, l, Step.exists_of_next isNext fun _ => holder⟩)
        | diverge => exact absurd rfl goes
  | some h =>
      have here := locked h
      rw [holder, decide_eq_true rfl] at here
      generalize isNext : c.prog h = p at here
      cases p with
      | ret a => cases here
      | act l u k =>
          refine .inr (.inr ⟨h, l, Step.exists_of_next isNext fun acquired => ?_⟩)
          have allowed := here.1
          rw [acquired] at allowed
          cases allowed
      | diverge => exact .inr (.inl ⟨h, rfl, isNext⟩)

/-- With the lock free, a thread that uses it well can go on by itself to its end. -/
theorem Interleaving.alone {c₀ : Config ι σ ε α} {tr : List (ι × ε)} {p : Prog σ ε α}
    {held : Bool} {a : α} {s' : σ} (run : Interleaving use rely c₀ tr c)
    (holder : c.holder = if held then some i else none) (here : c.prog i = p)
    (locking : Locking use p held false) (exec : p.exec c.state = some (a, s')) :
    ∃ tr', Interleaving use rely c₀ tr' ⟨update c.prog i (.ret a), none, s'⟩ := by
  induction p generalizing c tr held with
  | ret b =>
      cases exec
      have free : held = false := locking
      subst free
      refine ⟨tr, ?_⟩
      rw [← here, Function.update_eq_self, ← holder.trans (if_neg Bool.noConfusion)]
      exact run
  | act l u k ih =>
      obtain ⟨allowed, rest⟩ := locking
      have free : use l = .acquire → c.holder = none := by
        intro acquired
        rw [acquired] at allowed
        have free : held = false := allowed
        rw [holder, free, if_neg Bool.noConfusion]
      obtain ⟨c', step⟩ := Step.exists_of_next here free
      obtain ⟨-, effect⟩ := step.effect_of_next here
      have after : c'.holder = if (use l).after held then some i else none := by
        cases used : use l with
        | acquire => exact (effect.acquire used).2
        | release => exact effect.release used
        | needs state => rw [effect.other (by simp [used]) (by simp [used])]; exact holder
        | untouched => rw [effect.other (by simp [used]) (by simp [used])]; exact holder
      have left : c'.prog i = k c.state := by rw [effect.prog, Function.update_self]
      have exec' : (k c.state).exec c'.state = some (a, s') := by
        rw [effect.state]
        exact exec
      have done := ih c.state (run.step step) after left (rest c.state) exec'
      rw [effect.prog, Function.update_idem] at done
      exact done
  | diverge => cases exec

end Users

end XpNet.Interference
