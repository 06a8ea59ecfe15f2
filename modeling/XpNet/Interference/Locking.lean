/-
One lock in a program under interference.

`use` says what each action does with the lock: it takes it, gives it back, needs it to
be held or not, or leaves it alone. `Locking use p held held'` says of a thread that
comes to `p` with the lock in state `held` that every action of `p` finds the lock as it
needs it, and that `p` returns with it in state `held'`.

The state of the lock is whether this thread holds it. `lockAfter` reads it off a trace,
so no environment can change it.

* `Reach.lock_next`: in every run, the next action finds the lock as it needs it.
* `Reach.lock_ret`: a program that returns leaves the lock as promised.
* `Locking.embed`: a program on a part of the state has the lock where it runs, and
  only what goes before its actions matters.
-/

import XpNet.Interference.Refines

namespace XpNet.Interference

variable {σ τ ε ε' α β : Type}

/-- What an action does with the lock. -/
inductive LockUse where
  | acquire
  | release
  | needs (held : Bool)
  | untouched
  deriving DecidableEq, Repr

/-- A thread with the lock in state `held` may take the action. -/
def LockUse.Allowed : LockUse → Bool → Prop
  | .acquire, held => held = false
  | .release, held => held = true
  | .needs state, held => held = state
  | .untouched, _ => True

/-- The lock after the action. -/
def LockUse.after : LockUse → Bool → Bool
  | .acquire, _ => true
  | .release, _ => false
  | .needs _, held => held
  | .untouched, held => held

/-- The lock after the actions of a trace. -/
def lockAfter (use : ε → LockUse) (held : Bool) (tr : List (σ × ε)) : Bool :=
  tr.foldl (fun held x => (use x.2).after held) held

/-- Every action of the program finds the lock as it needs it, and the program returns
with the lock in state `held'`. -/
def Locking (use : ε → LockUse) : Prog σ ε α → Bool → Bool → Prop
  | .ret _, held, held' => held = held'
  | .act l _ k, held, held' =>
      (use l).Allowed held ∧ ∀ s, Locking use (k s) ((use l).after held) held'
  | .diverge, _, _ => True

section Rules

variable {use : ε → LockUse} {held mid held' : Bool} {p : Prog σ ε α} {l : ε}

theorem Locking.ret {a : α} : Locking (σ := σ) use (.ret a) held held := rfl

theorem Locking.bind {f : α → Prog σ ε β} (first : Locking use p held mid)
    (second : ∀ a, Locking use (f a) mid held') : Locking use (p >>= f) held held' := by
  induction p generalizing held with
  | ret a =>
      cases first
      exact second a
  | act l u k ih => exact ⟨first.1, fun s => ih s (first.2 s)⟩
  | diverge => trivial

/-- One action, which leaves the lock as it is. -/
theorem Locking.act {u : σ → σ} {k : σ → Prog σ ε α} (allowed : (use l).Allowed held)
    (kept : (use l).after held = held) (rest : ∀ s, Locking use (k s) held held') :
    Locking use (.act l u k) held held' := by
  refine ⟨allowed, fun s => ?_⟩
  rw [kept]
  exact rest s

/-- An action that does not concern the lock. -/
theorem Locking.untouched {u : σ → σ} {k : σ → Prog σ ε α} (quiet : use l = .untouched)
    (rest : ∀ s, Locking use (k s) held held') : Locking use (.act l u k) held held' :=
  .act (by rw [quiet]; trivial) (by rw [quiet]; rfl) rest

/-- A program between the two actions that take the lock and give it back. -/
theorem Locking.critical {lock unlock : ε} (acquires : use lock = .acquire)
    (releases : use unlock = .release) (inside : Locking use p true true) :
    Locking use (do
      Prog.emit lock
      let a ← p
      Prog.emit unlock
      pure a) false false := by
  refine ⟨by rw [acquires]; rfl, fun s => ?_⟩
  rw [acquires]
  apply inside.bind
  intro a
  refine ⟨by rw [releases]; rfl, fun s => ?_⟩
  rw [releases]
  exact .ret

theorem Locking.ofOption {r : Option α} : Locking (σ := σ) use (.ofOption r) held held := by
  cases r with
  | some a => exact .ret
  | none => trivial

/-- A loop each of whose rounds gives the lock back as it found it. -/
theorem Locking.foldlM {f : β → α → Prog σ ε β} (round : ∀ b a, Locking use (f b a) held held)
    (as : List α) (b : β) : Locking use (as.foldlM f b) held held := by
  induction as generalizing b with
  | nil => exact .ret
  | cons a rest ih => exact (round b a).bind ih

theorem Locking.forM {f : α → Prog σ ε PUnit} (round : ∀ a, Locking use (f a) held held)
    (as : List α) : Locking use (as.forM f) held held := by
  induction as with
  | nil => exact .ret
  | cons a rest ih => exact (round a).bind fun _ => ih

/-- An embedded program, by what goes before its actions. -/
theorem Locking.embed {use : ε' → LockUse} {get : σ → τ} {set : τ → σ → σ} {lab : ε'}
    {before : ε → Prog σ ε' Unit} (quiet : use lab = .untouched)
    (each : ∀ l, Locking use (before l) held held) (p : Prog τ ε α) :
    Locking use (p.embed get set lab before) held held := by
  induction p with
  | ret a => exact .ret
  | act l u k ih => exact (each l).bind fun _ => .untouched quiet fun s => ih (get s)
  | diverge => trivial

/-! ### Soundness -/

variable {rely : σ → σ → Prop} {asm : σ → ε → Prop} {p₀ : Prog σ ε α} {s₀ s : σ}
  {tr : List (σ × ε)}

/-- What is left of a program, with the lock as its trace leaves it. -/
theorem Reach.locking (run : Reach rely asm p₀ s₀ p s tr) (locking : Locking use p₀ held held') :
    Locking use p (lockAfter use held tr) held' := by
  induction run with
  | start => exact locking
  | env _ _ ih => exact ih
  | host _ _ ih =>
      rw [lockAfter, List.foldl_append]
      exact ih.2 _

/-- **Safety.** The next action of a run finds the lock as it needs it. -/
theorem Reach.lock_next (run : Reach rely asm p₀ s₀ p s tr) (locking : Locking use p₀ held held')
    (label : p.label? = some l) : (use l).Allowed (lockAfter use held tr) := by
  have left := run.locking locking
  cases p with
  | ret a => cases label
  | act l' u k =>
      cases label
      exact left.1
  | diverge => cases label

/-- A run that returns leaves the lock as promised. -/
theorem Reach.lock_ret {a : α} (run : Reach rely asm p₀ s₀ (.ret a) s tr)
    (locking : Locking use p₀ held held') : lockAfter use held tr = held' := run.locking locking

end Rules

end XpNet.Interference
