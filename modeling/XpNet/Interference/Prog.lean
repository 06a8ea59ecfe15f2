/-
Sequential programs over a shared state, one atomic action at a time.

A `Prog` is the code of one thread: it returns, runs away, or performs one
labelled atomic action on the shared state and goes on with what that action
saw. Nothing is said here about who else touches the state; `Reach` in
`XpNet.Interference.Logic` lets an environment act between any two actions.

`exec` is the run in which the environment stays idle. It is the meaning a
sequential statement about one call is made with.
-/

import Mathlib.Logic.Relation

namespace XpNet.Interference

/-- A program over the state `σ` whose atomic actions carry labels in `ε`. An
action updates the state with `upd` and continues with the state it saw *before*
the update; `diverge` never returns. -/
inductive Prog (σ ε α : Type) where
  | ret (a : α)
  | act (lab : ε) (upd : σ → σ) (next : σ → Prog σ ε α)
  | diverge

namespace Prog

variable {σ ε α β γ : Type}

/-- Sequencing: run the first program, feed its result to the second. -/
def bind : Prog σ ε α → (α → Prog σ ε β) → Prog σ ε β
  | .ret a, f => f a
  | .act l u k, f => .act l u fun s => (k s).bind f
  | .diverge, _ => .diverge

instance : Monad (Prog σ ε) where
  pure := .ret
  bind := bind

/-- An action that changes the state and returns nothing. -/
def write (lab : ε) (upd : σ → σ) : Prog σ ε Unit := .act lab upd fun _ => .ret ()

/-- An action that looks at the state and leaves it alone. -/
def look (lab : ε) (f : σ → α) : Prog σ ε α := .act lab id fun s => .ret (f s)

/-- An action that only leaves its label in the trace. -/
def emit (lab : ε) : Prog σ ε Unit := write lab id

@[simp] theorem pure_eq (a : α) : (pure a : Prog σ ε α) = .ret a := rfl

@[simp] theorem ret_bind (a : α) (f : α → Prog σ ε β) : (Prog.ret a >>= f) = f a := rfl

@[simp] theorem act_bind (l : ε) (u : σ → σ) (k : σ → Prog σ ε α) (f : α → Prog σ ε β) :
    (Prog.act l u k >>= f) = .act l u fun s => k s >>= f := rfl

@[simp] theorem diverge_bind (f : α → Prog σ ε β) :
    ((Prog.diverge : Prog σ ε α) >>= f) = .diverge := rfl

@[simp] theorem write_bind (l : ε) (u : σ → σ) (f : Unit → Prog σ ε β) :
    (write l u >>= f) = .act l u fun _ => f () := rfl

@[simp] theorem look_bind (l : ε) (g : σ → α) (f : α → Prog σ ε β) :
    (look l g >>= f) = .act l id fun s => f (g s) := rfl

@[simp] theorem emit_bind (l : ε) (f : Unit → Prog σ ε β) :
    (emit l >>= f : Prog σ ε β) = .act l id fun _ => f () := rfl

theorem bind_assoc (p : Prog σ ε α) (f : α → Prog σ ε β) (g : β → Prog σ ε γ) :
    (p >>= f) >>= g = p >>= fun a => f a >>= g := by
  induction p with
  | ret a => rfl
  | act l u k ih =>
      simp only [act_bind]
      congr
      funext s
      exact ih s
  | diverge => rfl

theorem bind_ret (p : Prog σ ε α) : p >>= .ret = p := by
  induction p with
  | ret a => rfl
  | act l u k ih =>
      rw [act_bind]
      congr
      funext s
      exact ih s
  | diverge => rfl

/-! ### The next action -/

/-- The label of the action a program is about to take. -/
def label? : Prog σ ε α → Option ε
  | .act l _ _ => some l
  | _ => none

/-- The state the program's next action leads to. -/
def after : Prog σ ε α → σ → σ
  | .act _ u _, s => u s
  | _, s => s

/-- The result of a program that has returned. -/
def result? : Prog σ ε α → Option α
  | .ret a => some a
  | _ => none

theorem eq_ret_of_result? {p : Prog σ ε α} {a : α} (h : p.result? = some a) : p = .ret a := by
  cases p with
  | ret b =>
      cases h
      rfl
  | act l u k => cases h
  | diverge => cases h

/-! ### The run with an idle environment -/

/-- Run a program on its own; `none` when it diverges. -/
def exec : Prog σ ε α → σ → Option (α × σ)
  | .ret a, s => some (a, s)
  | .act _ u k, s => (k s).exec (u s)
  | .diverge, _ => none

@[simp] theorem exec_ret (a : α) (s : σ) : (Prog.ret a : Prog σ ε α).exec s = some (a, s) := rfl

@[simp] theorem exec_act (l : ε) (u : σ → σ) (k : σ → Prog σ ε α) (s : σ) :
    (Prog.act l u k).exec s = (k s).exec (u s) := rfl

@[simp] theorem exec_diverge (s : σ) : (Prog.diverge : Prog σ ε α).exec s = none := rfl

@[simp] theorem exec_write (l : ε) (u : σ → σ) (s : σ) :
    (write l u).exec s = some ((), u s) := rfl

@[simp] theorem exec_emit (l : ε) (s : σ) : (emit l : Prog σ ε Unit).exec s = some ((), s) := rfl

theorem exec_bind (p : Prog σ ε α) (f : α → Prog σ ε β) (s : σ) :
    (p >>= f).exec s = (p.exec s).bind fun r => (f r.1).exec r.2 := by
  induction p generalizing s with
  | ret a => rfl
  | act l u k ih => exact ih s (u s)
  | diverge => rfl

/-- A sequential run splits at a sequencing point. -/
theorem exec_bind_some {p : Prog σ ε α} {f : α → Prog σ ε β} {s t : σ} {b : β} :
    (p >>= f).exec s = some (b, t) ↔
      ∃ a m, p.exec s = some (a, m) ∧ (f a).exec m = some (b, t) := by
  rw [exec_bind]
  cases p.exec s with
  | none => simp
  | some r => exact ⟨fun h => ⟨r.1, r.2, rfl, h⟩, by rintro ⟨a, m, h, hf⟩; cases h; exact hf⟩

end Prog

end XpNet.Interference
