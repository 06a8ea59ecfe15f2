/-
What holds in every state of a program's runs, whether or not they end.

`Upholds rely J p Q s` says of the runs of `p` from `s` under interference that `J` holds
in each of their states and `Q` of what `p` returns. Beside `wp` it asks nothing of a
program that runs away. It is computed over the program text in the same way
(`Reach.upholds`).

`p.ghost g` is `p` beside a part of the state that no action looks at, and that an action
labelled `l` changes by `g l`. Such a part changes no run: every run of `p` is one of
`p.ghost g` without it (`Reach.ghost`).
-/

import XpNet.Interference.Trace

namespace XpNet.Interference

open Relation (ReflTransGen)

variable {σ ε α β γ : Type}

/-- An assertion in every state, and another of the result. -/
def Upholds (rely : σ → σ → Prop) (J : σ → Prop) : Prog σ ε α → (α → σ → Prop) → σ → Prop
  | .ret a, Q, s => ∀ s', ReflTransGen rely s s' → J s' ∧ Q a s'
  | .act _ u k, Q, s => ∀ s', ReflTransGen rely s s' → J s' ∧ Upholds rely J (k s') Q (u s')
  | .diverge, _, s => ∀ s', ReflTransGen rely s s' → J s'

section Rules

variable {rely : σ → σ → Prop} {J : σ → Prop} {p : Prog σ ε α} {s : σ}

theorem Upholds.holds {Q : α → σ → Prop} (upholds : Upholds rely J p Q s) : J s := by
  cases p with
  | ret a => exact (upholds s .refl).1
  | act l u k => exact (upholds s .refl).1
  | diverge => exact upholds s .refl

theorem Upholds.steps {Q : α → σ → Prop} {s' : σ} (steps : ReflTransGen rely s s')
    (upholds : Upholds rely J p Q s) : Upholds rely J p Q s' := by
  cases p with
  | ret a => exact fun t ht => upholds t (steps.trans ht)
  | act l u k => exact fun t ht => upholds t (steps.trans ht)
  | diverge => exact fun t ht => upholds t (steps.trans ht)

/-- Sequencing, with an intermediate assertion. -/
theorem Upholds.seq {f : α → Prog σ ε β} {M : α → σ → Prop} {Q : β → σ → Prop}
    (first : Upholds rely J p M s) (second : ∀ a t, M a t → Upholds rely J (f a) Q t) :
    Upholds rely J (p >>= f) Q s := by
  induction p generalizing s with
  | ret a => exact second a s (first s .refl).2
  | act l u k ih => exact fun t ht => ⟨(first t ht).1, ih t (first t ht).2⟩
  | diverge => exact first

/-- Returning, from a stable assertion. -/
theorem Upholds.ret {I : σ → Prop} (stable : Stable rely I) {a : α} {Q : α → σ → Prop}
    (holds : I s) (post : ∀ t, I t → J t ∧ Q a t) : Upholds rely J (.ret a : Prog σ ε α) Q s :=
  fun t ht => post t (stable.steps ht holds)

/-- One action, from a stable assertion. -/
theorem Upholds.act {I : σ → Prop} (stable : Stable rely I) {l : ε} {u : σ → σ} {k : σ → Prog σ ε α}
    {Q : α → σ → Prop} (holds : I s)
    (step : ∀ t, I t → J t ∧ Upholds rely J (k t) Q (u t)) :
    Upholds rely J (.act l u k) Q s :=
  fun t ht => step t (stable.steps ht holds)

/-- Looking at the state, from a stable assertion. -/
theorem Upholds.look {I : σ → Prop} (stable : Stable rely I) {l : ε} {h : σ → α}
    {f : α → Prog σ ε β} {Q : β → σ → Prop} (holds : I s)
    (step : ∀ t, I t → J t ∧ Upholds rely J (f (h t)) Q t) :
    Upholds rely J (Prog.look l h >>= f) Q s :=
  .act stable holds step

/-- A store, from a stable assertion. -/
theorem Upholds.write {I : σ → Prop} (stable : Stable rely I) {l : ε} {u : σ → σ}
    {f : Unit → Prog σ ε β} {Q : β → σ → Prop} (holds : I s)
    (step : ∀ t, I t → J t ∧ Upholds rely J (f ()) Q (u t)) :
    Upholds rely J (Prog.write l u >>= f) Q s :=
  .act stable holds step

/-- A program that runs away. -/
theorem Upholds.diverge {I : σ → Prop} (stable : Stable rely I) {Q : α → σ → Prop} (holds : I s)
    (upheld : ∀ t, I t → J t) : Upholds rely J (.diverge : Prog σ ε α) Q s :=
  fun t ht => upheld t (stable.steps ht holds)

/-- A loop over a list, from an assertion every round restores. -/
theorem Upholds.forM {f : α → Prog σ ε PUnit} {I : σ → Prop} (stable : Stable rely I)
    (upheld : ∀ t, I t → J t)
    (round : ∀ a s, I s → Upholds rely J (f a) (fun _ t => I t) s) :
    ∀ (l : List α) {s : σ}, I s → Upholds rely J (l.forM f) (fun _ t => I t) s
  | [], _, holds => .ret stable holds fun t ht => ⟨upheld t ht, ht⟩
  | a :: l, _, holds => .seq (round a _ holds) fun _ _ ht => Upholds.forM stable upheld round l ht

/-- What is left of a program upholds the assertion, and it holds. -/
theorem Reach.upholds {asm : σ → ε → Prop} {p₀ : Prog σ ε α} {s₀ : σ} {tr : List (σ × ε)}
    {Q : α → σ → Prop} (run : Reach rely asm p₀ s₀ p s tr) (upholds : Upholds rely J p₀ Q s₀) :
    Upholds rely J p Q s := by
  induction run with
  | start => exact upholds
  | env _ step ih => exact ih.steps (.single step)
  | host _ _ ih => exact (ih _ .refl).2

end Rules

/-! ### Ghosts -/

/-- A program beside a part of the state that only its labels change. -/
def Prog.ghost (g : ε → γ → γ) : Prog σ ε α → Prog (σ × γ) ε α
  | .ret a => .ret a
  | .act l u k => .act l (fun x => (u x.1, g l x.2)) fun x => (k x.1).ghost g
  | .diverge => .diverge

section Ghost

variable {g : ε → γ → γ} {p : Prog σ ε α}

theorem Prog.ghost_bind (f : α → Prog σ ε β) :
    (p >>= f).ghost g = p.ghost g >>= fun a => (f a).ghost g := by
  induction p with
  | ret a => rfl
  | act l u k ih =>
      change Prog.act l _ _ = Prog.act l _ _
      congr 1
      funext x
      exact ih x.1
  | diverge => rfl

theorem Prog.ghost_forM (f : α → Prog σ ε PUnit) (l : List α) :
    (l.forM f).ghost g = l.forM fun a => (f a).ghost g := by
  induction l with
  | nil => rfl
  | cons a l ih =>
      change (f a >>= fun _ => l.forM f).ghost g = _
      rw [Prog.ghost_bind, ih]
      rfl

/-- Looking at the state, beside a ghost. -/
theorem Upholds.ghost_look {rely : σ × γ → σ × γ → Prop} {I J : σ × γ → Prop} {x : σ × γ}
    (stable : Stable rely I) (holds : I x) {l : ε} {h : σ → α} {f : α → Prog σ ε β}
    {Q : β → σ × γ → Prop}
    (step : ∀ y, I y → J y ∧ Upholds rely J ((f (h y.1)).ghost g) Q (y.1, g l y.2)) :
    Upholds rely J ((Prog.look l h >>= f).ghost g) Q x :=
  .act stable holds step

/-- A store, beside a ghost. -/
theorem Upholds.ghost_write {rely : σ × γ → σ × γ → Prop} {I J : σ × γ → Prop} {x : σ × γ}
    (stable : Stable rely I) (holds : I x) {l : ε} {u : σ → σ} {f : Unit → Prog σ ε β}
    {Q : β → σ × γ → Prop}
    (step : ∀ y, I y → J y ∧ Upholds rely J ((f ()).ghost g) Q (u y.1, g l y.2)) :
    Upholds rely J ((Prog.write l u >>= f).ghost g) Q x :=
  .act stable holds step

/-- Sequencing, beside a ghost. -/
theorem Upholds.ghost_seq {rely : σ × γ → σ × γ → Prop} {J : σ × γ → Prop} {x : σ × γ}
    {f : α → Prog σ ε β} {M : α → σ × γ → Prop} {Q : β → σ × γ → Prop}
    (first : Upholds rely J (p.ghost g) M x)
    (second : ∀ a y, M a y → Upholds rely J ((f a).ghost g) Q y) :
    Upholds rely J ((p >>= f).ghost g) Q x := by
  rw [Prog.ghost_bind]
  exact first.seq second

variable {rely : σ → σ → Prop} {relyGhost : σ × γ → σ × γ → Prop} {asm : σ → ε → Prop}
  {p₀ : Prog σ ε α} {s₀ s : σ} {c₀ : γ} {tr : List (σ × ε)}

/-- Every run has its ghost, where the steps of the environment have theirs. -/
theorem Reach.ghost (lift : ∀ s s' c, rely s s' → ∃ c', relyGhost (s, c) (s', c'))
    (run : Reach rely asm p₀ s₀ p s tr) :
    ∃ c tr', Reach relyGhost (fun x l => asm x.1 l) (p₀.ghost g) (s₀, c₀) (p.ghost g) (s, c)
      tr' := by
  induction run with
  | start => exact ⟨c₀, [], .start⟩
  | env _ step ih =>
      obtain ⟨c, tr', before⟩ := ih
      obtain ⟨c', step'⟩ := lift _ _ c step
      exact ⟨c', tr', .env before step'⟩
  | host _ ha ih =>
      obtain ⟨c, tr', before⟩ := ih
      exact ⟨_, _, .host before ha⟩

end Ghost

end XpNet.Interference
