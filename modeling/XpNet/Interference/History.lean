/-
What the actions of a program may do, given the actions before them.

`Safe rely rule p tr Q s` says of the runs of `p` from `s` under interference, where
`tr` is what has been done so far, that each action meets the rule `rule`, which may
look back at the actions before it, and that `Q` holds of whatever `p` returns. It does
not say that `p` returns: beside `wp`, which has no history, this is partial
correctness. It is computed over the program text in the same way.

* `Reach.safe`, `Reach.obeys`: what is left of a safe program is safe, and the action a
  run is about to take obeys the rule.
* `May rely P p s`: some run comes to an action that satisfies `P`, which is how a rule
  is broken.
-/

import XpNet.Interference.Trace

namespace XpNet.Interference

open Relation (ReflTransGen)

variable {σ ε α β : Type}

/-- Partial correctness under interference, with the history. -/
def Safe (rely : σ → σ → Prop) (rule : List (σ × ε) → σ → ε → Prop) :
    Prog σ ε α → List (σ × ε) → (α → List (σ × ε) → σ → Prop) → σ → Prop
  | .ret a, tr, Q, s => ∀ s', ReflTransGen rely s s' → Q a tr s'
  | .act l u k, tr, Q, s => ∀ s', ReflTransGen rely s s' →
      rule tr s' l ∧ Safe rely rule (k s') (tr ++ [(s', l)]) Q (u s')
  | .diverge, _, _, _ => True

section Rules

variable {rely : σ → σ → Prop} {rule : List (σ × ε) → σ → ε → Prop} {p : Prog σ ε α}
  {tr : List (σ × ε)} {s : σ}

theorem Safe.steps {Q : α → List (σ × ε) → σ → Prop} {s' : σ} (steps : ReflTransGen rely s s')
    (safe : Safe rely rule p tr Q s) : Safe rely rule p tr Q s' := by
  cases p with
  | ret a => exact fun t ht => safe t (steps.trans ht)
  | act l u k => exact fun t ht => safe t (steps.trans ht)
  | diverge => trivial

theorem Safe.mono {Q Q' : α → List (σ × ε) → σ → Prop} (weaker : ∀ a tr s, Q a tr s → Q' a tr s)
    (safe : Safe rely rule p tr Q s) : Safe rely rule p tr Q' s := by
  induction p generalizing tr s with
  | ret a => exact fun t ht => weaker _ _ _ (safe t ht)
  | act l u k ih => exact fun t ht => ⟨(safe t ht).1, ih t (safe t ht).2⟩
  | diverge => trivial

/-- Sequencing, with an intermediate assertion. -/
theorem Safe.seq {f : α → Prog σ ε β} {M : α → List (σ × ε) → σ → Prop}
    {Q : β → List (σ × ε) → σ → Prop} (first : Safe rely rule p tr M s)
    (second : ∀ a tr t, M a tr t → Safe rely rule (f a) tr Q t) :
    Safe rely rule (p >>= f) tr Q s := by
  induction p generalizing tr s with
  | ret a => exact second a tr s (first s .refl)
  | act l u k ih => exact fun t ht => ⟨(first t ht).1, ih t (first t ht).2⟩
  | diverge => trivial

/-- Returning, from a stable assertion. -/
theorem Safe.ret {I : σ → Prop} (stable : Stable rely I) {a : α} {Q : α → List (σ × ε) → σ → Prop}
    (holds : I s) (post : ∀ t, I t → Q a tr t) : Safe rely rule (.ret a) tr Q s :=
  fun t ht => post t (stable.steps ht holds)

/-- One action, from a stable assertion. -/
theorem Safe.act {I : σ → Prop} (stable : Stable rely I) {l : ε} {u : σ → σ} {k : σ → Prog σ ε α}
    {Q : α → List (σ × ε) → σ → Prop} (holds : I s)
    (step : ∀ t, I t → rule tr t l ∧ Safe rely rule (k t) (tr ++ [(t, l)]) Q (u t)) :
    Safe rely rule (.act l u k) tr Q s :=
  fun t ht => step t (stable.steps ht holds)

/-- Looking at the state, from a stable assertion. -/
theorem Safe.look {I : σ → Prop} (stable : Stable rely I) {l : ε} {g : σ → α} {f : α → Prog σ ε β}
    {Q : β → List (σ × ε) → σ → Prop} (holds : I s)
    (step : ∀ t, I t → rule tr t l ∧ Safe rely rule (f (g t)) (tr ++ [(t, l)]) Q t) :
    Safe rely rule (Prog.look l g >>= f) tr Q s :=
  .act stable holds step

/-- A store, from a stable assertion. -/
theorem Safe.write {I : σ → Prop} (stable : Stable rely I) {l : ε} {u : σ → σ}
    {f : Unit → Prog σ ε β} {Q : β → List (σ × ε) → σ → Prop} (holds : I s)
    (step : ∀ t, I t → rule tr t l ∧ Safe rely rule (f ()) (tr ++ [(t, l)]) Q (u t)) :
    Safe rely rule (Prog.write l u >>= f) tr Q s :=
  .act stable holds step

/-- A loop over a list: `I l` is what holds when `l` is left of it. -/
theorem Safe.forM {f : α → Prog σ ε PUnit} {I : List α → List (σ × ε) → σ → Prop}
    (stable : ∀ tr, Stable rely (I [] tr))
    (round : ∀ a l tr s, I (a :: l) tr s → Safe rely rule (f a) tr (fun _ tr t => I l tr t) s) :
    ∀ (l : List α) {tr : List (σ × ε)} {s : σ}, I l tr s →
      Safe rely rule (l.forM f) tr (fun _ tr t => I [] tr t) s
  | [], tr, _, holds => .ret (stable tr) holds fun _ h => h
  | a :: l, tr, s, holds =>
      .seq (round a l tr s holds) fun _ _ _ h => Safe.forM stable round l h

/-! ### Soundness -/

variable {p₀ : Prog σ ε α} {s₀ : σ} {asm : σ → ε → Prop}

/-- What is left of a safe program is safe. -/
theorem Reach.safe {Q : α → List (σ × ε) → σ → Prop} (run : Reach rely asm p₀ s₀ p s tr)
    (safe : Safe rely rule p₀ [] Q s₀) : Safe rely rule p tr Q s := by
  induction run with
  | start => exact safe
  | env _ step ih => exact ih.steps (.single step)
  | host _ _ ih => exact (ih _ .refl).2

/-- The action a run is about to take obeys the rule. -/
theorem Reach.obeys {Q : α → List (σ × ε) → σ → Prop} {l : ε} (run : Reach rely asm p₀ s₀ p s tr)
    (safe : Safe rely rule p₀ [] Q s₀) (label : p.label? = some l) : rule tr s l := by
  have left := run.safe safe
  cases p with
  | ret a => cases label
  | act l' u k =>
      cases label
      exact (left s .refl).1
  | diverge => cases label

end Rules

/-! ### Runs that come to an action -/

/-- A run can come to an action that satisfies `P`. -/
def May (rely : σ → σ → Prop) (P : σ → ε → Prop) (p : Prog σ ε α) (s : σ) : Prop :=
  ∃ q t tr l, Reach rely (fun _ _ => True) p s q t tr ∧ q.label? = some l ∧ P t l

section May

variable {rely : σ → σ → Prop} {P : σ → ε → Prop} {s t : σ}

theorem May.here {p : Prog σ ε α} {l : ε} (label : p.label? = some l) (holds : P s l) :
    May rely P p s :=
  ⟨p, s, [], l, .start, label, holds⟩

/-- From a configuration that a run has come to. -/
theorem May.reach {p q : Prog σ ε α} {tr : List (σ × ε)} (may : May rely P q t)
    (before : Reach rely (fun _ _ => True) p s q t tr) : May rely P p s := by
  obtain ⟨q', t', tr', l, run, label, holds⟩ := may
  exact ⟨q', t', _, l, before.trans run, label, holds⟩

theorem May.env {p : Prog σ ε α} (step : rely s t) (may : May rely P p t) : May rely P p s :=
  may.reach (.env .start step)

theorem May.look {l : ε} {g : σ → α} {f : α → Prog σ ε β} (may : May rely P (f (g s)) s) :
    May rely P (Prog.look l g >>= f) s :=
  may.reach (.host .start trivial)

theorem May.write {l : ε} {u : σ → σ} {f : Unit → Prog σ ε β} (may : May rely P (f ()) (u s)) :
    May rely P (Prog.write l u >>= f) s :=
  may.reach (.host .start trivial)

/-- In the first program of a sequence. -/
theorem May.seq {p : Prog σ ε α} {f : α → Prog σ ε β} (may : May rely P p s) :
    May rely P (p >>= f) s := by
  obtain ⟨q, t, tr, l, run, label, holds⟩ := may
  refine ⟨q >>= f, t, tr, l, run.seq, ?_, holds⟩
  cases q with
  | ret a => cases label
  | act l' u k => exact label
  | diverge => cases label

/-- After the first program of a sequence. -/
theorem May.later {p : Prog σ ε α} {f : α → Prog σ ε β} {a : α} (run : p.exec s = some (a, t))
    (may : May rely P (f a) t) : May rely P (p >>= f) s := by
  have runs : ∃ tr, Runs rely p s tr a t := Runs.of_exec run
  obtain ⟨tr, runs⟩ := runs
  exact may.reach (runs.reach .start).seq

end May

end XpNet.Interference
