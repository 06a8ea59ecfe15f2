/-
Reachability and weakest preconditions for programs under interference.

`Reach rely asm p s` collects the configurations of a run of `p` from `s` in
which the environment may take `rely` steps between any two actions of the
program, and in which every action of the program meets the assumption `asm` on
the state it starts in. The trace keeps the actions already taken, each with
the state it started in.

`wp rely asm guar p Q s` says of all those runs that every action of `p` meets
the guarantee `guar`, that `p` does not diverge, and that `Q` holds of whatever
it returns. It is computed over the program text, so a call is verified once
and its callers use the result through `wp_bind`.

* `Reach.wp`: a reachable configuration satisfies the weakest precondition of
  what is left of the program.
* `Reach.guarantee`: an action a run is about to take meets the guarantee.
* `Reach.invariant`: what the guarantee of each action preserves holds in every
  reachable state, together with the trace.
* `wp_frame`, `wp_and`: a program all of whose actions preserve an assertion,
  preserves it.
-/

import XpNet.Interference.Prog

namespace XpNet.Interference

open Relation (ReflTransGen)

variable {σ ε α β : Type}

/-- The configurations a run can reach, with the actions taken so far. -/
inductive Reach (rely : σ → σ → Prop) (asm : σ → ε → Prop) (p₀ : Prog σ ε α) (s₀ : σ) :
    Prog σ ε α → σ → List (σ × ε) → Prop where
  | start : Reach rely asm p₀ s₀ p₀ s₀ []
  | env {p s s' tr} : Reach rely asm p₀ s₀ p s tr → rely s s' → Reach rely asm p₀ s₀ p s' tr
  | host {l u k s tr} : Reach rely asm p₀ s₀ (.act l u k) s tr → asm s l →
      Reach rely asm p₀ s₀ (k s) (u s) (tr ++ [(s, l)])

/-- The weakest precondition of a program under interference. -/
def wp (rely : σ → σ → Prop) (asm : σ → ε → Prop) (guar : σ → ε → σ → Prop) :
    Prog σ ε α → (α → σ → Prop) → σ → Prop
  | .ret a, Q, s => ∀ s', ReflTransGen rely s s' → Q a s'
  | .act l u k, Q, s => ∀ s', ReflTransGen rely s s' → asm s' l →
      guar s' l (u s') ∧ wp rely asm guar (k s') Q (u s')
  | .diverge, _, _ => False

/-- An assertion the environment cannot falsify. -/
def Stable (rely : σ → σ → Prop) (I : σ → Prop) : Prop := ∀ s s', rely s s' → I s → I s'

section Rules

variable {rely : σ → σ → Prop} {asm : σ → ε → Prop} {guar : σ → ε → σ → Prop}

theorem Stable.steps {I : σ → Prop} (stable : Stable rely I) {s s' : σ}
    (steps : ReflTransGen rely s s') (holds : I s) : I s' := by
  induction steps with
  | refl => exact holds
  | tail _ step ih => exact stable _ _ step ih

theorem Stable.and {I J : σ → Prop} (hI : Stable rely I) (hJ : Stable rely J) :
    Stable rely fun s => I s ∧ J s :=
  fun s s' step holds => ⟨hI s s' step holds.1, hJ s s' step holds.2⟩

/-- A weakest precondition is itself stable. -/
theorem wp_steps {p : Prog σ ε α} {Q : α → σ → Prop} {s s' : σ}
    (steps : ReflTransGen rely s s') (holds : wp rely asm guar p Q s) :
    wp rely asm guar p Q s' := by
  cases p with
  | ret a => exact fun t ht => holds t (steps.trans ht)
  | act l u k => exact fun t ht => holds t (steps.trans ht)
  | diverge => exact holds

theorem wp_mono {p : Prog σ ε α} {Q Q' : α → σ → Prop} (weaker : ∀ a s, Q a s → Q' a s) {s : σ}
    (holds : wp rely asm guar p Q s) : wp rely asm guar p Q' s := by
  induction p generalizing s with
  | ret a => exact fun t ht => weaker a t (holds t ht)
  | act l u k ih => exact fun t ht ha => ⟨(holds t ht ha).1, ih t (holds t ht ha).2⟩
  | diverge => exact holds

/-- Sequencing: the continuation is verified from what the first program leaves. -/
theorem wp_bind {p : Prog σ ε α} {f : α → Prog σ ε β} {Q : β → σ → Prop} {s : σ}
    (holds : wp rely asm guar p (fun a t => wp rely asm guar (f a) Q t) s) :
    wp rely asm guar (p >>= f) Q s := by
  induction p generalizing s with
  | ret a => exact holds s .refl
  | act l u k ih => exact fun t ht ha => ⟨(holds t ht ha).1, ih t (holds t ht ha).2⟩
  | diverge => exact holds

/-- Sequencing with an intermediate assertion. -/
theorem wp_seq {p : Prog σ ε α} {f : α → Prog σ ε β} {M : α → σ → Prop} {Q : β → σ → Prop} {s : σ}
    (first : wp rely asm guar p M s) (second : ∀ a t, M a t → wp rely asm guar (f a) Q t) :
    wp rely asm guar (p >>= f) Q s :=
  wp_bind (wp_mono second first)

/-- Returning, from a stable assertion. -/
theorem wp_ret {I : σ → Prop} (stable : Stable rely I) {a : α} {Q : α → σ → Prop} {s : σ}
    (holds : I s) (post : ∀ t, I t → Q a t) : wp rely asm guar (.ret a) Q s :=
  fun t ht => post t (stable.steps ht holds)

/-- One action, from a stable assertion. -/
theorem wp_act {I : σ → Prop} (stable : Stable rely I) {l : ε} {u : σ → σ}
    {k : σ → Prog σ ε α} {Q : α → σ → Prop} {s : σ} (holds : I s)
    (step : ∀ t, I t → asm t l → guar t l (u t) ∧ wp rely asm guar (k t) Q (u t)) :
    wp rely asm guar (.act l u k) Q s :=
  fun t ht ha => step t (stable.steps ht holds) ha

/-- Looking at the state, from a stable assertion. -/
theorem wp_look {I : σ → Prop} (stable : Stable rely I) {l : ε} {g : σ → α} {f : α → Prog σ ε β}
    {Q : β → σ → Prop} {s : σ} (holds : I s)
    (step : ∀ t, I t → asm t l → guar t l t ∧ wp rely asm guar (f (g t)) Q t) :
    wp rely asm guar (Prog.look l g >>= f) Q s :=
  wp_act stable holds step

/-- A store, from a stable assertion. -/
theorem wp_write {I : σ → Prop} (stable : Stable rely I) {l : ε} {u : σ → σ}
    {f : Unit → Prog σ ε β} {Q : β → σ → Prop} {s : σ} (holds : I s)
    (step : ∀ t, I t → asm t l → guar t l (u t) ∧ wp rely asm guar (f ()) Q (u t)) :
    wp rely asm guar (Prog.write l u >>= f) Q s :=
  wp_act stable holds step

/-- A message, from a stable assertion. -/
theorem wp_emit {I : σ → Prop} (stable : Stable rely I) {l : ε} {f : Unit → Prog σ ε β}
    {Q : β → σ → Prop} {s : σ} (holds : I s)
    (step : ∀ t, I t → asm t l → guar t l t ∧ wp rely asm guar (f ()) Q t) :
    wp rely asm guar (Prog.emit l >>= f) Q s :=
  wp_act stable holds step

/-- A loop over a list, from an assertion every round restores. -/
theorem wp_forM {f : α → Prog σ ε PUnit} {I : σ → Prop} (stable : Stable rely I)
    (round : ∀ a s, I s → wp rely asm guar (f a) (fun _ t => I t) s) :
    ∀ (l : List α) {s : σ}, I s → wp rely asm guar (l.forM f) (fun _ t => I t) s
  | [], _, holds => wp_ret stable holds fun _ h => h
  | a :: l, _, holds => wp_seq (round a _ holds) fun _ _ ht => wp_forM stable round l ht

/-! ### Programs whose every action preserves an invariant -/

/-- Every action the program can take satisfies `P`, whatever the state lets it
see, and the program never diverges. -/
def Always (P : ε → (σ → σ) → Prop) : Prog σ ε α → Prop
  | .ret _ => True
  | .act l u k => P l u ∧ ∀ s, Always P (k s)
  | .diverge => False

theorem Always.bind {P : ε → (σ → σ) → Prop} {p : Prog σ ε α} {f : α → Prog σ ε β}
    (first : Always P p) (second : ∀ a, Always P (f a)) : Always P (p >>= f) := by
  induction p with
  | ret a => exact second a
  | act l u k ih => exact ⟨first.1, fun s => ih s (first.2 s)⟩
  | diverge => exact first

theorem Always.look {P : ε → (σ → σ) → Prop} {l : ε} {g : σ → α} {f : α → Prog σ ε β} (h : P l id)
    (rest : ∀ a, Always P (f a)) : Always P (Prog.look l g >>= f) :=
  ⟨h, fun s => rest (g s)⟩

theorem Always.mono {P P' : ε → (σ → σ) → Prop} (weaker : ∀ l u, P l u → P' l u)
    {p : Prog σ ε α} (h : Always P p) : Always P' p := by
  induction p with
  | ret a => trivial
  | act l u k ih => exact ⟨weaker l u h.1, fun s => ih s (h.2 s)⟩
  | diverge => exact h

/-- The frame rule. -/
theorem wp_frame {I : σ → Prop} (stable : Stable rely I) {p : Prog σ ε α} {s : σ} (holds : I s)
    (always : Always (fun l u => ∀ t, I t → asm t l → guar t l (u t) ∧ I (u t)) p) :
    wp rely asm guar p (fun _ t => I t) s := by
  induction p generalizing s with
  | ret a => exact fun t ht => stable.steps ht holds
  | act l u k ih =>
      apply wp_act stable holds
      intro t ht ha
      obtain ⟨hg, hI⟩ := always.1 t ht ha
      exact ⟨hg, ih t hI (always.2 t)⟩
  | diverge => exact always

/-- The frame rule beside a verified program: a stable assertion that each of its
actions keeps still holds when it returns. -/
theorem wp_and {J : σ → Prop} (stable : Stable rely J) {p : Prog σ ε α} {Q : α → σ → Prop} {s : σ}
    (keeps : Always (fun _ u => ∀ t, J t → J (u t)) p) (hJ : J s)
    (holds : wp rely asm guar p Q s) : wp rely asm guar p (fun a t => Q a t ∧ J t) s := by
  induction p generalizing s with
  | ret a => exact fun t ht => ⟨holds t ht, stable.steps ht hJ⟩
  | act l u k ih =>
      intro t ht ha
      obtain ⟨hg, hw⟩ := holds t ht ha
      exact ⟨hg, ih t (keeps.2 t) (keeps.1 t (stable.steps ht hJ)) hw⟩
  | diverge => exact holds

/-! ### Soundness -/

variable {p₀ : Prog σ ε α} {s₀ : σ} {p : Prog σ ε α} {s : σ} {tr : List (σ × ε)}

/-- What is left of a verified program is verified. -/
theorem Reach.wp {Q : α → σ → Prop} (run : Reach rely asm p₀ s₀ p s tr)
    (holds : wp rely asm guar p₀ Q s₀) : Interference.wp rely asm guar p Q s := by
  induction run with
  | start => exact holds
  | env _ step ih => exact wp_steps (.single step) ih
  | host _ ha ih => exact (ih _ .refl ha).2

/-- **Safety.** The action a run is about to take meets the guarantee. -/
theorem Reach.guarantee {Q : α → σ → Prop} {l : ε} {u : σ → σ} {k : σ → Prog σ ε α}
    (run : Reach rely asm p₀ s₀ (.act l u k) s tr) (holds : Interference.wp rely asm guar p₀ Q s₀)
    (ha : asm s l) : guar s l (u s) :=
  (run.wp holds _ .refl ha).1

/-- The same, of the next action by its label. -/
theorem Reach.next {Q : α → σ → Prop} {l : ε} (run : Reach rely asm p₀ s₀ p s tr)
    (holds : Interference.wp rely asm guar p₀ Q s₀) (label : p.label? = some l) (ha : asm s l) :
    guar s l (p.after s) := by
  cases p with
  | ret a => cases label
  | act l' u k =>
      cases label
      exact run.guarantee holds ha
  | diverge => cases label

/-- A returned value meets the postcondition. -/
theorem Reach.post {Q : α → σ → Prop} {a : α} (run : Reach rely asm p₀ s₀ (.ret a) s tr)
    (holds : Interference.wp rely asm guar p₀ Q s₀) : Q a s :=
  run.wp holds s .refl

/-- **Invariance.** A property of the trace and the state that holds at the
start, that the environment keeps, and that each action meeting the guarantee
keeps, holds in every reachable configuration. -/
theorem Reach.invariant {Q : α → σ → Prop} {J : List (σ × ε) → σ → Prop}
    (run : Reach rely asm p₀ s₀ p s tr) (holds : Interference.wp rely asm guar p₀ Q s₀)
    (start : J [] s₀) (env : ∀ tr s s', rely s s' → J tr s → J tr s')
    (host : ∀ tr s l s', guar s l s' → J tr s → J (tr ++ [(s, l)]) s') : J tr s := by
  induction run with
  | start => exact start
  | env _ step ih => exact env _ _ _ step ih
  | host before ha ih => exact host _ _ _ _ (before.guarantee holds ha) ih

/-- A run under a smaller rely and a stronger assumption is a run. -/
theorem Reach.mono {rely' : σ → σ → Prop} {asm' : σ → ε → Prop}
    (weakerRely : ∀ s s', rely s s' → rely' s s') (weakerAsm : ∀ s l, asm s l → asm' s l)
    (run : Reach rely asm p₀ s₀ p s tr) : Reach rely' asm' p₀ s₀ p s tr := by
  induction run with
  | start => exact .start
  | env _ step ih => exact .env ih (weakerRely _ _ step)
  | host _ ha ih => exact .host ih (weakerAsm _ _ ha)

end Rules

/-! ### Replaying a schedule

A schedule names, move by move, who acts: `none` is the program, `some f` the
environment. It turns a concrete run into a computation. -/

/-- The configuration a schedule leads to. -/
def Prog.play : List (Option (σ → σ)) → Prog σ ε α → σ → Prog σ ε α × σ
  | [], p, s => (p, s)
  | some f :: sched, p, s => p.play sched (f s)
  | none :: sched, .act _ u k, s => (k s).play sched (u s)
  | none :: sched, p, s => p.play sched s

/-- Every action the program takes under a schedule passes a check. -/
def Prog.obeys (check : σ → ε → Bool) : List (Option (σ → σ)) → Prog σ ε α → σ → Bool
  | [], _, _ => true
  | some f :: sched, p, s => p.obeys check sched (f s)
  | none :: sched, .act l u k, s => check s l && (k s).obeys check sched (u s)
  | none :: sched, p, s => p.obeys check sched s

/-- A replayed schedule is a run, if each of its environment moves is one and
the program's actions meet the assumption. -/
theorem Reach.of_play {rely : σ → σ → Prop} {asm : σ → ε → Prop} {p₀ : Prog σ ε α} {s₀ : σ}
    {check : σ → ε → Bool} (sound : ∀ s l, check s l = true → asm s l)
    (sched : List (Option (σ → σ))) (moves : ∀ f, some f ∈ sched → ∀ s, rely s (f s)) :
    ∀ {p : Prog σ ε α} {s : σ} {tr : List (σ × ε)}, Reach rely asm p₀ s₀ p s tr →
      p.obeys check sched s = true →
      ∃ tr', Reach rely asm p₀ s₀ (p.play sched s).1 (p.play sched s).2 tr' := by
  induction sched with
  | nil => exact fun run _ => ⟨_, run⟩
  | cons move sched ih =>
      intro p s tr run ok
      have later : ∀ f, some f ∈ sched → ∀ s, rely s (f s) :=
        fun f hf => moves f (List.mem_cons_of_mem _ hf)
      cases move with
      | some f => exact ih later (.env run (moves f List.mem_cons_self s)) ok
      | none =>
          cases p with
          | ret a => exact ih later run ok
          | act l u k =>
              obtain ⟨hl, ok⟩ := Bool.and_eq_true_iff.mp ok
              exact ih later (.host run (sound s l hl)) ok
          | diverge => exact ih later run ok

/-- With nothing to check, every schedule will do. -/
theorem Prog.obeys_true (sched : List (Option (σ → σ))) : ∀ (p : Prog σ ε α) (s : σ),
    p.obeys (fun _ _ => true) sched s = true := by
  induction sched with
  | nil => exact fun _ _ => rfl
  | cons move sched ih =>
      intro p s
      cases move with
      | some f => exact ih p (f s)
      | none => cases p <;> exact ih _ _

/-- A schedule replayed under no assumption. -/
theorem Reach.of_play_free {rely : σ → σ → Prop} (p₀ : Prog σ ε α) (s₀ : σ)
    (sched : List (Option (σ → σ))) (moves : ∀ f, some f ∈ sched → ∀ s, rely s (f s)) :
    ∃ tr, Reach rely (fun _ _ => True) p₀ s₀ (p₀.play sched s₀).1 (p₀.play sched s₀).2 tr :=
  Reach.of_play (fun _ _ _ => trivial) sched moves .start (Prog.obeys_true sched p₀ s₀)

/-- The program on its own, for `count` actions. -/
theorem Reach.of_play_alone {rely : σ → σ → Prop} (p₀ : Prog σ ε α) (s₀ : σ) (count : Nat) :
    ∃ tr, Reach rely (fun _ _ => True) p₀ s₀ (p₀.play (List.replicate count none) s₀).1
      (p₀.play (List.replicate count none) s₀).2 tr :=
  Reach.of_play_free p₀ s₀ _ fun _ h => absurd (List.eq_of_mem_replicate h) (by simp)

end XpNet.Interference
