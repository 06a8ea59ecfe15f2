/-
Completed runs with their traces.

`Runs rely p s tr a s'` is one completed run of `p` from `s`: the actions it
takes, each with the state it starts in, its result and the state it ends in,
with the environment acting before, between and after the actions. It is the
part of `Reach` that ends in a return (`Runs.reach`), split at sequencing points
(`runs_bind`), and the idle run is one such run (`Runs.of_exec`). `Crashes` are the
runs that end in `diverge`; a verified program has none (`not_crashes_of_wp`).

`Emits P out p acc F` says of a program, whether or not it returns, that its actions
satisfy `P` and that their outputs are `F a` when it returns `a`: what its actions
keep, its runs keep (`Runs.keeps`), and what they output is known from the result
(`Runs.outputs`). `Within n p` bounds the actions that `p` takes.
-/

import XpNet.Interference.Logic

namespace XpNet.Interference

open Relation (ReflTransGen)

variable {σ ε α β : Type}

/-- A completed run. -/
inductive Runs (rely : σ → σ → Prop) : Prog σ ε α → σ → List (σ × ε) → α → σ → Prop where
  | ret {a s s'} : ReflTransGen rely s s' → Runs rely (.ret a) s [] a s'
  | act {l u k s t tr a s'} : ReflTransGen rely s t → Runs rely (k t) (u t) tr a s' →
      Runs rely (.act l u k) s ((t, l) :: tr) a s'

section Rules

variable {rely : σ → σ → Prop} {s s' : σ} {tr : List (σ × ε)}

/-- The environment may act before a run starts. -/
theorem Runs.before {p : Prog σ ε α} {t : σ} {a : α} (steps : ReflTransGen rely s t)
    (run : Runs rely p t tr a s') : Runs rely p s tr a s' := by
  cases run with
  | ret later => exact .ret (steps.trans later)
  | act later rest => exact .act (steps.trans later) rest

/-- A run of a sequence is a run of its first program and one of the rest. -/
theorem runs_bind {p : Prog σ ε α} {f : α → Prog σ ε β} {b : β} :
    Runs rely (p >>= f) s tr b s' ↔
      ∃ a m tr₁ tr₂, Runs rely p s tr₁ a m ∧ Runs rely (f a) m tr₂ b s' ∧ tr = tr₁ ++ tr₂ := by
  induction p generalizing s tr with
  | ret a =>
      constructor
      · intro run
        exact ⟨a, s, [], tr, .ret .refl, run, rfl⟩
      · rintro ⟨a', m, tr₁, tr₂, first, rest, rfl⟩
        cases first with
        | ret steps => exact rest.before steps
  | act l u k ih =>
      constructor
      · intro run
        cases run with
        | act steps rest =>
            obtain ⟨a, m, tr₁, tr₂, first, last, rfl⟩ := (ih _).mp rest
            exact ⟨a, m, _, tr₂, .act steps first, last, rfl⟩
      · rintro ⟨a, m, tr₁, tr₂, first, rest, rfl⟩
        cases first with
        | act steps first => exact .act steps ((ih _).mpr ⟨a, m, _, tr₂, first, rest, rfl⟩)
  | diverge =>
      constructor
      · intro run
        cases run
      · rintro ⟨a, m, tr₁, tr₂, first, -⟩
        cases first

/-- A run that starts with a look. -/
theorem runs_look {l : ε} {g : σ → α} {f : α → Prog σ ε β} {b : β}
    (run : Runs rely (Prog.look l g >>= f) s tr b s') :
    ∃ t tr', Runs rely (f (g t)) t tr' b s' ∧ ReflTransGen rely s t ∧ tr = (t, l) :: tr' := by
  cases run with
  | act steps rest => exact ⟨_, _, rest, steps, rfl⟩

/-- A look, in the state that the program starts in. -/
theorem Runs.look {l : ε} {g : σ → α} {f : α → Prog σ ε β} {b : β}
    (run : Runs rely (f (g s)) s tr b s') :
    Runs rely (Prog.look l g >>= f) s ((s, l) :: tr) b s' := .act .refl run

/-- A run that starts with a store. -/
theorem runs_write {l : ε} {u : σ → σ} {f : Unit → Prog σ ε β} {b : β}
    (run : Runs rely (Prog.write l u >>= f) s tr b s') :
    ∃ t tr', Runs rely (f ()) (u t) tr' b s' ∧ ReflTransGen rely s t ∧ tr = (t, l) :: tr' := by
  cases run with
  | act steps rest => exact ⟨_, _, rest, steps, rfl⟩

/-- A run that starts with a message. -/
theorem runs_emit {l : ε} {f : Unit → Prog σ ε β} {b : β}
    (run : Runs rely (Prog.emit l >>= f) s tr b s') :
    ∃ t tr', Runs rely (f ()) t tr' b s' ∧ ReflTransGen rely s t ∧ tr = (t, l) :: tr' := by
  cases run with
  | act steps rest => exact ⟨_, _, rest, steps, rfl⟩

/-- Every action of a run is one the program can take. -/
theorem Runs.always {P : ε → (σ → σ) → Prop} {p : Prog σ ε α} {a : α}
    (run : Runs rely p s tr a s') (always : Always P p) : ∀ x ∈ tr, ∃ u, P x.2 u := by
  induction run with
  | ret _ => simp
  | act _ _ ih =>
      intro x hx
      rcases List.mem_cons.mp hx with rfl | hx
      · exact ⟨_, always.1⟩
      · exact ih (always.2 _) x hx

/-- The run in which the environment stays idle. -/
theorem Runs.of_exec {p : Prog σ ε α} {a : α} (run : p.exec s = some (a, s')) :
    ∃ tr, Runs rely p s tr a s' := by
  induction p generalizing s with
  | ret b =>
      cases run
      exact ⟨[], .ret .refl⟩
  | act l u k ih =>
      obtain ⟨tr, rest⟩ := ih s run
      exact ⟨_, .act .refl rest⟩
  | diverge => cases run

theorem Reach.steps {asm : σ → ε → Prop} {p₀ p : Prog σ ε α} {s₀ : σ}
    (run : Reach rely asm p₀ s₀ p s tr) (steps : ReflTransGen rely s s') :
    Reach rely asm p₀ s₀ p s' tr := by
  induction steps with
  | refl => exact run
  | tail _ step ih => exact .env ih step

/-- Going on from a configuration. -/
theorem Reach.trans {asm : σ → ε → Prop} {p₀ p q : Prog σ ε α} {s₀ t : σ} {tr' : List (σ × ε)}
    (before : Reach rely asm p₀ s₀ p s tr) (run : Reach rely asm p s q t tr') :
    Reach rely asm p₀ s₀ q t (tr ++ tr') := by
  induction run with
  | start => simpa using before
  | env _ step ih => exact .env ih step
  | host _ ha ih =>
      rw [← List.append_assoc]
      exact .host ih ha

/-- A configuration of the first program of a sequence is one of the sequence. -/
theorem Reach.seq {asm : σ → ε → Prop} {p q : Prog σ ε α} {f : α → Prog σ ε β} {s₀ : σ}
    (run : Reach rely asm p s₀ q s tr) : Reach rely asm (p >>= f) s₀ (q >>= f) s tr := by
  induction run with
  | start => exact .start
  | env _ step ih => exact .env ih step
  | host _ ha ih => exact .host ih ha

/-- A completed run reaches its return. -/
theorem Runs.reach {p₀ p : Prog σ ε α} {s₀ : σ} {tr₀ : List (σ × ε)} {a : α}
    (run : Runs rely p s tr a s') (before : Reach rely (fun _ _ => True) p₀ s₀ p s tr₀) :
    Reach rely (fun _ _ => True) p₀ s₀ (.ret a) s' (tr₀ ++ tr) := by
  induction run generalizing tr₀ with
  | ret steps => simpa using before.steps steps
  | act steps _ ih => simpa using ih (.host (before.steps steps) trivial)

/-- A reachable configuration that returns completes a run. -/
theorem Reach.runs {p₀ p : Prog σ ε α} {s₀ : σ} {tr₀ : List (σ × ε)} {a : α}
    (before : Reach rely (fun _ _ => True) p₀ s₀ p s tr₀) (run : Runs rely p s tr a s') :
    Runs rely p₀ s₀ (tr₀ ++ tr) a s' := by
  induction before generalizing tr with
  | start => exact run
  | env _ step ih => exact ih (run.before (.single step))
  | host _ _ ih =>
      rw [List.append_assoc]
      exact ih (.act .refl run)

/-- What the environment and every action keep holds throughout every run. -/
theorem Runs.throughout {I : σ → Prop} (stable : Stable rely I) {p : Prog σ ε α} {a : α}
    (run : Runs rely p s tr a s') (always : Always (fun _ u => ∀ t, I t → I (u t)) p)
    (holds : I s) : (∀ x ∈ tr, I x.1) ∧ I s' := by
  induction run with
  | ret steps => exact ⟨nofun, stable.steps steps holds⟩
  | act steps _ ih =>
      have before := stable.steps steps holds
      obtain ⟨rest, after⟩ := ih (always.2 _) (always.1 _ before)
      exact ⟨List.forall_mem_cons.mpr ⟨before, rest⟩, after⟩

/-- In particular it holds after it. -/
theorem Runs.invariant {I : σ → Prop} (stable : Stable rely I) {p : Prog σ ε α} {a : α}
    (run : Runs rely p s tr a s') (always : Always (fun _ u => ∀ t, I t → I (u t)) p)
    (holds : I s) : I s' :=
  (run.throughout stable always holds).2

/-- A verified program's completed runs end in the postcondition. -/
theorem Runs.post {guar : σ → ε → σ → Prop} {p : Prog σ ε α} {Q : α → σ → Prop} {a : α}
    (run : Runs rely p s tr a s') (holds : wp rely (fun _ _ => True) guar p Q s) : Q a s' :=
  (run.reach .start).post holds

/-- More of the environment, more runs. -/
theorem Runs.mono {rely' : σ → σ → Prop} (weaker : ∀ s s', rely s s' → rely' s s')
    {p : Prog σ ε α} {a : α} (run : Runs rely p s tr a s') : Runs rely' p s tr a s' := by
  induction run with
  | ret steps => exact .ret (ReflTransGen.mono weaker _ _ steps)
  | act steps _ ih => exact .act (ReflTransGen.mono weaker _ _ steps) ih

/-- The environment may act after a run. -/
theorem Runs.later {p : Prog σ ε α} {a : α} {t : σ} (run : Runs rely p s tr a s')
    (steps : ReflTransGen rely s' t) : Runs rely p s tr a t := by
  induction run with
  | ret before => exact .ret (before.trans steps)
  | act before _ ih => exact .act before (ih steps)

/-- An assumption that always holds is none. -/
theorem wp_unassumed {asm : σ → ε → Prop} (always : ∀ s l, asm s l) {guar : σ → ε → σ → Prop}
    {p : Prog σ ε α} {Q : α → σ → Prop} (holds : wp rely asm guar p Q s) :
    wp rely (fun _ _ => True) guar p Q s := by
  induction p generalizing s with
  | ret a => exact holds
  | act l u k ih =>
      exact fun t ht _ => ⟨(holds t ht (always t l)).1, ih t (holds t ht (always t l)).2⟩
  | diverge => exact holds

/-- A verified program returns when the environment stays idle. -/
theorem Runs.of_wp {guar : σ → ε → σ → Prop} {p : Prog σ ε α} {Q : α → σ → Prop}
    (holds : wp rely (fun _ _ => True) guar p Q s) (rely' : σ → σ → Prop) :
    ∃ tr a s', Runs rely' p s tr a s' := by
  induction p generalizing s with
  | ret a => exact ⟨[], a, s, .ret .refl⟩
  | act l u k ih =>
      obtain ⟨tr, a, s', rest⟩ := ih s (holds s .refl trivial).2
      exact ⟨_, a, s', .act .refl rest⟩
  | diverge => exact holds.elim

end Rules

/-! ### Crashes -/

/-- A run that ends in `diverge`. -/
inductive Crashes (rely : σ → σ → Prop) : Prog σ ε α → σ → Prop where
  | here {s} : Crashes rely .diverge s
  | act {l u k s t} : ReflTransGen rely s t → Crashes rely (k t) (u t) →
      Crashes rely (.act l u k) s

section Crash

variable {rely : σ → σ → Prop} {s : σ}

/-- A sequence crashes in its first program, or after it has returned. -/
theorem crashes_bind {p : Prog σ ε α} {f : α → Prog σ ε β} (crash : Crashes rely (p >>= f) s) :
    Crashes rely p s ∨ ∃ a m tr, Runs rely p s tr a m ∧ Crashes rely (f a) m := by
  induction p generalizing s with
  | ret a => exact .inr ⟨a, s, [], .ret .refl, crash⟩
  | act l u k ih =>
      cases crash with
      | act steps rest =>
          rcases ih _ rest with first | ⟨a, m, tr, first, second⟩
          · exact .inl (.act steps first)
          · exact .inr ⟨a, m, _, .act steps first, second⟩
  | diverge => exact .inl .here

/-- A crash of the first program of a sequence is one of the sequence. -/
theorem Crashes.seq {p : Prog σ ε α} {f : α → Prog σ ε β} (crash : Crashes rely p s) :
    Crashes rely (p >>= f) s := by
  induction crash with
  | here => exact .here
  | act steps _ ih => exact .act steps ih

/-- A crash after a look. -/
theorem crashes_look {l : ε} {g : σ → α} {f : α → Prog σ ε β}
    (crash : Crashes rely (Prog.look l g >>= f) s) :
    ∃ t, ReflTransGen rely s t ∧ Crashes rely (f (g t)) t := by
  cases crash with
  | act steps rest => exact ⟨_, steps, rest⟩

/-- A look, in the state that the program starts in. -/
theorem Crashes.look {l : ε} {g : σ → α} {f : α → Prog σ ε β} (crash : Crashes rely (f (g s)) s) :
    Crashes rely (Prog.look l g >>= f) s := .act .refl crash

/-- A program that always takes actions of a kind does not crash. -/
theorem Always.not_crashes {P : ε → (σ → σ) → Prop} {p : Prog σ ε α} (always : Always P p) :
    ¬ Crashes rely p s := by
  intro crash
  induction crash with
  | here => exact always
  | act _ _ ih => exact ih (always.2 _)

theorem Crashes.mono {rely' : σ → σ → Prop} (weaker : ∀ s s', rely s s' → rely' s s')
    {p : Prog σ ε α} (crash : Crashes rely p s) : Crashes rely' p s := by
  induction crash with
  | here => exact .here
  | act steps _ ih => exact .act (ReflTransGen.mono weaker _ _ steps) ih

/-- A verified program does not crash. -/
theorem not_crashes_of_wp {guar : σ → ε → σ → Prop} {p : Prog σ ε α} {Q : α → σ → Prop}
    (holds : wp rely (fun _ _ => True) guar p Q s) : ¬ Crashes rely p s := by
  intro crash
  induction crash with
  | here => exact holds
  | act steps _ ih => exact ih (holds _ steps trivial).2

end Crash

/-! ### Outputs -/

/-- Every action the program can take satisfies `P`, and when it returns `a`, the
outputs before it, `acc`, and those of its actions are together `F a`. -/
def Emits (P : ε → (σ → σ) → Prop) (out : ε → List β) :
    Prog σ ε α → List β → (α → List β) → Prop
  | .ret a, acc, F => F a = acc
  | .act l u k, acc, F => P l u ∧ ∀ s, Emits P out (k s) (acc ++ out l) F
  | .diverge, _, _ => True

section Outputs

variable {P : ε → (σ → σ) → Prop} {γ δ : Type} {out : ε → List γ} {rely : σ → σ → Prop}
  {s s' : σ} {tr : List (σ × ε)} {acc : List γ}

theorem Emits.bind {p : Prog σ ε α} {f : α → Prog σ ε β} {G : α → List γ} {F : β → List γ}
    (first : Emits P out p acc G) (second : ∀ a, Emits P out (f a) (G a) F) :
    Emits P out (p >>= f) acc F := by
  induction p generalizing acc with
  | ret a => exact (show G a = acc from first) ▸ second a
  | act l u k ih => exact ⟨first.1, fun s => ih s (first.2 s)⟩
  | diverge => trivial

theorem Emits.mono {P' : ε → (σ → σ) → Prop} (weaker : ∀ l u, P l u → P' l u) {p : Prog σ ε α}
    {F : α → List γ} (emits : Emits P out p acc F) : Emits P' out p acc F := by
  induction p generalizing acc with
  | ret a => exact emits
  | act l u k ih => exact ⟨weaker l u emits.1, fun s => ih s (emits.2 s)⟩
  | diverge => trivial

/-- Outputs nothing. -/
def Silent (P : ε → (σ → σ) → Prop) (out : ε → List γ) (l : ε) (u : σ → σ) : Prop :=
  P l u ∧ out l = []

/-- An action without output before a program. -/
theorem Emits.silent {l : ε} {u : σ → σ} {k : σ → Prog σ ε α} {F : α → List γ}
    (quiet : Silent P out l u) (rest : ∀ s, Emits P out (k s) acc F) :
    Emits P out (.act l u k) acc F :=
  ⟨quiet.1, fun s => by rw [quiet.2, List.append_nil]; exact rest s⟩

/-- A program without outputs. -/
theorem Always.emits {p : Prog σ ε α} (always : Always (Silent P out) p) :
    Emits P out p acc fun _ => acc := by
  induction p with
  | ret a => rfl
  | act l u k ih => exact .silent always.1 fun s => ih s (always.2 s)
  | diverge => trivial

/-- The outputs of a run. -/
theorem Runs.outputs {p : Prog σ ε α} {F : α → List γ} {a : α} (run : Runs rely p s tr a s')
    (emits : Emits P out p acc F) : F a = acc ++ tr.flatMap fun x => out x.2 := by
  induction run generalizing acc with
  | ret _ => exact (show F _ = acc from emits).trans (List.append_nil acc).symm
  | act _ _ ih =>
      rw [ih (emits.2 _), List.flatMap_cons, List.append_assoc]

/-- What the environment and every action leave as it is, a run leaves as it is. -/
theorem Runs.keeps {f : σ → δ} (env : ∀ s s', rely s s' → f s' = f s) {p : Prog σ ε α} {a : α}
    {F : α → List γ} (run : Runs rely p s tr a s')
    (emits : Emits (fun _ u => ∀ s, f (u s) = f s) out p acc F) : f s' = f s := by
  have steps : ∀ {s t}, ReflTransGen rely s t → f t = f s := by
    intro s t h
    induction h with
    | refl => rfl
    | tail _ step ih => exact (env _ _ step).trans ih
  induction run generalizing acc with
  | ret before => exact steps before
  | act before _ ih => rw [ih (emits.2 _), emits.1, steps before]

end Outputs

/-! ### Lengths -/

/-- The program takes at most `n` actions, whatever the state lets it see. -/
def Within : Nat → Prog σ ε α → Prop
  | n + 1, .act _ _ k => ∀ s, Within n (k s)
  | 0, .act _ _ _ => False
  | _, .ret _ => True
  | _, .diverge => True

section Lengths

variable {m n : Nat}

theorem Within.mono {p : Prog σ ε α} (h : Within m p) (hmn : m ≤ n) : Within n p := by
  induction p generalizing m n with
  | ret a => cases n <;> trivial
  | act l u k ih =>
      cases m with
      | zero => exact h.elim
      | succ m =>
          cases n with
          | zero => omega
          | succ n => exact fun s => ih s (h s) (Nat.le_of_succ_le_succ hmn)
  | diverge => cases n <;> trivial

theorem Within.bind {p : Prog σ ε α} {f : α → Prog σ ε β} (first : Within m p)
    (second : ∀ a, Within n (f a)) : Within (m + n) (p >>= f) := by
  induction p generalizing m with
  | ret a => exact (second a).mono (Nat.le_add_left n m)
  | act l u k ih =>
      cases m with
      | zero => exact first.elim
      | succ m =>
          rw [Nat.succ_add]
          exact fun s => ih s (first s)
  | diverge => cases h : m + n <;> trivial

/-- A run takes no more actions than its program. -/
theorem Reach.length_le {rely : σ → σ → Prop} {asm : σ → ε → Prop} {p₀ p : Prog σ ε α}
    {s₀ s : σ} {tr : List (σ × ε)} (run : Reach rely asm p₀ s₀ p s tr) (h : Within n p₀) :
    ∃ m, Within m p ∧ tr.length + m ≤ n := by
  induction run with
  | start => exact ⟨n, h, by simp⟩
  | env _ _ ih => exact ih
  | host _ _ ih =>
      obtain ⟨m, hm, hle⟩ := ih
      cases m with
      | zero => exact hm.elim
      | succ m =>
          refine ⟨m, hm _, ?_⟩
          rw [List.length_append, List.length_singleton]
          omega

/-- A crash reaches `diverge`. -/
theorem Crashes.reach {rely : σ → σ → Prop} {p₀ p : Prog σ ε α} {s₀ s : σ}
    {tr : List (σ × ε)} (crash : Crashes rely p s)
    (before : Reach rely (fun _ _ => True) p₀ s₀ p s tr) :
    ∃ s' tr', Reach rely (fun _ _ => True) p₀ s₀ .diverge s' tr' := by
  induction crash generalizing tr with
  | here => exact ⟨_, _, before⟩
  | act steps _ ih => exact ih (.host (before.steps steps) trivial)

end Lengths

end XpNet.Interference
