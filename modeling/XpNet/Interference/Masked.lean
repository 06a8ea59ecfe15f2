/-
Programs that do not look at a part of the state.

`f` masks that part. A program is `Blind` to it when its actions change what `f`
shows, and it goes on, by what `f` shows alone. Then whatever the environment does to
the masked part, what `f` shows at the end of a run is known from the run in which
the environment stays idle (`Blind.tracks`). A program is `Apart` from a part of the state
when it neither looks at it nor changes it. Then a run beside others who change that part is
one beside nobody who does (`Apart.runs`).

`Takes P p` says that every action `p` can take satisfies `P`; beside `Always` it asks
nothing of a program that runs away. `Safe.of_tracks` and `Safe.and_wp` build the
judgment with the history from the ones without.
-/

import XpNet.Interference.Track
import XpNet.Interference.History

namespace XpNet.Interference

open Relation (ReflTransGen)

variable {σ ε α β δ : Type}

/-! ### Actions -/

/-- Every action the program can take satisfies `P`. -/
def Takes (P : ε → (σ → σ) → Prop) : Prog σ ε α → Prop
  | .ret _ => True
  | .act l u k => P l u ∧ ∀ s, Takes P (k s)
  | .diverge => True

section Taking

variable {P : ε → (σ → σ) → Prop} {p : Prog σ ε α}

theorem Takes.bind {f : α → Prog σ ε β} (first : Takes P p) (second : ∀ a, Takes P (f a)) :
    Takes P (p >>= f) := by
  induction p with
  | ret a => exact second a
  | act l u k ih => exact ⟨first.1, fun s => ih s (first.2 s)⟩
  | diverge => trivial

theorem Takes.mono {P' : ε → (σ → σ) → Prop} (weaker : ∀ l u, P l u → P' l u)
    (takes : Takes P p) : Takes P' p := by
  induction p with
  | ret a => trivial
  | act l u k ih => exact ⟨weaker l u takes.1, fun s => ih s (takes.2 s)⟩
  | diverge => trivial

theorem Always.takes (always : Always P p) : Takes P p := by
  induction p with
  | ret a => trivial
  | act l u k ih => exact ⟨always.1, fun s => ih s (always.2 s)⟩
  | diverge => trivial

theorem Takes.and {P' : ε → (σ → σ) → Prop} (first : Takes P p) (second : Takes P' p) :
    Takes (fun l u => P l u ∧ P' l u) p := by
  induction p with
  | ret a => trivial
  | act l u k ih => exact ⟨⟨first.1, second.1⟩, fun s => ih s (first.2 s) (second.2 s)⟩
  | diverge => trivial

theorem Takes.forM {f : α → Prog σ ε PUnit} (round : ∀ a, Takes P (f a)) :
    ∀ l : List α, Takes P (l.forM f)
  | [] => trivial
  | a :: l => (round a).bind fun _ => Takes.forM round l

/-- What is left of a program takes the actions of the program. -/
theorem Reach.takes {rely : σ → σ → Prop} {asm : σ → ε → Prop} {p₀ : Prog σ ε α} {s₀ s : σ}
    {tr : List (σ × ε)} (run : Reach rely asm p₀ s₀ p s tr) (takes : Takes P p₀) :
    Takes P p := by
  induction run with
  | start => exact takes
  | env _ _ ih => exact ih
  | host _ _ ih => exact ih.2 _

/-- **Invariance** in a verified program, each action of which is one of `P` as well. -/
theorem Reach.invariant_taking {rely : σ → σ → Prop} {asm : σ → ε → Prop}
    {guar : σ → ε → σ → Prop} {p₀ : Prog σ ε α} {s₀ s : σ} {tr : List (σ × ε)}
    {Q : α → σ → Prop} {J : List (σ × ε) → σ → Prop}
    (run : Reach rely asm p₀ s₀ p s tr) (holds : Interference.wp rely asm guar p₀ Q s₀)
    (takes : Takes P p₀) (start : J [] s₀) (env : ∀ tr s s', rely s s' → J tr s → J tr s')
    (host : ∀ tr s l u, guar s l (u s) → P l u → J tr s → J (tr ++ [(s, l)]) (u s)) :
    J tr s := by
  induction run with
  | start => exact start
  | env _ step ih => exact env _ _ _ step ih
  | host before ha ih =>
      exact host _ _ _ _ (before.guarantee holds ha) (before.takes takes).1 ih

end Taking

/-! ### Blind programs -/

/-- The program goes by what `f` shows of the state. -/
def Blind (f : σ → δ) : Prog σ ε α → Prop
  | .ret _ => True
  | .act _ u k => (∀ s t, f s = f t → f (u s) = f (u t) ∧ k s = k t) ∧ ∀ s, Blind f (k s)
  | .diverge => True

section Masks

variable {f : σ → δ} {p : Prog σ ε α}

theorem Blind.bind {g : α → Prog σ ε β} (first : Blind f p) (second : ∀ a, Blind f (g a)) :
    Blind f (p >>= g) := by
  induction p with
  | ret a => exact second a
  | act l u k ih =>
      refine ⟨fun s t same => ?_, fun s => ih s (first.2 s)⟩
      obtain ⟨shown, next⟩ := first.1 s t same
      exact ⟨shown, congrArg (Prog.bind · g) next⟩
  | diverge => trivial

/-- A store that changes what `f` shows by what it shows. -/
theorem Blind.write {l : ε} {u : σ → σ} {g : Unit → Prog σ ε α}
    (shown : ∀ s t, f s = f t → f (u s) = f (u t)) (rest : Blind f (g ())) :
    Blind f (Prog.write l u >>= g) :=
  ⟨fun s t same => ⟨shown s t same, rfl⟩, fun _ => rest⟩

/-- A run ends showing what the idle run ends showing. -/
theorem Blind.tracks (blind : Blind f p) {t t' : σ} {a : α} (run : p.exec t = some (a, t')) :
    Tracks f p (f t) fun b e => b = a ∧ e = f t' := by
  induction p generalizing t with
  | ret b =>
      cases run
      exact ⟨rfl, rfl⟩
  | act l u k ih =>
      intro s same
      obtain ⟨shown, next⟩ := blind.1 s t same
      rw [shown]
      refine ih s (blind.2 s) ?_
      rw [next]
      exact run
  | diverge => trivial

end Masks

/-! ### Programs apart from others -/

/-- The program neither looks at the part of the state that `put` sets, nor changes it. -/
def Apart {ν : Type} (put : ν → σ → σ) : Prog σ ε α → Prop
  | .ret _ => True
  | .act _ u k => (∀ v s, u (put v s) = put v (u s) ∧ k (put v s) = k s) ∧ ∀ s, Apart put (k s)
  | .diverge => True

section Parts

variable {ν : Type} {put : ν → σ → σ} {p : Prog σ ε α}

theorem Apart.bind {f : α → Prog σ ε β} (first : Apart put p) (second : ∀ a, Apart put (f a)) :
    Apart put (p >>= f) := by
  induction p with
  | ret a => exact second a
  | act l u k ih =>
      refine ⟨fun v s => ?_, fun s => ih s (first.2 s)⟩
      obtain ⟨changes, next⟩ := first.1 v s
      exact ⟨changes, congrArg (Prog.bind · f) next⟩
  | diverge => trivial

/-- A run, with the part as it was. -/
theorem Apart.runs (apart : Apart put p) {rely rely' : σ → σ → Prop} {v : ν}
    (moves : ∀ s s', rely s s' → ReflTransGen rely' (put v s) (put v s')) {s s' : σ}
    {tr : List (σ × ε)} {a : α} (run : Runs rely p s tr a s') :
    ∃ tr', Runs rely' p (put v s) tr' a (put v s') := by
  have steps : ∀ {s s'}, ReflTransGen rely s s' → ReflTransGen rely' (put v s) (put v s') := by
    intro s s' h
    induction h with
    | refl => exact .refl
    | tail _ step ih => exact ih.trans (moves _ _ step)
  induction run with
  | ret later => exact ⟨[], .ret (steps later)⟩
  | act first _ ih =>
      obtain ⟨tr', run'⟩ := ih (apart.2 _)
      obtain ⟨changes, next⟩ := apart.1 v _
      rw [← changes, ← next] at run'
      exact ⟨_, .act (steps first) run'⟩

end Parts

/-! ### Judgments with the history -/

section Histories

variable {rely : σ → σ → Prop} {rule : List (σ × ε) → σ → ε → Prop} {p : Prog σ ε α}
  {tr : List (σ × ε)} {s : σ} {f : σ → δ}

/-- A program that only adds to the history what `T` does not mind. -/
theorem Safe.of_tracks (env : ∀ s s', rely s s' → f s' = f s) {T : List (σ × ε) → Prop}
    {P : ε → (σ → σ) → Prop} (obeys : ∀ tr s l, T tr → rule tr s l)
    (adds : ∀ tr s l u, P l u → T tr → T (tr ++ [(s, l)])) (takes : Takes P p)
    {F : α → δ → Prop} (tracks : Tracks f p (f s) F) (holds : T tr) :
    Safe rely rule p tr (fun a tr t => T tr ∧ F a (f t)) s := by
  induction p generalizing tr s with
  | ret a =>
      intro t ht
      refine ⟨holds, ?_⟩
      rw [kept_of_steps env ht]
      exact tracks
  | act l u k ih =>
      intro t ht
      refine ⟨obeys _ _ _ holds, ih t (takes.2 t) ?_ (adds _ _ _ _ takes.1 holds)⟩
      exact tracks t (kept_of_steps env ht)
  | diverge => trivial

/-- A safe program with results of a kind. -/
theorem Safe.and_returns {Q : α → List (σ × ε) → σ → Prop} {R : α → Prop}
    (safe : Safe rely rule p tr Q s) (returns : Returns R p) :
    Safe rely rule p tr (fun a tr t => Q a tr t ∧ R a) s := by
  induction p generalizing tr s with
  | ret a => exact fun t ht => ⟨safe t ht, returns⟩
  | act l u k ih => exact fun t ht => ⟨(safe t ht).1, ih t (safe t ht).2 (returns t)⟩
  | diverge => trivial

/-- A safe program that is verified as well. -/
theorem Safe.and_wp {guar : σ → ε → σ → Prop} {Q : α → List (σ × ε) → σ → Prop}
    {Q' : α → σ → Prop} (safe : Safe rely rule p tr Q s)
    (verified : wp rely (fun _ _ => True) guar p Q' s) :
    Safe rely rule p tr (fun a tr t => Q a tr t ∧ Q' a t) s := by
  induction p generalizing tr s with
  | ret a => exact fun t ht => ⟨safe t ht, verified t ht⟩
  | act l u k ih =>
      exact fun t ht => ⟨(safe t ht).1, ih t (safe t ht).2 (verified t ht trivial).2⟩
  | diverge => trivial

end Histories

end XpNet.Interference
