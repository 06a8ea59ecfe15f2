/-
What a program makes of a part of the state that the environment leaves alone.

`f` reads that part. `Tracks f p d F` says that `p`, started with the part equal to
`d` and whatever the rest of the state, returns only results `a` with a part `e`
such that `F a e`. It is computed over the program text, so every run of `p` ends
that way (`Runs.tracks`), whatever the environment does to the rest meanwhile. It
does not say that `p` returns.

`Conserves f w p a c` is about a quantity `f` that the actions of `p` change, and what
they are worth, `w`: started with `a` outstanding, `p` returns with `c` outstanding, so
a run's actions are worth what `f` gains by it (`Runs.conserves`).
-/

import Mathlib.Algebra.GroupWithZero.Nat
import XpNet.Interference.Trace

namespace XpNet.Interference

open Relation (ReflTransGen)

variable {σ ε α β δ : Type}

def Tracks (f : σ → δ) : Prog σ ε α → δ → (α → δ → Prop) → Prop
  | .ret a, d, F => F a d
  | .act _ u k, d, F => ∀ s, f s = d → Tracks f (k s) (f (u s)) F
  | .diverge, _, _ => True

variable {f : σ → δ} {p : Prog σ ε α} {d : δ}

theorem Tracks.bind {g : α → Prog σ ε β} {M : α → δ → Prop} {F : β → δ → Prop}
    (first : Tracks f p d M) (second : ∀ a e, M a e → Tracks f (g a) e F) :
    Tracks f (p >>= g) d F := by
  induction p generalizing d with
  | ret a => exact second a d first
  | act l u k ih => exact fun s hs => ih s (first s hs)
  | diverge => trivial

theorem Tracks.mono {F F' : α → δ → Prop} (weaker : ∀ a e, F a e → F' a e)
    (tracks : Tracks f p d F) : Tracks f p d F' := by
  induction p generalizing d with
  | ret a => exact weaker a d tracks
  | act l u k ih => exact fun s hs => ih s (tracks s hs)
  | diverge => trivial

/-- An action that leaves the part alone. -/
theorem Tracks.act {l : ε} {u : σ → σ} {k : σ → Prog σ ε α} {F : α → δ → Prop}
    (keeps : ∀ s, f (u s) = f s) (rest : ∀ s, f s = d → Tracks f (k s) d F) :
    Tracks f (.act l u k) d F := by
  intro s hs
  rw [keeps s, hs]
  exact rest s hs

/-- A look at the state. -/
theorem Tracks.look {l : ε} {h : σ → β} {g : β → Prog σ ε α} {F : α → δ → Prop}
    (rest : ∀ s, f s = d → Tracks f (g (h s)) d F) : Tracks f (Prog.look l h >>= g) d F :=
  .act (fun _ => rfl) rest

/-- A store to the part. -/
theorem Tracks.store {l : ε} {u : σ → σ} {g : Unit → Prog σ ε α} {e : δ} {F : α → δ → Prop}
    (stores : ∀ s, f s = d → f (u s) = e) (rest : Tracks f (g ()) e F) :
    Tracks f (Prog.write l u >>= g) d F := by
  intro s hs
  rw [stores s hs]
  exact rest

/-- A property of the part that every action keeps. -/
theorem Always.tracks {J : δ → Prop} (always : Always (fun _ u => ∀ s, J (f s) → J (f (u s))) p)
    (holds : J d) : Tracks f p d fun _ e => J e := by
  induction p generalizing d with
  | ret a => exact holds
  | act l u k ih =>
      intro s hs
      subst hs
      exact ih s (always.2 s) (always.1 s holds)
  | diverge => trivial

/-- A program all of whose actions leave the part alone. -/
theorem Emits.tracks {γ : Type} {out : ε → List γ} {acc : List γ} {G : α → List γ}
    (emits : Emits (fun _ u => ∀ s, f (u s) = f s) out p acc G) :
    Tracks f p d fun _ e => e = d := by
  induction p generalizing acc with
  | ret a => rfl
  | act l u k ih => exact .act emits.1 fun s _ => ih s (emits.2 s)
  | diverge => trivial

/-- What the environment leaves alone, its steps leave alone. -/
theorem kept_of_steps {rely : σ → σ → Prop} (env : ∀ s s', rely s s' → f s' = f s) {s s' : σ}
    (steps : ReflTransGen rely s s') : f s' = f s := by
  induction steps with
  | refl => rfl
  | tail _ step ih => exact (env _ _ step).trans ih

/-- Every run ends as the program text says. -/
theorem Runs.tracks {rely : σ → σ → Prop} (env : ∀ s s', rely s s' → f s' = f s) {s s' : σ}
    {tr : List (σ × ε)} {a : α} {F : α → δ → Prop} (run : Runs rely p s tr a s')
    (tracks : Tracks f p (f s) F) : F a (f s') := by
  induction run with
  | ret steps =>
      rw [kept_of_steps env steps]
      exact tracks
  | act steps _ ih => exact ih (tracks _ (kept_of_steps env steps))

/-! ### Conservation -/

/-- Each action adds its worth to `f` or to what is outstanding. -/
def Conserves (f : σ → Nat) (w : ε → Nat) : Prog σ ε α → Nat → Nat → Prop
  | .ret _, a, c => a = c
  | .act l u k, a, c => ∃ b, (∀ s, f (u s) + b = f s + a + w l) ∧ ∀ s, Conserves f w (k s) b c
  | .diverge, _, _ => True

section Conservation

variable {f : σ → Nat} {w : ε → Nat} {a b c : Nat}

theorem Conserves.bind {g : α → Prog σ ε β} (first : Conserves f w p a b)
    (second : ∀ x, Conserves f w (g x) b c) : Conserves f w (p >>= g) a c := by
  induction p generalizing a with
  | ret x => exact (show a = b from first) ▸ second x
  | act l u k ih =>
      obtain ⟨d, law, rest⟩ := first
      exact ⟨d, law, fun s => ih s (rest s)⟩
  | diverge => trivial

/-- A look that is worth nothing. -/
theorem Conserves.look {l : ε} {h : σ → β} {g : β → Prog σ ε α} (free : w l = 0)
    (rest : ∀ x, Conserves f w (g x) a c) : Conserves f w (Prog.look l h >>= g) a c :=
  ⟨a, fun s => by rw [free]; rfl, fun s => rest (h s)⟩

/-- A store. -/
theorem Conserves.store {l : ε} {u : σ → σ} {g : Unit → Prog σ ε α}
    (law : ∀ s, f (u s) + b = f s + a + w l) (rest : Conserves f w (g ()) b c) :
    Conserves f w (Prog.write l u >>= g) a c :=
  ⟨b, law, fun _ => rest⟩

/-- The law of a run. -/
theorem Runs.conserves {rely : σ → σ → Prop} (env : ∀ s s', rely s s' → f s' = f s) {s s' : σ}
    {tr : List (σ × ε)} {x : α} (run : Runs rely p s tr x s') (law : Conserves f w p a c) :
    f s' + c = f s + a + (tr.map fun y => w y.2).sum := by
  induction run generalizing a with
  | ret steps =>
      rw [kept_of_steps env steps, show a = c from law]
      rfl
  | act steps _ ih =>
      obtain ⟨b, step, rest⟩ := law
      rw [ih (rest _), step, kept_of_steps env steps, List.map_cons, List.sum_cons, Nat.add_assoc]

end Conservation

/-! ### Results that leave a part alone -/

/-- Every result is one of `R`. -/
def Returns (R : α → Prop) : Prog σ ε α → Prop
  | .ret a => R a
  | .act _ _ k => ∀ s, Returns R (k s)
  | .diverge => True

/-- A result of `R` is only returned after actions that leave `f` alone. -/
def Leaves (f : σ → δ) (R : α → Prop) : Prog σ ε α → Prop
  | .ret _ => True
  | .act _ u k => ∀ s, Returns (fun a => ¬ R a) (k s) ∨ f (u s) = f s ∧ Leaves f R (k s)
  | .diverge => True

section Results

variable {f : σ → δ} {p : Prog σ ε α} {R : α → Prop}

theorem Returns.bind {g : α → Prog σ ε β} {R : β → Prop} (returns : ∀ a, Returns R (g a)) :
    Returns R (p >>= g) := by
  induction p with
  | ret a => exact returns a
  | act l u k ih => exact fun s => ih s
  | diverge => trivial

/-- A look at the state. -/
theorem Leaves.look {l : ε} {h : σ → β} {g : β → Prog σ ε α} (rest : ∀ x, Leaves f R (g x)) :
    Leaves f R (Prog.look l h >>= g) :=
  fun s => .inr ⟨rfl, rest (h s)⟩

/-- A store to something else. -/
theorem Leaves.write {l : ε} {u : σ → σ} {g : Unit → Prog σ ε α} (keeps : ∀ s, f (u s) = f s)
    (rest : Leaves f R (g ())) : Leaves f R (Prog.write l u >>= g) :=
  fun s => .inr ⟨keeps s, rest⟩

/-- A program that has no such result. -/
theorem Returns.leaves (returns : Returns (fun a => ¬ R a) p) : Leaves f R p := by
  cases p with
  | ret a => trivial
  | act l u k => exact fun s => .inl (returns s)
  | diverge => trivial

theorem Runs.returns {rely : σ → σ → Prop} {s s' : σ} {tr : List (σ × ε)} {a : α}
    (run : Runs rely p s tr a s') (returns : Returns R p) : R a := by
  induction run with
  | ret steps => exact returns
  | act steps _ ih => exact ih (returns _)

/-- A run with such a result changes the part as the environment alone could have. -/
theorem Runs.leaves {rely : σ → σ → Prop}
    (same : ∀ s s' t, rely s s' → f t = f s → ∃ t', rely t t' ∧ f t' = f s') {s s' : σ}
    {tr : List (σ × ε)} {a : α} (run : Runs rely p s tr a s') (leaves : Leaves f R p) (hR : R a) :
    ∃ t, ReflTransGen rely s t ∧ f t = f s' := by
  have follow : ∀ {s s' t : σ}, ReflTransGen rely s s' → f t = f s →
      ∃ t', ReflTransGen rely t t' ∧ f t' = f s' := by
    intro s s' t steps ht
    induction steps with
    | refl => exact ⟨t, .refl, ht⟩
    | tail _ step ih =>
        obtain ⟨t', steps', ht'⟩ := ih
        obtain ⟨t'', step', ht''⟩ := same _ _ _ step ht'
        exact ⟨t'', steps'.tail step', ht''⟩
  induction run with
  | ret steps => exact ⟨_, steps, rfl⟩
  | act steps rest ih =>
      rcases leaves _ with hnever | ⟨hkeeps, hrest⟩
      · exact absurd hR (rest.returns hnever)
      · obtain ⟨t, steps', ht⟩ := ih hrest hR
        obtain ⟨t', steps'', ht'⟩ := follow steps' hkeeps.symm
        exact ⟨t', steps.trans steps'', ht'.trans ht⟩

end Results

end XpNet.Interference
