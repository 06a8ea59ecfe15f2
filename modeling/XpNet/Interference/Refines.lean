/-
A program on a part of a larger state.

`Prog.embed` runs a program on a part of the state, with some code of the larger
program before each of its actions. `Refines get R p q` says that `p` does to the part
`get` what `q` does, with actions of its own in between that leave the part alone; `R`
relates the results. It holds at sequencing points (`Refines.bind`) and of an embedded
program (`Refines.embed`), and every run of `p` is then a run of `q` on the part
(`Refines.runs`).
-/

import XpNet.Interference.Trace

namespace XpNet.Interference

open Relation (ReflTransGen)

variable {σ τ ε ε' α β α' β' : Type}

/-- A result that may not come. -/
def Prog.ofOption : Option α → Prog σ ε α
  | some a => .ret a
  | none => .diverge

/-- Run a program on the part `get` of the state: `before` is what goes before each of its
actions, and `lab` is what the action itself shows. -/
def Prog.embed (get : σ → τ) (set : τ → σ → σ) (lab : ε') (before : ε → Prog σ ε' Unit) :
    Prog τ ε α → Prog σ ε' α
  | .ret a => .ret a
  | .act l u k => before l >>= fun _ =>
      .act lab (fun s => set (u (get s)) s) fun s => (k (get s)).embed get set lab before
  | .diverge => .diverge

theorem Prog.embed_bind {get : σ → τ} {set : τ → σ → σ} {lab : ε'}
    {before : ε → Prog σ ε' Unit} (p : Prog τ ε α) (f : α → Prog τ ε β) :
    (p >>= f).embed get set lab before =
      p.embed get set lab before >>= fun a => (f a).embed get set lab before := by
  induction p with
  | ret a => rfl
  | act l u k ih =>
      rw [Prog.act_bind, Prog.embed, Prog.embed, Prog.bind_assoc]
      congr
      funext _
      rw [Prog.act_bind]
      congr
      funext s
      exact ih (get s)
  | diverge => rfl

/-- Every action of `p` is one that `q` takes next, or leaves the part alone. -/
inductive Refines (get : σ → τ) (R : α → β → Prop) : Prog σ ε α → Prog τ ε' β → Prop where
  | ret {a b} : R a b → Refines get R (.ret a) (.ret b)
  | diverge : Refines get R .diverge .diverge
  | skip {l u k q} : (∀ s, get (u s) = get s) → (∀ s, Refines get R (k s) q) →
      Refines get R (.act l u k) q
  | act {l u k l' v m} : (∀ s, get (u s) = v (get s)) → (∀ s, Refines get R (k s) (m (get s))) →
      Refines get R (.act l u k) (.act l' v m)

section Rules

variable {get : σ → τ} {R : α → β → Prop} {R' : α' → β' → Prop} {p : Prog σ ε α} {q : Prog τ ε' β}

/-- Sequencing. -/
theorem Refines.bind {f : α → Prog σ ε α'} {g : β → Prog τ ε' β'} (first : Refines get R p q)
    (second : ∀ a b, R a b → Refines get R' (f a) (g b)) : Refines get R' (p >>= f) (q >>= g) := by
  induction first with
  | ret related => exact second _ _ related
  | diverge => exact .diverge
  | skip same _ ih => exact .skip same ih
  | act same _ ih => exact .act same ih

/-- Code of the larger program, before what refines. -/
theorem Refines.after {first : Prog σ ε α'} {f : α' → Prog σ ε α} {q : Prog τ ε' β}
    (alone : Always (fun _ u => ∀ s, get (u s) = get s) first)
    (second : ∀ a, Refines get R (f a) q) : Refines get R (first >>= f) q := by
  induction first with
  | ret a => exact second a
  | act l u k ih => exact .skip alone.1 fun s => ih s (alone.2 s)
  | diverge => exact alone.elim

/-- Code of the larger program, after what refines. -/
theorem Refines.andThen {k : α → Prog σ ε α'} (refines : Refines get R p q)
    (alone : ∀ a, Always (fun _ u => ∀ s, get (u s) = get s) (k a)) :
    Refines get R (do
      let a ← p
      let _ ← k a
      pure a) q := by
  induction refines with
  | @ret a b related =>
      change Refines get R (k a >>= fun _ => Prog.ret a) (Prog.ret b)
      exact .after (alone a) fun _ => .ret related
  | diverge => exact .diverge
  | skip same _ ih => exact .skip same ih
  | act same _ ih => exact .act same ih

/-- An embedded program refines the program itself. -/
theorem Refines.embed {set : τ → σ → σ} {lab : ε'} {before : ε → Prog σ ε' Unit}
    (get_set : ∀ t s, get (set t s) = t)
    (alone : ∀ l, Always (fun _ u => ∀ s, get (u s) = get s) (before l)) (p : Prog τ ε α) :
    Refines get Eq (p.embed get set lab before) p := by
  induction p with
  | ret a => exact .ret rfl
  | act l u k ih =>
      apply Refines.after (alone l)
      intro _
      exact .act (fun s => get_set _ s) fun s => ih (get s)
  | diverge => exact .diverge

/-- A run of the larger program is a run of the other on its part. -/
theorem Refines.runs {rely : σ → σ → Prop} {rely' : τ → τ → Prop} {s s' : σ}
    {tr : List (σ × ε)} {a : α} (refines : Refines get R p q) (run : Runs rely p s tr a s')
    (moves : ∀ s s', rely s s' → ReflTransGen rely' (get s) (get s')) :
    ∃ b tr', Runs rely' q (get s) tr' b (get s') ∧ R a b := by
  have steps : ∀ {s s'}, ReflTransGen rely s s' → ReflTransGen rely' (get s) (get s') := by
    intro s s' h
    induction h with
    | refl => exact .refl
    | tail _ step ih => exact ih.trans (moves _ _ step)
  induction refines generalizing s tr with
  | ret related =>
      cases run with
      | ret later => exact ⟨_, [], .ret (steps later), related⟩
  | diverge => cases run
  | skip same _ ih =>
      cases run with
      | act first rest =>
          obtain ⟨b, tr', run', related⟩ := ih _ rest
          rw [same] at run'
          exact ⟨b, tr', run'.before (steps first), related⟩
  | act same _ ih =>
      cases run with
      | act first rest =>
          obtain ⟨b, tr', run', related⟩ := ih _ rest
          rw [same] at run'
          exact ⟨b, _, .act (steps first) run', related⟩

end Rules

end XpNet.Interference
