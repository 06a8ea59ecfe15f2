/-
Histories: a machine that takes one input after another.

`history step s inputs` is the state after a list of inputs. A property of all
its states is either kept by every input (`history_invariant`), or lost at the
first input of a certain kind: then the histories that keep it are exactly those
without such an input (`history_iff`).
-/

import Mathlib.Data.List.Induction

namespace XpNet

variable {σ ι : Type}

/-- The state after a list of inputs. -/
def history (step : σ → ι → σ) (s : σ) (inputs : List ι) : σ := inputs.foldl step s

variable {step : σ → ι → σ} {s : σ}

@[simp] theorem history_nil : history step s [] = s := rfl

@[simp] theorem history_concat (inputs : List ι) (i : ι) :
    history step s (inputs ++ [i]) = step (history step s inputs) i := by
  simp [history]

/-- What every input keeps holds after every history. -/
theorem history_invariant {I : σ → Prop} (base : I s) (keeps : ∀ s i, I s → I (step s i))
    (inputs : List ι) : I (history step s inputs) := by
  induction inputs using List.reverseRecOn with
  | nil => exact base
  | append_singleton done i ih =>
      rw [history_concat]
      exact keeps _ i ih

/-- What every input of a kind keeps holds after every history of such inputs. -/
theorem history_invariant_of {I : σ → Prop} {G : σ → ι → Prop} (base : I s)
    (keeps : ∀ s i, I s → G s i → I (step s i)) {inputs : List ι}
    (good : ∀ done i, done ++ [i] <+: inputs → G (history step s done) i) :
    ∀ done, done <+: inputs → I (history step s done) := by
  intro done
  induction done using List.reverseRecOn with
  | nil => exact fun _ => base
  | append_singleton done i ih =>
      intro hbefore
      rw [history_concat]
      exact keeps _ i (ih ((List.prefix_append _ _).trans hbefore)) (good done i hbefore)

/-- A property with an invariant that good inputs keep, and that the first input
which is not good breaks: it holds in all states of a history exactly when all
inputs are good. -/
theorem history_iff {I P : σ → Prop} {G : σ → ι → Prop} (base : I s)
    (holds : ∀ s, I s → P s) (keeps : ∀ s i, I s → G s i → I (step s i))
    (breaks : ∀ s i, I s → ¬ G s i → ¬ P (step s i)) (inputs : List ι) :
    (∀ done, done <+: inputs → P (history step s done)) ↔
      ∀ done i, done ++ [i] <+: inputs → G (history step s done) i := by
  constructor
  · intro hall
    have hinv : ∀ done, done <+: inputs → I (history step s done) := by
      intro done
      induction done using List.reverseRecOn with
      | nil => exact fun _ => base
      | append_singleton done i ih =>
          intro hbefore
          have hdone := ih ((List.prefix_append _ _).trans hbefore)
          have hnext := hall _ hbefore
          rw [history_concat] at hnext ⊢
          by_contra hlost
          exact breaks _ i hdone (fun hgood => hlost (keeps _ i hdone hgood)) hnext
    intro done i hbefore
    have hnext := hall _ hbefore
    rw [history_concat] at hnext
    by_contra hbad
    exact breaks _ i (hinv done ((List.prefix_append _ _).trans hbefore)) hbad hnext
  · intro hgood done hbefore
    exact holds _ (history_invariant_of base keeps hgood done hbefore)

/-- A property that an input keeps exactly when it is good. -/
theorem history_keeps_iff {I : σ → Prop} {G : σ → ι → Prop} (base : I s)
    (keeps : ∀ s i, I s → (I (step s i) ↔ G s i)) (inputs : List ι) :
    (∀ done, done <+: inputs → I (history step s done)) ↔
      ∀ done i, done ++ [i] <+: inputs → G (history step s done) i :=
  history_iff base (fun _ holds => holds) (fun s i holds good => (keeps s i holds).mpr good)
    (fun s i holds bad after => bad ((keeps s i holds).mp after)) inputs

/-- A promise about every step of a history, which is kept exactly by good inputs when
the invariant holds before: all steps keep it exactly when all inputs are good. -/
theorem history_steps_iff {I : σ → Prop} {P G : σ → ι → Prop} (base : I s)
    (keeps : ∀ s i, I s → G s i → I (step s i)) (exact : ∀ s i, I s → (P s i ↔ G s i))
    (inputs : List ι) :
    (∀ done i, done ++ [i] <+: inputs → P (history step s done) i) ↔
      ∀ done i, done ++ [i] <+: inputs → G (history step s done) i := by
  constructor
  · intro promised
    have hinv : ∀ done, done <+: inputs → I (history step s done) :=
      history_invariant_of base (fun s i holds kept => keeps s i holds ((exact s i holds).mp kept))
        promised
    exact fun done i hbefore => (exact _ i (hinv done ((List.prefix_append _ _).trans hbefore))).mp
      (promised done i hbefore)
  · intro good done i hbefore
    have hinv := history_invariant_of base keeps good done ((List.prefix_append _ _).trans hbefore)
    exact (exact _ i hinv).mpr (good done i hbefore)

/-- What holds of the next input after every part of a history holds of all its
inputs. -/
theorem forall_next_iff {p : ι → Prop} {inputs : List ι} :
    (∀ done i, done ++ [i] <+: inputs → p i) ↔ ∀ i ∈ inputs, p i := by
  constructor
  · intro hnext i hi
    obtain ⟨done, rest, rfl⟩ := List.append_of_mem hi
    exact hnext done i ⟨rest, by simp⟩
  · intro hall done i hbefore
    exact hall i (hbefore.subset (List.mem_append_right _ (List.mem_singleton_self i)))

end XpNet
