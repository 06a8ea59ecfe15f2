/-
Two machines that answer alike.

A machine takes an input to an answer and its next state. `answers` are those to a list
of inputs and `after` is the state they lead to. A relation between the states of two
machines that every input keeps, and under which the answers agree, makes the answers to
every list of inputs agree (`Simulates.answers`, `Simulates.after`).
-/

import XpNet.Histories

namespace XpNet

variable {σ τ ι ω : Type}

/-- The answers to a list of inputs. -/
def answers (step : σ → ι → ω × σ) (s : σ) : List ι → List ω
  | [] => []
  | i :: rest => (step s i).1 :: answers step (step s i).2 rest

/-- The state after a list of inputs. -/
def after (step : σ → ι → ω × σ) (s : σ) (inputs : List ι) : σ :=
  history (fun s i => (step s i).2) s inputs

theorem answers_concat (step : σ → ι → ω × σ) (s : σ) (inputs : List ι) (i : ι) :
    answers step s (inputs ++ [i]) = answers step s inputs ++ [(step (after step s inputs) i).1] := by
  induction inputs generalizing s with
  | nil => rfl
  | cons j rest ih => exact congrArg (List.cons _) (ih (step s j).2)

theorem after_concat (step : σ → ι → ω × σ) (s : σ) (inputs : List ι) (i : ι) :
    after step s (inputs ++ [i]) = (step (after step s inputs) i).2 := history_concat inputs i

/-- Every answer is one to an input, in the state before it. -/
theorem mem_answers {step : σ → ι → ω × σ} {s : σ} {inputs : List ι} {a : ω}
    (mem : a ∈ answers step s inputs) :
    ∃ done i, done ++ [i] <+: inputs ∧ a = (step (after step s done) i).1 := by
  induction inputs generalizing s with
  | nil => exact absurd mem List.not_mem_nil
  | cons j rest ih =>
      rcases List.mem_cons.mp mem with here | later
      · exact ⟨[], j, ⟨rest, rfl⟩, here⟩
      · obtain ⟨done, i, ⟨suffix, parts⟩, same⟩ := ih later
        exact ⟨j :: done, i, ⟨suffix, congrArg (List.cons j) parts⟩, same⟩

/-- Related states answer alike, and go on to related states. -/
structure Simulates (R : σ → τ → Prop) (step : σ → ι → ω × σ) (step' : τ → ι → ω × τ) : Prop where
  answer : ∀ {s t}, R s t → ∀ i, (step s i).1 = (step' t i).1
  next : ∀ {s t}, R s t → ∀ i, R (step s i).2 (step' t i).2

section Runs

variable {R : σ → τ → Prop} {step : σ → ι → ω × σ} {step' : τ → ι → ω × τ} {s : σ} {t : τ}

theorem Simulates.answers (sim : Simulates R step step') (rel : R s t) (inputs : List ι) :
    answers step s inputs = answers step' t inputs := by
  induction inputs generalizing s t with
  | nil => rfl
  | cons i rest ih => exact congrArg₂ List.cons (sim.answer rel i) (ih (sim.next rel i))

theorem Simulates.after (sim : Simulates R step step') (rel : R s t) (inputs : List ι) :
    R (after step s inputs) (after step' t inputs) := by
  induction inputs generalizing s t with
  | nil => exact rel
  | cons i rest ih => exact ih (sim.next rel i)

/-- Machines that answer alike one input after another, where the inputs differ in what
does not matter to them. -/
theorem answers_congr {step : σ → ι → ω × σ} {same : ι → ι → Prop}
    (alike : ∀ s i j, same i j → step s i = step s j) {inputs inputs' : List ι}
    (pairs : List.Forall₂ same inputs inputs') (s : σ) :
    XpNet.answers step s inputs = XpNet.answers step s inputs' := by
  induction pairs generalizing s with
  | nil => rfl
  | cons hsame _ ih => rw [XpNet.answers, XpNet.answers, alike s _ _ hsame, ih]

end Runs

end XpNet
