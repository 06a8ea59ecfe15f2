/-
Objects that go through stages.

Each object is in a stage, and an operation takes an object from one stage to another or
is not allowed in it. A list of calls is allowed when each call is, at the stage that the
calls before it leave its object in (`performAll`). Calls on one object change that one
alone (`performAll_one`), and a loop over distinct objects takes each of them through the
same operations (`performAll_each`).
-/

import Mathlib.Data.List.Nodup
import Mathlib.Logic.Function.Basic

namespace XpNet

variable {ρ ς ο : Type} [DecidableEq ρ] {next : ς → ο → Option ς} {stages : ρ → ς}

/-- One call of an operation on an object. -/
def perform (next : ς → ο → Option ς) (stages : ρ → ς) (call : ρ × ο) : Option (ρ → ς) :=
  (next (stages call.1) call.2).map (Function.update stages call.1)

/-- The stages after a list of calls, if all of them are allowed. -/
def performAll (next : ς → ο → Option ς) (stages : ρ → ς) (calls : List (ρ × ο)) :
    Option (ρ → ς) := calls.foldlM (perform next) stages

@[simp] theorem performAll_nil : performAll next stages [] = some stages := rfl

theorem performAll_append (calls calls' : List (ρ × ο)) :
    performAll next stages (calls ++ calls') =
      (performAll next stages calls).bind fun stages => performAll next stages calls' := by
  simp [performAll, List.foldlM_append]

/-- The calls on one object take it through its stages. -/
theorem performAll_one (p : ρ) (ops : List ο) :
    performAll next stages (ops.map fun op => (p, op)) =
      (ops.foldlM next (stages p)).map (Function.update stages p) := by
  induction ops generalizing stages with
  | nil => simp [Function.update_eq_self]
  | cons op ops ih =>
    unfold performAll at ih ⊢
    rw [List.map_cons, List.foldlM_cons, List.foldlM_cons, perform]
    cases hnext : next (stages p) op with
    | none => rfl
    | some stage =>
      change List.foldlM (perform next) (Function.update stages p stage) _ = _
      rw [ih, Function.update_self]
      change _ = (ops.foldlM next stage).map _
      congr 1
      funext stage'
      exact Function.update_idem ..

/-- A loop over distinct objects in one stage. -/
theorem performAll_each {a b : ς} {ops : List ο} (run : ops.foldlM next a = some b)
    {ps : List ρ} (distinct : ps.Nodup) (here : ∀ p ∈ ps, stages p = a) :
    performAll next stages (ps.flatMap fun p => ops.map fun op => (p, op)) =
      some fun p => if p ∈ ps then b else stages p := by
  induction ps generalizing stages with
  | nil => simp
  | cons p ps ih =>
    obtain ⟨hnew, distinct⟩ := List.nodup_cons.mp distinct
    have hrest : ∀ q ∈ ps, Function.update stages p b q = a := by
      intro q hq
      have hqp : q ≠ p := by
        rintro rfl
        exact hnew hq
      rw [Function.update_of_ne hqp]
      exact here q (List.mem_cons_of_mem _ hq)
    rw [List.flatMap_cons, performAll_append, performAll_one, here p List.mem_cons_self, run]
    change performAll next (Function.update stages p b) _ = _
    rw [ih distinct hrest, Option.some.injEq]
    funext q
    by_cases hqp : q = p
    · subst hqp
      simp [hnew]
    · simp [hqp]

/-- Calls that leave their objects in the stage they are in. -/
theorem performAll_stay {calls : List (ρ × ο)}
    (stay : ∀ c ∈ calls, next (stages c.1) c.2 = some (stages c.1)) :
    performAll next stages calls = some stages := by
  induction calls with
  | nil => rfl
  | cons c calls ih =>
    have hfirst : perform next stages c = some stages := by
      rw [perform, stay c List.mem_cons_self, Option.map_some, Function.update_eq_self]
    unfold performAll at ih ⊢
    rw [List.foldlM_cons, hfirst]
    exact ih fun c hc => stay c (List.mem_cons_of_mem _ hc)

end XpNet
