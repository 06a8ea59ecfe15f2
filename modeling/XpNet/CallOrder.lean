/-
The order of the calls in a list: what has been called when.

A function that makes one call after another is interrupted somewhere: the calls
made so far are a beginning of its list. `Before calls a b` says that `a` is among
them whenever `b` is.
-/

import Mathlib.Data.List.Induction

namespace XpNet

variable {α β : Type} {a b : α} {xs ys done : List α}

/-- A beginning of `xs ++ ys` is one of `xs`, or it goes on into `ys`. -/
theorem begins_append (h : done <+: xs ++ ys) :
    done <+: xs ∨ ∃ more, done = xs ++ more ∧ more <+: ys := by
  obtain ⟨left, heq⟩ := h
  rcases List.append_eq_append_iff.mp heq with ⟨mid, rfl, rfl⟩ | ⟨mid, rfl, rfl⟩
  · exact .inl ⟨mid, rfl⟩
  · exact .inr ⟨mid, rfl, left, rfl⟩

/-- Whenever `b` has been called, `a` has. -/
def Before (calls : List α) (a b : α) : Prop := ∀ done, done <+: calls → b ∈ done → a ∈ done

theorem before_of_not_mem (h : b ∉ xs) : Before xs a b :=
  fun _ hbegin hb => absurd (hbegin.subset hb) h

/-- The first call comes before all others. -/
theorem before_head : Before (a :: xs) a b := by
  intro done hbegin hb
  cases done with
  | nil => cases hb
  | cons c done =>
      obtain ⟨rfl, -⟩ := List.cons_prefix_cons.mp hbegin
      exact List.mem_cons_self

theorem Before.append (first : Before xs a b) (second : Before ys a b) :
    Before (xs ++ ys) a b := by
  intro done hbegin hb
  rcases begins_append hbegin with hshort | ⟨more, rfl, hmore⟩
  · exact first done hshort hb
  · rcases List.mem_append.mp hb with hb | hb
    · exact List.mem_append_left _ (first xs (List.prefix_refl _) hb)
    · exact List.mem_append_right _ (second more hmore hb)

/-- What is called in the first part comes before what is called only in the second. -/
theorem before_append (ha : a ∈ xs) (hb : b ∉ xs) : Before (xs ++ ys) a b := by
  intro done hbegin hmem
  rcases begins_append hbegin with hshort | ⟨more, rfl, -⟩
  · exact absurd (hshort.subset hmem) hb
  · exact List.mem_append_left _ ha

/-- The calls of a loop, when `b` is called in one round only. -/
theorem before_flatMap {f : β → List α} {i : β} (own : ∀ j, b ∈ f j → j = i)
    (round : Before (f i) a b) : ∀ is : List β, Before (is.flatMap f) a b
  | [] => before_of_not_mem (by simp)
  | j :: is => by
      rw [List.flatMap_cons]
      refine Before.append ?_ (before_flatMap own round is)
      by_cases hj : b ∈ f j
      · cases own j hj
        exact round
      · exact before_of_not_mem hj

end XpNet
