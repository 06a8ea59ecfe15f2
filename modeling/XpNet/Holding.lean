/-
Resources that are obtained and released.

`useAll held uses` is what is held after some uses, or `none` when one of them releases
what is not held at that point. So `useAll [] uses = some []` says of the whole run that
each thing obtained has been released once for every time it was obtained, after that,
and nothing else.
-/

import Mathlib.Data.List.Basic

namespace XpNet

variable {R : Type}

/-- A thing is obtained or released. -/
inductive Use (R : Type) where
  | obtain (r : R)
  | release (r : R)
  deriving DecidableEq

variable [DecidableEq R]

/-- What is held after a use. -/
def Use.apply (held : List R) : Use R → Option (List R)
  | .obtain r => some (r :: held)
  | .release r => if r ∈ held then some (held.erase r) else none

/-- What is held after some uses. -/
def useAll (held : List R) : List (Use R) → Option (List R)
  | [] => some held
  | u :: uses => (u.apply held).bind fun held => useAll held uses

variable {held after : List R} {uses more : List (Use R)} {r : R}

@[simp] theorem useAll_nil : useAll held ([] : List (Use R)) = some held := rfl

@[simp] theorem useAll_obtain : useAll held (.obtain r :: uses) = useAll (r :: held) uses := rfl

theorem useAll_release (h : r ∈ held) :
    useAll held (.release r :: uses) = useAll (held.erase r) uses := by
  simp [useAll, Use.apply, h]

theorem useAll_release_absent (h : r ∉ held) : useAll held (.release r :: uses) = none := by
  simp [useAll, Use.apply, h]

theorem useAll_append :
    useAll held (uses ++ more) = (useAll held uses).bind fun held => useAll held more := by
  induction uses generalizing held with
  | nil => rfl
  | cons u uses ih =>
      rw [List.cons_append, useAll, useAll, Option.bind_assoc]
      congr 1
      funext held
      exact ih

theorem useAll_append_of (h : useAll held uses = some after) :
    useAll held (uses ++ more) = useAll after more := by
  rw [useAll_append, h]
  rfl

/-- What is held and not released stays held. -/
theorem mem_of_not_released (h : useAll held uses = some after) (hkept : .release r ∉ uses)
    (hmem : r ∈ held) : r ∈ after := by
  induction uses generalizing held with
  | nil =>
      cases h
      exact hmem
  | cons u uses ih =>
      obtain ⟨hhere, hlater⟩ := List.ne_and_not_mem_of_not_mem_cons hkept
      obtain ⟨next, happly, hrest⟩ := Option.bind_eq_some_iff.mp h
      refine ih hrest hlater ?_
      cases u with
      | obtain r' =>
          cases happly
          exact List.mem_cons_of_mem _ hmem
      | release r' =>
          have hne : r ≠ r' := fun heq => hhere (heq ▸ rfl)
          simp only [Use.apply] at happly
          split at happly
          · cases happly
            exact (List.mem_erase_of_ne hne).mpr hmem
          · cases happly

/-- What is obtained and not released is held in the end. -/
theorem mem_of_obtained (h : useAll held uses = some after) (hobtain : .obtain r ∈ uses)
    (hkept : .release r ∉ uses) : r ∈ after := by
  obtain ⟨before, rest, rfl⟩ := List.append_of_mem hobtain
  rw [useAll_append] at h
  obtain ⟨mid, -, hrest⟩ := Option.bind_eq_some_iff.mp h
  rw [useAll_obtain] at hrest
  refine mem_of_not_released hrest (fun hmem => hkept ?_) List.mem_cons_self
  exact List.mem_append_right _ (List.mem_cons_of_mem _ hmem)

/-- So it has not all been given back. -/
theorem not_settled_of_kept (hobtain : .obtain r ∈ uses) (hkept : .release r ∉ uses) :
    useAll held uses ≠ some [] := fun h =>
  absurd (mem_of_obtained h hobtain hkept) List.not_mem_nil

theorem useAll_obtains (rs : List R) :
    useAll held (rs.map Use.obtain) = some (rs.reverse ++ held) := by
  induction rs generalizing held with
  | nil => rfl
  | cons r rs ih =>
      rw [List.map_cons, useAll_obtain, ih, List.reverse_cons, List.append_assoc]
      rfl

/-- All that is held is released, in any order. -/
theorem useAll_releases {rs : List R} (h : held.Perm rs) :
    useAll held (rs.map Use.release) = some [] := by
  induction rs generalizing held with
  | nil => rw [List.map_nil, useAll_nil, h.eq_nil]
  | cons r rs ih =>
      rw [List.map_cons, useAll_release (h.symm.subset List.mem_cons_self)]
      have hrest := h.erase r
      rw [List.erase_cons_head] at hrest
      exact ih hrest

end XpNet
