/-
A registry of names, each with a number it may be linked to and a header it may have.

A number can have several names linked to it; the one linked last holds it (`holder`),
and when that one is unlinked or deleted the number falls back to the one linked before.
The lists of `linkedTo` and the entries say the same: that is a field, so that no
registry in which they differ can be built.
-/

import Mathlib.Data.List.Basic
import Mathlib.Data.List.Nodup
import Mathlib.Logic.Function.Basic

namespace XpNet

/-- What is registered under a name. -/
structure Registration (ν η : Type) where
  num : Option ν
  header : Option η

/-- The registered names, and the names linked to each number, newest link first. -/
@[ext]
structure Registry (ι ν η : Type) where
  entry : ι → Option (Registration ν η)
  linkedTo : ν → List ι
  nodup : ∀ n, (linkedTo n).Nodup
  mem_linkedTo : ∀ n i, i ∈ linkedTo n ↔ ∃ e, entry i = some e ∧ e.num = some n

variable {ι ν η : Type} [DecidableEq ι] [DecidableEq ν]

namespace Registry

/-- The name that a number goes to. -/
def holder (reg : Registry ι ν η) (n : ν) : Option ι := (reg.linkedTo n).head?

def empty : Registry ι ν η where
  entry _ := none
  linkedTo _ := []
  nodup _ := List.nodup_nil
  mem_linkedTo n i := by simp

section Operations

variable (reg : Registry ι ν η) (i : ι)

/-- A new name, neither linked nor with a header; a name that is there stays as it is. -/
def create : Registry ι ν η where
  entry := if (reg.entry i).isSome then reg.entry
    else Function.update reg.entry i (some ⟨none, none⟩)
  linkedTo := reg.linkedTo
  nodup := reg.nodup
  mem_linkedTo n j := by
    rw [reg.mem_linkedTo]
    split
    · rfl
    · rename_i hnew
      by_cases hj : j = i
      · subst hj
        simp only [Bool.not_eq_true, Option.isSome_eq_false_iff, Option.isNone_iff_eq_none] at hnew
        simp [hnew]
      · rw [Function.update_of_ne hj]

omit [DecidableEq ν] in
theorem create_of_isSome (h : (reg.entry i).isSome) : reg.create i = reg := by
  unfold create
  simp only [h, if_true]

omit [DecidableEq ν] in
theorem entry_create (h : reg.entry i = none) :
    (reg.create i).entry = Function.update reg.entry i (some ⟨none, none⟩) := by
  simp [create, h]

/-- The name and its links are gone. -/
def delete : Registry ι ν η where
  entry := Function.update reg.entry i none
  linkedTo n := (reg.linkedTo n).filter (· ≠ i)
  nodup n := (reg.nodup n).filter _
  mem_linkedTo n j := by
    rw [List.mem_filter, reg.mem_linkedTo]
    by_cases hj : j = i
    · simp [hj]
    · simp [hj]

/-- The name is linked to no number. -/
def unlink : Registry ι ν η where
  entry := Function.update reg.entry i ((reg.entry i).map fun e => { e with num := none })
  linkedTo n := (reg.linkedTo n).filter (· ≠ i)
  nodup n := (reg.nodup n).filter _
  mem_linkedTo n j := by
    rw [List.mem_filter, reg.mem_linkedTo]
    by_cases hj : j = i
    · subst hj
      cases reg.entry j <;> simp
    · simp [hj]

omit [DecidableEq ν] in
/-- A name that is not there has no links to lose. -/
theorem unlink_of_none (h : reg.entry i = none) : reg.unlink i = reg := by
  have hentry : (reg.unlink i).entry = reg.entry := by
    change Function.update reg.entry i _ = _
    rw [h, Option.map_none, ← h, Function.update_eq_self]
  have hlinks : (reg.unlink i).linkedTo = reg.linkedTo := by
    funext n
    apply List.filter_eq_self.mpr
    intro j hj
    obtain ⟨e, hj, -⟩ := (reg.mem_linkedTo n j).mp hj
    rw [decide_eq_true_iff]
    rintro rfl
    rw [h] at hj
    cases hj
  exact Registry.ext hentry hlinks

/-- The name has the header, or none. -/
def setHeader (header : Option η) : Registry ι ν η where
  entry := Function.update reg.entry i ((reg.entry i).map fun e => { e with header := header })
  linkedTo := reg.linkedTo
  nodup := reg.nodup
  mem_linkedTo n j := by
    rw [reg.mem_linkedTo]
    by_cases hj : j = i
    · subst hj
      cases reg.entry j <;> simp
    · simp [hj]

omit [DecidableEq ν] in
theorem setHeader_of_none (header : Option η) (h : reg.entry i = none) :
    reg.setHeader i header = reg := by
  have hentry : (reg.setHeader i header).entry = reg.entry := by
    change Function.update reg.entry i _ = _
    rw [h, Option.map_none, ← h, Function.update_eq_self]
  exact Registry.ext hentry rfl

/-- A registered name without a number. -/
def Free : Prop := ∃ e, reg.entry i = some e ∧ e.num = none

omit [DecidableEq ι] [DecidableEq ν] in
theorem free_iff : reg.Free i ↔ (reg.entry i).any fun e => e.num.isNone := by
  rw [Option.any_eq_true_iff_get]
  simp [Free, Option.eq_some_iff_get_eq]

instance decidableFree : Decidable (reg.Free i) := decidable_of_iff' _ (reg.free_iff i)

/-- A name without a number is linked to the number, in front of those that are. -/
def link (n : ν) (free : reg.Free i) : Registry ι ν η where
  entry := Function.update reg.entry i ((reg.entry i).map fun e => { e with num := some n })
  linkedTo := Function.update reg.linkedTo n (i :: reg.linkedTo n)
  nodup m := by
    by_cases hm : m = n
    · subst hm
      obtain ⟨e, hentry, hnum⟩ := free
      rw [Function.update_self, List.nodup_cons, reg.mem_linkedTo]
      refine ⟨?_, reg.nodup m⟩
      rintro ⟨e', hentry', hnum'⟩
      rw [hentry, Option.some.injEq] at hentry'
      subst hentry'
      rw [hnum] at hnum'
      cases hnum'
    · rw [Function.update_of_ne hm]
      exact reg.nodup m
  mem_linkedTo m j := by
    obtain ⟨e, hentry, hnum⟩ := free
    by_cases hj : j = i
    · subst hj
      by_cases hm : m = n
      · subst hm
        simp [hentry]
      · have hold : j ∉ reg.linkedTo m := by
          rw [reg.mem_linkedTo]
          rintro ⟨e', hentry', hnum'⟩
          rw [hentry, Option.some.injEq] at hentry'
          subst hentry'
          rw [hnum] at hnum'
          cases hnum'
        simp [hm, hold, hentry, Ne.symm hm]
    · rw [Function.update_of_ne hj, ← reg.mem_linkedTo]
      by_cases hm : m = n
      · subst hm
        simp [hj]
      · rw [Function.update_of_ne hm]

end Operations

end Registry

end XpNet
