/-
A ledger of resources: what has been obtained, in order, and what has been
released.

Each entry is named by its number. A ledger owes what was obtained and not yet
released: `Owes` keeps that as a multiset, so that a program's owners are added up
in any order, obtaining adds one owner and releasing takes one away. From a balance
follows that nothing has been released twice or as something else.
-/

import Mathlib.Algebra.BigOperators.Group.Multiset.Basic
import Mathlib.Data.List.Nodup

namespace XpNet

variable {R : Type}

/-- The resources obtained, and those released with the name of each. -/
structure Ledger (R : Type) where
  obtained : List R
  released : List (R × Nat)

namespace Ledger

/-- The ledger at the start. -/
def blank : Ledger R := ⟨[], []⟩

/-- A resource is obtained; its name is the number of its entry. -/
def obtain (l : Ledger R) (r : R) : Nat × Ledger R :=
  (l.obtained.length, { l with obtained := l.obtained ++ [r] })

/-- A resource is released. -/
def release (l : Ledger R) (r : R) (name : Nat) : Ledger R :=
  { l with released := (r, name) :: l.released }

/-- The names of what has been released. -/
def names (l : Ledger R) : List Nat := l.released.map Prod.snd

/-- Nothing has been released twice, or as something it was not obtained as. -/
structure Sound (l : Ledger R) : Prop where
  once : l.names.Nodup
  same : ∀ r name, (r, name) ∈ l.released → l.obtained[name]? = some r

/-- The resource has been obtained and not been released. -/
def Live (l : Ledger R) (r : R) (name : Nat) : Prop :=
  l.obtained[name]? = some r ∧ name ∉ l.names

/-- Everything obtained has been released. -/
def Settled (l : Ledger R) : Prop := ∀ name < l.obtained.length, name ∈ l.names

/-- What was obtained is what has been released and, beside it, `owned`. -/
def Owes (l : Ledger R) (owned : Multiset (R × Nat)) : Prop :=
  (l.released : Multiset (R × Nat)) + owned = (l.obtained.zipIdx : Multiset (R × Nat))

/-- Everything obtained after `l` has been released in `l'`, once. -/
def ReleasedSince (l l' : Ledger R) : Prop :=
  ∀ name, l.obtained.length ≤ name → name < l'.obtained.length → l'.names.count name = 1

/-- Everything released in `l` is released in `l'` too. -/
def Within (l l' : Ledger R) : Prop := l.released <:+ l'.released

section Balance

variable {l l' : Ledger R} {owned : Multiset (R × Nat)} {r : R} {name : Nat}

theorem owes_blank : (blank : Ledger R).Owes 0 := rfl

theorem Owes.obtain (owes : l.Owes owned) (r : R) :
    (l.obtain r).2.Owes ({(r, (l.obtain r).1)} + owned) := by
  unfold Owes Ledger.obtain at *
  rw [List.zipIdx_append, ← Multiset.coe_add, ← owes, add_comm {_} owned, ← add_assoc]
  simp

theorem Owes.release (owes : l.Owes ({(r, name)} + owned)) : (l.release r name).Owes owned := by
  unfold Owes Ledger.release at *
  rw [← owes, ← Multiset.cons_coe, ← Multiset.singleton_add]
  simp [add_comm, add_left_comm]

/-- The names of what was obtained are distinct, and so are those of the part that is
released or owed. -/
theorem Owes.nodup (owes : l.Owes owned) :
    ((l.released : Multiset (R × Nat)) + owned).map Prod.snd |>.Nodup := by
  rw [owes, Multiset.map_coe, Multiset.coe_nodup, List.zipIdx_map_snd]
  exact List.nodup_range'

theorem Owes.sound (owes : l.Owes owned) : l.Sound where
  once := by
    have hnodup := owes.nodup
    rw [Multiset.map_add] at hnodup
    simpa [names] using (Multiset.nodup_add.mp hnodup).1
  same := by
    intro r name hmem
    have hobtained : (r, name) ∈ (l.obtained.zipIdx : Multiset (R × Nat)) := by
      rw [← owes]
      exact Multiset.mem_add.mpr (Or.inl hmem)
    exact List.mem_zipIdx_iff_getElem?.mp hobtained

theorem Owes.live (owes : l.Owes owned) (hmem : (r, name) ∈ owned) : l.Live r name := by
  constructor
  · have hobtained : (r, name) ∈ (l.obtained.zipIdx : Multiset (R × Nat)) := by
      rw [← owes]
      exact Multiset.mem_add.mpr (Or.inr hmem)
    exact List.mem_zipIdx_iff_getElem?.mp hobtained
  · have hnodup := owes.nodup
    rw [Multiset.map_add] at hnodup
    intro hreleased
    exact Multiset.disjoint_left.mp (Multiset.nodup_add.mp hnodup).2.2
      (by simpa [names] using hreleased) (Multiset.mem_map.mpr ⟨_, hmem, rfl⟩)

theorem Owes.settled (owes : l.Owes 0) : l.Settled := by
  intro name hlt
  have hmem : (l.obtained[name], name) ∈ (l.obtained.zipIdx : Multiset (R × Nat)) :=
    List.mem_zipIdx_iff_getElem?.mpr (List.getElem?_eq_getElem hlt)
  rw [← owes, add_zero] at hmem
  exact List.mem_map.mpr ⟨_, hmem, rfl⟩

/-- A ledger that nothing has been released from twice owes what is left. -/
theorem Sound.owes [DecidableEq R] (sound : l.Sound) :
    l.Owes ((l.obtained.zipIdx : Multiset (R × Nat)) - l.released) := by
  have hnodup : (l.released : Multiset (R × Nat)).Nodup :=
    Multiset.coe_nodup.mpr (List.Nodup.of_map Prod.snd sound.once)
  refine add_tsub_cancel_of_le ((Multiset.le_iff_subset hnodup).mpr fun entry hmem => ?_)
  exact List.mem_zipIdx_iff_getElem?.mpr (sound.same entry.1 entry.2 (Multiset.mem_coe.mp hmem))

/-- Each entry has been released or is owed, once. -/
theorem Owes.count (owes : l.Owes owned) (hname : name < l.obtained.length) :
    l.names.count name + (owned.map Prod.snd).count name = 1 := by
  have hnames : (l.names : Multiset Nat) + owned.map Prod.snd = List.range l.obtained.length := by
    have hmap := congrArg (Multiset.map Prod.snd) owes
    rwa [Multiset.map_add, Multiset.map_coe, Multiset.map_coe, List.zipIdx_map_snd,
      ← List.range_eq_range'] at hmap
  rw [← Multiset.coe_count, ← Multiset.count_add, hnames, Multiset.coe_count]
  exact List.count_eq_one_of_mem List.nodup_range (List.mem_range.mpr hname)

/-- What is owed has been obtained. -/
theorem Owes.lt_of_mem (owes : l.Owes owned) (hmem : name ∈ owned.map Prod.snd) :
    name < l.obtained.length := by
  obtain ⟨⟨r, n⟩, hentry, rfl⟩ := Multiset.mem_map.mp hmem
  exact (List.getElem?_eq_some_iff.mp (owes.live hentry).1).1

/-- When as much is owed as before, everything obtained since is released. -/
theorem Owes.releasedSince (owes : l.Owes owned) (owes' : l'.Owes owned) : ReleasedSince l l' := by
  intro name hsince hname
  have hnot : name ∉ owned.map Prod.snd := fun hmem =>
    absurd (owes.lt_of_mem hmem) (Nat.not_lt.mpr hsince)
  have hcount := owes'.count hname
  rwa [Multiset.count_eq_zero_of_notMem hnot, add_zero] at hcount

/-! ### What cannot be undone -/

theorem Within.refl (l : Ledger R) : l.Within l := List.suffix_refl _

theorem Within.trans {l'' : Ledger R} (h : l.Within l') (h' : l'.Within l'') : l.Within l'' :=
  List.IsSuffix.trans h h'

theorem within_obtain (l : Ledger R) (r : R) : l.Within (l.obtain r).2 := List.suffix_refl _

theorem within_release (l : Ledger R) (r : R) (name : Nat) : l.Within (l.release r name) :=
  List.suffix_cons _ _

theorem Within.names (h : l.Within l') (hmem : name ∈ l.names) : name ∈ l'.names :=
  (h.map Prod.snd).subset hmem

/-- A resource that was released and is released again. -/
theorem not_sound_of_release (hmem : name ∈ l.names) (h : (l.release r name).Within l') :
    ¬ l'.Sound := by
  intro sound
  have hnodup := (h.map Prod.snd).sublist.nodup sound.once
  exact (List.nodup_cons.mp hnodup).1 hmem

end Balance

end Ledger

end XpNet
