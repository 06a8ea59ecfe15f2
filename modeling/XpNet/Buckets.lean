/-
Hash tables of linked nodes.

A table gives the chain of each bucket. A node carries its own link, so it is in
one chain at a time: adding puts it in front of a chain, deleting takes it out
of the chain it is in, wherever that is. `HashedAt t b p` says that `p` is in the
chain of `b` once and in no other chain, `Unhashed t p` that it is in none;
`OnlyMoves p t t'` says that the two tables differ in where `p` is and in nothing
else, which is all that adding and deleting `p` do.
-/

import Mathlib.Data.List.Basic
import Mathlib.Logic.Function.Basic

namespace XpNet

variable {κ ρ : Type} [DecidableEq κ] [DecidableEq ρ]

/-- The chains of a table of nodes `ρ`, by bucket. -/
abbrev Buckets (κ ρ : Type) := κ → List ρ

/-- `hash_add`. -/
def hashAdd (t : Buckets κ ρ) (b : κ) (p : ρ) : Buckets κ ρ := Function.update t b (p :: t b)

/-- `hash_del`. -/
def hashDel (t : Buckets κ ρ) (p : ρ) : Buckets κ ρ := fun b => (t b).filter (· ≠ p)

/-- The node is in no chain. -/
def Unhashed (t : Buckets κ ρ) (p : ρ) : Prop := ∀ b, p ∉ t b

/-- The node is in the chain of `b` once, and in no other chain. -/
def HashedAt (t : Buckets κ ρ) (b : κ) (p : ρ) : Prop :=
  (t b).count p = 1 ∧ ∀ c, c ≠ b → p ∉ t c

/-- Every node but `p` is as often in each chain of `t'` as in that of `t`. -/
def OnlyMoves (p : ρ) (t t' : Buckets κ ρ) : Prop :=
  ∀ q, q ≠ p → ∀ b, (t' b).count q = (t b).count q

variable {t t' : Buckets κ ρ} {b c : κ} {p q : ρ}

theorem onlyMoves_hashAdd (t : Buckets κ ρ) (b : κ) (p : ρ) : OnlyMoves p t (hashAdd t b p) := by
  intro q hq c
  unfold hashAdd
  by_cases hc : c = b
  · subst hc
    simp [Ne.symm hq]
  · simp [hc]

omit [DecidableEq κ] in
theorem onlyMoves_hashDel (t : Buckets κ ρ) (p : ρ) : OnlyMoves p t (hashDel t p) := by
  intro q hq c
  rw [hashDel, List.count_filter (by simpa using hq)]

/-- A node that was in no chain is in the one it is added to. -/
theorem hashedAt_hashAdd (h : Unhashed t p) : HashedAt (hashAdd t b p) b p := by
  constructor
  · have := List.count_eq_zero_of_not_mem (h b)
    simp [hashAdd, this]
  · intro c hc
    simp [hashAdd, hc, h c]

omit [DecidableEq κ] in
theorem unhashed_hashDel (t : Buckets κ ρ) (p : ρ) : Unhashed (hashDel t p) p := by
  intro b
  simp [hashDel]

section Moves

omit [DecidableEq κ]

theorem OnlyMoves.mem_iff (moves : OnlyMoves p t t') (hq : q ≠ p) (b : κ) :
    q ∈ t' b ↔ q ∈ t b := by
  rw [← List.count_pos_iff, ← List.count_pos_iff, moves q hq b]

theorem OnlyMoves.hashedAt (moves : OnlyMoves p t t') (hq : q ≠ p) (h : HashedAt t b q) :
    HashedAt t' b q := by
  constructor
  · rw [moves q hq b]
    exact h.1
  · intro c hc
    rw [moves.mem_iff hq]
    exact h.2 c hc

theorem OnlyMoves.unhashed (moves : OnlyMoves p t t') (hq : q ≠ p) (h : Unhashed t q) :
    Unhashed t' q := by
  intro c
  rw [moves.mem_iff hq]
  exact h c

theorem HashedAt.mem (h : HashedAt t b p) : p ∈ t b := by
  apply List.count_pos_iff.mp
  rw [h.1]
  exact Nat.one_pos

end Moves

/-! ### Nodes with a key -/

section Keys

variable {ν : Type} [DecidableEq ν] {hash : ν → κ} {key key' : ρ → ν}

/-- The nodes with a key, in the order in which its bucket has them. -/
def keyed (hash : ν → κ) (key : ρ → ν) (t : Buckets κ ρ) (n : ν) : List ρ :=
  (t (hash n)).filter fun q => key q = n

omit [DecidableEq κ] [DecidableEq ρ] in
/-- Only the keys of the nodes that are in a chain matter. -/
theorem keyed_congr {n : ν} (same : ∀ q ∈ t (hash n), key' q = key q) :
    keyed hash key' t n = keyed hash key t n := by
  apply List.filter_congr
  intro q hq
  rw [same q hq]

omit [DecidableEq κ] [DecidableEq ρ] in
theorem mem_of_mem_keyed {n : ν} (h : q ∈ keyed hash key t n) : q ∈ t (hash n) ∧ key q = n := by
  simpa [keyed] using h

omit [DecidableEq ρ] in
/-- A new node comes first among those with its key. -/
theorem keyed_hashAdd (new : Unhashed t p) (same : ∀ q, q ≠ p → key' q = key q) (n : ν) :
    keyed hash key' (hashAdd t (hash (key' p)) p) n =
      if key' p = n then p :: keyed hash key t n else keyed hash key t n := by
  have hold : keyed hash key' t n = keyed hash key t n := by
    apply keyed_congr
    intro q hq
    apply same
    rintro rfl
    exact new _ hq
  rw [← hold]
  unfold keyed hashAdd
  by_cases hn : key' p = n
  · subst hn
    rw [Function.update_self, if_pos rfl, List.filter_cons_of_pos (by simp)]
  · rw [if_neg hn]
    by_cases hb : hash n = hash (key' p)
    · rw [hb, Function.update_self, List.filter_cons_of_neg (by simpa using hn)]
    · rw [Function.update_of_ne hb]

omit [DecidableEq κ] in
theorem keyed_hashDel (same : ∀ q, q ≠ p → key' q = key q) (n : ν) :
    keyed hash key' (hashDel t p) n = (keyed hash key t n).filter (· ≠ p) := by
  unfold keyed hashDel
  rw [List.filter_filter, List.filter_filter]
  apply List.filter_congr
  intro q _
  by_cases hq : q = p
  · simp [hq]
  · simp [hq, same q hq]

end Keys

end XpNet
