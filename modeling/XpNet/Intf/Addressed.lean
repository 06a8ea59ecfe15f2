/-
Which linked interfaces the receive side can reach.

A port and a bridge domain are looked up by their number. The number of a LAG is in the
table too, but the code looks up the port of a frame from a LAG, which is a byte. And of
several interfaces with one number the lookup stops at the first in the bucket, which is
the one linked last. So a linked interface is sent some frame exactly when it is not a
LAG and none in front of it has its number (`receives_iff`).
-/

import XpNet.Intf.Links

namespace XpNet.Intf

/-- The frame has a header, with the number as its ingress vif or, for a router
interface, as its bridge domain. -/
def AddressedTo (type : XpNetdevType) (num : UInt32) (skb : RxSkb) : Prop :=
  24 ≤ skb.len ∧
    match type with
    | .router => (rxFields skb.bytes).bdId + 65536 = num.toNat
    | _ => (rxFields skb.bytes).ingressVif = num.toNat

/-- On the NETDEV channel, with memory for the buffers, the frame goes to interface `p`. -/
def GoesTo (hashMin : UInt32 → Bucket) (drv : Driver) (skb : RxSkb) (p : Nat) : Prop :=
  ∃ bytes, .netifRx p bytes ∈ (xpRxSkbNetdevProcess hashMin (fun _ => true) (xpRxSkbInfoGet skb) skb
    { RxHost.start with driver := drv }).1

/-- No interface in front of `p` in its bucket has its number. -/
def FirstInBucket (hashMin : UInt32 → Bucket) (st : Interfaces) (p : Nat) : Prop :=
  ∃ front back, st.xpActiveNetdevHtable (hashMin (st.priv p).vif) = front ++ p :: back ∧
    ∀ q ∈ front, (st.priv q).vif ≠ (st.priv p).vif

section Addressed

variable {hashMin : UInt32 → Bucket} {drv : Driver} {st : Interfaces} {skb : RxSkb} {p : Nat}

/-- The lookup of its number stops at the first one. -/
theorem firstInBucket_iff :
    FirstInBucket hashMin st p ↔ findActive hashMin st (st.priv p).vif = some p := by
  unfold FirstInBucket findActive
  rw [List.find?_eq_some_iff_append]
  constructor
  · rintro ⟨front, back, hbucket, hfront⟩
    exact ⟨by simp, front, back, hbucket, fun q hq => by simpa using hfront q hq⟩
  · rintro ⟨-, front, back, hbucket, hfront⟩
    exact ⟨front, back, hbucket, fun q hq => by simpa using hfront q hq⟩

theorem mem_handedTo {granted : Bool} {q : Option Nat} {bytes bytes' : List UInt8} :
    .netifRx p bytes ∈ handedTo granted q bytes' → q = some p := by
  unfold handedTo
  cases granted <;> cases q <;> simp_all

/-- A frame goes where one of its two lookups stops. -/
theorem goesTo_iff : GoesTo hashMin drv skb p ↔
    foundByVif hashMin drv.interfaces (xpRxSkbInfoGet skb) = some p ∨
      findActive hashMin drv.interfaces (xpRxSkbInfoGet skb).rifId = some p := by
  unfold GoesTo
  rw [netdevProcess_events]
  constructor
  · rintro ⟨bytes, hmem⟩
    rcases List.mem_append.mp hmem with hmem | hmem
    · rcases List.mem_append.mp hmem with hmem | hmem
      · unfold mirrorFrame xpRxSkbFdProcess at hmem
        split at hmem
        · split at hmem <;> simp at hmem
        · cases hmem
      · exact .inl (mem_handedTo hmem)
    · exact .inr (mem_handedTo hmem)
  · have mem_some : ∀ {q : Option Nat}, q = some p → .netifRx p (skbPull skb rxHeaderLen).bytes ∈
        handedTo true q (skbPull skb rxHeaderLen).bytes := by
      rintro _ rfl
      exact List.mem_singleton.mpr rfl
    rintro (h | h)
    · exact ⟨_, List.mem_append_left _ (List.mem_append_right _ (mem_some h))⟩
    · exact ⟨_, List.mem_append_right _ (mem_some h)⟩

/-- An interface that some frame goes to is the first with its number, which is one that
frames are looked up by. -/
theorem first_of_goesTo (goes : GoesTo hashMin drv skb p) :
    LookedUp (drv.interfaces.priv p).vif ∧ FirstInBucket hashMin drv.interfaces p := by
  obtain ⟨hport, hrif⟩ := lookedUp_info skb
  have hfound : ∃ num, LookedUp num ∧ findActive hashMin drv.interfaces num = some p := by
    rcases goesTo_iff.mp goes with h | h
    · unfold foundByVif at h
      split at h
      · next hne =>
        refine ⟨_, ?_, h⟩
        unfold vifOfInfo at hne ⊢
        split
        · exact hport
        · next hout => exact absurd (if_neg hout).symm hne
      · cases h
    · exact ⟨_, hrif, h⟩
  obtain ⟨num, hnum, hfind⟩ := hfound
  have hvif := (findActive_eq_some hfind).2
  subst hvif
  exact ⟨hnum, firstInBucket_iff.mpr hfind⟩

/-- The first interface with the number of a port or a bridge domain is sent the frames
that are addressed so. -/
theorem goesTo_of_first {type : XpNetdevType} (hnum : type.Numbers (drv.interfaces.priv p).vif)
    (hlag : type ≠ .lag) (first : FirstInBucket hashMin drv.interfaces p) :
    ∃ skb, AddressedTo type (drv.interfaces.priv p).vif skb ∧ GoesTo hashMin drv skb p := by
  have hfind := firstInBucket_iff.mp first
  cases type with
  | fp =>
    have hlt : (drv.interfaces.priv p).vif.toNat < 128 := UInt32.lt_iff_toNat_lt.mp hnum.2
    refine ⟨headerFrame (drv.interfaces.priv p).vif.toNat (drv.interfaces.priv p).vif.toNat 0,
      ⟨Nat.le_refl 24, ?_⟩, goesTo_iff.mpr (.inl ?_)⟩
    · rw [rxFields_headerFrame (by omega) (by omega) (by decide)]
    · rw [foundByVif_port hnum 0 (by decide)]
      exact hfind
  | router =>
    have hlo : 65536 ≤ (drv.interfaces.priv p).vif.toNat := UInt32.le_iff_toNat_le.mp hnum.1
    have hhi : (drv.interfaces.priv p).vif.toNat < 81920 := UInt32.lt_iff_toNat_lt.mp hnum.2
    refine ⟨headerFrame 0 (2 ^ 20 - 1) ((drv.interfaces.priv p).vif.toNat - 65536),
      ⟨Nat.le_refl 24, ?_⟩, goesTo_iff.mpr (.inr ?_)⟩
    · rw [rxFields_headerFrame (by decide) (by decide) (by omega)]
      exact Nat.sub_add_cancel hlo
    · rw [(found_bd hashMin drv.interfaces hnum).2]
      exact hfind
  | lag => exact absurd rfl hlag

end Addressed

/-- **Reaching an interface.** In every state that messages lead to: a listed interface
that is linked is sent a frame whose header names its number, exactly when it is no LAG
and no interface in front of it in its bucket has its number. Otherwise no frame at all
goes to it. -/
theorem receives_iff (hashMin : UInt32 → Bucket) (reqs : List (Kernel × XpNlMsg)) :
    let drv := callHandlers hashMin .start reqs
    ∀ p ∈ drv.interfaces.xpNetdevList, (drv.interfaces.priv p).vif ≠ xpNoVif →
      ((∃ skb, AddressedTo (drv.interfaces.priv p).netdevType (drv.interfaces.priv p).vif skb ∧
          GoesTo hashMin drv skb p) ↔
        (drv.interfaces.priv p).netdevType ≠ .lag ∧ FirstInBucket hashMin drv.interfaces p) ∧
      ((∃ skb, GoesTo hashMin drv skb p) ↔
        (drv.interfaces.priv p).netdevType ≠ .lag ∧ FirstInBucket hashMin drv.interfaces p) := by
  intro drv p hp hlinked
  have ok : Consistent hashMin drv.interfaces := (interfaces_consistent hashMin reqs).1
  have hnum := (ok.entries p hp).numbered hlinked
  have only : (∃ skb, GoesTo hashMin drv skb p) →
      (drv.interfaces.priv p).netdevType ≠ .lag ∧ FirstInBucket hashMin drv.interfaces p := by
    rintro ⟨skb, goes⟩
    obtain ⟨hlooked, first⟩ := first_of_goesTo goes
    refine ⟨fun hlag => not_lookedUp_lag ?_ hlooked, first⟩
    rw [hlag] at hnum
    exact hnum
  constructor
  · constructor
    · rintro ⟨skb, -, goes⟩
      exact only ⟨skb, goes⟩
    · rintro ⟨hlag, first⟩
      exact goesTo_of_first hnum hlag first
  · constructor
    · exact only
    · rintro ⟨hlag, first⟩
      obtain ⟨skb, -, goes⟩ := goesTo_of_first hnum hlag first
      exact ⟨skb, goes⟩

/-- Interface 1 linked to the first LAG: no frame goes to it. -/
theorem lag_receives_nothing :
    let drv := callHandlers (fun _ => 0) .start (twoInterfaces ++ [(grantingKernel, .linkAdd ⟨1, 4096⟩)])
    1 ∈ drv.interfaces.xpNetdevList ∧ (drv.interfaces.priv 1).vif = 4096 ∧
      ¬ ∃ skb, GoesTo (fun _ => 0) drv skb 1 := by
  intro drv
  have hvif : (drv.interfaces.priv 1).vif = 4096 := by decide
  refine ⟨by decide, hvif, ?_⟩
  rintro ⟨skb, goes⟩
  have hlooked := (first_of_goesTo goes).1
  rw [hvif] at hlooked
  exact not_lookedUp_lag ⟨by decide, by decide⟩ hlooked

end XpNet.Intf
