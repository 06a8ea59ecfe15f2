/-
The interfaces of `xp_netdev_intf.c`: the list `xp_netdev_list`, the hash table
`xp_active_netdev_htable` of the linked ones, the five handlers that change
them, and the lookup that the receive side makes.

An entry is known by the address of its `struct xp_netdev_priv`; its `list` and
`hlist` nodes are its places in the list and in the table. `hashMin` is the
kernel's `hash_min(key, XP_HASH_BITS)`.
-/

import XpNet.Buckets
import XpNet.Intf.Messages

namespace XpNet.Intf

/-! ### Entries -/

/-- `xp_netdev_type`. -/
inductive XpNetdevType where
  | fp
  | router
  | lag
  deriving DecidableEq, Repr

/-- `struct xp_netdev_priv` without its nodes, lock and `netdev`; `vif` and `rif`
are one field. -/
structure XpNetdevPriv where
  xpnetIntfId : UInt32
  vif : UInt32
  txHeader : TxHeader
  isTxHeaderSet : Bool
  netdevType : XpNetdevType
  deriving DecidableEq

/-- `memset(priv, 0x00, sizeof(struct xp_netdev_priv))`. -/
def zeroedPriv : XpNetdevPriv where
  xpnetIntfId := 0
  vif := 0
  txHeader := unsetTxHeader
  isTxHeaderSet := false
  netdevType := .fp

def xpMinFpIntf : UInt32 := 0
def xpMaxFpIntf : UInt32 := 128
def xpMinLagIntf : UInt32 := 4096
def xpMaxLagIntf : UInt32 := 5019
def xpOffsetBdIntf : UInt32 := 65536
def xpNumRpIntf : UInt32 := 16384
def xpMaxBdIntf : UInt32 := xpOffsetBdIntf + xpNumRpIntf

/-- The numbers of the interfaces of a type. -/
def XpNetdevType.Numbers (num : UInt32) : XpNetdevType → Prop
  | .fp => xpMinFpIntf ≤ num ∧ num < xpMaxFpIntf
  | .router => xpOffsetBdIntf ≤ num ∧ num < xpMaxBdIntf
  | .lag => xpMinLagIntf ≤ num ∧ num < xpMaxLagIntf

theorem XpNetdevType.Numbers.ne_noVif {num : UInt32} {type : XpNetdevType}
    (h : type.Numbers num) : num ≠ xpNoVif := by
  rintro rfl
  cases type with
  | fp => exact absurd h.2 (by decide)
  | router => exact absurd h.2 (by decide)
  | lag => exact absurd h.2 (by decide)

/-! ### The handlers -/

/-- The buckets of `DEFINE_HASHTABLE(xp_active_netdev_htable, XP_HASH_BITS)`. -/
abbrev Bucket := Fin (2 ^ 8)

/-- The interface state of the driver. -/
structure Interfaces where
  priv : Nat → XpNetdevPriv
  xpNetdevList : List Nat
  xpActiveNetdevHtable : Buckets Bucket Nat

/-- The state before the first message. -/
def noInterfaces : Interfaces := ⟨fun _ => zeroedPriv, [], fun _ => []⟩

/-- The entry that a handler's `list_for_each` stops at. -/
def findEntry (st : Interfaces) (xpnetIntfId : UInt32) : Option Nat :=
  st.xpNetdevList.find? fun p => (st.priv p).xpnetIntfId = xpnetIntfId

/-- A store to the fields of an entry. -/
def setPriv (st : Interfaces) (p : Nat) (entry : XpNetdevPriv) : Interfaces :=
  { st with priv := Function.update st.priv p entry }

@[simp] theorem setPriv_self (st : Interfaces) (p : Nat) (entry : XpNetdevPriv) :
    (setPriv st p entry).priv p = entry := Function.update_self ..

theorem setPriv_of_ne (st : Interfaces) {p q : Nat} (entry : XpNetdevPriv) (h : q ≠ p) :
    (setPriv st p entry).priv q = st.priv q := Function.update_of_ne h ..

/-- `xp_nl_msg_if_create(netns, intf_msg)`. -/
def xpNlMsgIfCreate (kernel : Kernel) (intfMsg : XpNlMsgIntf) (st : Interfaces) :
    Int × Interfaces :=
  match findEntry st intfMsg.xpnetIntfId with
  | some _ => (0, st)
  | none =>
    let priv := (kernel.allocNetdev st.xpNetdevList).val
    let entry := { zeroedPriv with
      xpnetIntfId := intfMsg.xpnetIntfId
      vif := xpNoVif }
    if 0 > kernel.registerNetdev intfMsg.intfName then (-eperm, st)
    else (0, { setPriv st priv entry with xpNetdevList := priv :: st.xpNetdevList })

/-- `xp_nl_msg_if_delete(netns, intf_msg)`. -/
def xpNlMsgIfDelete (intfMsg : XpNlMsgIntf) (st : Interfaces) : Int × Interfaces :=
  match findEntry st intfMsg.xpnetIntfId with
  | some entry =>
    (0, { st with
      xpActiveNetdevHtable := hashDel st.xpActiveNetdevHtable entry
      xpNetdevList := st.xpNetdevList.erase entry })
  | none => (0, st)

section Linking

variable (hashMin : UInt32 → Bucket)

/-- A branch of `xp_nl_msg_if_link`: the type, the number and the place in the
table. -/
def linkEntry (st : Interfaces) (p : Nat) (num : UInt32) (type : XpNetdevType) : Interfaces :=
  { setPriv st p { st.priv p with vif := num, netdevType := type } with
    xpActiveNetdevHtable := hashAdd st.xpActiveNetdevHtable (hashMin num) p }

/-- `xp_nl_msg_if_link(netns, link_msg)`. -/
def xpNlMsgIfLink (linkMsg : XpNlMsgLink) (st : Interfaces) : Int × Interfaces :=
  match findEntry st linkMsg.xpnetIntfId with
  | some entry =>
    if (st.priv entry).vif ≠ xpNoVif then (0, st)
    else if xpMinFpIntf ≤ linkMsg.vif ∧ linkMsg.vif < xpMaxFpIntf then
      (0, linkEntry hashMin st entry linkMsg.vif .fp)
    else if xpOffsetBdIntf ≤ linkMsg.vif ∧ linkMsg.vif < xpMaxBdIntf then
      (0, linkEntry hashMin st entry linkMsg.vif .router)
    else if xpMinLagIntf ≤ linkMsg.vif ∧ linkMsg.vif < xpMaxLagIntf then
      (0, linkEntry hashMin st entry linkMsg.vif .lag)
    else (0, st)
  | none => (0, st)

end Linking

/-- `xp_nl_msg_if_unlink(netns, link_msg)`. -/
def xpNlMsgIfUnlink (linkMsg : XpNlMsgLink) (st : Interfaces) : Int × Interfaces :=
  match findEntry st linkMsg.xpnetIntfId with
  | some entry =>
    (0, { setPriv st entry { st.priv entry with vif := xpNoVif } with
      xpActiveNetdevHtable := hashDel st.xpActiveNetdevHtable entry })
  | none => (0, st)

/-- `xp_nl_msg_tx_header(netns, tx_header_msg)`. -/
def xpNlMsgTxHeader (txHeaderMsg : XpNlMsgTxHdr) (st : Interfaces) : Int × Interfaces :=
  match findEntry st txHeaderMsg.xpnetIntfId with
  | some entry =>
    if txHeaderMsg.operation = xpNlOperationAdd then
      (0, setPriv st entry
        { st.priv entry with txHeader := txHeaderMsg.txHeader, isTxHeaderSet := true })
    else if txHeaderMsg.operation = xpNlOperationRemove then
      (0, setPriv st entry
        { st.priv entry with txHeader := unsetTxHeader, isTxHeaderSet := false })
    else (0, st)
  | none => (0, st)

/-- The lookup of `xp_rx_skb_netdev_process`: the first entry that
`hash_for_each_possible` finds with the number. -/
def findActive (hashMin : UInt32 → Bucket) (st : Interfaces) (num : UInt32) : Option Nat :=
  (st.xpActiveNetdevHtable (hashMin num)).find? fun p => (st.priv p).vif = num

/-! ### The invariant -/

/-- What holds of a listed entry and its place in the table. -/
structure EntryOk (hashMin : UInt32 → Bucket) (t : Buckets Bucket Nat) (p : Nat)
    (entry : XpNetdevPriv) : Prop where
  linked : entry.vif ≠ xpNoVif → HashedAt t (hashMin entry.vif) p
  unlinked : entry.vif = xpNoVif → Unhashed t p
  numbered : entry.vif ≠ xpNoVif → entry.netdevType.Numbers entry.vif
  header : entry.isTxHeaderSet = false → entry.txHeader = unsetTxHeader

/-- The list and the table agree: the ids in the list are distinct, every listed
entry is in order, and every entry in the table is listed. -/
structure Consistent (hashMin : UInt32 → Bucket) (st : Interfaces) : Prop where
  ids : (st.xpNetdevList.map fun p => (st.priv p).xpnetIntfId).Nodup
  entries : ∀ p ∈ st.xpNetdevList, EntryOk hashMin st.xpActiveNetdevHtable p (st.priv p)
  listed : ∀ b, ∀ p ∈ st.xpActiveNetdevHtable b, p ∈ st.xpNetdevList

section Invariant

variable {hashMin : UInt32 → Bucket} {st : Interfaces}

theorem consistent_noInterfaces : Consistent hashMin noInterfaces := by
  constructor
  · exact List.nodup_nil
  · intro p hp
    cases hp
  · intro b p hp
    cases hp

theorem findEntry_mem {id : UInt32} {p : Nat} (h : findEntry st id = some p) :
    p ∈ st.xpNetdevList :=
  List.mem_of_find?_eq_some h

theorem EntryOk.of_onlyMoves {t t' : Buckets Bucket Nat} {p q : Nat} {entry : XpNetdevPriv}
    (ok : EntryOk hashMin t q entry) (moves : OnlyMoves p t t') (hq : q ≠ p) :
    EntryOk hashMin t' q entry where
  linked h := moves.hashedAt hq (ok.linked h)
  unlinked h := moves.unhashed hq (ok.unlinked h)
  numbered := ok.numbered
  header := ok.header

/-- A handler that stores to one listed entry, keeping its id, and moves that
entry alone in the table keeps the invariant when the entry is in order after it. -/
theorem Consistent.set {p : Nat} {entry : XpNetdevPriv} {t : Buckets Bucket Nat}
    (ok : Consistent hashMin st) (hp : p ∈ st.xpNetdevList)
    (hid : entry.xpnetIntfId = (st.priv p).xpnetIntfId)
    (moves : OnlyMoves p st.xpActiveNetdevHtable t) (hentry : EntryOk hashMin t p entry) :
    Consistent hashMin { setPriv st p entry with xpActiveNetdevHtable := t } := by
  constructor
  · have heq : (fun q => (Function.update st.priv p entry q).xpnetIntfId) =
        fun q => (st.priv q).xpnetIntfId := by
      funext q
      by_cases hq : q = p
      · subst hq
        simpa using hid
      · simp [hq]
    simpa only [setPriv, heq] using ok.ids
  · intro q hq
    by_cases hqp : q = p
    · subst hqp
      simpa [setPriv] using hentry
    · simpa [setPriv, hqp] using (ok.entries q hq).of_onlyMoves moves hqp
  · intro b q hq
    by_cases hqp : q = p
    · exact hqp ▸ hp
    · exact ok.listed b q ((moves.mem_iff hqp b).mp hq)

theorem Consistent.create {id : UInt32} {p : Nat} {entry : XpNetdevPriv}
    (ok : Consistent hashMin st) (hnew : findEntry st id = none) (hp : p ∉ st.xpNetdevList)
    (hid : entry.xpnetIntfId = id) (hvif : entry.vif = xpNoVif)
    (hhdr : entry.txHeader = unsetTxHeader) :
    Consistent hashMin { setPriv st p entry with xpNetdevList := p :: st.xpNetdevList } := by
  have hpriv : ∀ q ∈ st.xpNetdevList, Function.update st.priv p entry q = st.priv q := by
    intro q hq
    apply Function.update_of_ne
    rintro rfl
    exact hp hq
  constructor
  · have hmap : st.xpNetdevList.map (fun q => (Function.update st.priv p entry q).xpnetIntfId) =
        st.xpNetdevList.map fun q => (st.priv q).xpnetIntfId := by
      apply List.map_congr_left
      intro q hq
      rw [hpriv q hq]
    simp only [setPriv, List.map_cons, hmap, Function.update_self, List.nodup_cons]
    refine ⟨?_, ok.ids⟩
    rw [List.mem_map]
    rintro ⟨q, hq, hqid⟩
    have := List.find?_eq_none.mp hnew q hq
    simp [hqid, hid] at this
  · intro q hq
    rcases List.mem_cons.mp hq with rfl | hq
    · have hnot : Unhashed st.xpActiveNetdevHtable q := fun b hmem => hp (ok.listed b q hmem)
      simp only [setPriv, Function.update_self]
      constructor
      · exact fun h => absurd hvif h
      · exact fun _ => hnot
      · exact fun h => absurd hvif h
      · exact fun _ => hhdr
    · simp only [setPriv, hpriv q hq]
      exact ok.entries q hq
  · intro b q hq
    exact List.mem_cons_of_mem _ (ok.listed b q hq)

theorem Consistent.delete {p : Nat} (ok : Consistent hashMin st) :
    Consistent hashMin { st with
      xpActiveNetdevHtable := hashDel st.xpActiveNetdevHtable p
      xpNetdevList := st.xpNetdevList.erase p } := by
  have hnodup : st.xpNetdevList.Nodup := ok.ids.of_map
  have moves := onlyMoves_hashDel st.xpActiveNetdevHtable p
  constructor
  · exact ok.ids.sublist ((List.erase_sublist).map _)
  · intro q hq
    obtain ⟨hqp, hq⟩ := hnodup.mem_erase_iff.mp hq
    exact (ok.entries q hq).of_onlyMoves moves hqp
  · intro b q hq
    have hqp : q ≠ p := by
      rintro rfl
      exact unhashed_hashDel _ _ b hq
    rw [hnodup.mem_erase_iff]
    exact ⟨hqp, ok.listed b q ((moves.mem_iff hqp b).mp hq)⟩

/-! ### Every handler keeps it -/

theorem Consistent.ifCreate (ok : Consistent hashMin st) (kernel : Kernel) (msg : XpNlMsgIntf) :
    Consistent hashMin (xpNlMsgIfCreate kernel msg st).2 := by
  unfold xpNlMsgIfCreate
  cases hfind : findEntry st msg.xpnetIntfId with
  | some p => exact ok
  | none =>
    dsimp only
    split
    · exact ok
    · apply ok.create hfind (kernel.allocNetdev st.xpNetdevList).property
      · rfl
      · rfl
      · rfl

theorem Consistent.ifDelete (ok : Consistent hashMin st) (msg : XpNlMsgIntf) :
    Consistent hashMin (xpNlMsgIfDelete msg st).2 := by
  unfold xpNlMsgIfDelete
  cases findEntry st msg.xpnetIntfId with
  | some p => exact ok.delete
  | none => exact ok

/-- Linking an unlinked entry to a number of the type. -/
theorem Consistent.linkEntry {p : Nat} {num : UInt32} {type : XpNetdevType}
    (ok : Consistent hashMin st) (hp : p ∈ st.xpNetdevList) (hfree : (st.priv p).vif = xpNoVif)
    (hnum : type.Numbers num) : Consistent hashMin (linkEntry hashMin st p num type) := by
  have before := ok.entries p hp
  apply ok.set hp
  · rfl
  · exact onlyMoves_hashAdd _ _ _
  · constructor
    · exact fun _ => hashedAt_hashAdd (before.unlinked hfree)
    · exact fun h => absurd h hnum.ne_noVif
    · exact fun _ => hnum
    · exact before.header

theorem Consistent.ifLink (ok : Consistent hashMin st) (msg : XpNlMsgLink) :
    Consistent hashMin (xpNlMsgIfLink hashMin msg st).2 := by
  unfold xpNlMsgIfLink
  cases hfind : findEntry st msg.xpnetIntfId with
  | none => exact ok
  | some p =>
    have hp := findEntry_mem hfind
    by_cases hfree : (st.priv p).vif = xpNoVif
    · simp only [hfree, ne_eq, not_true_eq_false, if_false]
      split
      · next hnum => exact ok.linkEntry hp hfree hnum
      · split
        · next hnum => exact ok.linkEntry hp hfree hnum
        · split
          · next hnum => exact ok.linkEntry hp hfree hnum
          · exact ok
    · simpa [hfree] using ok

theorem Consistent.ifUnlink (ok : Consistent hashMin st) (msg : XpNlMsgLink) :
    Consistent hashMin (xpNlMsgIfUnlink msg st).2 := by
  unfold xpNlMsgIfUnlink
  cases hfind : findEntry st msg.xpnetIntfId with
  | none => exact ok
  | some p =>
    have hp := findEntry_mem hfind
    apply ok.set hp
    · rfl
    · exact onlyMoves_hashDel _ _
    · constructor
      · exact fun h => absurd rfl h
      · exact fun _ => unhashed_hashDel _ _
      · exact fun h => absurd rfl h
      · exact (ok.entries p hp).header

theorem Consistent.txHeader (ok : Consistent hashMin st) (msg : XpNlMsgTxHdr) :
    Consistent hashMin (xpNlMsgTxHeader msg st).2 := by
  unfold xpNlMsgTxHeader
  cases hfind : findEntry st msg.xpnetIntfId with
  | none => exact ok
  | some p =>
    have hp := findEntry_mem hfind
    have before := ok.entries p hp
    have still : OnlyMoves p st.xpActiveNetdevHtable st.xpActiveNetdevHtable :=
      fun _ _ _ => rfl
    have stored : ∀ (hdr : TxHeader) (isSet : Bool), (isSet = false → hdr = unsetTxHeader) →
        Consistent hashMin
          (setPriv st p { st.priv p with txHeader := hdr, isTxHeaderSet := isSet }) := by
      intro hdr isSet hhdr
      apply ok.set hp
      · rfl
      · exact still
      · exact ⟨before.linked, before.unlinked, before.numbered, hhdr⟩
    simp only
    split
    · exact stored msg.txHeader true (fun h => by cases h)
    · split
      · exact stored unsetTxHeader false (fun _ => rfl)
      · exact ok

/-! ### The lookup of the receive side -/

/-- The receive side finds an entry exactly when a listed interface is linked to
the number. -/
theorem Consistent.findActive_isSome (ok : Consistent hashMin st) (num : UInt32) :
    (findActive hashMin st num).isSome ↔
      ∃ p ∈ st.xpNetdevList, (st.priv p).vif = num ∧ num ≠ xpNoVif := by
  unfold findActive
  rw [List.find?_isSome]
  constructor
  · rintro ⟨p, hp, hnum⟩
    have hlisted := ok.listed _ p hp
    refine ⟨p, hlisted, by simpa using hnum, ?_⟩
    rintro rfl
    exact (ok.entries p hlisted).unlinked (by simpa using hnum) _ hp
  · rintro ⟨p, hp, rfl, hlinked⟩
    exact ⟨p, ((ok.entries p hp).linked hlinked).mem, by simp⟩

end Invariant

end XpNet.Intf
