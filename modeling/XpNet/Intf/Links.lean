/-
Which interfaces share a number, and what that does to the receive side.

`xp_nl_msg_if_link` looks at the interface it links and at no other. So the numbers of
the listed interfaces stay distinct exactly while no message links an interface to a
number that another one has, and two messages that link different interfaces can be
handled in either order, with the same deliveries of every frame, unless both do link
and to the same number, of a port or a bridge domain (`links_unique_iff`): the lookup
stops at the interface linked last. The number of a LAG is not looked up.
-/

import XpNet.Intf.Receive
import Mathlib.Data.List.Find

namespace XpNet.Intf

/-! ### Linking -/

/-- The type of an interface by its number, as `xp_nl_msg_if_link` decides it. -/
def numberType (num : UInt32) : Option XpNetdevType :=
  if xpMinFpIntf ≤ num ∧ num < xpMaxFpIntf then some .fp
  else if xpOffsetBdIntf ≤ num ∧ num < xpMaxBdIntf then some .router
  else if xpMinLagIntf ≤ num ∧ num < xpMaxLagIntf then some .lag
  else none

/-- The message links interface `p` as a `type`. -/
structure LinksAs (st : Interfaces) (msg : XpNlMsgLink) (p : Nat) (type : XpNetdevType) : Prop where
  found : findEntry st msg.xpnetIntfId = some p
  free : (st.priv p).vif = xpNoVif
  numbered : numberType msg.vif = some type

section Link

variable {hashMin : UInt32 → Bucket} {st : Interfaces} {msg : XpNlMsgLink} {p : Nat}
  {type : XpNetdevType} {num : UInt32}

theorem numbers_of_numberType (h : numberType num = some type) : type.Numbers num := by
  unfold numberType at h
  split at h
  · next hfp =>
    cases h
    exact hfp
  · split at h
    · next hrouter =>
      cases h
      exact hrouter
    · split at h
      · next hlag =>
        cases h
        exact hlag
      · cases h

theorem LinksAs.ifLink (links : LinksAs st msg p type) :
    (xpNlMsgIfLink hashMin msg st).2 = linkEntry hashMin st p msg.vif type := by
  have hnum := links.numbered
  unfold xpNlMsgIfLink
  rw [links.found]
  dsimp only
  rw [if_neg (not_not.mpr links.free)]
  unfold numberType at hnum
  split at hnum
  · next hfp =>
    cases hnum
    rw [if_pos hfp]
  · next hfp =>
    rw [if_neg hfp]
    split at hnum
    · next hrouter =>
      cases hnum
      rw [if_pos hrouter]
    · next hrouter =>
      rw [if_neg hrouter]
      split at hnum
      · next hlag =>
        cases hnum
        rw [if_pos hlag]
      · cases hnum

/-- A message that links nothing changes nothing. -/
theorem ifLink_of_not (h : ¬ ∃ p type, LinksAs st msg p type) :
    (xpNlMsgIfLink hashMin msg st).2 = st := by
  unfold xpNlMsgIfLink
  cases hfind : findEntry st msg.xpnetIntfId with
  | none => rfl
  | some p =>
    dsimp only
    by_cases hfree : (st.priv p).vif = xpNoVif
    · have hnum : numberType msg.vif = none := by
        cases hnum : numberType msg.vif with
        | none => rfl
        | some type => exact absurd ⟨p, type, hfind, hfree, hnum⟩ h
      unfold numberType at hnum
      rw [if_neg (not_not.mpr hfree)]
      split at hnum
      · cases hnum
      · next hfp =>
        rw [if_neg hfp]
        split at hnum
        · cases hnum
        · next hrouter =>
          rw [if_neg hrouter]
          split at hnum
          · cases hnum
          · next hlag => rw [if_neg hlag]
    · rw [if_pos hfree]

end Link

/-! ### One number, one interface -/

/-- No two listed interfaces are linked to one number. -/
def UniqueLinks (st : Interfaces) : Prop :=
  ∀ p ∈ st.xpNetdevList, ∀ q ∈ st.xpNetdevList,
    (st.priv p).vif = (st.priv q).vif → (st.priv p).vif ≠ xpNoVif → p = q

/-- The message links an interface to a number that a listed one has. -/
def TakesNumber (st : Interfaces) : Kernel × XpNlMsg → Prop
  | (_, .linkAdd msg) => (∃ p type, LinksAs st msg p type) ∧
      ∃ q ∈ st.xpNetdevList, (st.priv q).vif = msg.vif
  | _ => False

/-- What is listed after a step is unlinked, or as linked as it was. -/
def OnlyUnlinks (st st' : Interfaces) : Prop :=
  ∀ p ∈ st'.xpNetdevList, (st'.priv p).vif = xpNoVif ∨
    p ∈ st.xpNetdevList ∧ (st'.priv p).vif = (st.priv p).vif

section Unique

variable {hashMin : UInt32 → Bucket} {st st' : Interfaces}

theorem OnlyUnlinks.refl (st : Interfaces) : OnlyUnlinks st st := fun _ hp => .inr ⟨hp, rfl⟩

theorem UniqueLinks.of_onlyUnlinks (unique : UniqueLinks st) (only : OnlyUnlinks st st') :
    UniqueLinks st' := by
  intro p hp q hq heq hlinked
  obtain ⟨hp', hpvif⟩ := (only p hp).resolve_left hlinked
  obtain ⟨hq', hqvif⟩ := (only q hq).resolve_left (heq ▸ hlinked)
  exact unique p hp' q hq' (hpvif.symm.trans (heq.trans hqvif)) (hpvif ▸ hlinked)

/-- A store that leaves the number of an entry alone, or takes it away. -/
theorem vif_setPriv {p q : Nat} {entry : XpNetdevPriv} (hq : q ∈ st.xpNetdevList)
    (hvif : entry.vif = xpNoVif ∨ entry.vif = (st.priv p).vif) :
    ((setPriv st p entry).priv q).vif = xpNoVif ∨
      q ∈ st.xpNetdevList ∧ ((setPriv st p entry).priv q).vif = (st.priv q).vif := by
  by_cases hqp : q = p
  · subst hqp
    rw [setPriv_self]
    exact hvif.imp id fun h => ⟨hq, h⟩
  · rw [setPriv_of_ne st entry hqp]
    exact .inr ⟨hq, rfl⟩

theorem onlyUnlinks_ifCreate (kernel : Kernel) (msg : XpNlMsgIntf) :
    OnlyUnlinks st (xpNlMsgIfCreate kernel msg st).2 := by
  unfold xpNlMsgIfCreate
  split
  · exact .refl st
  · dsimp only
    split
    · exact .refl st
    · intro q hq
      by_cases hqp : q = (kernel.allocNetdev st.xpNetdevList).val
      · subst hqp
        left
        simp [setPriv]
      · right
        refine ⟨(List.mem_cons.mp hq).resolve_left hqp, ?_⟩
        simp [setPriv, hqp]

theorem onlyUnlinks_ifDelete (msg : XpNlMsgIntf) : OnlyUnlinks st (xpNlMsgIfDelete msg st).2 := by
  unfold xpNlMsgIfDelete
  split
  · exact fun q hq => .inr ⟨List.mem_of_mem_erase hq, rfl⟩
  · exact .refl st

theorem onlyUnlinks_ifUnlink (msg : XpNlMsgLink) : OnlyUnlinks st (xpNlMsgIfUnlink msg st).2 := by
  unfold xpNlMsgIfUnlink
  split
  · exact fun q hq => vif_setPriv hq (.inl rfl)
  · exact .refl st

theorem onlyUnlinks_txHeader (msg : XpNlMsgTxHdr) : OnlyUnlinks st (xpNlMsgTxHeader msg st).2 := by
  unfold xpNlMsgTxHeader
  split
  · dsimp only
    split
    · exact fun q hq => vif_setPriv hq (.inr rfl)
    · split
      · exact fun q hq => vif_setPriv hq (.inr rfl)
      · exact .refl st
  · exact .refl st

/-- Linking keeps the numbers distinct exactly when the number is free. -/
theorem uniqueLinks_ifLink (unique : UniqueLinks st) (msg : XpNlMsgLink) (kernel : Kernel) :
    UniqueLinks (xpNlMsgIfLink hashMin msg st).2 ↔ ¬ TakesNumber st (kernel, .linkAdd msg) := by
  by_cases hlinks : ∃ p type, LinksAs st msg p type
  · obtain ⟨p, type, links⟩ := id hlinks
    have hp := findEntry_mem links.found
    have hnum := (numbers_of_numberType links.numbered).ne_noVif
    rw [links.ifLink]
    constructor
    · rintro unique' ⟨-, q, hq, hvif⟩
      have hqp : q ≠ p := by
        rintro rfl
        exact hnum (hvif.symm.trans links.free)
      refine hqp (unique' q hq p hp ?_ ?_)
      · simpa [linkEntry, setPriv, hqp] using hvif
      · simpa [linkEntry, setPriv, hqp, hvif] using hnum
    · intro htakes q hq r hr heq hlinked
      have hfree : ∀ q ∈ st.xpNetdevList, (st.priv q).vif ≠ msg.vif :=
        fun q hq hvif => htakes ⟨hlinks, q, hq, hvif⟩
      by_cases hqp : q = p
      · by_cases hrp : r = p
        · exact hqp.trans hrp.symm
        · subst hqp
          simp only [linkEntry, setPriv, Function.update_self, Function.update_of_ne hrp] at heq
          exact absurd heq.symm (hfree r hr)
      · by_cases hrp : r = p
        · subst hrp
          simp only [linkEntry, setPriv, Function.update_self, Function.update_of_ne hqp] at heq
          exact absurd heq (hfree q hq)
        · simp only [linkEntry, setPriv, Function.update_of_ne hqp,
            Function.update_of_ne hrp] at heq hlinked
          exact unique q hq r hr heq hlinked
  · rw [ifLink_of_not hlinks]
    exact iff_of_true unique fun htakes => hlinks htakes.1

theorem uniqueLinks_callHandler (drv : Driver) (req : Kernel × XpNlMsg)
    (unique : UniqueLinks drv.interfaces) :
    UniqueLinks (callHandler hashMin req.1 drv req.2).interfaces ↔
      ¬ TakesNumber drv.interfaces req := by
  obtain ⟨kernel, msg⟩ := req
  cases msg with
  | intfAdd msg => exact iff_of_true (unique.of_onlyUnlinks (onlyUnlinks_ifCreate kernel msg)) id
  | intfDel msg => exact iff_of_true (unique.of_onlyUnlinks (onlyUnlinks_ifDelete msg)) id
  | linkAdd msg => exact uniqueLinks_ifLink unique msg kernel
  | linkDel msg => exact iff_of_true (unique.of_onlyUnlinks (onlyUnlinks_ifUnlink msg)) id
  | txHdrSet msg => exact iff_of_true (unique.of_onlyUnlinks (onlyUnlinks_txHeader msg)) id
  | trapSet msg => exact iff_of_true unique id
  | cbFdSet msg => exact iff_of_true unique id
  | mirrorSet msg =>
    rw [callHandler, xpNlMsgMirror_interfaces]
    exact iff_of_true unique id

end Unique

/-! ### Frames by their addresses -/

/-- A header alone, with a port, an ingress vif and a bridge domain. -/
def headerFrame (port vif bd : Nat) : RxSkb where
  data o :=
    if o = 9 then .ofNat port
    else if o = 10 then .ofNat (vif / 2 ^ 12)
    else if o = 11 then .ofNat (vif / 2 ^ 4)
    else if o = 12 then .ofNat (vif % 2 ^ 4 * 2 ^ 4)
    else if o = 18 then .ofNat (bd / 2 ^ 8)
    else if o = 19 then .ofNat bd
    else 0
  len := 24

/-- The numbers that a frame can be looked up by: a port is a byte, and the number of a
bridge domain is at least 65536. -/
def LookedUp (num : UInt32) : Prop := num.toNat < 256 ∨ 65536 ≤ num.toNat

/-- The number of a LAG is none of them. -/
theorem not_lookedUp_lag {num : UInt32} (hnum : XpNetdevType.Numbers num .lag) :
    ¬ LookedUp num := by
  obtain ⟨hlo, hhi⟩ := hnum
  have hlo : 4096 ≤ num.toNat := UInt32.le_iff_toNat_le.mp hlo
  have hhi : num.toNat < 5019 := UInt32.lt_iff_toNat_lt.mp hhi
  rintro (h | h) <;> omega

section Frames

variable {hashMin : UInt32 → Bucket} {alloc : Nat → Bool} {skb : RxSkb} {info : XpSkbInfo}
  {st : RxHost}

theorem rxFields_headerFrame {port vif bd : Nat} (hport : port < 2 ^ 8) (hvif : vif < 2 ^ 20)
    (hbd : bd < 2 ^ 16) : rxFields (headerFrame port vif bd).bytes =
      { port := port, ingressVif := vif, reasonCode := 0, bdId := bd } := by
  rw [rxFields_bytes (Nat.le_refl 24)]
  have h9 : ((headerFrame port vif bd).data 9).toNat = port % 2 ^ 8 := UInt8.toNat_ofNat'
  have h10 : ((headerFrame port vif bd).data 10).toNat = vif / 2 ^ 12 % 2 ^ 8 := UInt8.toNat_ofNat'
  have h11 : ((headerFrame port vif bd).data 11).toNat = vif / 2 ^ 4 % 2 ^ 8 := UInt8.toNat_ofNat'
  have h12 : ((headerFrame port vif bd).data 12).toNat = vif % 2 ^ 4 * 2 ^ 4 % 2 ^ 8 :=
    UInt8.toNat_ofNat'
  have h18 : ((headerFrame port vif bd).data 18).toNat = bd / 2 ^ 8 % 2 ^ 8 := UInt8.toNat_ofNat'
  have h19 : ((headerFrame port vif bd).data 19).toNat = bd % 2 ^ 8 := UInt8.toNat_ofNat'
  have h13 : ((headerFrame port vif bd).data 13).toNat = 0 := rfl
  have h14 : ((headerFrame port vif bd).data 14).toNat = 0 := rfl
  rw [h9, h10, h11, h12, h13, h14, h18, h19, RxFields.mk.injEq]
  refine ⟨?_, ?_, ?_, ?_⟩ <;> omega

/-- What is looked up of a frame, whatever its length. -/
theorem lookedUp_info (skb : RxSkb) :
    LookedUp (xpRxSkbInfoGet skb).portNum ∧ LookedUp (xpRxSkbInfoGet skb).rifId := by
  have hport : (xpRxSkbInfoGet ⟨skb.data, 24⟩).portNum.toNat = _ := info_portNum (Nat.le_refl 24)
  have hrif : (xpRxSkbInfoGet ⟨skb.data, 24⟩).rifId.toNat = _ := info_rifId (Nat.le_refl 24)
  rw [rxFields_bytes (Nat.le_refl 24)] at hport hrif
  constructor
  · left
    change (xpRxSkbInfoGet skb).portNum.toNat = _ at hport
    rw [hport]
    exact (skb.data 9).toNat_lt
  · right
    change (xpRxSkbInfoGet skb).rifId.toNat = _ at hrif
    rw [hrif]
    exact Nat.le_add_left _ _

/-- What a lookup that finds `p` makes of a frame. -/
def handedTo (granted : Bool) (p : Option Nat) (bytes : List UInt8) : List RxEvent :=
  if granted then p.toList.map fun p => .netifRx p bytes else []

theorem deliverTo_eq (granted : Bool) (num : UInt32) :
    (deliverTo hashMin granted skb num st).1 =
      handedTo granted (findActive hashMin st.driver.interfaces num) skb.bytes := by
  unfold deliverTo xpRxNetdevSkbNetifRx handedTo
  cases granted <;> cases findActive hashMin st.driver.interfaces num <;> rfl

/-- The interface that a frame is handed to by its port. -/
def foundByVif (hashMin : UInt32 → Bucket) (st : Interfaces) (info : XpSkbInfo) : Option Nat :=
  if xpNoVif ≠ vifOfInfo info then findActive hashMin st (vifOfInfo info) else none

/-- The deliveries of the NETDEV channel. -/
theorem netdevProcess_events : (xpRxSkbNetdevProcess hashMin alloc info skb st).1 =
    mirrorFrame st.driver skb ++
      handedTo (alloc 0) (foundByVif hashMin st.driver.interfaces info)
        (skbPull skb rxHeaderLen).bytes ++
      handedTo (alloc 1) (findActive hashMin st.driver.interfaces info.rifId)
        (skbPull skb rxHeaderLen).bytes := by
  unfold xpRxSkbNetdevProcess
  dsimp only
  rw [deliverTo_eq, deliverToVif_driver]
  unfold deliverToVif foundByVif
  split
  · rw [deliverTo_eq]
  · unfold handedTo
    simp

end Frames

/-! ### Either order -/

section Order

variable {hashMin : UInt32 → Bucket} {st : Interfaces} {msg msg' : XpNlMsgLink} {p q : Nat}
  {type type' : XpNetdevType}

/-- The lookups after linking an interface that is in no bucket. -/
theorem findActive_linkEntry (unhashed : Unhashed st.xpActiveNetdevHtable p) (num num' : UInt32) :
    findActive hashMin (linkEntry hashMin st p num type) num' =
      if num = num' then some p else findActive hashMin st num' := by
  have hold : (st.xpActiveNetdevHtable (hashMin num')).find?
      (fun q => decide (((linkEntry hashMin st p num type).priv q).vif = num')) =
        findActive hashMin st num' := by
    apply List.find?_congr
    intro q hq
    have hqp : q ≠ p := by
      rintro rfl
      exact unhashed _ hq
    rw [show (linkEntry hashMin st p num type).priv q = st.priv q from setPriv_of_ne _ _ hqp]
  have hself : ((linkEntry hashMin st p num type).priv p).vif = num :=
    congrArg XpNetdevPriv.vif (setPriv_self _ _ _)
  unfold findActive at hold ⊢
  by_cases hb : hashMin num' = hashMin num
  · have hbucket : (linkEntry hashMin st p num type).xpActiveNetdevHtable (hashMin num') =
        p :: st.xpActiveNetdevHtable (hashMin num') := by
      rw [hb]
      exact Function.update_self ..
    rw [hbucket]
    by_cases hnum : num = num'
    · rw [if_pos hnum, List.find?_cons_of_pos (by simpa [hself] using hnum)]
    · rw [if_neg hnum, List.find?_cons_of_neg (by simpa [hself] using hnum), hold]
  · have hbucket : (linkEntry hashMin st p num type).xpActiveNetdevHtable (hashMin num') =
        st.xpActiveNetdevHtable (hashMin num') := Function.update_of_ne hb ..
    have hnum : num ≠ num' := fun h => hb (congrArg hashMin h.symm)
    rw [if_neg hnum, hbucket, hold]

theorem findEntry_id {id : UInt32} (h : findEntry st id = some p) : (st.priv p).xpnetIntfId = id := by
  simpa using List.find?_some h

/-- Linking an interface leaves the ids alone. -/
theorem findEntry_linkEntry (num id : UInt32) :
    findEntry (linkEntry hashMin st p num type) id = findEntry st id := by
  apply List.find?_congr
  intro q _
  by_cases hqp : q = p
  · subst hqp
    rw [show (linkEntry hashMin st q num type).priv q =
      { st.priv q with vif := num, netdevType := type } from setPriv_self _ _ _]
  · rw [show (linkEntry hashMin st p num type).priv q = st.priv q from setPriv_of_ne _ _ hqp]

/-- What a message links does not depend on one that links another interface. -/
theorem linksAs_ifLink (hne : msg.xpnetIntfId ≠ msg'.xpnetIntfId) :
    LinksAs (xpNlMsgIfLink hashMin msg st).2 msg' q type' ↔ LinksAs st msg' q type' := by
  by_cases hlinks : ∃ p type, LinksAs st msg p type
  · obtain ⟨p, type, links⟩ := hlinks
    rw [links.ifLink]
    have hpriv : findEntry st msg'.xpnetIntfId = some q →
        (linkEntry hashMin st p msg.vif type).priv q = st.priv q := by
      intro hfind
      refine setPriv_of_ne _ _ ?_
      rintro rfl
      exact hne ((findEntry_id links.found).symm.trans (findEntry_id hfind))
    constructor
    · rintro ⟨hfind, hfree, hnum⟩
      rw [findEntry_linkEntry] at hfind
      exact ⟨hfind, hpriv hfind ▸ hfree, hnum⟩
    · rintro ⟨hfind, hfree, hnum⟩
      exact ⟨(findEntry_linkEntry _ _).trans hfind, (hpriv hfind).symm ▸ hfree, hnum⟩
  · rw [ifLink_of_not hlinks]

/-- The lookups after a message that links an interface. -/
theorem LinksAs.lookup (ok : Consistent hashMin st) (links : LinksAs st msg p type) (num : UInt32) :
    findActive hashMin (xpNlMsgIfLink hashMin msg st).2 num =
      if msg.vif = num then some p else findActive hashMin st num := by
  rw [links.ifLink]
  exact findActive_linkEntry ((ok.entries p (findEntry_mem links.found)).unlinked links.free) _ _

/-- The lookups after two messages that link different interfaces: the later link comes
first. -/
theorem LinksAs.lookup₂ (ok : Consistent hashMin st) (hne : msg.xpnetIntfId ≠ msg'.xpnetIntfId)
    (links : LinksAs st msg p type) (links' : LinksAs st msg' q type') (num : UInt32) :
    findActive hashMin (xpNlMsgIfLink hashMin msg' (xpNlMsgIfLink hashMin msg st).2).2 num =
      if msg'.vif = num then some q else if msg.vif = num then some p
        else findActive hashMin st num := by
  rw [((linksAs_ifLink hne).mpr links').lookup (ok.ifLink msg), links.lookup ok]

/-- Both messages link, to one number, which is that of a port or a bridge domain. -/
def SameNumber (st : Interfaces) (msg msg' : XpNlMsgLink) : Prop :=
  (∃ p type, LinksAs st msg p type ∧ type ≠ .lag) ∧ (∃ q type, LinksAs st msg' q type) ∧
    msg.vif = msg'.vif

/-- The states after the two messages in either order. -/
def bothOrders (hashMin : UInt32 → Bucket) (st : Interfaces) (msg msg' : XpNlMsgLink) :
    Interfaces × Interfaces :=
  ((xpNlMsgIfLink hashMin msg' (xpNlMsgIfLink hashMin msg st).2).2,
    (xpNlMsgIfLink hashMin msg (xpNlMsgIfLink hashMin msg' st).2).2)

/-- Unless they link to one number, every lookup finds the same in either order. -/
theorem lookups_eq (ok : Consistent hashMin st) (hne : msg.xpnetIntfId ≠ msg'.xpnetIntfId)
    (hdiff : ¬ SameNumber st msg msg') {num : UInt32} (hnum : LookedUp num) :
    findActive hashMin (bothOrders hashMin st msg msg').1 num =
      findActive hashMin (bothOrders hashMin st msg msg').2 num := by
  unfold bothOrders
  dsimp only
  by_cases hlinks : ∃ p type, LinksAs st msg p type
  · by_cases hlinks' : ∃ q type, LinksAs st msg' q type
    · obtain ⟨p, type, links⟩ := id hlinks
      obtain ⟨q, type', links'⟩ := id hlinks'
      rw [links.lookup₂ ok hne links', links'.lookup₂ ok hne.symm links]
      by_cases heq : msg.vif = msg'.vif
      · -- the number of a LAG, which is not looked up
        have hlag : type = .lag := by
          by_contra h
          exact hdiff ⟨⟨p, type, links, h⟩, hlinks', heq⟩
        have hrange := numbers_of_numberType links.numbered
        subst hlag
        have hmiss : msg.vif ≠ num := fun h => not_lookedUp_lag (h ▸ hrange) hnum
        simp only [← heq, if_neg hmiss]
      · by_cases h : msg.vif = num
        · rw [if_pos h, if_pos h, if_neg fun h' => heq (h.trans h'.symm)]
        · rw [if_neg h, if_neg h]
    · have hafter : ¬ ∃ q type, LinksAs (xpNlMsgIfLink hashMin msg st).2 msg' q type := by
        simpa only [linksAs_ifLink hne] using hlinks'
      rw [ifLink_of_not hafter, ifLink_of_not hlinks']
  · have hafter : ¬ ∃ p type, LinksAs (xpNlMsgIfLink hashMin msg' st).2 msg p type := by
      simpa only [linksAs_ifLink hne.symm] using hlinks
    rw [ifLink_of_not hlinks, ifLink_of_not hafter]

end Order

/-! ### Frames for an interface -/

section Headers

variable {hashMin : UInt32 → Bucket} {st : Interfaces} {num : UInt32}

/-- A frame from a port is looked up by the port. -/
theorem foundByVif_port (hnum : XpNetdevType.Numbers num .fp) (bd : Nat) (hbd : bd < 2 ^ 16) :
    foundByVif hashMin st (xpRxSkbInfoGet (headerFrame num.toNat num.toNat bd)) =
      findActive hashMin st num := by
  have hlt : num.toNat < 128 := UInt32.lt_iff_toNat_lt.mp hnum.2
  have hfields : rxFields (headerFrame num.toNat num.toNat bd).bytes = _ :=
    rxFields_headerFrame (by omega) (by omega) hbd
  have hport : (xpRxSkbInfoGet (headerFrame num.toNat num.toNat bd)).portNum = num := by
    rw [← UInt32.toNat_inj, info_portNum (Nat.le_refl 24), hfields]
  have hintf : (xpRxSkbInfoGet (headerFrame num.toNat num.toNat bd)).intfId = num := by
    rw [← UInt32.toNat_inj, info_intfId (Nat.le_refl 24), hfields]
  have hvif : vifOfInfo (xpRxSkbInfoGet (headerFrame num.toNat num.toNat bd)) = num := by
    unfold vifOfInfo
    rw [hintf, hport, if_pos (.inl hnum)]
  unfold foundByVif
  rw [hvif, if_pos hnum.ne_noVif.symm]

/-- A frame that is neither from a port nor from a LAG is looked up by its bridge domain. -/
theorem found_bd (hashMin : UInt32 → Bucket) (st : Interfaces)
    (hnum : XpNetdevType.Numbers num .router) :
    let info := xpRxSkbInfoGet (headerFrame 0 (2 ^ 20 - 1) (num.toNat - 65536))
    foundByVif hashMin st info = none ∧ info.rifId = num := by
  intro info
  have hlo : 65536 ≤ num.toNat := UInt32.le_iff_toNat_le.mp hnum.1
  have hhi : num.toNat < 81920 := UInt32.lt_iff_toNat_lt.mp hnum.2
  have hfields : rxFields (headerFrame 0 (2 ^ 20 - 1) (num.toNat - 65536)).bytes = _ :=
    rxFields_headerFrame (by decide) (by decide) (by omega)
  have hintf : info.intfId.toNat = 2 ^ 20 - 1 := by
    rw [info_intfId (Nat.le_refl 24), hfields]
  have hvif : vifOfInfo info = xpNoVif := by
    unfold vifOfInfo
    rw [if_neg]
    rw [inFpOrLag_iff, hintf]
    rintro (h | ⟨-, h⟩) <;> exact absurd h (by decide)
  constructor
  · unfold foundByVif
    rw [hvif, if_neg (not_not.mpr rfl)]
  · rw [← UInt32.toNat_inj, info_rifId (Nat.le_refl 24), hfields]
    change num.toNat - 65536 + 65536 = num.toNat
    omega

end Headers

/-! ### Deliveries in either order -/

/-- Every frame of the NETDEV channel goes the same way in both states. -/
def SameDeliveries (hashMin : UInt32 → Bucket) (drv drv' : Driver) : Prop :=
  ∀ alloc skb (host : RxHost),
    (xpRxSkbNetdevProcess hashMin alloc (xpRxSkbInfoGet skb) skb { host with driver := drv }).1 =
      (xpRxSkbNetdevProcess hashMin alloc (xpRxSkbInfoGet skb) skb { host with driver := drv' }).1

section Deliveries

variable {hashMin : UInt32 → Bucket} {drv : Driver} {st st' : Interfaces} {msg msg' : XpNlMsgLink}

theorem sameDeliveries_of_lookups (hlookups : ∀ num, LookedUp num →
    findActive hashMin st num = findActive hashMin st' num) :
    SameDeliveries hashMin { drv with interfaces := st } { drv with interfaces := st' } := by
  intro alloc skb host
  obtain ⟨hport, hrif⟩ := lookedUp_info skb
  have hvif : foundByVif hashMin st (xpRxSkbInfoGet skb) =
      foundByVif hashMin st' (xpRxSkbInfoGet skb) := by
    unfold foundByVif
    split
    · next hne =>
      have heq : vifOfInfo (xpRxSkbInfoGet skb) = (xpRxSkbInfoGet skb).portNum := by
        unfold vifOfInfo at hne ⊢
        split
        · rfl
        · next h => exact absurd (if_neg h).symm hne
      rw [heq]
      exact hlookups _ hport
    · rfl
  rw [netdevProcess_events, netdevProcess_events]
  dsimp only
  rw [hvif, hlookups _ hrif]
  rfl

/-- Frames that go to one number go to one interface. -/
theorem lookup_eq_of_sameDeliveries
    (same : SameDeliveries hashMin { drv with interfaces := st } { drv with interfaces := st' })
    {num : UInt32} {type : XpNetdevType} (hnum : type.Numbers num) (hlag : type ≠ .lag) {p q : Nat}
    (hp : findActive hashMin st num = some p) (hq : findActive hashMin st' num = some q) : p = q := by
  cases type with
  | fp =>
    have h := same (fun _ => true) (headerFrame num.toNat num.toNat 0) .start
    rw [netdevProcess_events, netdevProcess_events] at h
    dsimp only at h
    rw [foundByVif_port hnum 0 (by decide), foundByVif_port hnum 0 (by decide), hp, hq,
      List.append_assoc, List.append_assoc] at h
    injection (List.cons.inj (List.append_cancel_left h)).1
  | router =>
    have h := same (fun _ => true) (headerFrame 0 (2 ^ 20 - 1) (num.toNat - 65536)) .start
    rw [netdevProcess_events, netdevProcess_events] at h
    dsimp only at h
    obtain ⟨hport, hrif⟩ := found_bd hashMin st hnum
    rw [hport, (found_bd hashMin st' hnum).1, hrif, hp, hq] at h
    injection (List.cons.inj (List.append_cancel_left h)).1
  | lag => exact absurd rfl hlag

theorem sameDeliveries_iff (ok : Consistent hashMin st)
    (hne : msg.xpnetIntfId ≠ msg'.xpnetIntfId) :
    SameDeliveries hashMin { drv with interfaces := (bothOrders hashMin st msg msg').1 }
        { drv with interfaces := (bothOrders hashMin st msg msg').2 } ↔
      ¬ SameNumber st msg msg' := by
  constructor
  · rintro same ⟨⟨p, type, links, hlag⟩, ⟨q, type', links'⟩, heq⟩
    have hnum := numbers_of_numberType links.numbered
    have hp : findActive hashMin (bothOrders hashMin st msg msg').1 msg.vif = some q := by
      rw [bothOrders, links.lookup₂ ok hne links', if_pos heq.symm]
    have hq : findActive hashMin (bothOrders hashMin st msg msg').2 msg.vif = some p := by
      rw [bothOrders, links'.lookup₂ ok hne.symm links, if_pos rfl]
    have hqp := lookup_eq_of_sameDeliveries same hnum hlag hp hq
    subst hqp
    exact hne ((findEntry_id links.found).symm.trans (findEntry_id links'.found))
  · exact fun hdiff => sameDeliveries_of_lookups fun _ hnum => lookups_eq ok hne hdiff hnum

end Deliveries

/-- **Shared numbers.** In every state of a run the numbers of the listed interfaces are
distinct, exactly when no message of it links an interface to a number that another has;
and from every state that messages lead to, two messages that link different interfaces
have the same deliveries of every frame in either order, exactly when they do not both
link to one number of a port or a bridge domain. -/
theorem links_unique_iff (hashMin : UInt32 → Bucket) (reqs : List (Kernel × XpNlMsg)) :
    ((∀ done, done <+: reqs → UniqueLinks (callHandlers hashMin .start done).interfaces) ↔
      ∀ done req, done ++ [req] <+: reqs →
        ¬ TakesNumber (callHandlers hashMin .start done).interfaces req) ∧
    ∀ (kernel kernel' : Kernel) (msg msg' : XpNlMsgLink), msg.xpnetIntfId ≠ msg'.xpnetIntfId →
      (SameDeliveries hashMin
          (callHandlers hashMin .start (reqs ++ [(kernel, .linkAdd msg), (kernel', .linkAdd msg')]))
          (callHandlers hashMin .start (reqs ++ [(kernel', .linkAdd msg'), (kernel, .linkAdd msg)])) ↔
        ¬ SameNumber (callHandlers hashMin .start reqs).interfaces msg msg') := by
  constructor
  · exact history_keeps_iff (I := fun drv : Driver => UniqueLinks drv.interfaces)
      (G := fun drv req => ¬ TakesNumber drv.interfaces req)
      (fun p hp => absurd hp List.not_mem_nil) (fun drv req => uniqueLinks_callHandler drv req) reqs
  · intro kernel kernel' msg msg' hne
    have ok := (interfaces_consistent hashMin reqs).1
    rw [callHandlers, List.foldl_append, callHandlers, List.foldl_append]
    exact sameDeliveries_iff ok hne

/-- Interfaces 1 and 2. -/
def twoInterfaces : List (Kernel × XpNlMsg) := [
  (grantingKernel, .intfAdd ⟨1, ⟨List.replicate ifnamsiz 0, length_replicate_ifnamsiz⟩⟩),
  (grantingKernel, .intfAdd ⟨2, ⟨List.replicate ifnamsiz 0, length_replicate_ifnamsiz⟩⟩)]

/-- The messages that link both interfaces to port 5. -/
def linkFirst : Kernel × XpNlMsg := (grantingKernel, .linkAdd ⟨1, 5⟩)
def linkSecond : Kernel × XpNlMsg := (grantingKernel, .linkAdd ⟨2, 5⟩)

/-- Both are linked, and a frame from the port goes to the one that was linked last. -/
theorem links_shared :
    ¬ UniqueLinks (callHandlers (fun _ => 0) .start
      (twoInterfaces ++ [linkFirst, linkSecond])).interfaces ∧
    ¬ SameDeliveries (fun _ => 0)
      (callHandlers (fun _ => 0) .start (twoInterfaces ++ [linkFirst, linkSecond]))
      (callHandlers (fun _ => 0) .start (twoInterfaces ++ [linkSecond, linkFirst])) := by
  constructor
  · intro unique
    exact absurd (unique 1 (by decide) 2 (by decide) (by decide) (by decide)) (by decide)
  · intro same
    have h := same (fun _ => true) portFrame .start
    revert h
    decide +kernel

end XpNet.Intf
