/-
What the driver's interfaces, traps and sockets amount to for somebody outside: a
registry of interface ids beside the trap table, with no addresses and no hash table.

`Switchboard` is that, with what a message and a frame do to it. The driver refines it:
`Pictures hashMin st board` relates the two, every message and every frame keeps it, and
what a frame leads to is the same on both sides (`simulates_switchboard`). So what the
driver delivers, to which interface and in which order, depends neither on the hash
function nor on where the kernel puts the devices (`deliveries_of_any_addresses`). All
of it is about runs in which `alloc_netdev` finds its memory, whatever else fails;
without it `xp_nl_msg_if_create` does not return (`ifCreateWithin_eq_none`).
-/

import XpNet.Registry
import XpNet.Simulation
import XpNet.Intf.Links

namespace XpNet.Intf

/-! ### The switchboard -/

/-- What becomes of a frame, or of a part of it, with interfaces named by their ids. -/
inductive Delivery where
  | toSocket (sock : Nat) (bytes : List UInt8)
  | toInterface (id : UInt32) (bytes : List UInt8)
  | released
  deriving DecidableEq

structure Switchboard where
  registry : Registry UInt32 UInt32 TxHeader
  trapTable : XpTrapTable
  cbSockPtr : Option Nat
  packetMirroringEnable : Bool

def Switchboard.start : Switchboard where
  registry := .empty
  trapTable := xpTrapInit
  cbSockPtr := none
  packetMirroringEnable := false

/-- The registry after a message, and `kernel`'s answer to it. -/
def registryAfter (kernel : Kernel) (reg : Registry UInt32 UInt32 TxHeader) :
    XpNlMsg → Registry UInt32 UInt32 TxHeader
  | .intfAdd msg =>
    if 0 > kernel.registerNetdev msg.intfName then reg else reg.create msg.xpnetIntfId
  | .intfDel msg => reg.delete msg.xpnetIntfId
  | .linkAdd msg =>
    if free : reg.Free msg.xpnetIntfId ∧ (numberType msg.vif).isSome then
      reg.link msg.xpnetIntfId msg.vif free.1
    else reg
  | .linkDel msg => reg.unlink msg.xpnetIntfId
  | .txHdrSet msg =>
    if msg.operation = xpNlOperationAdd then reg.setHeader msg.xpnetIntfId (some msg.txHeader)
    else if msg.operation = xpNlOperationRemove then reg.setHeader msg.xpnetIntfId none
    else reg
  | _ => reg

/-- The socket of the callback channel after a message. -/
def callbackAfter (kernel : Kernel) (sock : Option Nat) : XpNlMsg → Option Nat
  | .cbFdSet msg => (kernel.sockfdLookup msg.fd).1
  | _ => sock

/-- Whether frames are mirrored after a message. -/
def mirroringAfter (mirroring : Bool) : XpNlMsg → Bool
  | .mirrorSet msg =>
    if msg.operation = xpNlOperationEnable then true
    else if msg.operation = xpNlOperationDisable then false
    else mirroring
  | _ => mirroring

/-- The trap table after a message. -/
def trapTableAfter (kernel : Kernel) (table : XpTrapTable) : XpNlMsg → XpTrapTable
  | .trapSet msg => (xpNlMsgTrap kernel msg table).2
  | _ => table

def Switchboard.handle (kernel : Kernel) (board : Switchboard) (msg : XpNlMsg) : Switchboard where
  registry := registryAfter kernel board.registry msg
  trapTable := trapTableAfter kernel board.trapTable msg
  cbSockPtr := callbackAfter kernel board.cbSockPtr msg
  packetMirroringEnable := mirroringAfter board.packetMirroringEnable msg

/-- The trap of a reason code, with its id. -/
def Switchboard.trap (board : Switchboard) (rc : UInt32) : Option (UInt32 × XpTrapConfig) :=
  let trapId := xpTrapIdGet board.trapTable rc
  (xpTrapConfigGet board.trapTable trapId).map fun trapCfg => (trapId, trapCfg)

instance decidableInFpOrLag (num : Nat) : Decidable (InFpOrLag num) :=
  inferInstanceAs (Decidable (num < 128 ∨ 4096 ≤ num ∧ num < 5019))

/-- The frame at a socket, if there is one. -/
def atSocket (sock : Option Nat) (bytes : List UInt8) : List Delivery :=
  sock.toList.map fun sock => .toSocket sock bytes

/-- The frame at an interface, if there is one and memory for it. -/
def atInterface (granted : Bool) (id : Option UInt32) (bytes : List UInt8) : List Delivery :=
  if granted then id.toList.map fun id => .toInterface id bytes else []

/-- The NETDEV channel: the frame goes to the interface that holds its port, when its
ingress vif is that of a port or a LAG, and to the one that holds its bridge domain. -/
def Switchboard.toInterfaces (board : Switchboard) (alloc : Nat → Bool) (skb : RxSkb) :
    List Delivery :=
  let info := xpRxSkbInfoGet skb
  let bytes := (skbPull skb rxHeaderLen).bytes
  let byPort := if InFpOrLag info.intfId.toNat then board.registry.holder info.portNum else none
  (if board.packetMirroringEnable then atSocket board.cbSockPtr skb.bytes else []) ++
    atInterface (alloc 0) byPort bytes ++
    atInterface (alloc 1) (board.registry.holder info.rifId) bytes

/-- Where a frame goes. -/
def Switchboard.route (board : Switchboard) (alloc : Nat → Bool) (skb : RxSkb) : List Delivery :=
  match board.trap (xpRxSkbInfoGet skb).rc with
  | none => atSocket board.cbSockPtr skb.bytes
  | some (_, trapCfg) =>
    if trapCfg.ch = xpNlHostifTrapCb then atSocket board.cbSockPtr skb.bytes
    else if trapCfg.ch = xpNlHostifTrapFd then atSocket trapCfg.sockPtr skb.bytes
    else if trapCfg.ch = xpNlHostifTrapNetdev then board.toInterfaces alloc skb
    else []

/-- The frame is counted at its trap. -/
def Switchboard.count (board : Switchboard) (skb : RxSkb) : Switchboard :=
  match board.trap (xpRxSkbInfoGet skb).rc with
  | none => board
  | some (trapId, trapCfg) =>
    if trapCfg.ch ∈ [xpNlHostifTrapCb, xpNlHostifTrapFd, xpNlHostifTrapNetdev] then
      { board with trapTable := { board.trapTable with
        trap := Function.update board.trapTable.trap trapId
          (some { trapCfg with rxCount := trapCfg.rxCount + 1 }) } }
    else board

def Switchboard.step (board : Switchboard) : RxInput → List Delivery × Switchboard
  | .message kernel msg => ([], board.handle kernel msg)
  | .frame alloc skb => (board.route alloc skb ++ [.released], board.count skb)

/-! ### What the driver shows -/

/-- An entry as it is registered. -/
def registrationOf (entry : XpNetdevPriv) : Registration UInt32 TxHeader where
  num := if entry.vif = xpNoVif then none else some entry.vif
  header := if entry.isTxHeaderSet then some entry.txHeader else none

/-- The ids of the entries that are linked to a number, in the order of its bucket. -/
def idsLinkedTo (hashMin : UInt32 → Bucket) (st : Interfaces) (num : UInt32) : List UInt32 :=
  (keyed hashMin (fun p => (st.priv p).vif) st.xpActiveNetdevHtable num).map
    fun p => (st.priv p).xpnetIntfId

/-- The interface list and the table are those of the registry. -/
structure Registers (hashMin : UInt32 → Bucket) (st : Interfaces)
    (reg : Registry UInt32 UInt32 TxHeader) : Prop where
  ok : Consistent hashMin st
  entries : ∀ id, reg.entry id = (findEntry st id).map fun p => registrationOf (st.priv p)
  links : ∀ num, reg.linkedTo num = idsLinkedTo hashMin st num

section Entries

variable {hashMin : UInt32 → Bucket} {st : Interfaces} {p : Nat} {id : UInt32}
  {entry : XpNetdevPriv}

/-- The listed entries have different ids. -/
theorem Consistent.findEntry_eq_some (ok : Consistent hashMin st) :
    findEntry st id = some p ↔ p ∈ st.xpNetdevList ∧ (st.priv p).xpnetIntfId = id := by
  constructor
  · exact fun h => ⟨findEntry_mem h, findEntry_id h⟩
  · rintro ⟨hp, hid⟩
    cases hfind : findEntry st id with
    | none =>
      have := List.find?_eq_none.mp hfind p hp
      simp [hid] at this
    | some q =>
      have heq : q = p := List.inj_on_of_nodup_map ok.ids (findEntry_mem hfind) hp
        ((findEntry_id hfind).trans hid.symm)
      rw [heq]

theorem id_setPriv (hid : entry.xpnetIntfId = (st.priv p).xpnetIntfId) (q : Nat) :
    ((setPriv st p entry).priv q).xpnetIntfId = (st.priv q).xpnetIntfId := by
  by_cases hq : q = p
  · subst hq
    rw [setPriv_self, hid]
  · rw [setPriv_of_ne _ _ hq]

/-- A store that keeps the id of an entry leaves the search as it is. -/
theorem findEntry_setPriv (hid : entry.xpnetIntfId = (st.priv p).xpnetIntfId)
    (t : Buckets Bucket Nat) : findEntry { setPriv st p entry with xpActiveNetdevHtable := t } id =
      findEntry st id := by
  apply List.find?_congr
  intro q _
  exact congrArg (fun i => decide (i = id)) (id_setPriv hid q)

/-- A handler that stores to one entry shows as a change of one registration. -/
theorem Registers.entry_set {reg : Registry UInt32 UInt32 TxHeader} (rel : Registers hashMin st reg)
    (hfind : findEntry st id = some p) (entry : XpNetdevPriv)
    (hid : entry.xpnetIntfId = (st.priv p).xpnetIntfId) (t : Buckets Bucket Nat) (id' : UInt32) :
    Function.update reg.entry id (some (registrationOf entry)) id' =
      (findEntry { setPriv st p entry with xpActiveNetdevHtable := t } id').map fun q =>
        registrationOf ((setPriv st p entry).priv q) := by
  rw [findEntry_setPriv hid]
  by_cases hid' : id' = id
  · subst hid'
    rw [Function.update_self, hfind, Option.map_some, setPriv_self]
  · rw [Function.update_of_ne hid', rel.entries]
    cases hfind' : findEntry st id' with
    | none => rfl
    | some q =>
      have hq : q ≠ p := by
        rintro rfl
        exact hid' ((findEntry_id hfind').symm.trans (findEntry_id hfind))
      rw [Option.map_some, Option.map_some, setPriv_of_ne _ _ hq]

/-- The registration of an entry that is found. -/
theorem Registers.entry_of_find {reg : Registry UInt32 UInt32 TxHeader}
    (rel : Registers hashMin st reg) (hfind : findEntry st id = some p) :
    reg.entry id = some (registrationOf (st.priv p)) := by
  rw [rel.entries, hfind, Option.map_some]

theorem Registers.entry_eq_none {reg : Registry UInt32 UInt32 TxHeader}
    (rel : Registers hashMin st reg) (hfind : findEntry st id = none) : reg.entry id = none := by
  rw [rel.entries, hfind, Option.map_none]

/-- Only the entries in the table matter. -/
theorem idsLinkedTo_congr {priv : Nat → XpNetdevPriv} {list : List Nat}
    (same : ∀ b, ∀ q ∈ st.xpActiveNetdevHtable b, priv q = st.priv q) (num : UInt32) :
    idsLinkedTo hashMin ⟨priv, list, st.xpActiveNetdevHtable⟩ num = idsLinkedTo hashMin st num := by
  unfold idsLinkedTo
  rw [keyed_congr fun q hq => congrArg XpNetdevPriv.vif (same _ q hq)]
  apply List.map_congr_left
  intro q hq
  exact congrArg XpNetdevPriv.xpnetIntfId (same _ q (mem_of_mem_keyed hq).1)

/-- Taking one entry out of the table takes its id out of every number's list. -/
theorem Consistent.filter_idsLinkedTo (ok : Consistent hashMin st) (hp : p ∈ st.xpNetdevList)
    (num : UInt32) : (idsLinkedTo hashMin st num).filter (· ≠ (st.priv p).xpnetIntfId) =
      ((keyed hashMin (fun p => (st.priv p).vif) st.xpActiveNetdevHtable num).filter
        (· ≠ p)).map fun q => (st.priv q).xpnetIntfId := by
  unfold idsLinkedTo
  rw [List.filter_map]
  congr 1
  apply List.filter_congr
  intro q hq
  have hlisted := ok.listed _ q (mem_of_mem_keyed hq).1
  have hinj : (st.priv q).xpnetIntfId = (st.priv p).xpnetIntfId ↔ q = p :=
    ⟨fun h => List.inj_on_of_nodup_map ok.ids hlisted hp h, fun h => by rw [h]⟩
  simp [hinj]

end Entries

/-! ### One handler -/

section Handlers

variable {hashMin : UInt32 → Bucket} {st : Interfaces} {reg : Registry UInt32 UInt32 TxHeader}

theorem registers_noInterfaces : Registers hashMin noInterfaces .empty where
  ok := consistent_noInterfaces
  entries _ := rfl
  links _ := rfl

/-- A new entry, without a number and a header. -/
theorem Registers.create {id : UInt32} {p : Nat} {entry : XpNetdevPriv}
    (rel : Registers hashMin st reg) (hnew : findEntry st id = none) (hp : p ∉ st.xpNetdevList)
    (hid : entry.xpnetIntfId = id) (hblank : registrationOf entry = ⟨none, none⟩)
    (ok : Consistent hashMin { setPriv st p entry with xpNetdevList := p :: st.xpNetdevList }) :
    Registers hashMin { setPriv st p entry with xpNetdevList := p :: st.xpNetdevList }
      (reg.create id) := by
  have hold : ∀ q ∈ st.xpNetdevList, (setPriv st p entry).priv q = st.priv q := by
    intro q hq
    apply setPriv_of_ne
    rintro rfl
    exact hp hq
  refine ⟨ok, ?entries, ?links⟩
  case entries =>
    intro id'
    have hsearch : st.xpNetdevList.find? (fun q => ((setPriv st p entry).priv q).xpnetIntfId = id') =
        st.xpNetdevList.find? fun q => (st.priv q).xpnetIntfId = id' :=
      List.find?_congr fun q hq => by rw [hold q hq]
    rw [reg.entry_create id (rel.entry_eq_none hnew)]
    unfold findEntry
    dsimp only
    by_cases hid' : id' = id
    · subst hid'
      rw [Function.update_self, List.find?_cons_of_pos (by simp [hid]), Option.map_some,
        setPriv_self, hblank]
    · rw [Function.update_of_ne hid', List.find?_cons_of_neg (by simpa [hid] using Ne.symm hid'),
        hsearch, rel.entries, findEntry]
      cases hfind : st.xpNetdevList.find? fun q => (st.priv q).xpnetIntfId = id' with
      | none => rfl
      | some q => rw [Option.map_some, Option.map_some, hold q (List.mem_of_find?_eq_some hfind)]
  case links =>
    intro num
    have htable : ∀ b, ∀ q ∈ st.xpActiveNetdevHtable b, (setPriv st p entry).priv q = st.priv q :=
      fun b q hq => hold q (rel.ok.listed b q hq)
    change reg.linkedTo num = _
    rw [rel.links]
    exact (idsLinkedTo_congr htable num).symm

theorem Registers.ifCreate (rel : Registers hashMin st reg) (kernel : Kernel) (msg : XpNlMsgIntf) :
    Registers hashMin (xpNlMsgIfCreate kernel msg st).2
      (registryAfter kernel reg (.intfAdd msg)) := by
  change Registers hashMin _ (if _ then reg else reg.create msg.xpnetIntfId)
  cases hfind : findEntry st msg.xpnetIntfId with
  | some p =>
    have hsome : (reg.entry msg.xpnetIntfId).isSome := by
      rw [rel.entry_of_find hfind]
      rfl
    have hsame : (xpNlMsgIfCreate kernel msg st).2 = st := by
      unfold xpNlMsgIfCreate
      rw [hfind]
    rw [reg.create_of_isSome _ hsome, ite_self, hsame]
    exact rel
  | none =>
    have ok := rel.ok.ifCreate kernel msg
    unfold xpNlMsgIfCreate at ok ⊢
    rw [hfind] at ok ⊢
    dsimp only at ok ⊢
    split
    · exact rel
    · rename_i hreg
      rw [if_neg hreg] at ok
      exact rel.create hfind (kernel.allocNetdev st.xpNetdevList).property rfl rfl ok

theorem Registers.ifDelete (rel : Registers hashMin st reg) (msg : XpNlMsgIntf) :
    Registers hashMin (xpNlMsgIfDelete msg st).2 (reg.delete msg.xpnetIntfId) := by
  have ok := rel.ok.ifDelete msg
  unfold xpNlMsgIfDelete at *
  cases hfind : findEntry st msg.xpnetIntfId with
  | none =>
    refine ⟨rel.ok, ?entries, ?links⟩
    case entries =>
      intro id
      by_cases hid : id = msg.xpnetIntfId
      · subst hid
        simp [Registry.delete, hfind]
      · simp [Registry.delete, hid, rel.entries]
    case links =>
      intro num
      -- no list has the id of an interface that is not there
      change (reg.linkedTo num).filter _ = _
      rw [← rel.links, List.filter_eq_self]
      intro i hi
      obtain ⟨e, hentry, -⟩ := (reg.mem_linkedTo num i).mp hi
      rw [decide_eq_true_iff]
      rintro rfl
      rw [rel.entry_eq_none hfind] at hentry
      cases hentry
  | some p =>
    rw [hfind] at ok
    dsimp only at ok ⊢
    have hlisted := findEntry_mem hfind
    have hid := findEntry_id hfind
    have hnodup : st.xpNetdevList.Nodup := rel.ok.ids.of_map
    refine ⟨ok, ?entries, ?links⟩
    case entries =>
      intro id
      change Function.update reg.entry _ none id = _
      by_cases hid' : id = msg.xpnetIntfId
      · subst hid'
        rw [Function.update_self]
        symm
        rw [Option.map_eq_none_iff]
        apply List.find?_eq_none.mpr
        intro q hq
        obtain ⟨hqp, hq⟩ := hnodup.mem_erase_iff.mp hq
        rw [decide_eq_true_iff]
        intro hqid
        exact hqp (List.inj_on_of_nodup_map rel.ok.ids hq hlisted (hqid.trans hid.symm))
      · rw [Function.update_of_ne hid', rel.entries]
        congr 1
        apply Option.ext
        intro q
        rw [rel.ok.findEntry_eq_some, ok.findEntry_eq_some, hnodup.mem_erase_iff]
        refine ⟨fun h => ⟨⟨?_, h.1⟩, h.2⟩, fun h => ⟨h.1.2, h.2⟩⟩
        rintro rfl
        exact hid' (h.2.symm.trans hid)
    case links =>
      intro num
      change (reg.linkedTo num).filter _ = _
      rw [rel.links, ← hid, rel.ok.filter_idsLinkedTo hlisted]
      unfold idsLinkedTo
      rw [keyed_hashDel fun q _ => rfl]

/-- A message links the interface exactly when the registry can. -/
theorem Registers.free_iff (rel : Registers hashMin st reg) (msg : XpNlMsgLink) :
    reg.Free msg.xpnetIntfId ∧ (numberType msg.vif).isSome ↔ ∃ p type, LinksAs st msg p type := by
  constructor
  · rintro ⟨⟨e, hentry, hfree⟩, hnum⟩
    obtain ⟨type, htype⟩ := Option.isSome_iff_exists.mp hnum
    rw [rel.entries, Option.map_eq_some_iff] at hentry
    obtain ⟨p, hfind, rfl⟩ := hentry
    refine ⟨p, type, hfind, ?_, htype⟩
    by_contra hlinked
    rw [registrationOf, if_neg hlinked] at hfree
    cases hfree
  · rintro ⟨p, type, links⟩
    refine ⟨⟨_, rel.entry_of_find links.found, ?_⟩, ?_⟩
    · rw [registrationOf, if_pos links.free]
    · rw [links.numbered]
      rfl

theorem Registers.ifLink (rel : Registers hashMin st reg) (kernel : Kernel) (msg : XpNlMsgLink) :
    Registers hashMin (xpNlMsgIfLink hashMin msg st).2
      (registryAfter kernel reg (.linkAdd msg)) := by
  have ok := rel.ok.ifLink msg
  change Registers hashMin _ (if free : _ then _ else reg)
  split
  · rename_i hfree
    obtain ⟨p, type, links⟩ := (rel.free_iff msg).mp hfree
    have hid := findEntry_id links.found
    have hnew := (rel.ok.entries p (findEntry_mem links.found)).unlinked links.free
    have hlinked : msg.vif ≠ xpNoVif := (numbers_of_numberType links.numbered).ne_noVif
    rw [links.ifLink] at ok ⊢
    refine ⟨ok, ?entries, ?links⟩
    case entries =>
      intro id
      have hreg : registrationOf { st.priv p with vif := msg.vif, netdevType := type } =
          { registrationOf (st.priv p) with num := some msg.vif } := by
        unfold registrationOf
        rw [if_neg hlinked]
      change Function.update reg.entry _ _ id = _
      rw [rel.entry_of_find links.found, Option.map_some, ← hreg]
      exact rel.entry_set links.found { st.priv p with vif := msg.vif, netdevType := type } rfl _ id
    case links =>
      intro num
      change Function.update reg.linkedTo _ _ num = _
      have hsame : ∀ q, q ≠ p →
          ((linkEntry hashMin st p msg.vif type).priv q).vif = (st.priv q).vif :=
        fun q hq => congrArg XpNetdevPriv.vif (setPriv_of_ne st _ hq)
      have hkeys := @keyed_hashAdd _ _ _ _ _ _ _ hashMin _ _ hnew hsame num
      have hself : ((linkEntry hashMin st p msg.vif type).priv p).vif = msg.vif :=
        congrArg XpNetdevPriv.vif (setPriv_self st p _)
      have hids : (fun q => ((linkEntry hashMin st p msg.vif type).priv q).xpnetIntfId) =
          fun q => (st.priv q).xpnetIntfId := funext (id_setPriv rfl)
      rw [hself] at hkeys
      unfold idsLinkedTo
      rw [hids, show (linkEntry hashMin st p msg.vif type).xpActiveNetdevHtable =
        hashAdd st.xpActiveNetdevHtable (hashMin msg.vif) p from rfl, hkeys]
      by_cases hnum : num = msg.vif
      · subst hnum
        rw [Function.update_self, if_pos rfl, List.map_cons, hid, rel.links]
        rfl
      · rw [Function.update_of_ne hnum, if_neg (Ne.symm hnum), rel.links]
        rfl
  · rename_i hnot
    rw [ifLink_of_not fun h => hnot ((rel.free_iff msg).mpr h)]
    exact rel

theorem Registers.ifUnlink (rel : Registers hashMin st reg) (msg : XpNlMsgLink) :
    Registers hashMin (xpNlMsgIfUnlink msg st).2 (reg.unlink msg.xpnetIntfId) := by
  have ok := rel.ok.ifUnlink msg
  unfold xpNlMsgIfUnlink at *
  cases hfind : findEntry st msg.xpnetIntfId with
  | none =>
    have hnone := rel.entry_eq_none hfind
    rw [reg.unlink_of_none _ hnone]
    exact rel
  | some p =>
    rw [hfind] at ok
    dsimp only at ok ⊢
    have hid := findEntry_id hfind
    refine ⟨ok, ?entries, ?links⟩
    case entries =>
      intro id
      change Function.update reg.entry _ _ id = _
      rw [rel.entry_of_find hfind]
      exact rel.entry_set hfind { st.priv p with vif := xpNoVif } rfl _ id
    case links =>
      intro num
      change (reg.linkedTo num).filter _ = _
      have hsame : ∀ q, q ≠ p →
          ((setPriv st p { st.priv p with vif := xpNoVif }).priv q).vif = (st.priv q).vif :=
        fun q hq => congrArg XpNetdevPriv.vif (setPriv_of_ne st _ hq)
      have hkeys := @keyed_hashDel _ _ _ st.xpActiveNetdevHtable _ _ _ hashMin _ _ hsame num
      have hids : (fun q => ((setPriv st p { st.priv p with vif := xpNoVif }).priv q).xpnetIntfId) =
          fun q => (st.priv q).xpnetIntfId := funext (id_setPriv rfl)
      rw [rel.links, ← hid, rel.ok.filter_idsLinkedTo (findEntry_mem hfind), ← hkeys, ← hids]
      rfl

/-- A store to the header of an entry. -/
theorem Registers.setHeader {id : UInt32} {p : Nat} {hdr : TxHeader} {isSet : Bool}
    {header : Option TxHeader} (rel : Registers hashMin st reg) (hfind : findEntry st id = some p)
    (hheader : (if isSet then some hdr else none) = header)
    (ok : Consistent hashMin
      (setPriv st p { st.priv p with txHeader := hdr, isTxHeaderSet := isSet })) :
    Registers hashMin (setPriv st p { st.priv p with txHeader := hdr, isTxHeaderSet := isSet })
      (reg.setHeader id header) := by
  refine ⟨ok, ?entries, ?links⟩
  case entries =>
    intro id'
    change Function.update reg.entry _ _ id' = _
    rw [rel.entry_of_find hfind, ← hheader]
    exact rel.entry_set hfind { st.priv p with txHeader := hdr, isTxHeaderSet := isSet } rfl
      st.xpActiveNetdevHtable id'
  case links =>
    intro num
    have hids : (fun q => ((setPriv st p
        { st.priv p with txHeader := hdr, isTxHeaderSet := isSet }).priv q).xpnetIntfId) =
        fun q => (st.priv q).xpnetIntfId := funext (id_setPriv rfl)
    change reg.linkedTo num = _
    rw [rel.links]
    unfold idsLinkedTo
    rw [hids]
    congr 1
    symm
    apply keyed_congr
    intro q _
    by_cases hq : q = p
    · subst hq
      rw [setPriv_self]
    · rw [setPriv_of_ne _ _ hq]

theorem Registers.txHeader (rel : Registers hashMin st reg) (kernel : Kernel)
    (msg : XpNlMsgTxHdr) : Registers hashMin (xpNlMsgTxHeader msg st).2
      (registryAfter kernel reg (.txHdrSet msg)) := by
  have ok := rel.ok.txHeader msg
  change Registers hashMin _ (if _ then _ else if _ then _ else reg)
  unfold xpNlMsgTxHeader at *
  cases hfind : findEntry st msg.xpnetIntfId with
  | none =>
    have hnone := rel.entry_eq_none hfind
    rw [reg.setHeader_of_none _ _ hnone, reg.setHeader_of_none _ _ hnone, ite_self, ite_self]
    exact rel
  | some p =>
    rw [hfind] at ok
    dsimp only at ok ⊢
    by_cases hadd : msg.operation = xpNlOperationAdd
    · rw [if_pos hadd] at ok
      rw [if_pos hadd, if_pos hadd]
      exact rel.setHeader hfind rfl ok
    · rw [if_neg hadd] at ok
      rw [if_neg hadd, if_neg hadd]
      by_cases hremove : msg.operation = xpNlOperationRemove
      · rw [if_pos hremove] at ok
        rw [if_pos hremove, if_pos hremove]
        exact rel.setHeader hfind rfl ok
      · rw [if_neg hremove, if_neg hremove]
        exact rel

end Handlers

/-! ### Messages and frames -/

/-- The event as somebody outside sees it, who knows an interface by its id. -/
def deliveryOf (st : Interfaces) : RxEvent → Delivery
  | .sockSendmsg sock bytes => .toSocket sock bytes
  | .netifRx netdev bytes => .toInterface (st.priv netdev).xpnetIntfId bytes
  | .devKfreeSkb => .released

/-- The driver, with what a frame leads to as its answer. -/
def driverStep (hashMin : UInt32 → Bucket) (st : RxHost) (input : RxInput) :
    List Delivery × RxHost :=
  (match input with
    | .message _ _ => []
    | .frame alloc skb =>
      (xpRxSkbProcess hashMin alloc skb st).1.map (deliveryOf st.driver.interfaces),
    rxStep hashMin st input)

/-- The board is a picture of the driver's state. -/
structure Pictures (hashMin : UInt32 → Bucket) (st : RxHost) (board : Switchboard) : Prop where
  registry : Registers hashMin st.driver.interfaces board.registry
  trapTable : board.trapTable = st.driver.trapTable
  cbSockPtr : board.cbSockPtr = st.driver.cbSockPtr
  mirroring : board.packetMirroringEnable = st.driver.packetMirroringEnable

section Pictures

variable {hashMin : UInt32 → Bucket} {st : RxHost} {board : Switchboard}

theorem pictures_start : Pictures hashMin .start .start :=
  ⟨registers_noInterfaces, rfl, rfl, rfl⟩

/-- The counters are not in the picture. -/
theorem Pictures.of_driver {st' : RxHost} (pic : Pictures hashMin st board)
    (h : st'.driver = st.driver) : Pictures hashMin st' board := by
  constructor
  · rw [h]
    exact pic.registry
  · rw [h]
    exact pic.trapTable
  · rw [h]
    exact pic.cbSockPtr
  · rw [h]
    exact pic.mirroring

/-- Every message keeps the picture. -/
theorem Pictures.message (pic : Pictures hashMin st board) (kernel : Kernel) (msg : XpNlMsg) :
    Pictures hashMin { st with driver := callHandler hashMin kernel st.driver msg }
      (board.handle kernel msg) := by
  obtain ⟨rel, htrap, hsock, hmirror⟩ := pic
  cases msg with
  | intfAdd msg => exact ⟨rel.ifCreate kernel msg, htrap, hsock, hmirror⟩
  | intfDel msg => exact ⟨rel.ifDelete msg, htrap, hsock, hmirror⟩
  | linkAdd msg => exact ⟨rel.ifLink kernel msg, htrap, hsock, hmirror⟩
  | linkDel msg => exact ⟨rel.ifUnlink msg, htrap, hsock, hmirror⟩
  | txHdrSet msg => exact ⟨rel.txHeader kernel msg, htrap, hsock, hmirror⟩
  | trapSet msg => exact ⟨rel, congrArg (fun t => (xpNlMsgTrap kernel msg t).2) htrap, hsock, hmirror⟩
  | cbFdSet msg => exact ⟨rel, htrap, rfl, hmirror⟩
  | mirrorSet msg =>
    refine ⟨?_, ?_, ?_, ?_⟩
    · rw [callHandler, xpNlMsgMirror_interfaces]
      exact rel
    · rw [callHandler, xpNlMsgMirror_trapTable]
      exact htrap
    · rw [callHandler, xpNlMsgMirror_cbSockPtr]
      exact hsock
    · change (if _ then true else if _ then false else board.packetMirroringEnable) = _
      unfold callHandler xpNlMsgMirror
      by_cases hon : msg.operation = xpNlOperationEnable
      · simp [hon]
      · by_cases hoff : msg.operation = xpNlOperationDisable
        · simp only [hoff, or_true, if_true]
          rfl
        · simp [hon, hoff, hmirror]

/-- The interface that holds a number is the one that the lookup finds. -/
theorem Pictures.holder (pic : Pictures hashMin st board) (num : UInt32) :
    board.registry.holder num = (findActive hashMin st.driver.interfaces num).map fun p =>
      (st.driver.interfaces.priv p).xpnetIntfId := by
  unfold Registry.holder findActive
  rw [pic.registry.links, idsLinkedTo, List.head?_map, keyed, List.head?_filter]

theorem map_fdProcess (ifs : Interfaces) (sock : Option Nat) (skb : RxSkb) :
    (xpRxSkbFdProcess sock skb).map (deliveryOf ifs) = atSocket sock skb.bytes := by
  cases sock <;> rfl

theorem map_handedTo (ifs : Interfaces) (granted : Bool) (p : Option Nat) (bytes : List UInt8) :
    (handedTo granted p bytes).map (deliveryOf ifs) =
      atInterface granted (p.map fun p => (ifs.priv p).xpnetIntfId) bytes := by
  cases granted <;> cases p <;> rfl

/-- The port that is looked up is never `XP_NO_VIF`. -/
theorem foundByVif_eq (ifs : Interfaces) (skb : RxSkb) :
    foundByVif hashMin ifs (xpRxSkbInfoGet skb) =
      if InFpOrLag (xpRxSkbInfoGet skb).intfId.toNat then
        findActive hashMin ifs (xpRxSkbInfoGet skb).portNum
      else none := by
  have hport : xpNoVif ≠ (xpRxSkbInfoGet skb).portNum := by
    have hlen : (skb.data 9).toUInt32.toNat < 256 := (skb.data 9).toNat_lt
    intro heq
    rw [show (skb.data 9).toUInt32 = xpNoVif from heq.symm] at hlen
    exact absurd hlen (by decide)
  unfold foundByVif vifOfInfo
  by_cases hin : InFpOrLag (xpRxSkbInfoGet skb).intfId.toNat
  · rw [if_pos ((inFpOrLag_iff _).mpr hin), if_pos hport, if_pos hin]
  · rw [if_neg (fun h => hin ((inFpOrLag_iff _).mp h)), if_neg (not_not.mpr rfl), if_neg hin]

theorem Pictures.toInterfaces (pic : Pictures hashMin st board) (alloc : Nat → Bool)
    (skb : RxSkb) :
    (xpRxSkbNetdevProcess hashMin alloc (xpRxSkbInfoGet skb) skb st).1.map
        (deliveryOf st.driver.interfaces) = board.toInterfaces alloc skb := by
  have hmirror : (mirrorFrame st.driver skb).map (deliveryOf st.driver.interfaces) =
      if board.packetMirroringEnable then atSocket board.cbSockPtr skb.bytes else [] := by
    unfold mirrorFrame
    rw [pic.mirroring, pic.cbSockPtr]
    split
    · exact map_fdProcess _ _ _
    · rfl
  have hport : (foundByVif hashMin st.driver.interfaces (xpRxSkbInfoGet skb)).map
      (fun p => (st.driver.interfaces.priv p).xpnetIntfId) =
        if InFpOrLag (xpRxSkbInfoGet skb).intfId.toNat then
          board.registry.holder (xpRxSkbInfoGet skb).portNum
        else none := by
    rw [foundByVif_eq, pic.holder]
    split <;> rfl
  rw [netdevProcess_events, List.map_append, List.map_append, hmirror, map_handedTo, map_handedTo,
    hport, ← pic.holder]
  rfl

/-- What follows the lookup of a trap. -/
theorem Pictures.switch (pic : Pictures hashMin st board) (alloc : Nat → Bool) (skb : RxSkb)
    (trapId : UInt32) (trapCfg : XpTrapConfig) :
    (switchOnChannel hashMin alloc trapId trapCfg (xpRxSkbInfoGet skb) skb st).1.map
        (deliveryOf st.driver.interfaces) =
      if trapCfg.ch = xpNlHostifTrapCb then atSocket board.cbSockPtr skb.bytes
      else if trapCfg.ch = xpNlHostifTrapFd then atSocket trapCfg.sockPtr skb.bytes
      else if trapCfg.ch = xpNlHostifTrapNetdev then board.toInterfaces alloc skb
      else [] := by
  unfold switchOnChannel
  split
  · rw [map_fdProcess, pic.cbSockPtr]
  · split
    · exact map_fdProcess _ _ _
    · split
      · exact pic.toInterfaces alloc skb
      · rfl

theorem Pictures.trap (pic : Pictures hashMin st board) (rc : UInt32) :
    board.trap rc = (xpTrapConfigGet st.driver.trapTable (xpTrapIdGet st.driver.trapTable rc)).map
      fun trapCfg => (xpTrapIdGet st.driver.trapTable rc, trapCfg) := by
  unfold Switchboard.trap
  rw [pic.trapTable]

/-- A trap that is found has an id. -/
theorem trapId_ne_invalid {table : XpTrapTable} {trapId : UInt32} {trapCfg : XpTrapConfig}
    (h : xpTrapConfigGet table trapId = some trapCfg) : trapId ≠ xpInvalidTrapId := by
  rintro rfl
  exact absurd (xpTrapConfigGet_eq_some.mp h).1 (by decide)

/-- Every frame is handed to those that the board routes it to, and keeps the picture. -/
theorem Pictures.frame (pic : Pictures hashMin st board) (alloc : Nat → Bool) (skb : RxSkb) :
    (xpRxSkbProcess hashMin alloc skb st).1.map (deliveryOf st.driver.interfaces) =
        board.route alloc skb ++ [.released] ∧
      Pictures hashMin (xpRxSkbProcess hashMin alloc skb st).2 (board.count skb) := by
  have htrap := pic.trap (xpRxSkbInfoGet skb).rc
  unfold xpRxSkbProcess Switchboard.route Switchboard.count
  dsimp only
  rw [htrap]
  generalize hid : xpTrapIdGet st.driver.trapTable (xpRxSkbInfoGet skb).rc = trapId at *
  cases hcfg : xpTrapConfigGet st.driver.trapTable trapId with
  | none =>
    dsimp only [Option.map_none]
    rw [List.map_append, map_fdProcess, pic.cbSockPtr]
    exact ⟨rfl, pic.of_driver rfl⟩
  | some trapCfg =>
    have counted : Pictures hashMin { st with stats := st.stats.count skb.len } board :=
      pic.of_driver rfl
    dsimp only [Option.map_some]
    rw [if_neg (trapId_ne_invalid hcfg), List.map_append]
    refine ⟨congrArg₂ (· ++ ·) (counted.switch alloc skb trapId trapCfg) rfl, ?_⟩
    have hdriver := @switchOnChannel_driver hashMin alloc skb
      { st with stats := st.stats.count skb.len } trapId trapCfg (xpRxSkbInfoGet skb)
    split at hdriver
    · rename_i hch
      rw [if_pos hch]
      refine ⟨?_, ?_, ?_, ?_⟩
      · rw [hdriver]
        exact pic.registry
      · rw [hdriver, pic.trapTable]
        rfl
      · rw [hdriver]
        exact pic.cbSockPtr
      · rw [hdriver]
        exact pic.mirroring
    · rename_i hch
      rw [if_neg hch]
      exact pic.of_driver hdriver

/-- The driver does what its switchboard does. -/
theorem simulates_switchboard (hashMin : UInt32 → Bucket) :
    Simulates (Pictures hashMin) (driverStep hashMin) Switchboard.step where
  answer pic input := by
    cases input with
    | message kernel msg => rfl
    | frame alloc skb => exact (pic.frame alloc skb).1
  next pic input := by
    cases input with
    | message kernel msg => exact pic.message kernel msg
    | frame alloc skb => exact (pic.frame alloc skb).2

end Pictures

/-! ### Runs -/

/-- **The driver as a switchboard.** After every sequence of messages and frames, in any
order and with memory for every new device, each frame has gone where the board sends it: by
the registry of ids, in which a number goes to the interface linked to it last. And the TX
header of each interface is the one registered for its id, or zeros. -/
theorem driver_refines_switchboard (hashMin : UInt32 → Bucket) (inputs : List RxInput) :
    let st := (after (driverStep hashMin) .start inputs).driver.interfaces
    let reg := (after Switchboard.step .start inputs).registry
    answers (driverStep hashMin) .start inputs = answers Switchboard.step .start inputs ∧
      ∀ id, (findEntry st id).map (fun p => (st.priv p).txHeader) =
        (reg.entry id).map fun e => e.header.getD unsetTxHeader := by
  intro st reg
  have sim := simulates_switchboard hashMin
  refine ⟨sim.answers pictures_start inputs, ?_⟩
  intro id
  have pic : Registers hashMin st reg := (sim.after pictures_start inputs).registry
  rw [pic.entries, Option.map_map]
  cases hfind : findEntry st id with
  | none => rfl
  | some p =>
    have hunset := (pic.ok.entries p (findEntry_mem hfind)).header
    rw [Option.map_some, Option.map_some, Option.some.injEq]
    unfold registrationOf
    cases hset : (st.priv p).isTxHeaderSet with
    | true => simp [hset]
    | false => simp [hset, hunset hset]

/-- The kernels answer a message alike, but for the memory they find for a device. -/
def SameButAddresses : RxInput → RxInput → Prop
  | .message kernel msg, .message kernel' msg' =>
    kernel.registerNetdev = kernel'.registerNetdev ∧ kernel.kmalloc = kernel'.kmalloc ∧
      kernel.sockfdLookup = kernel'.sockfdLookup ∧ msg = msg'
  | .frame alloc skb, .frame alloc' skb' => alloc = alloc' ∧ skb = skb'
  | _, _ => False

theorem Switchboard.step_congr (board : Switchboard) (input input' : RxInput)
    (same : SameButAddresses input input') : board.step input = board.step input' := by
  cases input with
  | message kernel msg =>
    cases input' with
    | message kernel' msg' =>
      obtain ⟨alloc, register, kmalloc, lookup⟩ := kernel
      obtain ⟨alloc', register', kmalloc', lookup'⟩ := kernel'
      obtain ⟨hregister, hkmalloc, hlookup, rfl⟩ := same
      cases hregister
      cases hkmalloc
      cases hlookup
      cases msg <;> rfl
    | frame alloc skb => cases same
  | frame alloc skb =>
    cases input' with
    | message kernel msg => cases same
    | frame alloc' skb' =>
      obtain ⟨rfl, rfl⟩ := same
      rfl

/-- What is delivered depends neither on the hash function nor on where the kernel puts
the devices. -/
theorem deliveries_of_any_addresses (hashMin hashMin' : UInt32 → Bucket)
    {inputs inputs' : List RxInput} (same : List.Forall₂ SameButAddresses inputs inputs') :
    answers (driverStep hashMin) .start inputs = answers (driverStep hashMin') .start inputs' := by
  rw [(simulates_switchboard hashMin).answers pictures_start,
    (simulates_switchboard hashMin').answers pictures_start,
    answers_congr Switchboard.step_congr same]

end XpNet.Intf
