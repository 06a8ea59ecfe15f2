/-
The `struct net_device`s of `xp_netdev_intf.c`, from `alloc_netdev` to `free_netdev`.

A device is allocated, registered, given frames while it is registered, unregistered and
freed. The handlers make these calls under `xp_netdev_list_lock`, and so does the receive
side, so what comes to the driver comes one after the other here: messages, frames, and
`xp_netdev_all_remove`, which the teardown of the mode calls. `alloc_netdev` is taken to
succeed: `xp_nl_msg_if_create` writes through what it answers. In every such run all calls
are allowed where they are made; the registered devices are the listed ones, and after
`xp_netdev_all_remove` none is left (`netdevs_conserved`).
-/

import XpNet.Lifecycle
import XpNet.Simulation
import XpNet.Intf.Addressed

namespace XpNet.Intf

/-! ### Devices -/

inductive NetdevStage where
  | absent
  | allocated
  | registered
  deriving DecidableEq, Repr

/-- A call of the kernel on a device; `granted` is whether `register_netdev` succeeds.
`netifRx` stands for `netdev_alloc_skb_ip_align`, the counters and `netif_rx`. -/
inductive NetdevOp where
  | allocNetdev
  | registerNetdev (granted : Bool)
  | netifRx
  | unregisterNetdev
  | freeNetdev
  deriving DecidableEq, Repr

/-- The stage after a call, where the kernel allows it. -/
def NetdevStage.next : NetdevStage → NetdevOp → Option NetdevStage
  | .absent, .allocNetdev => some .allocated
  | .allocated, .registerNetdev granted => some (if granted then .registered else .allocated)
  | .allocated, .freeNetdev => some .absent
  | .registered, .netifRx => some .registered
  | .registered, .unregisterNetdev => some .allocated
  | _, _ => none

/-! ### The calls -/

/-- The calls of `xp_nl_msg_if_create`. -/
def ifCreateCalls (kernel : Kernel) (intfMsg : XpNlMsgIntf) (st : Interfaces) :
    List (Nat × NetdevOp) :=
  match findEntry st intfMsg.xpnetIntfId with
  | some _ => []
  | none =>
    let netdev := (kernel.allocNetdev st.xpNetdevList).val
    if 0 > kernel.registerNetdev intfMsg.intfName then
      [.allocNetdev, .registerNetdev false, .freeNetdev].map fun op => (netdev, op)
    else [.allocNetdev, .registerNetdev true].map fun op => (netdev, op)

/-- `unregister_netdev(entry->netdev); free_netdev(entry->netdev);`. -/
def removeOps : List NetdevOp := [.unregisterNetdev, .freeNetdev]

/-- The calls of `xp_nl_msg_if_delete`. -/
def ifDeleteCalls (intfMsg : XpNlMsgIntf) (st : Interfaces) : List (Nat × NetdevOp) :=
  match findEntry st intfMsg.xpnetIntfId with
  | some entry => removeOps.map fun op => (entry, op)
  | none => []

/-- `hash_del(&entry->hlist); list_del(&entry->list);`. -/
def removeEntry (st : Interfaces) (entry : Nat) : Interfaces :=
  { st with
    xpActiveNetdevHtable := hashDel st.xpActiveNetdevHtable entry
    xpNetdevList := st.xpNetdevList.erase entry }

/-- `xp_netdev_all_remove`: `list_for_each_safe` over the list as it was. -/
def xpNetdevAllRemove (st : Interfaces) : List (Nat × NetdevOp) × Interfaces :=
  (st.xpNetdevList.flatMap fun entry => removeOps.map fun op => (entry, op),
    st.xpNetdevList.foldl removeEntry st)

/-- The call that an event of the receive side makes on a device. -/
def RxEvent.netdevCall : RxEvent → Option (Nat × NetdevOp)
  | .netifRx netdev _ => some (netdev, .netifRx)
  | _ => none

/-- What comes to the interfaces. -/
inductive DeviceInput where
  | rx (input : RxInput)
  | allRemove

/-- The calls of a message's handler. -/
def messageCalls (kernel : Kernel) (st : Interfaces) : XpNlMsg → List (Nat × NetdevOp)
  | .intfAdd msg => ifCreateCalls kernel msg st
  | .intfDel msg => ifDeleteCalls msg st
  | _ => []

/-- An input, with the calls on devices as its answer. -/
def deviceStep (hashMin : UInt32 → Bucket) (st : RxHost) :
    DeviceInput → List (Nat × NetdevOp) × RxHost
  | .rx (.message kernel msg) =>
    (messageCalls kernel st.driver.interfaces msg, rxStep hashMin st (.message kernel msg))
  | .rx (.frame alloc skb) =>
    ((xpRxSkbProcess hashMin alloc skb st).1.filterMap RxEvent.netdevCall,
      rxStep hashMin st (.frame alloc skb))
  | .allRemove =>
    let r := xpNetdevAllRemove st.driver.interfaces
    (r.1, { st with driver := { st.driver with interfaces := r.2 } })

/-! ### One input -/

/-- The registered devices are the listed ones, and there are no others. -/
def stagesOf (st : Interfaces) : Nat → NetdevStage :=
  fun p => if p ∈ st.xpNetdevList then .registered else .absent

section Inputs

variable {hashMin : UInt32 → Bucket} {st : Interfaces}

theorem update_stagesOf {st' : Interfaces} {p : Nat} {stage : NetdevStage}
    (hp : stagesOf st' p = stage) (hlist : ∀ q, q ≠ p → (q ∈ st'.xpNetdevList ↔ q ∈ st.xpNetdevList)) :
    Function.update (stagesOf st) p stage = stagesOf st' := by
  funext q
  by_cases hq : q = p
  · subst hq
    rw [Function.update_self, hp]
  · rw [Function.update_of_ne hq]
    simp only [stagesOf, hlist q hq]

theorem performAll_ifCreate (kernel : Kernel) (msg : XpNlMsgIntf) :
    performAll NetdevStage.next (stagesOf st) (ifCreateCalls kernel msg st) =
      some (stagesOf (xpNlMsgIfCreate kernel msg st).2) := by
  unfold ifCreateCalls xpNlMsgIfCreate
  cases hfind : findEntry st msg.xpnetIntfId with
  | some p => rfl
  | none =>
    have hnew := (kernel.allocNetdev st.xpNetdevList).property
    dsimp only
    generalize (kernel.allocNetdev st.xpNetdevList).val = p at *
    have habsent : stagesOf st p = .absent := if_neg hnew
    split
    · -- a device that is not registered is freed again
      rw [performAll_one, habsent]
      change some (Function.update (stagesOf st) p .absent) = some (stagesOf st)
      rw [← habsent, Function.update_eq_self]
    · rw [performAll_one, habsent]
      refine congrArg some (update_stagesOf ?_ ?_)
      · exact if_pos List.mem_cons_self
      · intro q hq
        exact ⟨fun hmem => (List.mem_cons.mp hmem).resolve_left hq, List.mem_cons_of_mem _⟩

theorem performAll_ifDelete (ok : Consistent hashMin st) (msg : XpNlMsgIntf) :
    performAll NetdevStage.next (stagesOf st) (ifDeleteCalls msg st) =
      some (stagesOf (xpNlMsgIfDelete msg st).2) := by
  have hnodup : st.xpNetdevList.Nodup := ok.ids.of_map
  unfold ifDeleteCalls xpNlMsgIfDelete
  cases hfind : findEntry st msg.xpnetIntfId with
  | none => rfl
  | some p =>
    have hlisted : stagesOf st p = .registered := if_pos (findEntry_mem hfind)
    dsimp only
    rw [performAll_one, hlisted]
    refine congrArg some (update_stagesOf ?_ ?_)
    · exact if_neg hnodup.not_mem_erase
    · intro q hq
      exact List.mem_erase_of_ne hq

/-- `xp_netdev_all_remove` empties the list and the table. -/
theorem foldl_removeEntry (entries : List Nat) :
    (entries.foldl removeEntry st).xpNetdevList = st.xpNetdevList.diff entries ∧
      (entries.foldl removeEntry st).priv = st.priv ∧
      ∀ b p, p ∈ (entries.foldl removeEntry st).xpActiveNetdevHtable b ↔
        p ∈ st.xpActiveNetdevHtable b ∧ p ∉ entries := by
  induction entries generalizing st with
  | nil => simp
  | cons p entries ih =>
    obtain ⟨hlist, hpriv, htable⟩ := @ih (removeEntry st p)
    rw [List.foldl_cons, List.diff_cons]
    refine ⟨hlist, hpriv, ?_⟩
    intro b q
    rw [htable]
    simp only [removeEntry, hashDel, List.mem_filter, decide_eq_true_eq, List.mem_cons, not_or]
    tauto

theorem allRemove_list : (xpNetdevAllRemove st).2.xpNetdevList = [] := by
  rw [xpNetdevAllRemove, (foldl_removeEntry _).1]
  induction st.xpNetdevList with
  | nil => rfl
  | cons p entries ih => rw [List.diff_cons, List.erase_cons_head, ih]

theorem Consistent.allRemove (ok : Consistent hashMin st) :
    Consistent hashMin (xpNetdevAllRemove st).2 := by
  have hlist : (xpNetdevAllRemove st).2.xpNetdevList = [] := allRemove_list
  constructor
  · rw [hlist]
    exact List.nodup_nil
  · rw [hlist]
    intro p hp
    cases hp
  · intro b p hp
    obtain ⟨hold, hnot⟩ := ((foldl_removeEntry st.xpNetdevList).2.2 b p).mp hp
    exact absurd (ok.listed b p hold) hnot

theorem performAll_allRemove (ok : Consistent hashMin st) :
    performAll NetdevStage.next (stagesOf st) (xpNetdevAllRemove st).1 =
      some (stagesOf (xpNetdevAllRemove st).2) := by
  have removed : removeOps.foldlM NetdevStage.next .registered = some .absent := rfl
  have hall := performAll_each removed ok.ids.of_map
    fun p hp => (if_pos hp : stagesOf st p = .registered)
  refine hall.trans (congrArg some (funext fun p => ?_))
  unfold stagesOf
  rw [allRemove_list]
  by_cases hp : p ∈ st.xpNetdevList <;> simp [hp]

/-- Whatever a lookup finds is listed. -/
theorem Consistent.findActive_mem (ok : Consistent hashMin st) {num : UInt32} {p : Nat}
    (h : findActive hashMin st num = some p) : p ∈ st.xpNetdevList :=
  ok.listed _ p (findActive_eq_some h).1

theorem fdProcess_netdevCall (sock : Option Nat) (skb : RxSkb) :
    (xpRxSkbFdProcess sock skb).filterMap RxEvent.netdevCall = [] := by
  cases sock <;> rfl

theorem mem_handedTo_netdevCall {granted : Bool} {q : Option Nat} {bytes : List UInt8}
    {call : Nat × NetdevOp} (h : call ∈ (handedTo granted q bytes).filterMap RxEvent.netdevCall) :
    q = some call.1 ∧ call.2 = .netifRx := by
  unfold handedTo at h
  cases granted <;> cases q <;> simp [RxEvent.netdevCall] at h
  simp [h]

section Frames

variable {alloc : Nat → Bool} {skb : RxSkb} {host : RxHost} {call : Nat × NetdevOp}

theorem netdevProcess_netdevCall (ok : Consistent hashMin host.driver.interfaces)
    {info : XpSkbInfo}
    (h : call ∈ (xpRxSkbNetdevProcess hashMin alloc info skb host).1.filterMap RxEvent.netdevCall) :
    call.1 ∈ host.driver.interfaces.xpNetdevList ∧ call.2 = .netifRx := by
  have hmirror : (mirrorFrame host.driver skb).filterMap RxEvent.netdevCall = [] := by
    unfold mirrorFrame
    split
    · exact fdProcess_netdevCall _ _
    · rfl
  rw [netdevProcess_events, List.filterMap_append, List.filterMap_append, hmirror,
    List.nil_append] at h
  rcases List.mem_append.mp h with h | h
  · obtain ⟨hfound, hop⟩ := mem_handedTo_netdevCall h
    unfold foundByVif at hfound
    split at hfound
    · exact ⟨ok.findActive_mem hfound, hop⟩
    · cases hfound
  · obtain ⟨hfound, hop⟩ := mem_handedTo_netdevCall h
    exact ⟨ok.findActive_mem hfound, hop⟩

theorem switchOnChannel_netdevCall (ok : Consistent hashMin host.driver.interfaces)
    {trapId : UInt32} {trapCfg : XpTrapConfig} {info : XpSkbInfo}
    (h : call ∈ (switchOnChannel hashMin alloc trapId trapCfg info skb host).1.filterMap
      RxEvent.netdevCall) :
    call.1 ∈ host.driver.interfaces.xpNetdevList ∧ call.2 = .netifRx := by
  unfold switchOnChannel at h
  by_cases hcb : trapCfg.ch = xpNlHostifTrapCb
  · rw [if_pos hcb, fdProcess_netdevCall] at h
    cases h
  · rw [if_neg hcb] at h
    by_cases hfd : trapCfg.ch = xpNlHostifTrapFd
    · rw [if_pos hfd, fdProcess_netdevCall] at h
      cases h
    · rw [if_neg hfd] at h
      by_cases hnetdev : trapCfg.ch = xpNlHostifTrapNetdev
      · rw [if_pos hnetdev] at h
        exact netdevProcess_netdevCall ok h
      · rw [if_neg hnetdev] at h
        cases h

/-- A frame is only ever handed to a listed device. -/
theorem process_netdevCall (ok : Consistent hashMin host.driver.interfaces)
    (h : call ∈ (xpRxSkbProcess hashMin alloc skb host).1.filterMap RxEvent.netdevCall) :
    call.1 ∈ host.driver.interfaces.xpNetdevList ∧ call.2 = .netifRx := by
  have hkfree : ([RxEvent.devKfreeSkb]).filterMap RxEvent.netdevCall = [] := rfl
  unfold xpRxSkbProcess at h
  dsimp only at h
  rw [List.filterMap_append, hkfree, List.append_nil] at h
  split at h
  · split at h
    · rw [fdProcess_netdevCall] at h
      cases h
    · have counted : Consistent hashMin
          ({ host with stats := host.stats.count skb.len } : RxHost).driver.interfaces := ok
      have found := switchOnChannel_netdevCall counted h
      exact found
  · rw [fdProcess_netdevCall] at h
    cases h

end Frames

/-! Linking and headers leave the list as it is. -/

theorem ifLink_list (msg : XpNlMsgLink) :
    (xpNlMsgIfLink hashMin msg st).2.xpNetdevList = st.xpNetdevList := by
  by_cases hlinks : ∃ p type, LinksAs st msg p type
  · obtain ⟨p, type, links⟩ := hlinks
    rw [links.ifLink]
    rfl
  · rw [ifLink_of_not hlinks]

theorem ifUnlink_list (msg : XpNlMsgLink) :
    (xpNlMsgIfUnlink msg st).2.xpNetdevList = st.xpNetdevList := by
  unfold xpNlMsgIfUnlink
  split <;> rfl

theorem txHeader_list (msg : XpNlMsgTxHdr) :
    (xpNlMsgTxHeader msg st).2.xpNetdevList = st.xpNetdevList := by
  unfold xpNlMsgTxHeader
  split
  · dsimp only
    split
    · rfl
    · split <;> rfl
  · rfl

/-- **One input.** It keeps the invariant, and its calls are allowed and lead from the
devices listed before it to those listed after it. -/
theorem deviceStep_ok {host : RxHost} (ok : Consistent hashMin host.driver.interfaces)
    (input : DeviceInput) :
    Consistent hashMin (deviceStep hashMin host input).2.driver.interfaces ∧
      performAll NetdevStage.next (stagesOf host.driver.interfaces) (deviceStep hashMin host input).1 =
        some (stagesOf (deviceStep hashMin host input).2.driver.interfaces) := by
  cases input with
  | allRemove => exact ⟨ok.allRemove, performAll_allRemove ok⟩
  | rx input =>
    cases input with
    | frame alloc skb =>
      have hsame := xpRxSkbProcess_interfaces hashMin alloc skb host
      change Consistent hashMin (xpRxSkbProcess hashMin alloc skb host).2.driver.interfaces ∧
        _ = some (stagesOf (xpRxSkbProcess hashMin alloc skb host).2.driver.interfaces)
      rw [hsame]
      refine ⟨ok, performAll_stay fun call hcall => ?_⟩
      obtain ⟨hlisted, hop⟩ := process_netdevCall ok hcall
      rw [hop, show stagesOf host.driver.interfaces call.1 = .registered from if_pos hlisted]
      rfl
    | message kernel msg =>
      refine ⟨ok.callHandler kernel msg, ?_⟩
      have keeps : ∀ {st' : Interfaces}, st'.xpNetdevList = host.driver.interfaces.xpNetdevList →
          performAll NetdevStage.next (stagesOf host.driver.interfaces) [] = some (stagesOf st') := by
        intro st' hlist
        unfold stagesOf
        rw [performAll_nil, hlist]
      cases msg with
      | intfAdd msg => exact performAll_ifCreate kernel msg
      | intfDel msg => exact performAll_ifDelete ok msg
      | linkAdd msg => exact keeps (ifLink_list msg)
      | linkDel msg => exact keeps (ifUnlink_list msg)
      | txHdrSet msg => exact keeps (txHeader_list msg)
      | trapSet msg => rfl
      | cbFdSet msg => rfl
      | mirrorSet msg => exact keeps (congrArg Interfaces.xpNetdevList (xpNlMsgMirror_interfaces msg _))

end Inputs

/-! ### Runs -/

/-- All the calls on devices that a run makes. -/
def deviceCalls (hashMin : UInt32 → Bucket) (inputs : List DeviceInput) : List (Nat × NetdevOp) :=
  (answers (deviceStep hashMin) .start inputs).flatten

theorem performAll_run {hashMin : UInt32 → Bucket} {host : RxHost}
    (ok : Consistent hashMin host.driver.interfaces) (inputs : List DeviceInput) :
    performAll NetdevStage.next (stagesOf host.driver.interfaces)
        (answers (deviceStep hashMin) host inputs).flatten =
      some (stagesOf (after (deviceStep hashMin) host inputs).driver.interfaces) := by
  induction inputs generalizing host with
  | nil => rfl
  | cons input rest ih =>
    obtain ⟨ok', calls⟩ := deviceStep_ok ok input
    rw [answers, List.flatten_cons, performAll_append, calls]
    exact ih ok'

/-- **Devices.** In every run of messages, frames and teardowns, with memory for every new
device, every call on a device is allowed where it is made: none is used, registered or
freed that is not there, none is freed that is registered, and a frame is handed only to a
registered one. What is registered after the run is what is listed, and after one more
`xp_netdev_all_remove` there is no device. -/
theorem netdevs_conserved (hashMin : UInt32 → Bucket) (inputs : List DeviceInput) :
    performAll NetdevStage.next (fun _ => .absent) (deviceCalls hashMin inputs) =
        some (stagesOf (after (deviceStep hashMin) .start inputs).driver.interfaces) ∧
      performAll NetdevStage.next (fun _ => .absent)
        (deviceCalls hashMin (inputs ++ [.allRemove])) = some fun _ => .absent := by
  have hstart : stagesOf RxHost.start.driver.interfaces = fun _ => .absent := rfl
  have run : ∀ inputs, performAll NetdevStage.next (fun _ => .absent) (deviceCalls hashMin inputs) =
      some (stagesOf (after (deviceStep hashMin) .start inputs).driver.interfaces) := by
    intro inputs
    rw [← hstart]
    exact performAll_run consistent_noInterfaces inputs
  refine ⟨run inputs, ?_⟩
  rw [run, Option.some.injEq]
  funext p
  unfold stagesOf after
  rw [history_concat]
  change (if p ∈ (xpNetdevAllRemove _).2.xpNetdevList then _ else _) = _
  rw [allRemove_list]
  rfl

end XpNet.Intf
