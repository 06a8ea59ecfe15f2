/-
The references to sockets that `xp_netdev_intf.c` takes: `sockfd_lookup` gives one
for a trap of the FD channel and one for the callback, to be returned with
`sockfd_put`.

Nothing in the file returns one. A reference is accounted for as long as its
pointer is in the trap table or in `cb_sock_ptr`, and is lost when the pointer is
written over, removed, torn down with the table or never stored
(`balanced_step`). So the account is right in every state of a history exactly
when no request drops a pointer (`balanced_iff`).
-/

import XpNet.Init.Mode
import XpNet.Intf.Driver

namespace XpNet.Init

open XpNet.Intf

/-! ### Counting -/

section Counting

variable {α : Type} {p q : α → Bool} {a : α}

/-- A count over distinct elements, when the predicate changes at one of them. -/
theorem countP_change {l : List α} (distinct : l.Nodup) (mem : a ∈ l)
    (same : ∀ b ∈ l, b ≠ a → q b = p b) :
    l.countP q + (p a).toNat = l.countP p + (q a).toNat := by
  have hsingle : ∀ r : α → Bool, [a].countP r = (r a).toNat := by
    intro r
    cases hr : r a <;> simp [hr]
  obtain ⟨before, after, rfl⟩ := List.append_of_mem mem
  have hnot : ∀ b ∈ before ++ after, b ≠ a := by
    intro b hb hba
    subst hba
    exact (List.nodup_middle.mp distinct).notMem hb
  have hside : ∀ side : List α, (∀ b ∈ side, b ∈ before ++ after) →
      side.countP q = side.countP p := by
    intro side hsub
    refine List.countP_congr fun b hb => ?_
    have hin := hsub b hb
    rw [same b ?_ (hnot b hin)]
    exact (List.mem_append.mp hin).elim (List.mem_append_left _)
      fun h => List.mem_append_right _ (List.mem_cons_of_mem _ h)
  have hbefore := hside before fun b => List.mem_append_left _
  have hafter := hside after fun b => List.mem_append_right _
  rw [← List.singleton_append]
  simp only [List.countP_append, hsingle, hbefore, hafter]
  omega

end Counting

/-! ### The state and the requests -/

/-- The entry of a trap id has a socket. -/
def hasSock (table : XpTrapTable) (id : UInt32) : Bool :=
  ((table.trap id).bind XpTrapConfig.sockPtr).isSome

/-- The number of entries with a socket. -/
def entrySocks (table : XpTrapTable) : Nat := trapIds.countP (hasSock table)

/-- The pointers to sockets that the file keeps, and the number of references that
`sockfd_lookup` gave and nobody returned. -/
structure Sockets where
  mode : ModeState
  cbSockPtr : Option Nat
  taken : Nat

/-- The state after `xp_netdev_mode_init`. -/
def Sockets.start : Sockets := ⟨⟨some xpTrapInit, true, true⟩, none, 0⟩

inductive SockRequest where
  | trapSet (kernel : Kernel) (msg : XpNlMsgTrap)
  | cbFdSet (kernel : Kernel) (msg : XpNlMsgCbFd)
  | modeDeinit

/-- The message makes `xp_nl_msg_trap` look a socket up, and it is there. -/
def TakesSock (kernel : Kernel) (msg : XpNlMsgTrap) : Prop :=
  msg.operation = xpNlOperationAdd ∧ msg.rc ≤ xpMaxReasonCode ∧ msg.ch = xpNlHostifTrapFd ∧
    (kernel.sockfdLookup msg.fd).1.isSome = true

instance (kernel : Kernel) (msg : XpNlMsgTrap) : Decidable (TakesSock kernel msg) :=
  inferInstanceAs (Decidable (_ ∧ _))

/-- One request. Messages arrive as long as `xp_net_ops` is registered, which is as
long as there is a trap table; a teardown without one does not return. -/
def sockStep (s : Sockets) : SockRequest → Sockets
  | .trapSet kernel msg =>
    match s.mode.trapTable with
    | none => s
    | some table => { s with
        mode := { s.mode with trapTable := some (xpNlMsgTrap kernel msg table).2 }
        taken := s.taken + if TakesSock kernel msg then 1 else 0 }
  | .cbFdSet kernel msg =>
    match s.mode.trapTable with
    | none => s
    | some _ => { s with
        cbSockPtr := (kernel.sockfdLookup msg.fd).1
        taken := s.taken + (kernel.sockfdLookup msg.fd).1.isSome.toNat }
  | .modeDeinit =>
    match xpNetdevModeDeinit s.mode with
    | none => s
    | some mode => { s with mode := mode }

/-- The references that a pointer accounts for. -/
def Sockets.held (s : Sockets) : Nat :=
  (s.mode.trapTable.elim 0 entrySocks) + s.cbSockPtr.isSome.toNat

/-- Every reference has its pointer, and after a teardown there is none. -/
def Balanced (s : Sockets) : Prop :=
  s.taken = s.held ∧ (s.mode.trapTable = none → s.taken = 0)

/-- The request drops a pointer to a socket: the entry of the trap id that it sets or
removes has one; it looks a socket up and does not store the entry; the callback
that it sets has one; or it tears down an entry or a callback with one. -/
def DropsSock (s : Sockets) (req : SockRequest) : Prop :=
  ∃ table, s.mode.trapTable = some table ∧
    match req with
    | .trapSet kernel msg =>
      (StoresEntry kernel msg ∨ RemovesEntry msg) ∧ hasSock table msg.trapId = true ∨
        TakesSock kernel msg ∧ ¬ StoresEntry kernel msg
    | .cbFdSet _ _ => s.cbSockPtr.isSome = true
    | .modeDeinit => s.cbSockPtr.isSome = true ∨
        ∃ id ≤ xpMaxTrapId, hasSock table id = true

/-! ### Entries with a socket -/

@[simp] theorem entrySocks_xpTrapInit : entrySocks xpTrapInit = 0 :=
  List.countP_eq_zero.mpr fun _ _ => by simp [hasSock, xpTrapInit]

theorem entrySocks_eq_zero {table : XpTrapTable} :
    entrySocks table = 0 ↔ ¬ ∃ id ≤ xpMaxTrapId, hasSock table id = true := by
  rw [entrySocks, List.countP_eq_zero]
  simp only [mem_trapIds, not_exists, not_and]

/-- Writing a slot exchanges its socket for the one of the new entry. -/
theorem entrySocks_update {table table' : XpTrapTable} {id : UInt32} {cfg : Option XpTrapConfig}
    (hid : id ≤ xpMaxTrapId) (heq : table'.trap = Function.update table.trap id cfg) :
    entrySocks table' + (hasSock table id).toNat =
      entrySocks table + (cfg.bind XpTrapConfig.sockPtr).isSome.toNat := by
  have hat : hasSock table' id = (cfg.bind XpTrapConfig.sockPtr).isSome := by
    simp [hasSock, heq]
  rw [← hat]
  refine countP_change nodup_trapIds (mem_trapIds.mpr hid) fun other _ hne => ?_
  simp [hasSock, heq, hne]

/-- The entry that a message stores has a socket exactly when the message took
one. -/
theorem isSome_sockPtr_trapConfig {kernel : Kernel} {msg : XpNlMsgTrap}
    (hstores : StoresEntry kernel msg) :
    (trapConfig kernel msg).sockPtr.isSome = decide (TakesSock kernel msg) := by
  obtain ⟨hop, hrc, -, -⟩ := hstores
  by_cases hch : msg.ch = xpNlHostifTrapFd
  · simp [trapConfig, TakesSock, hop, hrc, hch]
  · simp [trapConfig, TakesSock, hch]

/-! ### One request -/

theorem held_of_some {s : Sockets} {table : XpTrapTable} (h : s.mode.trapTable = some table) :
    s.held = entrySocks table + s.cbSockPtr.isSome.toNat := by
  rw [Sockets.held, h, Option.elim_some]

theorem balanced_start : Balanced .start := by
  have htable : Sockets.start.mode.trapTable = some xpTrapInit := rfl
  constructor
  · rw [held_of_some htable, entrySocks_xpTrapInit]
    rfl
  · exact fun hnone => absurd hnone (by simp [htable])

section Step

variable {s : Sockets} (ok : Balanced s)
include ok

theorem balanced_trapSet (kernel : Kernel) (msg : XpNlMsgTrap) :
    Balanced (sockStep s (.trapSet kernel msg)) ↔ ¬ DropsSock s (.trapSet kernel msg) := by
  cases htable : s.mode.trapTable with
  | none => simp [sockStep, DropsSock, htable, ok]
  | some table =>
    have htaken : s.taken = entrySocks table + s.cbSockPtr.isSome.toNat := by
      rw [ok.1, held_of_some htable]
    have hafter : Balanced (sockStep s (.trapSet kernel msg)) ↔
        s.taken + (decide (TakesSock kernel msg)).toNat =
          entrySocks (xpNlMsgTrap kernel msg table).2 + s.cbSockPtr.isSome.toNat := by
      simp [Balanced, Sockets.held, sockStep, htable, Bool.toNat, Bool.cond_decide]
    have hdrops : DropsSock s (.trapSet kernel msg) ↔
        (StoresEntry kernel msg ∨ RemovesEntry msg) ∧ hasSock table msg.trapId = true ∨
          TakesSock kernel msg ∧ ¬ StoresEntry kernel msg := by
      simp [DropsSock, htable]
    rw [hafter, hdrops, htaken]
    by_cases hstores : StoresEntry kernel msg
    · have hcount := entrySocks_update hstores.2.2.1
        (congrArg XpTrapTable.trap (xpNlMsgTrap_stores table hstores))
      rw [Option.bind_some, isSome_sockPtr_trapConfig hstores] at hcount
      cases hold : hasSock table msg.trapId <;> simp [hold, hstores] at hcount ⊢ <;> omega
    · rcases xpNlMsgTrap_removes table hstores with ⟨hrem, heq⟩ | ⟨hrem, heq⟩
      · have hnot : ¬ TakesSock kernel msg := fun htakes =>
          absurd (htakes.1.symm.trans hrem.1) (by decide)
        have hcount := entrySocks_update hrem.2 (congrArg XpTrapTable.trap heq)
        cases hold : hasSock table msg.trapId <;> simp [hold, hstores, hrem, hnot] at hcount ⊢ <;>
          omega
      · rw [heq]
        by_cases htakes : TakesSock kernel msg <;> simp [hstores, hrem, htakes]

theorem balanced_cbFdSet (kernel : Kernel) (msg : XpNlMsgCbFd) :
    Balanced (sockStep s (.cbFdSet kernel msg)) ↔ ¬ DropsSock s (.cbFdSet kernel msg) := by
  cases htable : s.mode.trapTable with
  | none => simp [sockStep, DropsSock, htable, ok]
  | some table =>
    have htaken := ok.1
    rw [held_of_some htable] at htaken
    have hafter : Balanced (sockStep s (.cbFdSet kernel msg)) ↔
        s.taken + (kernel.sockfdLookup msg.fd).1.isSome.toNat =
          entrySocks table + (kernel.sockfdLookup msg.fd).1.isSome.toNat := by
      simp [Balanced, Sockets.held, sockStep, htable]
    have hdrops : DropsSock s (.cbFdSet kernel msg) ↔ s.cbSockPtr.isSome = true := by
      simp [DropsSock, htable]
    rw [hafter, hdrops, htaken]
    cases s.cbSockPtr.isSome <;> simp

theorem balanced_modeDeinit :
    Balanced (sockStep s .modeDeinit) ↔ ¬ DropsSock s .modeDeinit := by
  cases htable : s.mode.trapTable with
  | none => simp [sockStep, DropsSock, xpNetdevModeDeinit, htable, ok]
  | some table =>
    have htaken := ok.1
    rw [held_of_some htable] at htaken
    have hafter : Balanced (sockStep s .modeDeinit) ↔
        s.taken = s.cbSockPtr.isSome.toNat ∧ s.taken = 0 := by
      simp [Balanced, Sockets.held, sockStep, xpNetdevModeDeinit, xpTrapDeinit, htable]
    have hdrops : DropsSock s .modeDeinit ↔
        s.cbSockPtr.isSome = true ∨ ¬ entrySocks table = 0 := by
      simp [DropsSock, htable, entrySocks_eq_zero]
    rw [hafter, hdrops, htaken]
    cases s.cbSockPtr.isSome <;> simp

/-- A request keeps the account exactly when it drops no pointer to a socket. -/
theorem balanced_step (req : SockRequest) :
    Balanced (sockStep s req) ↔ ¬ DropsSock s req := by
  cases req with
  | trapSet kernel msg => exact balanced_trapSet ok kernel msg
  | cbFdSet kernel msg => exact balanced_cbFdSet ok kernel msg
  | modeDeinit => exact balanced_modeDeinit ok

end Step

/-! ### Histories -/

/-- In every state of a history the references that `sockfd_lookup` gave and nobody
returned are as many as the entries with a socket and the callback, and none after
a teardown, exactly when no request of the history drops a pointer to a socket. -/
theorem balanced_iff (reqs : List SockRequest) :
    (∀ done, done <+: reqs → Balanced (history sockStep .start done)) ↔
      ∀ done req, done ++ [req] <+: reqs → ¬ DropsSock (history sockStep .start done) req :=
  history_keeps_iff (G := fun s req => ¬ DropsSock s req) balanced_start
    (fun _ req ok => balanced_step ok req) reqs

/-- A trap of the FD channel and the teardown: the entry is freed, the reference to
its socket stays. -/
theorem sock_lost_at_teardown :
    ¬ Balanced (history sockStep .start
      [.trapSet grantingKernel ⟨1, 7, xpNlHostifTrapFd, 5, xpNlOperationAdd⟩, .modeDeinit]) := by
  intro ok
  exact absurd (ok.2 rfl) (by decide)

/-! ### The driver behind the netlink socket -/

/-- The request that a message is, if it is about sockets. -/
def sockRequestOf : Kernel × XpNlMsg → Option SockRequest
  | (kernel, .trapSet msg) => some (.trapSet kernel msg)
  | (kernel, .cbFdSet msg) => some (.cbFdSet kernel msg)
  | _ => none

/-- The pointers are the driver's, after every list of messages. -/
theorem sockStep_callHandlers (hashMin : UInt32 → Bucket) (reqs : List (Kernel × XpNlMsg)) :
    let s := history sockStep .start (reqs.filterMap sockRequestOf)
    s.mode.trapTable = some (callHandlers hashMin .start reqs).trapTable ∧
      s.cbSockPtr = (callHandlers hashMin .start reqs).cbSockPtr := by
  induction reqs using List.reverseRecOn with
  | nil => exact ⟨rfl, rfl⟩
  | append_singleton done req ih =>
    obtain ⟨kernel, msg⟩ := req
    obtain ⟨htable, hcb⟩ := ih
    have hrun : callHandlers hashMin .start (done ++ [(kernel, msg)]) =
        callHandler hashMin kernel (callHandlers hashMin .start done) msg := by
      simp [callHandlers]
    rw [hrun, List.filterMap_append]
    cases msg with
    | trapSet msg =>
      have hstep : [(kernel, XpNlMsg.trapSet msg)].filterMap sockRequestOf =
        [.trapSet kernel msg] := rfl
      dsimp only
      rw [hstep, history_concat]
      simp only [sockStep, htable]
      exact ⟨rfl, hcb⟩
    | cbFdSet msg =>
      have hstep : [(kernel, XpNlMsg.cbFdSet msg)].filterMap sockRequestOf =
        [.cbFdSet kernel msg] := rfl
      dsimp only
      rw [hstep, history_concat]
      simp only [sockStep, htable]
      exact ⟨rfl, rfl⟩
    | mirrorSet msg =>
      rw [List.filterMap_cons_none rfl, List.filterMap_nil, List.append_nil, callHandler,
        xpNlMsgMirror_trapTable, xpNlMsgMirror_cbSockPtr]
      exact ⟨htable, hcb⟩
    | _ =>
      rw [List.filterMap_cons_none rfl, List.filterMap_nil, List.append_nil]
      exact ⟨htable, hcb⟩

end XpNet.Init
