/-
What the host and the device agree on whatever the device completes.

`Window` speaks of good frames. The device may also report an error, or a length that the
host turns down, and it goes on along its chain all the same. So the slots from the host's
`tail` up to the device's hold what was written to them, good or not, in order, and the
device owns all others: `Row` says so.

When the host turns a descriptor down it arms it where it is and stays. The device has
passed it, and stops at the end of the chain; so the host finds the descriptor owned by
the device from then on: `Stuck`.

`Row.moves` and `Stuck.moves` are the places where the device acts.
-/

import XpNet.Rx.Window

namespace XpNet.Rx

/-! ### What the device writes -/

/-- The bytes that the device writes to the descriptor it is at, with an error or not. -/
def writtenBy (m : EnvMove) (s : State) : List Frame :=
  match m with
  | .complete va qword1 | .fault _ va qword1 =>
    if s.current.any s.owned then [wireBytes va (pktSize s.mode qword1) s.mode] else []
  | .halt | .memory _ => []

/-- The descriptor was given back with these bytes, as its length tells them. -/
structure Done (mode : AddressMode) (d : Desc) (f : Frame) : Prop where
  host : ownership d.qword0 = false
  frame : f = wireBytes d.bufSta.va (pktSize mode d.qword1) mode

/-- The slots from `t` on hold the bytes `pend`, which the host has not taken yet. The device
is behind the last of them and owns the slots from there on and those before `lo`. -/
structure Row (n : Nat) (mode : AddressMode) (lo t : Nat) (pend : List Frame) (s : State) :
    Prop where
  numDesc : s.queue.xpqNumDesc = n
  linked : Linked false s.queue
  mode_eq : s.mode = mode
  fits : t + pend.length ≤ n
  device : s.current = if t + pend.length < n then some (t + pend.length) else none
  stopped : t + pend.length = n → s.running = false
  done : ∀ j (hj : j < pend.length), Done mode (s.desc (t + j)) pend[j]
  armed : ∀ i < n, i < lo ∨ t + pend.length ≤ i → (s.desc i).qword0 = ownBit

/-- The host stays at slot `i`, and the device has passed it. -/
structure Stuck (n i : Nat) (K : Desc → Prop) (s : State) : Prop where
  numDesc : s.queue.xpqNumDesc = n
  tail : s.queue.tail = i
  places : ∀ j < n, (s.desc j).cdp = s.queue.dma + j * xpnetDescSize
  links : ∀ j, i < j → j < n →
    (s.desc j).qword3 = if j + 1 < n then s.queue.dma + (j + 1) * xpnetDescSize else 0
  ahead : ∀ j, s.current = some j → i < j
  here : K (s.desc i)

/-! ### The chain -/

section Chain

variable {s : State} {n i : Nat} {f : Desc → Desc}

/-- Every descriptor is found at its own address, whatever its link is. -/
theorem descAt_place (places : ∀ j < n, (s.desc j).cdp = s.queue.dma + j * xpnetDescSize)
    (hn : s.queue.xpqNumDesc = n) (hi : i < n) :
    s.queue.descAt (s.queue.dma + i * xpnetDescSize) = some i := by
  subst hn
  let chained : Queue := { s.queue with
    descMeta := fun j => { s.desc j with
      qword3 := if j + 1 < s.queue.xpqNumDesc then s.queue.dma + (j + 1) * xpnetDescSize else 0 } }
  have linked : Linked false chained := fun j hj => ⟨places j hj, by simp [chained]⟩
  exact linked.descAt hi

/-- A change of a descriptor that keeps its address does not move the device. -/
theorem current_updDesc (keeps : (f (s.desc i)).cdp = (s.desc i).cdp) :
    (s.updDesc i f).current = s.current := by
  have same : ∀ j, ((s.updDesc i f).queue.descMeta j).cdp = (s.desc j).cdp := by
    intro j
    by_cases hj : j = i
    · subst hj
      exact (congrArg Desc.cdp (updDesc_self s j f)).trans keeps
    · exact congrArg Desc.cdp (updDesc_of_ne s f hj)
  have search : ∀ a, (s.updDesc i f).queue.descAt a = s.queue.descAt a := by
    intro a
    unfold Queue.descAt
    simp only [same]
    rfl
  unfold State.current
  rw [search]
  rfl

/-- A device that has filled a descriptor is at the next, or has stopped behind the last. -/
theorem current_fill (places : ∀ j < n, (s.desc j).cdp = s.queue.dma + j * xpnetDescSize)
    (hn : s.queue.xpqNumDesc = n)
    (link : (s.desc i).qword3 =
      if i + 1 < n then s.queue.dma + (i + 1) * xpnetDescSize else 0)
    (qword0 : BitVec 64) (va : Image) (qword1 : Nat) :
    (fill s i qword0 va qword1).current = if i + 1 < n then some (i + 1) else none := by
  have moved : (fill s i qword0 va qword1).current =
      ({ s with running := (s.desc i).qword3 != 0, cdp := (s.desc i).qword3 } : State).current :=
    current_updDesc (s := { s with running := _, cdp := _ }) rfl
  rw [moved, State.current, link]
  by_cases hnext : i + 1 < n
  · have found := descAt_place places hn hnext
    have nonzero : s.queue.dma + (i + 1) * xpnetDescSize ≠ 0 := by
      simp only [xpnetDescSize]
      omega
    rw [if_pos hnext, if_pos hnext]
    exact (if_pos (bne_iff_ne.mpr nonzero)).trans found
  · rw [if_neg hnext, if_neg hnext]
    rfl

/-- A device that has stopped writes nothing. -/
theorem envMove_of_none (hcurrent : s.current = none) (m : EnvMove) :
    writtenBy m s = [] ∧ envMove m s = { s with allocOk := (envMove m s).allocOk } := by
  cases m with
  | memory ok => exact ⟨rfl, rfl⟩
  | halt => simp [envMove, writtenBy, hcurrent]
  | complete va qword1 => simp [envMove, writtenBy, hcurrent]
  | fault qword0 va qword1 => simp [envMove, writtenBy, hcurrent]

end Chain

/-! ### The device -/

section Moves

variable {n lo t i : Nat} {mode : AddressMode} {pend : List Frame} {s : State} {K : Desc → Prop}

theorem Row.places (row : Row n mode lo t pend s) :
    ∀ j < n, (s.desc j).cdp = s.queue.dma + j * xpnetDescSize := by
  intro j hj
  exact (row.linked j (by rwa [row.numDesc])).1

theorem Row.link (row : Row n mode lo t pend s) {j : Nat} (hj : j < n) :
    (s.desc j).qword3 = if j + 1 < n then s.queue.dma + (j + 1) * xpnetDescSize else 0 := by
  have link := (row.linked j (by rwa [row.numDesc])).2
  rw [row.numDesc] at link
  exact link.trans (if_congr (and_iff_right rfl) rfl rfl)

/-- The device writes the slot it is at. -/
theorem Row.fill (row : Row n mode lo t pend s) (hlo : lo ≤ t) (h : t + pend.length < n)
    {qword0 : BitVec 64} (host : ownership qword0 = false) (va : Image) (qword1 : Nat) :
    Row n mode lo t (pend ++ [wireBytes va (pktSize mode qword1) mode])
      (fill s (t + pend.length) qword0 va qword1) := by
  have hlen : (pend ++ [wireBytes va (pktSize mode qword1) mode]).length = pend.length + 1 :=
    List.length_append
  constructor
  · exact row.numDesc
  · exact linked_updDesc row.linked (t + pend.length) ⟨rfl, rfl⟩
  · exact row.mode_eq
  · rw [hlen]
    exact h
  · rw [hlen, ← Nat.add_assoc]
    exact current_fill row.places row.numDesc (row.link h) qword0 va qword1
  · intro hlast
    rw [hlen, ← Nat.add_assoc] at hlast
    have unlinked : (s.desc (t + pend.length)).qword3 = 0 :=
      (row.link h).trans (if_neg (by omega))
    change ((s.desc (t + pend.length)).qword3 != 0) = false
    rw [unlinked]
    rfl
  · intro j hj
    rw [hlen] at hj
    by_cases hlast : j = pend.length
    · subst hlast
      rw [List.getElem_concat_length rfl, fill_desc_self]
      exact ⟨host, rfl⟩
    · have hj' : j < pend.length := by omega
      rw [List.getElem_append_left hj', fill_desc_of_ne s _ _ _ (by omega)]
      exact row.done j hj'
  · intro i hi hside
    rw [hlen] at hside
    rw [fill_desc_of_ne s _ _ _ (by omega)]
    exact row.armed i hi (by omega)

/-- The row is one of the queue, the mode and the place of the device. -/
theorem Row.congr (row : Row n mode lo t pend s) {s' : State} (hqueue : s'.queue = s.queue)
    (hmode : s'.mode = s.mode) (hdevice : (s'.running, s'.cdp) = (s.running, s.cdp)) :
    Row n mode lo t pend s' := by
  obtain ⟨hrunning, hcdp⟩ := Prod.mk.inj hdevice
  have hdesc : s'.desc = s.desc := by
    unfold State.desc
    rw [hqueue]
  have hcurrent : s'.current = s.current := by
    unfold State.current
    rw [hqueue, hrunning, hcdp]
  refine ⟨?_, ?_, hmode.trans row.mode_eq, row.fits, hcurrent.trans row.device,
    fun h => hrunning.trans (row.stopped h), ?_, ?_⟩
  · rw [hqueue]
    exact row.numDesc
  · rw [hqueue]
    exact row.linked
  · rw [hdesc]
    exact row.done
  · rw [hdesc]
    exact row.armed

/-- The device is at a descriptor of its own. -/
theorem Row.owned (row : Row n mode lo t pend s) (h : t + pend.length < n) :
    s.current = some (t + pend.length) ∧ s.owned (t + pend.length) = true := by
  refine ⟨row.device.trans (if_pos h), ?_⟩
  rw [State.owned, row.armed _ h (.inr (Nat.le_refl _))]
  exact ownership_ownBit

/-- What the device writes is at the end of the row, and the slots before the row stay. -/
theorem Row.moves (row : Row n mode lo t pend s) (hlo : lo ≤ t) (m : EnvMove) :
    Row n mode lo t (pend ++ writtenBy m s) (envMove m s) ∧
      (envMove m s).queue.tail = s.queue.tail ∧ ∀ i < t, (envMove m s).desc i = s.desc i := by
  have still : writtenBy m s = [] → envMove m s = { s with allocOk := (envMove m s).allocOk } →
      Row n mode lo t (pend ++ writtenBy m s) (envMove m s) ∧
        (envMove m s).queue.tail = s.queue.tail ∧ ∀ i < t, (envMove m s).desc i = s.desc i := by
    intro nothing same
    rw [nothing, List.append_nil, same]
    exact ⟨row.congr rfl rfl rfl, rfl, fun _ _ => rfl⟩
  by_cases h : t + pend.length < n
  · obtain ⟨hcurrent, hown⟩ := row.owned h
    have writes : ∀ qword0 va qword1, ownership qword0 = false →
        Row n mode lo t (pend ++ [wireBytes va (pktSize mode qword1) mode])
          (Rx.fill s (t + pend.length) qword0 va qword1) ∧
        ∀ i < t, (Rx.fill s (t + pend.length) qword0 va qword1).desc i = s.desc i :=
      fun _ va qword1 host =>
        ⟨row.fill hlo h host va qword1, fun i hi => fill_desc_of_ne s _ _ _ (by omega)⟩
    cases m with
    | complete va qword1 =>
        obtain ⟨filled, low⟩ := writes (clearOwn (s.desc (t + pend.length)).qword0) va qword1
          (ownership_clearOwn _)
        simp only [envMove, writtenBy, hcurrent, hown, Option.any_some, if_true, row.mode_eq]
        exact ⟨filled.congr rfl rfl rfl, rfl, low⟩
    | fault qword0 va qword1 =>
        obtain ⟨filled, low⟩ := writes (clearOwn qword0) va qword1 (ownership_clearOwn _)
        simp only [envMove, writtenBy, hcurrent, hown, Option.any_some, if_true, row.mode_eq]
        exact ⟨filled, rfl, low⟩
    | halt =>
        have same : envMove .halt s = s := by simp only [envMove, hcurrent, hown, if_true]
        exact still rfl (by rw [same])
    | memory ok => exact still rfl rfl
  · obtain ⟨nothing, same⟩ := envMove_of_none (row.device.trans (if_neg h)) m
    exact still nothing same

/-- It is one of the queue, with the device ahead. -/
theorem Stuck.congr (stuck : Stuck n i K s) {s' : State} (hqueue : s'.queue = s.queue)
    (ahead : ∀ j, s'.current = some j → i < j) : Stuck n i K s' := by
  have hdesc : s'.desc = s.desc := by
    unfold State.desc
    rw [hqueue]
  refine ⟨?_, ?_, ?_, ?_, ahead, ?_⟩
  · rw [hqueue]
    exact stuck.numDesc
  · rw [hqueue]
    exact stuck.tail
  · rw [hqueue, hdesc]
    exact stuck.places
  · rw [hqueue, hdesc]
    exact stuck.links
  · rw [hdesc]
    exact stuck.here

/-- The device writes a slot ahead. -/
theorem Stuck.fill (stuck : Stuck n i K s) {j : Nat} (hj : i < j ∧ j < n) (qword0 : BitVec 64)
    (va : Image) (qword1 : Nat) : Stuck n i K (fill s j qword0 va qword1) := by
  have kept : ∀ k, ((Rx.fill s j qword0 va qword1).desc k).cdp = (s.desc k).cdp ∧
      ((Rx.fill s j qword0 va qword1).desc k).qword3 = (s.desc k).qword3 := by
    intro k
    by_cases hk : k = j
    · subst hk
      rw [fill_desc_self]
      exact ⟨rfl, rfl⟩
    · rw [fill_desc_of_ne s _ _ _ hk]
      exact ⟨rfl, rfl⟩
  refine ⟨stuck.numDesc, stuck.tail, fun k hk => (kept k).1.trans (stuck.places k hk),
    fun k hik hk => (kept k).2.trans (stuck.links k hik hk), fun k hk => ?_, ?_⟩
  · rw [current_fill stuck.places stuck.numDesc (stuck.links j hj.1 hj.2)] at hk
    split at hk
    · cases hk
      omega
    · cases hk
  · rw [fill_desc_of_ne s _ _ _ (by omega)]
    exact stuck.here

/-- The device goes on behind the slot that the host stays at. -/
theorem Stuck.moves (stuck : Stuck n i K s) (m : EnvMove) : Stuck n i K (envMove m s) := by
  cases hcurrent : s.current with
  | none =>
      rw [(envMove_of_none hcurrent m).2]
      exact stuck.congr rfl stuck.ahead
  | some j =>
      have hj : i < j ∧ j < n := by
        refine ⟨stuck.ahead j hcurrent, ?_⟩
        unfold State.current at hcurrent
        split at hcurrent
        · rw [← stuck.numDesc]
          exact List.mem_range.mp (List.mem_of_find?_eq_some hcurrent)
        · cases hcurrent
      cases m with
      | complete va qword1 =>
          simp only [envMove, hcurrent]
          split
          · have filled := stuck.fill hj (clearOwn (s.desc j).qword0) va qword1
            exact filled.congr rfl filled.ahead
          · exact stuck
      | fault qword0 va qword1 =>
          simp only [envMove, hcurrent]
          split
          · exact stuck.fill hj (clearOwn qword0) va qword1
          · exact stuck
      | halt =>
          simp only [envMove, hcurrent]
          split
          · exact stuck
          · exact stuck.congr rfl fun k hk => by cases hk
      | memory ok => exact stuck.congr rfl stuck.ahead

/-! ### The host -/

/-- The first slot of the row holds its first bytes. -/
theorem Row.first {f : Frame} (row : Row n mode lo t (f :: pend) s) : Done mode (s.desc t) f :=
  row.done 0 (Nat.succ_pos _)

/-- The host takes the first slot of the row. -/
theorem Row.take {f : Frame} (row : Row n mode t t (f :: pend) s) :
    Row n mode t (t + 1) pend s := by
  have hlen := length_taken t f pend
  refine ⟨row.numDesc, row.linked, row.mode_eq, hlen ▸ row.fits, hlen ▸ row.device,
    hlen ▸ row.stopped, ?_, hlen ▸ row.armed⟩
  intro j hj
  have hnext := row.done (j + 1) (Nat.succ_lt_succ hj)
  rwa [show t + (j + 1) = t + 1 + j by omega] at hnext

/-- The host stores to the slot it has taken. -/
theorem Row.upd (row : Row n mode t (t + 1) pend s) {f : Desc → Desc}
    (keeps : (f (s.desc t)).cdp = (s.desc t).cdp ∧ (f (s.desc t)).qword3 = (s.desc t).qword3) :
    Row n mode t (t + 1) pend (s.updDesc t f) := by
  refine ⟨row.numDesc, linked_updDesc row.linked t keeps, row.mode_eq, row.fits,
    (current_updDesc keeps.1).trans row.device, row.stopped, ?_, ?_⟩
  · intro j hj
    rw [updDesc_of_ne s f (by omega)]
    exact row.done j hj
  · intro i hi hside
    rw [updDesc_of_ne s f (by omega)]
    exact row.armed i hi hside

/-- The host has given it back. -/
theorem Row.arm (row : Row n mode t (t + 1) pend s) (own : (s.desc t).qword0 = ownBit) :
    Row n mode (t + 1) (t + 1) pend s := by
  refine ⟨row.numDesc, row.linked, row.mode_eq, row.fits, row.device, row.stopped,
    row.done, ?_⟩
  intro i hi hside
  by_cases hit : i = t
  · exact hit ▸ own
  · exact row.armed i hi (by omega)

/-- The host moves on. -/
theorem Row.setTail (row : Row n mode lo t pend s) (tail : Nat) :
    Row n mode lo t pend { s with queue := { s.queue with tail := tail } } :=
  ⟨row.numDesc, row.linked, row.mode_eq, row.fits, row.device, row.stopped, row.done, row.armed⟩

/-- At the end of the ring the row is empty. -/
theorem Row.ended (row : Row n mode n n pend s) : pend = [] := by
  have hfits := row.fits
  exact List.length_eq_zero_iff.mp (by omega)

/-- A device that has stopped does not start when it is given its place. -/
theorem Row.setCdp (row : Row n mode n n [] s) (a : Nat) : Row n mode n n [] { s with cdp := a } := by
  have hcurrent : ({ s with cdp := a } : State).current = none := by
    rw [State.current, row.stopped rfl]
    rfl
  exact ⟨row.numDesc, row.linked, row.mode_eq, row.fits, hcurrent.trans (if_neg (by simp)).symm,
    row.stopped, row.done, row.armed⟩

/-- A device that is started over is at the first slot. -/
theorem Row.restart (pos : 0 < n) (row : Row n mode n n [] s) (hcdp : s.cdp = s.queue.dma) :
    Row n mode 0 0 [] { s with running := true } := by
  have found := descAt_place row.places row.numDesc pos
  rw [Nat.zero_mul, Nat.add_zero, ← hcdp] at found
  refine ⟨row.numDesc, row.linked, row.mode_eq, Nat.zero_le _, ?_, fun h => ?_, fun j hj => ?_,
    fun i hi _ => row.armed i hi (.inl hi)⟩
  · exact found.trans (if_pos pos).symm
  · exact absurd h (Nat.ne_of_lt pos)
  · cases hj

/-- The host leaves the slot where it is. -/
theorem Row.untake {f : Frame} (row : Row n mode t (t + 1) pend s) (done : Done mode (s.desc t) f) :
    Row n mode t t (f :: pend) s := by
  have hlen := length_taken t f pend
  refine ⟨row.numDesc, row.linked, row.mode_eq, hlen ▸ row.fits, hlen ▸ row.device,
    hlen ▸ row.stopped, ?_, hlen ▸ row.armed⟩
  intro j hj
  cases j with
  | zero => exact done
  | succ j =>
      rw [show t + (j + 1) = t + 1 + j by omega]
      exact row.done j (Nat.lt_of_succ_lt_succ hj)

/-- The host turns the slot down. -/
theorem Row.stuck (row : Row n mode t (t + 1) pend s) (htail : s.queue.tail = t)
    (here : K (s.desc t)) : Stuck n t K s := by
  refine ⟨row.numDesc, htail, row.places, fun j _ hj => row.link hj, fun j hj => ?_, here⟩
  rw [row.device] at hj
  split at hj
  · cases hj
    omega
  · cases hj

/-- The host stores to the slot it stays at. -/
theorem Stuck.upd (stuck : Stuck n i K s) {f : Desc → Desc} {K' : Desc → Prop}
    (keeps : (f (s.desc i)).cdp = (s.desc i).cdp) (here : K' (f (s.desc i))) :
    Stuck n i K' (s.updDesc i f) := by
  refine ⟨stuck.numDesc, stuck.tail, fun j hj => ?_, fun j hij hj => ?_, fun j hj => ?_, ?_⟩
  · by_cases hji : j = i
    · subst hji
      rw [updDesc_self, keeps]
      exact stuck.places j hj
    · rw [updDesc_of_ne s f hji]
      exact stuck.places j hj
  · rw [updDesc_of_ne s f (by omega)]
    exact stuck.links j hij hj
  · rw [current_updDesc keeps] at hj
    exact stuck.ahead j hj
  · rw [updDesc_self]
    exact here

end Moves

end XpNet.Rx
