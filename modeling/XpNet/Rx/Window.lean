/-
What the host and the device agree on while every completion is a good frame.

The device walks the open chain from the first slot to the last and stops there;
the host follows, and only when it has taken the last packet does it start the
device over. So at any time the slots from the host's `tail` up to the device's
hold the frames that are completed and not taken yet, and the device owns all
others: `Window` says so, with a hole at the slot the host is working on.
`Wrapped` is the state between the last packet of a pass and the restart.

`goodEnv_window` is the one place where the device acts.
-/

import XpNet.Rx.Model

namespace XpNet.Rx

open XpNet.Interference

/-! ### Good completions -/

/-- The poll takes a packet of this length: it is not too long, and not an empty
one whose byte swap would not end. -/
def FrameOk (mode : AddressMode) (qword1 : Nat) : Prop :=
  pktSize mode qword1 ≤ xpnetMaxPacketSize ∧ (mode = .a0Uncompressed → 0 < pktSize mode qword1)

/-- The move completes no descriptor but with such a packet. -/
def GoodMove (mode : AddressMode) : EnvMove → Prop
  | .complete _ qword1 => FrameOk mode qword1
  | .fault _ _ _ => False
  | .halt | .memory _ => True

/-- The environment in runs whose completions are all good frames. -/
def GoodEnv (s s' : State) : Prop := ∃ m, GoodMove s.mode m ∧ s' = envMove m s

/-- The frames delivered are the first of those completed, in order. -/
def InOrder (s : State) : Prop := ∃ pending, s.completed = s.delivered ++ pending

/-- The byte swap of a packet the poll takes ends. -/
theorem xpnetEndianSwap32_of_frameOk {mode : AddressMode} {qword1 : Nat} (ok : FrameOk mode qword1)
    (va : Image) : xpnetEndianSwap32 va (pktSize mode qword1) mode =
      some (swapWords va (swappedWords (pktSize mode qword1) mode)) := by
  by_cases ha : mode = .a0Uncompressed
  · have hsize := ok.1
    simp only [xpnetMaxPacketSize] at hsize
    exact xpnetEndianSwap32_eq va mode (ok.2 ha) (by omega)
  · simp [xpnetEndianSwap32, swappedWords, ha, swapWords]

/-! ### The window -/

/-- The descriptor holds a completed frame. -/
structure Filled (mode : AddressMode) (d : Desc) (f : Frame) : Prop where
  bits : d.qword0 = 0
  frameOk : FrameOk mode d.qword1
  frame : f = wireBytes d.bufSta.va (pktSize mode d.qword1) mode

/-- The slots from `t` on hold the frames `pend`, which the host has not touched
yet; it has taken `back` and not delivered it. The device is behind the last of
them and owns the slots from there on and those before `lo`. -/
structure Window (n : Nat) (mode : AddressMode) (lo t : Nat) (back pend : List Frame)
    (s : State) : Prop where
  numDesc : s.queue.xpqNumDesc = n
  linked : Linked false s.queue
  mode_eq : s.mode = mode
  fits : t + pend.length ≤ n
  device : t + pend.length < n →
    s.running = true ∧ s.cdp = s.queue.dma + (t + pend.length) * xpnetDescSize
  stopped : t + pend.length = n → s.running = false
  filled : ∀ j (hj : j < pend.length), Filled mode (s.desc (t + j)) pend[j]
  armed : ∀ i < n, i < lo ∨ t + pend.length ≤ i → (s.desc i).qword0 = ownBit
  conserved : s.completed = s.delivered ++ (back ++ pend)

section Window

variable {n : Nat} {mode : AddressMode} {lo t : Nat} {back pend : List Frame} {s s' : State}

theorem Window.inOrder (w : Window n mode lo t back pend s) : InOrder s := ⟨_, w.conserved⟩

/-- The device is at the slot behind the last completed one, or has stopped. -/
theorem Window.current (w : Window n mode lo t back pend s) :
    s.current = if t + pend.length < n then some (t + pend.length) else none := by
  unfold State.current
  by_cases h : t + pend.length < n
  · obtain ⟨hrun, hcdp⟩ := w.device h
    rw [hrun, hcdp, if_pos rfl, if_pos h]
    exact w.linked.descAt (by rwa [w.numDesc])
  · have hend : t + pend.length = n := Nat.le_antisymm w.fits (Nat.not_lt.mp h)
    rw [w.stopped hend, if_neg h]
    rfl

/-- An update of a descriptor that keeps its address and its link. -/
theorem linked_updDesc {a0 : Bool} (linked : Linked a0 s.queue) (i : Nat) {f : Desc → Desc}
    (keeps : (f (s.desc i)).cdp = (s.desc i).cdp ∧ (f (s.desc i)).qword3 = (s.desc i).qword3) :
    Linked a0 (s.updDesc i f).queue := by
  intro j hj
  have hlink := linked j hj
  by_cases hji : j = i
  · subst hji
    have hupd : (s.updDesc j f).queue.descMeta j = f (s.desc j) := updDesc_self s j f
    rw [hupd, keeps.1, keeps.2]
    exact hlink
  · have hupd : (s.updDesc i f).queue.descMeta j = s.desc j := updDesc_of_ne s f hji
    rw [hupd]
    exact hlink

/-- The device completes the slot it is at with a good frame. -/
theorem Window.fill (w : Window n mode lo t back pend s) (hlo : lo ≤ t)
    (h : t + pend.length < n) {va : Image} {qword1 : Nat} (ok : FrameOk mode qword1) :
    Window n mode lo t back (pend ++ [wireBytes va (pktSize mode qword1) mode])
      { fill s (t + pend.length) (clearOwn (s.desc (t + pend.length)).qword0) va qword1 with
        completed := s.completed ++ [wireBytes va (pktSize mode qword1) mode] } := by
  have hlink := (w.linked (t + pend.length) (by rwa [w.numDesc])).2
  rw [w.numDesc] at hlink
  have harmed := w.armed _ h (.inr (Nat.le_refl _))
  have hlen : (pend ++ [wireBytes va (pktSize mode qword1) mode]).length = pend.length + 1 := by
    rw [List.length_append, List.length_singleton]
  rw [harmed]
  constructor
  · exact w.numDesc
  · exact linked_updDesc w.linked (t + pend.length) ⟨by rfl, by rfl⟩
  · exact w.mode_eq
  · rw [hlen]
    exact h
  · intro hnext
    rw [hlen, ← Nat.add_assoc] at hnext ⊢
    rw [if_pos ⟨rfl, hnext⟩] at hlink
    have hne : s.queue.dma + (t + pend.length + 1) * xpnetDescSize ≠ 0 := by
      simp only [xpnetDescSize]
      omega
    refine ⟨?_, hlink⟩
    change ((s.desc (t + pend.length)).qword3 != 0) = true
    rw [State.desc, hlink]
    simpa using hne
  · intro hlast
    rw [hlen, ← Nat.add_assoc] at hlast
    rw [if_neg (by omega)] at hlink
    change ((s.desc (t + pend.length)).qword3 != 0) = false
    rw [State.desc, hlink]
    rfl
  · intro j hj
    rw [hlen] at hj
    by_cases hlast : j = pend.length
    · subst hlast
      rw [List.getElem_concat_length rfl]
      change Filled mode ((Rx.fill s (t + pend.length) (clearOwn ownBit) va qword1).desc _) _
      rw [fill_desc_self]
      exact ⟨by change clearOwn ownBit = 0; decide, ok, rfl⟩
    · have hj' : j < pend.length := by omega
      have hne : t + j ≠ t + pend.length := by omega
      rw [List.getElem_append_left hj']
      change Filled mode ((Rx.fill s (t + pend.length) (clearOwn ownBit) va qword1).desc _) _
      rw [fill_desc_of_ne s _ _ _ hne]
      exact w.filled j hj'
  · intro i hi hside
    rw [hlen] at hside
    have hne : i ≠ t + pend.length := by omega
    change ((Rx.fill s (t + pend.length) (clearOwn ownBit) va qword1).desc i).qword0 = ownBit
    rw [fill_desc_of_ne s _ _ _ hne]
    exact w.armed i hi (by omega)
  · rw [w.conserved]
    simp [Rx.fill, State.updDesc]

/-- A step of the environment appends the frame it completes, if any, and leaves
everything else of the host's alone. -/
theorem goodEnv_window (w : Window n mode lo t back pend s) (hlo : lo ≤ t) (step : GoodEnv s s') :
    ∃ more, Window n mode lo t back (pend ++ more) s' ∧ s'.queue.tail = s.queue.tail ∧
      ∀ i < t, s'.desc i = s.desc i := by
  have still : ∀ ok, Window n mode lo t back (pend ++ []) { s with allocOk := ok } := by
    intro ok
    rw [List.append_nil]
    exact ⟨w.numDesc, w.linked, w.mode_eq, w.fits, w.device, w.stopped, w.filled, w.armed,
      w.conserved⟩
  have idle : ∃ more, Window n mode lo t back (pend ++ more) s ∧ s.queue.tail = s.queue.tail ∧
      ∀ i < t, s.desc i = s.desc i := ⟨[], by rwa [List.append_nil], rfl, fun _ _ => rfl⟩
  obtain ⟨m, good, rfl⟩ := step
  have hcurrent := w.current
  by_cases h : t + pend.length < n
  · rw [if_pos h] at hcurrent
    have hown : s.owned (t + pend.length) = true := by
      rw [State.owned, w.armed _ h (.inr (Nat.le_refl _))]
      exact ownership_ownBit
    cases m with
    | complete va qword1 =>
      have hok : FrameOk mode qword1 := w.mode_eq ▸ good
      have hframe : goodFrame s.mode va qword1 = [wireBytes va (pktSize mode qword1) mode] := by
        rw [goodFrame, w.mode_eq, if_pos hok.1]
      simp only [envMove, hcurrent, hown, if_true, hframe]
      refine ⟨_, w.fill hlo h hok, rfl, fun i hi => ?_⟩
      exact fill_desc_of_ne s _ _ _ (by omega)
    | fault qword0 va qword1 => exact good.elim
    | halt => simpa only [envMove, hcurrent, hown, if_true] using idle
    | memory ok => exact ⟨[], still ok, rfl, fun _ _ => rfl⟩
  · rw [if_neg h] at hcurrent
    cases m with
    | memory ok => exact ⟨[], still ok, rfl, fun _ _ => rfl⟩
    | _ => simpa only [envMove, hcurrent] using idle

/-- A window, with a fact about what is pending and the slots before it that
completions do not change. -/
def Between (n : Nat) (mode : AddressMode) (lo t tail : Nat) (back : List Frame)
    (K : List Frame → (Nat → Desc) → Prop) (s : State) : Prop :=
  ∃ pend, Window n mode lo t back pend s ∧ s.queue.tail = tail ∧ K pend s.desc

theorem goodEnv_between {tail : Nat} {K : List Frame → (Nat → Desc) → Prop} (hlo : lo ≤ t)
    (grows : ∀ pend more desc desc', (∀ i < t, desc' i = desc i) → K pend desc →
      K (pend ++ more) desc') : Stable GoodEnv (Between n mode lo t tail back K) := by
  rintro s s' step ⟨pend, w, htail, hK⟩
  obtain ⟨more, w', htail', hdesc⟩ := goodEnv_window w hlo step
  exact ⟨pend ++ more, w', htail'.trans htail, grows pend more s.desc s'.desc hdesc hK⟩

/-! ### The host's moves -/

theorem length_taken (t : Nat) (f : Frame) (pend : List Frame) :
    t + (f :: pend).length = t + 1 + pend.length := by
  rw [List.length_cons]
  omega

/-- The host takes the first frame of the window. -/
theorem Window.take {f : Frame} (w : Window n mode t t back (f :: pend) s) :
    Window n mode t (t + 1) (back ++ [f]) pend s ∧ Filled mode (s.desc t) f := by
  have hlen := length_taken t f pend
  refine ⟨⟨w.numDesc, w.linked, w.mode_eq, hlen ▸ w.fits, hlen ▸ w.device, hlen ▸ w.stopped, ?_,
    hlen ▸ w.armed, ?_⟩, w.filled 0 (Nat.succ_pos _)⟩
  · intro j hj
    have hnext := w.filled (j + 1) (Nat.succ_lt_succ hj)
    rwa [show t + (j + 1) = t + 1 + j by omega] at hnext
  · rw [List.append_assoc]
    exact w.conserved

/-- The host leaves the frame it looked at where it is. -/
theorem Window.untake {f : Frame} (w : Window n mode t (t + 1) (back ++ [f]) pend s)
    (filled : Filled mode (s.desc t) f) : Window n mode t t back (f :: pend) s := by
  have hlen := length_taken t f pend
  refine ⟨w.numDesc, w.linked, w.mode_eq, hlen ▸ w.fits, hlen ▸ w.device, hlen ▸ w.stopped, ?_,
    hlen ▸ w.armed, ?_⟩
  · intro j hj
    cases j with
    | zero => exact filled
    | succ j =>
      rw [show t + (j + 1) = t + 1 + j by omega]
      exact w.filled j (Nat.lt_of_succ_lt_succ hj)
  · have h := w.conserved
    rwa [List.append_assoc] at h

/-- The host stores to the descriptor it is working on. -/
theorem Window.upd (w : Window n mode t (t + 1) back pend s) {f : Desc → Desc}
    (keeps : (f (s.desc t)).cdp = (s.desc t).cdp ∧ (f (s.desc t)).qword3 = (s.desc t).qword3) :
    Window n mode t (t + 1) back pend (s.updDesc t f) := by
  refine ⟨w.numDesc, linked_updDesc w.linked t keeps, w.mode_eq, w.fits, w.device, w.stopped, ?_, ?_,
    w.conserved⟩
  · intro j hj
    have hne : t + 1 + j ≠ t := by omega
    change Filled mode ((s.updDesc t f).desc (t + 1 + j)) _
    rw [updDesc_of_ne s f hne]
    exact w.filled j hj
  · intro i hi hside
    have hne : i ≠ t := by omega
    change ((s.updDesc t f).desc i).qword0 = ownBit
    rw [updDesc_of_ne s f hne]
    exact w.armed i hi hside

/-- The host has given the descriptor back. -/
theorem Window.arm (w : Window n mode t (t + 1) back pend s) (own : (s.desc t).qword0 = ownBit) :
    Window n mode (t + 1) (t + 1) back pend s := by
  refine ⟨w.numDesc, w.linked, w.mode_eq, w.fits, w.device, w.stopped, w.filled, ?_, w.conserved⟩
  intro i hi hside
  by_cases hit : i = t
  · exact hit ▸ own
  · exact w.armed i hi (by omega)

/-- The host delivers the frame it has taken. -/
theorem Window.deliver {f : Frame} (w : Window n mode lo t (f :: back) pend s) :
    Window n mode lo t back pend { s with delivered := s.delivered ++ [f] } := by
  refine ⟨w.numDesc, w.linked, w.mode_eq, w.fits, w.device, w.stopped, w.filled, w.armed, ?_⟩
  rw [List.append_assoc]
  exact w.conserved

/-! ### Between two passes -/

/-- The host has taken every packet of a pass and moved `tail` to the first slot;
the device has stopped, and starts over when the queue is enabled. -/
structure Wrapped (n : Nat) (mode : AddressMode) (back : List Frame) (P : State → Prop)
    (s : State) : Prop where
  numDesc : s.queue.xpqNumDesc = n
  linked : Linked false s.queue
  mode_eq : s.mode = mode
  tail : s.queue.tail = 0
  stopped : s.running = false
  armed : ∀ i < n, (s.desc i).qword0 = ownBit
  conserved : s.completed = s.delivered ++ back
  also : P s

theorem goodEnv_wrapped {P : State → Prop} (alloc : ∀ s ok, P s → P { s with allocOk := ok }) :
    Stable GoodEnv (Wrapped n mode back P) := by
  rintro s s' ⟨m, -, rfl⟩ w
  have hcurrent : s.current = none := by
    rw [State.current, w.stopped]
    rfl
  cases m with
  | memory ok =>
    exact ⟨w.numDesc, w.linked, w.mode_eq, w.tail, w.stopped, w.armed, w.conserved,
      alloc s ok w.also⟩
  | _ => simpa only [envMove, hcurrent] using w

/-- A window at the end of the ring is empty. -/
theorem Window.wrap (w : Window n mode n n back pend s) :
    Wrapped n mode back (fun _ => True) { s with queue := { s.queue with tail := 0 } } := by
  have hfits := w.fits
  have hnil : pend = [] := List.length_eq_zero_iff.mp (by omega)
  subst hnil
  refine ⟨w.numDesc, w.linked, w.mode_eq, rfl, w.stopped rfl, fun i hi => w.armed i hi (.inl hi), ?_,
    trivial⟩
  have h := w.conserved
  rwa [List.append_nil] at h

/-- A device that is started over is at the first slot. -/
theorem Wrapped.restart (pos : 0 < n) (w : Wrapped n mode back (fun s => s.cdp = s.queue.dma) s) :
    Window n mode 0 0 back [] { s with running := true } := by
  refine ⟨w.numDesc, w.linked, w.mode_eq, Nat.zero_le _, fun _ => ⟨rfl, ?_⟩, fun h => ?_, ?_,
    fun i hi _ => w.armed i hi, ?_⟩
  · have := w.also
    simpa using this
  · exact absurd h (Nat.ne_of_lt pos)
  · intro j hj
    cases hj
  · rw [List.append_nil]
    exact w.conserved

end Window

end XpNet.Rx
