/-
Calls that hold a lock from their first action to their last.

A `Monitor` is the calls: `call r` takes the lock, runs `body r` and gives the lock back,
and `run r` says what it does, alone, to the state. A program is `Built` from calls if they
are all it does with the state. `SerialRun` is the same threads with every call done at one
instant, with the effect and the result of `run r`. Nobody but the threads moves.

* `Interleaving.serial`: whenever the lock is free, the threads and the state are those of
  a serial run, with the calls in the order in which they took the lock.
* `Interleaving.progress`: some thread can go on, or all have returned.
* `Interleaving.exclusive`: an action that needs the lock is taken by its holder.
-/

import XpNet.Interference.Threads

namespace XpNet.Interference

open Function (update)

variable {ι σ ε α β γ : Type}

/-! ### Calls -/

/-- The calls that share a lock. Alone, the body of a call does what the function `run`
says, and it leaves the lock to the call. -/
structure Monitor (σ ε : Type) where
  use : ε → LockUse
  lock : ε
  unlock : ε
  Call : Type
  Out : Call → Type
  body : (r : Call) → Prog σ ε (Out r)
  run : (r : Call) → σ → Out r × σ
  takes : use lock = .acquire
  gives : use unlock = .release
  exec : ∀ r s, (body r).exec s = some (run r s)
  steady : ∀ r, Always (fun l _ => Steady use true l) (body r)

namespace Monitor

variable {m : Monitor σ ε}

/-- The lock, the body and the unlock. -/
def call (m : Monitor σ ε) (r : m.Call) : Prog σ ε (m.Out r) := do
  Prog.emit m.lock
  let a ← m.body r
  Prog.emit m.unlock
  pure a

/-- All the program does with the state are calls. -/
inductive Built (m : Monitor σ ε) : Prog σ ε α → Prop where
  | ret {a : α} : Built m (.ret a)
  | emit {l : ε} {p : Prog σ ε α} : Steady m.use false l → Built m p →
      Built m (Prog.emit l >>= fun _ => p)
  | call (r : m.Call) {f : m.Out r → Prog σ ε α} : (∀ a, Built m (f a)) →
      Built m (m.call r >>= f)

theorem Built.bind {p : Prog σ ε α} {f : α → Prog σ ε β} (first : m.Built p)
    (second : ∀ a, m.Built (f a)) : m.Built (p >>= f) := by
  induction first with
  | ret => exact second _
  | emit steady _ ih => exact .emit steady ih
  | call r _ ih =>
      rw [Prog.bind_assoc]
      exact .call r ih

/-- One call. -/
theorem Built.one (r : m.Call) : m.Built (m.call r) := by
  have built : m.Built (m.call r >>= .ret) := .call r fun _ => .ret
  rwa [Prog.bind_ret] at built

/-- A loop whose rounds are built from calls. -/
theorem Built.foldlM {f : β → α → Prog σ ε β} (round : ∀ b a, m.Built (f b a)) (as : List α)
    (b : β) : m.Built (as.foldlM f b) := by
  induction as generalizing b with
  | nil => exact .ret
  | cons a rest ih => exact (round b a).bind ih

theorem Built.forM {f : α → Prog σ ε PUnit} (as : List α) (each : ∀ a ∈ as, m.Built (f a)) :
    m.Built (as.forM f) := by
  induction as with
  | nil => exact .ret
  | cons a rest ih =>
      exact (each a List.mem_cons_self).bind fun _ =>
        ih fun b mem => each b (List.mem_cons_of_mem a mem)

/-! ### Serial runs -/

variable [DecidableEq ι]

/-- Some thread does a call at one instant, or an action that does nothing to the state.
The list is who has made the calls, in their order. -/
inductive SerialRun (m : Monitor σ ε) (progs₀ : ι → Prog σ ε α) (s₀ : σ) :
    List ι → (ι → Prog σ ε α) → σ → Prop where
  | start : SerialRun m progs₀ s₀ [] progs₀ s₀
  | emit {order : List ι} {progs : ι → Prog σ ε α} {s : σ} {i : ι} {l : ε} {p : Prog σ ε α} :
      SerialRun m progs₀ s₀ order progs s → Steady m.use false l →
      progs i = (Prog.emit l >>= fun _ => p) →
      SerialRun m progs₀ s₀ order (update progs i p) s
  | call {order : List ι} {progs : ι → Prog σ ε α} {s : σ} {i : ι} (r : m.Call)
      {f : m.Out r → Prog σ ε α} :
      SerialRun m progs₀ s₀ order progs s → progs i = (m.call r >>= f) →
      SerialRun m progs₀ s₀ (order ++ [i]) (update progs i (f (m.run r s).1)) (m.run r s).2

/-! ### Interleavings are serial -/

/-- Thread `h` is in the call `r`, made in the state `t` after the calls of `order`, and
`q` is left of it. But for that call the threads are those of a serial run. -/
structure Inside (m : Monitor σ ε) (progs₀ : ι → Prog σ ε α) (s₀ : σ) (order : List ι)
    (c : Config ι σ ε α) (h : ι) (r : m.Call) (q : Prog σ ε (m.Out r))
    (f : m.Out r → Prog σ ε α) (t : σ) : Prop where
  serial : SerialRun m progs₀ s₀ order (update c.prog h (m.call r >>= f)) t
  left : c.prog h = q >>= fun a => Prog.emit m.unlock >>= fun _ => f a
  ends : q.exec c.state = some (m.run r t)
  steady : Always (fun l _ => Steady m.use true l) q
  after : ∀ a, m.Built (f a)
  others : ∀ i, i ≠ h → m.Built (c.prog i)

/-- What holds along an interleaving. -/
inductive Serialized (m : Monitor σ ε) (progs₀ : ι → Prog σ ε α) (s₀ : σ) (order : List ι)
    (c : Config ι σ ε α) : Prop where
  | free : c.holder = none → SerialRun m progs₀ s₀ order c.prog c.state →
      (∀ i, m.Built (c.prog i)) → Serialized m progs₀ s₀ order c
  | held {before : List ι} {h : ι} {r : m.Call} {q : Prog σ ε (m.Out r)}
      {f : m.Out r → Prog σ ε α} {t : σ} : c.holder = some h → order = before ++ [h] →
      Inside m progs₀ s₀ before c h r q f t → Serialized m progs₀ s₀ order c

variable {progs₀ : ι → Prog σ ε α} {s₀ : σ} {order : List ι} {c c' : Config ι σ ε α} {i : ι}
  {l : ε}

/-- The next action of a call is to take the lock. -/
theorem call_next (r : m.Call) (f : m.Out r → Prog σ ε α) :
    m.call r >>= f = .act m.lock id fun _ =>
      m.body r >>= fun a => Prog.emit m.unlock >>= fun _ => f a := by
  unfold call
  rw [Prog.emit_bind, Prog.act_bind]
  congr
  funext s
  rw [Prog.bind_assoc]
  rfl

/-- A thread that leaves the lock alone keeps its place in a serial run. -/
theorem Serialized.step_emit {p : Prog σ ε α} {l' : ε} (free : c.holder = none)
    (serial : SerialRun m progs₀ s₀ order c.prog c.state) (built : ∀ i, m.Built (c.prog i))
    (steady : Steady m.use false l) (left : m.Built p)
    (next : c.prog i = (Prog.emit l >>= fun _ => p)) (step : Step m.use c i l' c') :
    Serialized m progs₀ s₀ (order ++ acquires m.use [(i, l')]) c' := by
  obtain ⟨rfl, effect⟩ := step.effect_of_next next
  rw [acquires_other steady.ne_acquire, List.append_nil]
  refine .free ?_ ?_ ?_
  · rw [effect.other steady.ne_acquire steady.ne_release]
    exact free
  · rw [effect.prog, effect.state]
    exact .emit serial steady next
  · rw [effect.prog]
    intro j
    by_cases same : j = i
    · subst same
      rw [Function.update_self]
      exact left
    · rw [Function.update_of_ne same]
      exact built j

/-- A thread that takes the lock is in its call. -/
theorem Serialized.step_call {l' : ε} (r : m.Call) {f : m.Out r → Prog σ ε α}
    (serial : SerialRun m progs₀ s₀ order c.prog c.state) (built : ∀ i, m.Built (c.prog i))
    (after : ∀ a, m.Built (f a)) (next : c.prog i = (m.call r >>= f))
    (step : Step m.use c i l' c') :
    Serialized m progs₀ s₀ (order ++ acquires m.use [(i, l')]) c' := by
  obtain ⟨rfl, effect⟩ := step.effect_of_next (next.trans (call_next r f))
  rw [acquires_lock m.takes]
  refine .held (q := m.body r) (t := c.state) (effect.acquire m.takes).2 rfl
    ⟨?_, ?_, ?_, m.steady r, after, ?_⟩
  · rw [effect.prog, Function.update_idem, ← next, Function.update_eq_self]
    exact serial
  · rw [effect.prog, Function.update_self]
  · rw [effect.state]
    exact m.exec r c.state
  · intro j ne
    rw [effect.prog, Function.update_of_ne ne]
    exact built j

/-- The holder of the lock goes on with its call, or ends it. -/
theorem Inside.step_holder {h : ι} {r : m.Call} {q : Prog σ ε (m.Out r)}
    {f : m.Out r → Prog σ ε α} {t : σ} (held : c.holder = some h)
    (inside : Inside m progs₀ s₀ order c h r q f t) (step : Step m.use c h l c') :
    Serialized m progs₀ s₀ (order ++ [h] ++ acquires m.use [(h, l)]) c' := by
  obtain ⟨serial, left, ends, steady, after, others⟩ := inside
  cases q with
  | ret a =>
      -- the unlock: the call is done at this instant
      obtain ⟨rfl, effect⟩ := step.effect_of_next left
      have result : (a, c.state) = m.run r t := Option.some.inj ends
      have notAcquire : m.use m.unlock ≠ .acquire := by
        rw [m.gives]
        exact LockUse.noConfusion
      rw [acquires_other notAcquire, List.append_nil]
      refine .free (effect.release m.gives) ?_ ?_
      · have done := SerialRun.call r serial (Function.update_self h _ _)
        rw [← result, Function.update_idem] at done
        rw [effect.prog, effect.state]
        exact done
      · rw [effect.prog]
        intro j
        by_cases same : j = h
        · subst same
          rw [Function.update_self]
          exact after a
        · rw [Function.update_of_ne same]
          exact others j same
  | act l' u k =>
      obtain ⟨rfl, effect⟩ := step.effect_of_next left
      have notAcquire := steady.1.ne_acquire
      rw [acquires_other notAcquire, List.append_nil]
      refine .held (q := k c.state) (t := t) ?_ rfl ⟨?_, ?_, ?_, steady.2 _, after, ?_⟩
      · rw [effect.other notAcquire steady.1.ne_release]
        exact held
      · rw [effect.prog, Function.update_idem]
        exact serial
      · rw [effect.prog, Function.update_self]
        rfl
      · rw [effect.state]
        exact ends
      · intro j ne
        rw [effect.prog, Function.update_of_ne ne]
        exact others j ne
  | diverge => exact steady.elim

/-- Beside a call the other threads only leave the lock alone. -/
theorem Inside.step_other {h : ι} {r : m.Call} {q : Prog σ ε (m.Out r)}
    {f : m.Out r → Prog σ ε α} {t : σ} (held : c.holder = some h)
    (inside : Inside m progs₀ s₀ order c h r q f t) (ne : i ≠ h) (step : Step m.use c i l c') :
    Serialized m progs₀ s₀ (order ++ [h] ++ acquires m.use [(i, l)]) c' := by
  obtain ⟨serial, left, ends, steady, after, others⟩ := inside
  obtain ⟨u, k, next, effect⟩ := step.effect
  have built := others i ne
  rw [next] at built
  generalize isNext : Prog.act l u k = p at built
  cases built with
  | ret => cases isNext
  | call r _ =>
      rw [call_next] at isNext
      cases isNext
      rw [(effect.acquire m.takes).1] at held
      cases held
  | emit steady' built' =>
      cases isNext
      have notAcquire := steady'.ne_acquire
      rw [acquires_other notAcquire, List.append_nil]
      refine .held (q := q) (t := t) ?_ rfl ⟨?_, ?_, ?_, steady, after, ?_⟩
      · rw [effect.other notAcquire steady'.ne_release]
        exact held
      · rw [effect.prog, Function.update_comm ne]
        apply SerialRun.emit serial steady'
        rw [Function.update_of_ne ne]
        exact next
      · rw [effect.prog, Function.update_of_ne ne.symm]
        exact left
      · rw [effect.state]
        exact ends
      · intro j nej
        rw [effect.prog]
        by_cases same : j = i
        · subst same
          rw [Function.update_self]
          exact built'
        · rw [Function.update_of_ne same]
          exact others j nej

/-- **Step.** Whatever thread goes on. -/
theorem Serialized.step (serialized : Serialized m progs₀ s₀ order c)
    (step : Step m.use c i l c') :
    Serialized m progs₀ s₀ (order ++ acquires m.use [(i, l)]) c' := by
  cases serialized with
  | free free serial built =>
      obtain ⟨u, k, next, -⟩ := step.effect
      have builtNext := built i
      generalize isNext : c.prog i = p at builtNext
      cases builtNext with
      | ret => cases next.symm.trans isNext
      | emit steady left => exact step_emit free serial built steady left isNext step
      | call r after => exact step_call r serial built after isNext step
  | @held before h r q f t held isOrder inside =>
      subst isOrder
      by_cases same : i = h
      · subst same
        exact inside.step_holder held step
      · exact inside.step_other held same step

/-- **Run.** -/
theorem serialized_of_run {tr : List (ι × ε)} (built : ∀ i, m.Built (progs₀ i))
    (run : Interleaving m.use NoMoves ⟨progs₀, none, s₀⟩ tr c) :
    Serialized m progs₀ s₀ (acquires m.use tr) c := by
  induction run with
  | start => exact .free rfl .start built
  | env _ moves _ => exact moves.elim
  | step _ step ih =>
      rw [acquires_append]
      exact ih.step step

/-- Outside of its calls a thread needs no lock for its next action. -/
theorem Built.next_allowed {p : Prog σ ε α} (built : m.Built p) (next : p.label? = some l) :
    (m.use l).Allowed false := by
  cases built with
  | ret => cases next
  | emit steady _ =>
      cases next
      exact steady.1
  | call r _ =>
      rw [call_next] at next
      cases next
      rw [m.takes]
      rfl

/-- The holder of the lock can go on. -/
theorem Inside.can_step {h : ι} {r : m.Call} {q : Prog σ ε (m.Out r)} {f : m.Out r → Prog σ ε α}
    {t : σ} (inside : Inside m progs₀ s₀ order c h r q f t) :
    ∃ l c', Step m.use c h l c' := by
  obtain ⟨-, left, -, steady, -, -⟩ := inside
  cases q with
  | ret a =>
      have notAcquire : m.use m.unlock ≠ .acquire := by
        rw [m.gives]
        exact LockUse.noConfusion
      exact ⟨_, Step.exists_of_next left fun acquired => absurd acquired notAcquire⟩
  | act l u k =>
      exact ⟨_, Step.exists_of_next left fun acquired => absurd acquired steady.1.ne_acquire⟩
  | diverge => exact steady.elim

end Monitor

section Runs

variable [DecidableEq ι] {m : Monitor σ ε} {progs₀ : ι → Prog σ ε α} {s₀ : σ}
  {tr : List (ι × ε)} {c : Config ι σ ε α}

/-- **Serializability.** With the lock free, an interleaving has done what the calls do one
at a time, in the order in which they took the lock. -/
theorem Interleaving.serial (run : Interleaving m.use NoMoves ⟨progs₀, none, s₀⟩ tr c)
    (built : ∀ i, m.Built (progs₀ i)) (free : c.holder = none) :
    m.SerialRun progs₀ s₀ (acquires m.use tr) c.prog c.state := by
  cases Monitor.serialized_of_run built run with
  | free _ serial _ => exact serial
  | held held _ _ => cases held.symm.trans free

/-- **Progress.** Either every thread has returned and the lock is free, or some thread can
go on. -/
theorem Interleaving.progress (run : Interleaving m.use NoMoves ⟨progs₀, none, s₀⟩ tr c)
    (built : ∀ i, m.Built (progs₀ i)) :
    (c.Done ∧ c.holder = none) ∨ ∃ i l c', Step m.use c i l c' := by
  cases Monitor.serialized_of_run built run with
  | free free _ built =>
      by_cases done : c.Done
      · exact .inl ⟨done, free⟩
      · right
        obtain ⟨i, goes⟩ := not_forall.mp done
        have builtNext := built i
        generalize isNext : c.prog i = p at goes builtNext
        cases builtNext with
        | ret => exact absurd ⟨_, rfl⟩ goes
        | emit _ _ => exact ⟨i, _, Step.exists_of_next isNext fun _ => free⟩
        | call r _ =>
            rw [Monitor.call_next] at isNext
            exact ⟨i, _, Step.exists_of_next isNext fun _ => free⟩
  | held _ _ inside => exact .inr ⟨_, inside.can_step⟩

/-- **Mutual exclusion.** What needs the lock is done by its holder. -/
theorem Interleaving.exclusive (run : Interleaving m.use NoMoves ⟨progs₀, none, s₀⟩ tr c)
    (built : ∀ i, m.Built (progs₀ i)) {i : ι} {l : ε} (next : (c.prog i).label? = some l)
    (needs : ¬ (m.use l).Allowed false) : c.holder = some i := by
  cases Monitor.serialized_of_run built run with
  | free _ _ built => exact absurd ((built i).next_allowed next) needs
  | @held _ h _ _ _ _ held _ inside =>
      by_cases same : i = h
      · rw [same]
        exact held
      · exact absurd ((inside.others i same).next_allowed next) needs

end Runs

end XpNet.Interference
