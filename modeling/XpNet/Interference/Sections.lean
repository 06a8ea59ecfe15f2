/-
What a lock protects.

Threads put things into something they share, each of them while it holds the lock. A
`Resource` says what has been put in when the lock is free (`inv`), what is so at all times
(`always`), and what may be done at any time, by the environment or by a thread without the
lock (`rely`). A `Section` is code for a thread that holds the lock: it puts `put` in, whatever
the others do meanwhile. `Passes w p` says of a program that is started without the lock that
it puts in at most `w`, in that order, in sections of its own, and does no more than `rely`
outside of them.

`Interleaving.orderly`: with the lock free, `inv` holds of what was put in by one hold of the
lock after the other, in the order in which it was taken, and what one thread has put in is
part of what it was to put in, in its order.
-/

import XpNet.Interference.Masked
import XpNet.Interference.Monitor

namespace XpNet.Interference

open Function (update)
open Relation (ReflTransGen)

variable {ι σ τ ε ε' α β φ : Type}

/-! ### Resources and sections -/

/-- A program on a part of the state, by what goes before its actions. -/
theorem Takes.embed {P : ε → (σ → σ) → Prop} {Q : ε' → (τ → τ) → Prop} {get : σ → τ} {set : τ → σ → σ}
    {lab : ε} {before : ε' → Prog σ ε Unit} (each : ∀ l, Takes P (before l))
    (part : ∀ l u, Q l u → P lab fun s => set (u (get s)) s) {q : Prog τ ε' α}
    (takes : Takes Q q) : Takes P (q.embed get set lab before) := by
  induction q with
  | ret a => trivial
  | act l u k ih => exact (each l).bind fun _ => ⟨part l u takes.1, fun s => ih _ (takes.2 _)⟩
  | diverge => trivial

/-- What a lock protects. -/
structure Resource (σ ε φ : Type) where
  use : ε → LockUse
  rely : σ → σ → Prop
  always : σ → Prop
  inv : List φ → σ → Prop
  kept : ∀ s s', rely s s' → always s → always s'
  stable : ∀ w s s', rely s s' → inv w s → inv w s'

namespace Resource

variable {m : Resource σ ε φ} {w w' put : List φ} {s s' : σ}

theorem always_steps (steps : ReflTransGen m.rely s s') (holds : m.always s) : m.always s' :=
  Stable.steps m.kept steps holds

theorem inv_steps (steps : ReflTransGen m.rely s s') (holds : m.inv w s) : m.inv w s' :=
  Stable.steps (m.stable w) steps holds

/-- Every end of the program is one where `w` has been put in. -/
def Ends (m : Resource σ ε φ) (p : Prog σ ε α) (s : σ) (w : List φ) : Prop :=
  ∀ tr a s', Runs m.rely p s tr a s' → m.inv w s'

/-- An action for a thread that has the lock and keeps it. -/
def Inner (m : Resource σ ε φ) (l : ε) (u : σ → σ) : Prop :=
  Steady m.use true l ∧ ∀ s, m.always s → m.always (u s)

/-- Code for a thread that has the lock. -/
structure Section (m : Resource σ ε φ) (put : List φ) (body : Prog σ ε α) : Prop where
  inner : Takes m.Inner body
  ends : ∀ w s, m.always s → m.inv w s → m.Ends body s (w ++ put)

/-- A run of code that does no more than the others may is one of their moves. -/
theorem moves_of_runs {rely : σ → σ → Prop} {p : Prog σ ε α} {tr : List (σ × ε)} {a : α}
    (takes : Takes (fun _ u => ∀ s, rely s (u s)) p) (run : Runs rely p s tr a s') :
    ReflTransGen rely s s' := by
  induction run with
  | ret steps => exact steps
  | act steps _ ih => exact (steps.tail (takes.1 _)).trans (ih (takes.2 _))

/-- Code that could do without the lock. -/
theorem Section.still {body : Prog σ ε α}
    (takes : Takes (fun l u => Steady m.use true l ∧ ∀ s, m.rely s (u s)) body) :
    m.Section [] body where
  inner := takes.mono fun l u act => ⟨act.1, fun s holds => m.kept _ _ (act.2 s) holds⟩
  ends := by
    intro w s _ holds tr a s' run
    rw [List.append_nil]
    exact inv_steps (moves_of_runs (takes.mono fun _ _ act => act.2) run) holds

/-- The lock, the code and the unlock, and what comes then. -/
def holding (lock unlock : ε) (body : Prog σ ε β) (f : β → Prog σ ε α) : Prog σ ε α := do
  Prog.emit lock
  let b ← body
  Prog.emit unlock
  f b

theorem holding_bind {γ : Type} (lock unlock : ε) (body : Prog σ ε β) (f : β → Prog σ ε α)
    (g : α → Prog σ ε γ) :
    holding lock unlock body f >>= g = holding lock unlock body fun b => f b >>= g := by
  unfold holding
  rw [Prog.bind_assoc]
  congr
  funext _
  rw [Prog.bind_assoc]
  congr

/-- Started without the lock, the program puts in at most `w`. -/
inductive Passes (m : Resource σ ε φ) : List φ → Prog σ ε α → Prop where
  | ret {w : List φ} {a : α} : Passes m w (.ret a)
  | diverge {w : List φ} : Passes m w .diverge
  | quiet {w : List φ} {l : ε} {u : σ → σ} {k : σ → Prog σ ε α} : Steady m.use false l →
      (∀ s, m.always s → ReflTransGen m.rely s (u s)) → (∀ s, m.always s → Passes m w (k s)) →
      Passes m w (.act l u k)
  | hold {put w : List φ} {β : Type} {lock unlock : ε} {body : Prog σ ε β}
      {f : β → Prog σ ε α} : m.use lock = .acquire → m.use unlock = .release →
      m.Section put body → (∀ b, Passes m w (f b)) →
      Passes m (put ++ w) (holding lock unlock body f)
  | fewer {w w' : List φ} {p : Prog σ ε α} : Passes m w p → w.Sublist w' → Passes m w' p

theorem Passes.bind {p : Prog σ ε α} {f : α → Prog σ ε β} (first : m.Passes w p)
    (second : ∀ a, m.Passes w' (f a)) : m.Passes (w ++ w') (p >>= f) := by
  induction first with
  | ret => exact (second _).fewer (List.sublist_append_right _ _)
  | diverge => exact .diverge
  | quiet steady moves _ ih => exact .quiet steady moves ih
  | hold acquires releases inside _ ih =>
      rw [holding_bind, List.append_assoc]
      exact .hold acquires releases inside ih
  | fewer _ sub ih => exact ih.fewer (sub.append_right _)

theorem Passes.forM {f : β → Prog σ ε PUnit} {puts : β → List φ} (bs : List β)
    (each : ∀ b ∈ bs, m.Passes (puts b) (f b)) : m.Passes (bs.flatMap puts) (bs.forM f) := by
  induction bs with
  | nil => exact .ret
  | cons b rest ih =>
      exact (each b List.mem_cons_self).bind fun _ =>
        ih fun b' mem => each b' (List.mem_cons_of_mem b mem)

theorem Passes.forM_silent {f : β → Prog σ ε PUnit} (each : ∀ b, m.Passes [] (f b))
    (bs : List β) : m.Passes [] (bs.forM f) :=
  (forM bs fun b _ => each b).fewer (by simp)

/-- A program on a part of the state that anybody may change. -/
theorem Passes.embed {get : σ → τ} {set : τ → σ → σ} {lab : ε} {before : ε' → Prog σ ε Unit}
    (steady : Steady m.use false lab) (free : ∀ t s, m.rely s (set t s))
    (each : ∀ l, m.Passes [] (before l)) (p : Prog τ ε' α) :
    m.Passes [] (p.embed get set lab before) := by
  induction p with
  | ret a => exact .ret
  | act l u k ih =>
      exact (each l).bind fun _ => .quiet steady (fun s _ => .single (free _ s)) fun s _ => ih _
  | diverge => exact .diverge

/-- Calls that could do without the lock. -/
theorem Passes.ofBuilt (calls : Monitor σ ε) (use : calls.use = m.use)
    (still : ∀ r, Takes (fun _ u => ∀ s, m.rely s (u s)) (calls.body r)) {p : Prog σ ε α}
    (built : calls.Built p) : m.Passes [] p := by
  induction built with
  | ret => exact .ret
  | emit steady _ ih => exact .quiet (use ▸ steady) (fun _ _ => .refl) fun _ _ => ih
  | @call r f _ ih =>
      have same : calls.call r >>= f = holding calls.lock calls.unlock (calls.body r) f :=
        holding_bind _ _ _ _ f
      have inside : m.Section [] (calls.body r) :=
        .still ((use ▸ (calls.steady r).takes).and (still r))
      rw [same]
      exact .hold (use ▸ calls.takes) (use ▸ calls.gives) inside ih

/-- What a program without the lock does next: something it may do at any time, or it takes
the lock for a section of its own. -/
theorem Passes.next {p : Prog σ ε α} {l : ε} {u : σ → σ} {k : σ → Prog σ ε α}
    (passes : m.Passes w p) (next : p = .act l u k) :
    (Steady m.use false l ∧ (∀ s, m.always s → ReflTransGen m.rely s (u s)) ∧
      ∀ s, m.always s → m.Passes w (k s)) ∨
    ∃ (put w' : List φ) (β : Type) (unlock : ε) (body : Prog σ ε β) (f : β → Prog σ ε α),
      (put ++ w').Sublist w ∧ m.use l = .acquire ∧ u = id ∧
      (∀ s, k s = body >>= fun b => Prog.emit unlock >>= fun _ => f b) ∧
      m.use unlock = .release ∧ m.Section put body ∧ ∀ b, m.Passes w' (f b) := by
  induction passes with
  | ret => cases next
  | diverge => cases next
  | quiet steady moves rest _ =>
      cases next
      exact .inl ⟨steady, moves, rest⟩
  | @hold put w β lock unlock body f acquires releases inside rest _ =>
      unfold holding at next
      rw [Prog.emit_bind] at next
      cases next
      exact .inr ⟨put, w, β, unlock, body, f, .refl _, acquires, rfl, fun _ => rfl, releases,
        inside, rest⟩
  | fewer _ sub ih =>
      rcases ih next with ⟨steady, moves, rest⟩ | ⟨put, w', β, unlock, body, f, part, inside⟩
      · exact .inl ⟨steady, moves, fun s holds => (rest s holds).fewer sub⟩
      · exact .inr ⟨put, w', β, unlock, body, f, part.trans sub, inside⟩

/-! ### Interleavings -/

section Threads

variable [DecidableEq ι]

/-- What thread `i` has put in, one hold of the lock after the other. -/
def own (holds : List (ι × List φ)) (i : ι) : List φ :=
  (holds.filter fun x => x.1 = i).flatMap Prod.snd

theorem own_snoc_self (holds : List (ι × List φ)) (i : ι) (put : List φ) :
    own (holds ++ [(i, put)]) i = own holds i ++ put := by simp [own]

theorem own_snoc_of_ne {i j : ι} (ne : j ≠ i) (holds : List (ι × List φ)) (put : List φ) :
    own (holds ++ [(i, put)]) j = own holds j := by simp [own, ne.symm]

/-- With `done` put in, what is left of the thread keeps to `goal`. -/
def Due (m : Resource σ ε φ) (goal done : List φ) (p : Prog σ ε α) : Prop :=
  ∃ w, m.Passes w p ∧ (done ++ w).Sublist goal

/-- What holds along an interleaving of threads that are to put `goal` in. -/
inductive Orderly (m : Resource σ ε φ) (goal : ι → List φ) (holds : List (ι × List φ))
    (c : Config ι σ ε α) : Prop where
  | free : c.holder = none → m.always c.state → m.inv (holds.flatMap Prod.snd) c.state →
      (∀ i, m.Due (goal i) (own holds i) (c.prog i)) → Orderly m goal holds c
  | held {h : ι} {β : Type} {unlock : ε} {q : Prog σ ε β} {f : β → Prog σ ε α} :
      c.holder = some h → m.always c.state →
      c.prog h = (q >>= fun b => Prog.emit unlock >>= fun _ => f b) → m.use unlock = .release →
      Takes m.Inner q → m.Ends q c.state (holds.flatMap Prod.snd) →
      (∀ b, m.Due (goal h) (own holds h) (f b)) →
      (∀ i, i ≠ h → m.Due (goal i) (own holds i) (c.prog i)) → Orderly m goal holds c

variable {goal : ι → List φ} {holds : List (ι × List φ)} {c c' : Config ι σ ε α} {i : ι} {l : ε}

/-- The others move. -/
theorem Orderly.moves {s : σ} (orderly : m.Orderly goal holds c)
    (steps : ReflTransGen m.rely c.state s) : m.Orderly goal holds { c with state := s } := by
  cases orderly with
  | free free always inv due => exact .free free (always_steps steps always) (inv_steps steps inv) due
  | held held always left releases inner ends after others =>
      exact .held held (always_steps steps always) left releases inner
        (fun _ _ _ run => ends _ _ _ (run.before steps)) after others

/-- A thread without the lock goes on to what it may do. -/
theorem Orderly.goes_on {p : Prog σ ε α} (orderly : m.Orderly goal holds c)
    (without : c.holder ≠ some i) (due : m.Due (goal i) (own holds i) p) :
    m.Orderly goal holds { c with prog := update c.prog i p } := by
  have replaced : ∀ j, m.Due (goal j) (own holds j) (c.prog j) →
      m.Due (goal j) (own holds j) (update c.prog i p j) := by
    intro j before
    by_cases same : j = i
    · subst same
      rw [Function.update_self]
      exact due
    · rw [Function.update_of_ne same]
      exact before
  cases orderly with
  | free free always inv before => exact .free free always inv fun j => replaced j (before j)
  | @held h _ _ _ _ held always left releases inner ends after others =>
      have ne : h ≠ i := fun same => without (same ▸ held)
      have kept : update c.prog i p h = c.prog h := Function.update_of_ne ne p c.prog
      exact .held held always (kept.trans left) releases inner ends after fun j ne =>
        replaced j (others j ne)

/-- The lock is taken for a section. -/
theorem Orderly.take {put w' : List φ} {β : Type} {unlock : ε} {body : Prog σ ε β}
    {f : β → Prog σ ε α} (always : m.always c.state)
    (inv : m.inv (holds.flatMap Prod.snd) c.state)
    (due : ∀ j, m.Due (goal j) (own holds j) (c.prog j))
    (fits : (own holds i ++ (put ++ w')).Sublist (goal i)) (releases : m.use unlock = .release)
    (inside : m.Section put body) (rest : ∀ b, m.Passes w' (f b)) :
    m.Orderly goal (holds ++ [(i, put)])
      ⟨update c.prog i (body >>= fun b => Prog.emit unlock >>= fun _ => f b), some i, c.state⟩ := by
  have total : (holds ++ [(i, put)]).flatMap Prod.snd = holds.flatMap Prod.snd ++ put := by simp
  refine .held rfl always (Function.update_self _ _ _) releases inside.inner ?_ ?_ ?_
  · rw [total]
    exact inside.ends _ _ always inv
  · intro b
    rw [own_snoc_self]
    exact ⟨w', rest b, by rwa [List.append_assoc]⟩
  · intro j ne
    rw [own_snoc_of_ne ne]
    dsimp only
    rw [Function.update_of_ne ne]
    exact due j

/-- The holder of the lock goes on with its section, or gives the lock back. -/
theorem Orderly.step_holder {h : ι} {β : Type} {unlock : ε} {q : Prog σ ε β} {f : β → Prog σ ε α}
    (held : c.holder = some h) (always : m.always c.state)
    (left : c.prog h = (q >>= fun b => Prog.emit unlock >>= fun _ => f b))
    (releases : m.use unlock = .release) (inner : Takes m.Inner q)
    (ends : m.Ends q c.state (holds.flatMap Prod.snd))
    (after : ∀ b, m.Due (goal h) (own holds h) (f b))
    (others : ∀ i, i ≠ h → m.Due (goal i) (own holds i) (c.prog i)) (step : Step m.use c h l c') :
    m.use l ≠ .acquire ∧ m.Orderly goal holds c' := by
  cases q with
  | ret b =>
      obtain ⟨rfl, effect⟩ := step.effect_of_next left
      refine ⟨by simp [releases], .free (effect.release releases) ?_ ?_ ?_⟩
      · rw [effect.state]
        exact always
      · rw [effect.state]
        exact ends _ _ _ (.ret .refl)
      · intro j
        rw [effect.prog]
        by_cases same : j = h
        · subst same
          rw [Function.update_self]
          exact after b
        · rw [Function.update_of_ne same]
          exact others j same
  | act l' u k =>
      obtain ⟨rfl, effect⟩ := step.effect_of_next left
      obtain ⟨⟨steady, keeps⟩, rest⟩ := inner
      refine ⟨steady.ne_acquire, .held (q := k c.state) ?_ ?_ ?_ releases (rest _) ?_ after ?_⟩
      · rw [effect.other steady.ne_acquire steady.ne_release]
        exact held
      · rw [effect.state]
        exact keeps _ always
      · rw [effect.prog, Function.update_self]
        rfl
      · rw [effect.state]
        exact fun _ _ _ run => ends _ _ _ (.act .refl run)
      · intro j ne
        rw [effect.prog, Function.update_of_ne ne]
        exact others j ne
  | diverge =>
      obtain ⟨u, k, next, -⟩ := step.effect
      cases left.symm.trans next

/-- **Step.** Whatever thread goes on. -/
theorem Orderly.step (orderly : m.Orderly goal holds c) (step : Step m.use c i l c') :
    ∃ holds', holds'.map Prod.fst = holds.map Prod.fst ++ acquires m.use [(i, l)] ∧
      m.Orderly goal holds' c' := by
  by_cases holder : c.holder = some i
  · cases orderly with
    | free free _ _ _ => cases free.symm.trans holder
    | held held always left releases inner ends after others =>
        cases Option.some.inj (held.symm.trans holder)
        obtain ⟨notAcquire, orderly⟩ :=
          step_holder held always left releases inner ends after others step
        exact ⟨holds, by rw [acquires_other notAcquire, List.append_nil], orderly⟩
  · obtain ⟨u, k, next, effect⟩ := step.effect
    have always : m.always c.state := by
      cases orderly with
      | free _ always _ _ => exact always
      | held _ always _ _ _ _ _ _ => exact always
    have due : m.Due (goal i) (own holds i) (c.prog i) := by
      cases orderly with
      | free _ _ _ due => exact due i
      | held held _ _ _ _ _ _ others => exact others i fun same => holder (same ▸ held)
    obtain ⟨w, passes, fits⟩ := due
    obtain ⟨prog, holder', state⟩ := c'
    cases effect.prog
    cases effect.state
    rcases passes.next next with
      ⟨steady, moves, rest⟩ | ⟨put, w', β, unlock, body, f, part, acquired, rfl, same, releases,
        inside, rest⟩
    · refine ⟨holds, by rw [acquires_other steady.ne_acquire, List.append_nil], ?_⟩
      cases effect.other steady.ne_acquire steady.ne_release
      exact (orderly.goes_on holder ⟨w, rest _ always, fits⟩).moves (moves _ always)
    · obtain ⟨free, taken⟩ := effect.acquire acquired
      cases taken
      refine ⟨holds ++ [(i, put)], by rw [acquires_lock acquired, List.map_append]; rfl, ?_⟩
      cases orderly with
      | free _ _ inv due =>
          rw [same]
          exact take always inv due (((List.Sublist.refl _).append part).trans fits) releases
            inside rest
      | held held _ _ _ _ _ _ _ => cases free.symm.trans held

end Threads

end Resource

section Runs

variable [DecidableEq ι] {m : Resource σ ε φ} {rely : σ → σ → Prop} {progs₀ : ι → Prog σ ε α}
  {s₀ : σ} {tr : List (ι × ε)} {c : Config ι σ ε α} {goal : ι → List φ}

/-- **Run.** -/
theorem Interleaving.orderly (moves : ∀ s s', rely s s' → ReflTransGen m.rely s s')
    (always : m.always s₀) (inv : m.inv [] s₀) (passes : ∀ i, m.Passes (goal i) (progs₀ i))
    (run : Interleaving m.use rely ⟨progs₀, none, s₀⟩ tr c) :
    ∃ holds, holds.map Prod.fst = acquires m.use tr ∧ m.Orderly goal holds c := by
  induction run with
  | start =>
      refine ⟨[], rfl, .free rfl always inv fun i => ⟨goal i, passes i, ?_⟩⟩
      exact .refl _
  | env _ move ih =>
      obtain ⟨holds, order, orderly⟩ := ih
      exact ⟨holds, order, orderly.moves (moves _ _ move)⟩
  | step _ step ih =>
      obtain ⟨holds, order, orderly⟩ := ih
      obtain ⟨holds', order', orderly⟩ := orderly.step step
      exact ⟨holds', by rw [order', order, acquires_append], orderly⟩

/-- **The lock protects the resource.** -/
theorem Interleaving.protected (moves : ∀ s s', rely s s' → ReflTransGen m.rely s s')
    (always : m.always s₀) (inv : m.inv [] s₀) (passes : ∀ i, m.Passes (goal i) (progs₀ i))
    (run : Interleaving m.use rely ⟨progs₀, none, s₀⟩ tr c) (free : c.holder = none) :
    ∃ holds, holds.map Prod.fst = acquires m.use tr ∧
      (∀ i, (Resource.own holds i).Sublist (goal i)) ∧
      m.inv (holds.flatMap Prod.snd) c.state := by
  obtain ⟨holds, order, orderly⟩ := run.orderly moves always inv passes
  cases orderly with
  | free _ _ inv due =>
      refine ⟨holds, order, fun i => ?_, inv⟩
      obtain ⟨w, -, fits⟩ := due i
      exact (List.sublist_append_left _ w).trans fits
  | held held _ _ _ _ _ _ _ => cases free.symm.trans held

end Runs

end XpNet.Interference
