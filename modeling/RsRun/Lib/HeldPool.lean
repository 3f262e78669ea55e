import RsRun.Lib.Held
import RsRun.Lib.Lists
import RsRun.Lib.Polls
import RsRun.Lib.Pool

/-!
# Throttling wrappers in a pool

What a poll of a throttling wrapper does to its task, and what that keeps: the runtime
holds a timer for a task exactly when the wrapper has stored one, all wakers are those of
the task itself, and a task that is not in the run queue waits for something that will put
it there.
-/

namespace Async

variable {ψ σ ι φ ω ν χ : Type*}

/-! ## What the runtime makes of the actions -/

theorem Task.follow_own (lag now : Nat) (t : Task σ ν) (xs : List χ) (as : List (Act ω ν χ)) :
    t.follow lag now (xs.map .own ++ as) = t.follow lag now as := by
  induction xs with
  | nil => rfl
  | cons x xs ih => exact ih

/-- The timer of a task, if there is one, has elapsed by `now`. -/
def Task.elapsed (t : Task σ ν) (now : Nat) : Prop := ∀ tm, t.timer = some tm → tm.deadline ≤ now

theorem Task.follow_head {w : Waker} {st : Option Sleep} {pre : List (Act ω ν χ)}
    (h : Head w st pre) {lag now : Nat} {t : Task σ ν} (ht : st.isSome = t.timer.isSome)
    (he : t.elapsed now) (as : List (Act ω ν χ)) :
    t.follow lag now (pre ++ as) = Task.follow lag now { t with timer := none } as := by
  cases h with
  | clear =>
      have hn : t.timer = none := by
        rw [← Option.not_isSome_iff_eq_none, ← ht]
        simp
      rw [List.nil_append, ← hn]
  | elapsed sl =>
      obtain ⟨tm, htm⟩ := Option.isSome_iff_exists.mp (ht.symm.trans rfl)
      have hd := he tm htm
      rw [List.singleton_append, Task.follow, htm]
      dsimp only
      rw [if_pos (by simp [Timer.permits, hd])]

theorem Task.elapsed_of_follow {w : Waker} {st : Option Sleep} {pre : List (Act ω ν χ)}
    (h : Head w st pre) {lag now : Nat} {t t' : Task σ ν} (ht : st.isSome = t.timer.isSome)
    {as : List (Act ω ν χ)} (hf : t.follow lag now (pre ++ as) = some t') : t.elapsed now := by
  intro tm htm
  cases h with
  | clear =>
      rw [htm] at ht
      exact absurd ht (by simp)
  | elapsed sl =>
      rw [List.singleton_append, Task.follow, htm] at hf
      dsimp only at hf
      split at hf
      · rename_i hp
        simpa [Timer.permits] using hp
      · exact absurd hf (by simp)

@[simp] theorem wakers_nil : wakers ([] : List (Act ω ν χ)) = [] := rfl

theorem wakers_append (as bs : List (Act ω ν χ)) : wakers (as ++ bs) = wakers as ++ wakers bs :=
  List.filterMap_append

theorem wakers_own (xs : List χ) : wakers (xs.map (Act.own : χ → Act ω ν χ)) = [] := by
  induction xs with
  | nil => rfl
  | cons x xs ih => exact ih

theorem insertions_own (xs : List χ) : insertions (xs.map (Act.own : χ → Act ω ν χ)) = [] := by
  induction xs with
  | nil => rfl
  | cons x xs ih => exact ih

/-- Getting past a stored timer, and noting things down, polls, inserts and wakes nothing. -/
theorem Head.quiet {w : Waker} {st : Option Sleep} {pre : List (Act ω ν χ)} (h : Head w st pre)
    (xs : List χ) (as : List (Act ω ν χ)) :
    innerPolls (pre ++ (xs.map .own ++ as)) = innerPolls as
      ∧ insertions (pre ++ (xs.map .own ++ as)) = insertions as
      ∧ wakers (pre ++ (xs.map .own ++ as)) = wakers as := by
  have hpre : innerPolls pre = [] ∧ insertions pre = [] ∧ wakers pre = [] := by
    cases h <;> exact ⟨rfl, rfl, rfl⟩
  obtain ⟨h1, h2, h3⟩ := hpre
  refine ⟨?_, ?_, ?_⟩
  · rw [innerPolls_append, innerPolls_append, h1, innerPolls_own_map]
    rfl
  · rw [insertions_append, insertions_append, h2, insertions_own]
    rfl
  · rw [wakers_append, wakers_append, h3, wakers_own]
    rfl

/-- The runtime goes past both. -/
theorem Task.follow_past {w : Waker} {st : Option Sleep} {pre : List (Act ω ν χ)}
    (h : Head w st pre) {now : Nat} {t : Task σ ν} (ht : st.isSome = t.timer.isSome)
    (he : t.elapsed now) (lag : Nat) (xs : List χ) (as : List (Act ω ν χ)) :
    t.follow lag now (pre ++ (xs.map .own ++ as))
      = Task.follow lag now { t with timer := none } as := by
  rw [Task.follow_head h ht he, Task.follow_own]

/-- What the future inside keeps of a poll with waker `w` that it answered like this. -/
def keeps (w : Waker) (kept : Option Waker) : Poll ν → Option Waker
  | .pending => some w
  | .ready _ => kept

/--
What a poll of a throttling wrapper makes of its task, wake-ups included. `now` is when it
began, and `lag` how long it took.
-/
inductive Handled (pollF : φ → Cx ω → φ × Poll ν) (inner : σ → φ) (stored : σ → Option Sleep)
    (chk : Bool) (cx : Cx ω) (now lag : Nat) (t : Task σ ν) (o : Polled σ ω ν χ) :
    Task σ ν → Prop where
  | still (tm : Timer) (htm : t.timer = some tm) (hf : tm.fired = false)
      (hin : innerPolls o.acts = []) (hsl : insertions o.acts = [])
      (hs : (stored o.next).isSome) (hi : inner o.next = inner t.wrapper) :
      Handled pollF inner stored chk cx now lag t o
        { t with wrapper := o.next, queued := false,
                 timer := some { tm with waker := some cx.waker } }
  | inserted (d : Nat) (he : t.elapsed now)
      (hin : innerPolls o.acts = []) (hsl : insertions o.acts = [d])
      (hs : (stored o.next).isSome) (hi : inner o.next = inner t.wrapper) :
      Handled pollF inner stored chk cx now lag t o
        { t with wrapper := o.next, queued := false,
                 timer := some { deadline := now + d, waker := some cx.waker, fired := false } }
  | woken (d : Nat) (he : t.elapsed now) (hlag : d ≤ lag)
      (hin : innerPolls o.acts = []) (hsl : insertions o.acts = [d])
      (hs : stored o.next = none) (hi : inner o.next = inner t.wrapper) :
      Handled pollF inner stored chk cx now lag t o
        { t with wrapper := o.next, queued := true, timer := none }
  | polled (fate : Fate ν) (he : t.elapsed now)
      (hin : innerPolls o.acts = [(cx, (pollF (inner t.wrapper) cx).2)])
      (hsl : insertions o.acts = [])
      (hfate : fate = (pollF (inner t.wrapper) cx).2.outcome.fate
        ∨ (fate = .panicked ∧ chk = true))
      (hs : stored o.next = none) (hi : inner o.next = (pollF (inner t.wrapper) cx).1) :
      Handled pollF inner stored chk cx now lag t o
        { wrapper := o.next, fate := fate, queued := false, timer := none,
          kept := keeps cx.waker t.kept (pollF (inner t.wrapper) cx).2 }
  | overflowed (he : t.elapsed now) (hin : innerPolls o.acts = []) (hsl : insertions o.acts = [])
      (hc : chk = true) :
      Handled pollF inner stored chk cx now lag t o
        { t with wrapper := o.next, fate := .panicked, queued := false, timer := none }

section
variable {pollF : φ → Cx ω → φ × Poll ν} {inner : σ → φ} {stored : σ → Option Sleep}
  {chk : Bool} {cx : Cx ω} {now lag : Nat} {t t' : Task σ ν} {o : Polled σ ω ν χ}

/-- The runtime follows a poll of a throttling wrapper, and then calls the wakers. -/
theorem Held.handled (h : Held pollF inner stored chk cx t.wrapper o)
    (ht : (stored t.wrapper).isSome = t.timer.isSome) (hlive : t.fate = .live)
    (hf : (t.polled o).follow lag now o.acts = some t') :
    (wakers o.acts = [] ∧ Handled pollF inner stored chk cx now lag t o t')
      ∨ (wakers o.acts = [cx.waker] ∧ Handled pollF inner stored chk cx now lag t o t'.wake) := by
  have htimer : (t.polled o).timer = t.timer := rfl
  cases h with
  | still sl hs ha hr hs' hi =>
      rw [hs] at ht
      obtain ⟨tm, htm⟩ := Option.isSome_iff_exists.mp (ht.symm.trans rfl)
      rw [ha, Task.follow, htimer, htm] at hf
      dsimp only at hf
      split at hf
      · rename_i hp
        have hp : tm.fired = false := by simpa [Timer.permits] using hp
        injection hf with hf
        refine .inl ⟨by rw [ha]; rfl, ?_⟩
        rw [← hf, Task.polled, hr, Outcome.fate, ← hlive]
        exact .still tm htm hp (by rw [ha]; rfl) (by rw [ha]; rfl) hs' hi
      · exact absurd hf (by simp)
  | inserted pre xs d hpre ha hr hs' hi =>
      obtain ⟨hin, hsl, hwk⟩ := hpre.quiet xs
        [.sleepInserted d, .sleepPolled cx.waker .pending]
      rw [← ha] at hin hsl hwk
      rw [ha] at hf
      have he : t.elapsed now := Task.elapsed_of_follow hpre (t := t.polled o) ht hf
      rw [Task.follow_past hpre (t := t.polled o) ht he] at hf
      injection hf with hf
      refine .inl ⟨hwk, ?_⟩
      rw [← hf, Task.polled, hr, Outcome.fate, ← hlive]
      exact .inserted d he hin hsl hs' hi
  | woken pre xs d hpre ha hr hs' hi =>
      obtain ⟨hin, hsl, hwk⟩ := hpre.quiet xs
        [.sleepInserted d, .sleepPolled cx.waker (.ready ()), .woke cx.waker]
      rw [← ha] at hin hsl hwk
      rw [ha] at hf
      have he : t.elapsed now := Task.elapsed_of_follow hpre (t := t.polled o) ht hf
      rw [Task.follow_past hpre (t := t.polled o) ht he] at hf
      dsimp only [Task.follow] at hf
      split at hf
      · rename_i hp
        have hlag : now + d ≤ now + lag := by simpa [Timer.permits] using hp
        injection hf with hf
        refine .inr ⟨hwk, ?_⟩
        rw [← hf, Task.wake, Task.polled, hr, Outcome.fate, ← hlive]
        exact .woken d he (by omega) hin hsl hs' hi
      · exact absurd hf (by simp)
  | polled pre xs ys hpre ha hr hs' hi =>
      obtain ⟨hin, hsl, hwk⟩ := hpre.quiet xs
        (.innerPolled cx (pollF (inner t.wrapper) cx).2 :: ys.map .own)
      rw [← ha] at hin hsl hwk
      rw [innerPolls_innerPolled, innerPolls_own_map] at hin
      rw [← List.singleton_append, insertions_append, insertions_own] at hsl
      rw [← List.singleton_append, wakers_append, wakers_own] at hwk
      have hfate : o.res.fate = (pollF (inner t.wrapper) cx).2.outcome.fate
          ∨ (o.res.fate = .panicked ∧ chk = true) := by
        rcases hr with hr | ⟨hr, hc⟩
        · exact .inl (by rw [hr])
        · exact .inr ⟨by rw [hr]; rfl, hc⟩
      rw [ha] at hf
      have he : t.elapsed now := Task.elapsed_of_follow hpre (t := t.polled o) ht hf
      rw [Task.follow_past hpre (t := t.polled o) ht he] at hf
      refine .inl ⟨hwk, ?_⟩
      have hpolled : Handled pollF inner stored chk cx now lag t o _ :=
        .polled o.res.fate he hin hsl hfate hs' hi
      cases hv : (pollF (inner t.wrapper) cx).2 with
      | ready v =>
          rw [hv, Task.follow, ← List.append_nil (ys.map _), Task.follow_own] at hf
          injection hf with hf
          rw [← hf]
          rw [hv] at hpolled
          exact hpolled
      | pending =>
          rw [hv, Task.follow, ← List.append_nil (ys.map _), Task.follow_own] at hf
          injection hf with hf
          rw [← hf]
          rw [hv] at hpolled
          exact hpolled
  | overflowed pre xs hpre ha hr hc =>
      obtain ⟨hin, hsl, hwk⟩ := hpre.quiet xs []
      rw [List.append_nil] at hin hsl hwk
      rw [← ha] at hin hsl hwk
      rw [ha, ← List.append_nil (xs.map _)] at hf
      have he : t.elapsed now := Task.elapsed_of_follow hpre (t := t.polled o) ht hf
      rw [Task.follow_past hpre (t := t.polled o) ht he] at hf
      injection hf with hf
      refine .inl ⟨hwk, ?_⟩
      rw [← hf, Task.polled, hr]
      exact .overflowed he hin hsl hc

end

/-! ## Steps of the pool -/

/-- What the runtime and a task `k` of a throttling wrapper agree on. -/
structure TaskOk (stored : σ → Option Sleep) (now : Nat) (k : Nat) (t : Task σ ν) : Prop where
  /-- The runtime holds a timer exactly when the wrapper has stored one. -/
  timer : t.fate = .live → (stored t.wrapper).isSome = t.timer.isSome
  /-- It wakes this task. -/
  waker : ∀ tm, t.timer = some tm → tm.waker = some k
  /-- So does the waker that the future inside has kept. -/
  kept : ∀ w, t.kept = some w → w = k
  /-- A timer that has fired has elapsed, and has put the task into the queue. -/
  fired : ∀ tm, t.timer = some tm → tm.fired = true → tm.deadline ≤ now ∧ t.queued = true
  /-- A task that is not in the queue waits for its timer, or for the future inside. -/
  waits : t.fate = .live → t.queued = true ∨ t.timer.isSome ∨ t.kept = some k

/-- All tasks are in order. -/
def PoolOk (stored : σ → Option Sleep) (p : Pool σ ν) : Prop :=
  ∀ k t, p.tasks[k]? = some t → TaskOk stored p.now k t

/-- What can happen in a pool of throttling wrappers: a step concerns one task. -/
inductive HeldStep (make : ψ → σ) (cx : ι → Cx ω) (poll : σ → ι → Polled σ ω ν χ)
    (pollF : φ → Cx ω → φ × Poll ν) (inner : σ → φ) (stored : σ → Option Sleep) (chk : Bool)
    (p : Pool σ ν) :
    PoolAction ψ ι → Pool σ ν → List (PoolEvent ψ σ ι ω ν χ) → Prop where
  | spawned (x : ψ) :
      HeldStep make cx poll pollF inner stored chk p (.spawn x)
        { p with tasks := p.tasks ++ [Task.new (make x)] } [.spawned x]
  | polled {k : Nat} {i : ι} {lag : Nat} {t t' : Task σ ν} (ht : p.tasks[k]? = some t)
      (hlive : t.fate = .live) (hq : t.queued = true) (hw : (cx i).waker = k)
      (h : Handled pollF inner stored chk (cx i) p.now lag t (poll t.wrapper i) t')
      (hfate : t'.fate = (poll t.wrapper i).res.fate) :
      HeldStep make cx poll pollF inner stored chk p (.poll k i lag)
        ({ p with now := p.now + lag }.put k t') [.polled k ⟨t.wrapper, i, poll t.wrapper i⟩]
  | woke {k : Nat} {t : Task σ ν} (ht : p.tasks[k]? = some t) (hlive : t.fate = .live)
      (hk : t.kept = some k) :
      HeldStep make cx poll pollF inner stored chk p (.wake k) (p.put k t.wake) [.woke k]
  | fired {k : Nat} {t : Task σ ν} {tm : Timer} (ht : p.tasks[k]? = some t)
      (hlive : t.fate = .live) (htm : t.timer = some tm) (hf : tm.fired = false)
      (hd : tm.deadline ≤ p.now) :
      HeldStep make cx poll pollF inner stored chk p (.fire k)
        (p.put k { t with timer := some { tm with fired := true }, queued := true }) []
  | ticked (n : Nat) :
      HeldStep make cx poll pollF inner stored chk p (.tick n) { p with now := p.now + n } []
  | aborted {k : Nat} {t : Task σ ν} (ht : p.tasks[k]? = some t) (hlive : t.fate = .live) :
      HeldStep make cx poll pollF inner stored chk p (.abort k) (p.put k { t with fate := .aborted })
        [.aborted k]

section
variable {make : ψ → σ} {cx : ι → Cx ω} {poll : σ → ι → Polled σ ω ν χ}
  {pollF : φ → Cx ω → φ × Poll ν} {inner : σ → φ} {stored : σ → Option Sleep} {chk : Bool}
  {p p' : Pool σ ν} {a : PoolAction ψ ι} {es : List (PoolEvent ψ σ ι ω ν χ)}

/-- **The inversion lemma for throttling wrappers.** -/
theorem held_step (hheld : ∀ s i, Held pollF inner stored chk (cx i) s (poll s i))
    (hok : PoolOk stored p) (h : (pool make cx poll).step p a = some (p', es)) :
    HeldStep make cx poll pollF inner stored chk p a p' es := by
  cases pool_step h with
  | spawned x => exact .spawned x
  | @polled k i lag t t' ht hlive hq hw hf =>
      have hk : k < { p with now := p.now + lag }.tasks.length :=
        (List.getElem?_eq_some_iff.mp ht).1
      rcases (hheld t.wrapper i).handled ((hok k t ht).timer hlive) hlive hf with
        ⟨hwk, hh⟩ | ⟨hwk, hh⟩
      · rw [hwk, Pool.wakeAll_nil]
        exact .polled ht hlive hq hw hh (Task.follow_keeps _ hf).2
      · rw [hwk, Pool.wakeAll_singleton, hw, Pool.put_wake hk]
        exact .polled ht hlive hq hw hh (Task.follow_keeps _ hf).2
  | @woke k t w ht hlive hk =>
      have hw := (hok k t ht).kept w hk
      subst hw
      rw [Pool.wake_eq_put ht]
      exact .woke ht hlive hk
  | @fired k t tm ht hlive htm hf hd =>
      rw [pool_fire make cx poll ht hlive htm hf hd ((hok k t ht).waker tm htm)] at h
      injection h with h; injection h with h1 h2
      rw [← h1]
      exact HeldStep.fired (t := t) ht hlive htm hf hd
  | ticked n => exact .ticked n
  | aborted ht hlive => exact .aborted ht hlive

/-- A poll leaves its task in order. -/
theorem Handled.ok {cx : Cx ω} {now lag k : Nat} {t t' : Task σ ν} {o : Polled σ ω ν χ}
    (h : Handled pollF inner stored chk cx now lag t o t') (hok : TaskOk stored now k t)
    (hw : cx.waker = k) : TaskOk stored (now + lag) k t' := by
  subst hw
  cases h with
  | still tm htm hf hin hsl hs hi =>
      refine ⟨fun _ => by rw [hs]; rfl, ?_, hok.kept, ?_, fun _ => .inr (.inl rfl)⟩
      · intro tm' htm'
        injection htm' with htm'
        rw [← htm']
      · intro tm' htm' hf'
        injection htm' with htm'
        rw [← htm', hf] at hf'
        exact absurd hf' (by simp)
  | inserted d he hin hsl hs hi =>
      refine ⟨fun _ => by rw [hs]; rfl, ?_, hok.kept, ?_, fun _ => .inr (.inl rfl)⟩
      · intro tm' htm'
        injection htm' with htm'
        rw [← htm']
      · intro tm' htm' hf'
        injection htm' with htm'
        rw [← htm'] at hf'
        exact absurd hf' (by simp)
  | woken d he hlag hin hsl hs hi =>
      exact ⟨fun _ => by rw [hs]; rfl, fun _ h => absurd h (by simp), hok.kept,
        fun _ h => absurd h (by simp), fun _ => .inl rfl⟩
  | polled fate he hin hsl hfate hs hi =>
      refine ⟨fun _ => by rw [hs]; rfl, fun _ h => absurd h (by simp), ?_,
        fun _ h => absurd h (by simp), ?_⟩
      · intro w hw
        cases hv : (pollF (inner t.wrapper) cx).2 with
        | ready v => rw [hv] at hw; exact hok.kept w hw
        | pending => rw [hv] at hw; injection hw with hw; exact hw.symm
      · intro hlive
        refine .inr (.inr ?_)
        -- a live task was answered `pending`
        cases hv : (pollF (inner t.wrapper) cx).2 with
        | ready v =>
            rw [hv] at hfate
            rcases hfate with hfate | ⟨hfate, _⟩
            · rw [hfate] at hlive; exact absurd hlive (by simp [Poll.outcome, Outcome.fate])
            · rw [hfate] at hlive; exact absurd hlive (by simp)
        | pending => rfl
  | overflowed he hin hsl hc =>
      exact ⟨fun h => absurd h (by simp), fun _ h => absurd h (by simp), hok.kept,
        fun _ h => absurd h (by simp), fun h => absurd h (by simp)⟩

/-- The tasks stay in order when one of them is put back in order. -/
theorem PoolOk.put (hok : PoolOk stored p) {now : Nat} (hnow : p.now ≤ now) {k : Nat}
    {t : Task σ ν} (ht : TaskOk stored now k t) : PoolOk stored ({ p with now := now }.put k t) := by
  intro j u hu
  rcases Lists.getElem?_set_cases hu with ⟨hj, hu⟩ | ⟨_, hu⟩
  · rw [hj, hu]
    exact ht
  · obtain ⟨h1, h2, h3, h4, h5⟩ := hok j u hu
    exact ⟨h1, h2, h3, fun tm htm hf => ⟨(h4 tm htm hf).1.trans hnow, (h4 tm htm hf).2⟩, h5⟩

/-- **Every step keeps the tasks in order.** -/
theorem HeldStep.ok (h : HeldStep make cx poll pollF inner stored chk p a p' es)
    (hmake : ∀ x, stored (make x) = none) (hok : PoolOk stored p) : PoolOk stored p' := by
  cases h with
  | spawned x =>
      intro j u hu
      rcases Lists.getElem?_snoc_cases hu with hu | ⟨hj, hu⟩
      · exact hok j u hu
      · rw [hu]
        exact ⟨fun _ => by rw [Task.new, hmake]; rfl, fun _ h => absurd h (by simp [Task.new]),
          fun _ h => absurd h (by simp [Task.new]), fun _ h => absurd h (by simp [Task.new]),
          fun _ => .inl rfl⟩
  | polled ht hlive hq hw h => exact hok.put (Nat.le_add_right _ _) (h.ok (hok _ _ ht) hw)
  | @woke k t ht hlive hk =>
      obtain ⟨h1, h2, h3, h4, h5⟩ := hok k t ht
      exact hok.put (Nat.le_refl _) ⟨h1, h2, h3, fun tm htm hf => ⟨(h4 tm htm hf).1, rfl⟩,
        fun _ => .inl rfl⟩
  | @fired k t tm ht hlive htm hf hd =>
      obtain ⟨h1, h2, h3, h4, h5⟩ := hok k t ht
      refine hok.put (Nat.le_refl _) ⟨?_, ?_, h3, ?_, fun _ => .inl rfl⟩
      · intro _
        rw [h1 hlive, htm]
        rfl
      · intro tm' htm'
        injection htm' with htm'
        rw [← htm']
        exact h2 tm htm
      · intro tm' htm' _
        injection htm' with htm'
        rw [← htm']
        exact ⟨hd, rfl⟩
  | ticked n =>
      intro j u hu
      obtain ⟨h1, h2, h3, h4, h5⟩ := hok j u hu
      exact ⟨h1, h2, h3, fun tm htm hf => ⟨(h4 tm htm hf).1.trans (Nat.le_add_right _ _),
        (h4 tm htm hf).2⟩, h5⟩
  | @aborted k t ht hlive =>
      obtain ⟨h1, h2, h3, h4, h5⟩ := hok k t ht
      exact hok.put (Nat.le_refl _) ⟨fun h => absurd h (by simp), h2, h3, h4,
        fun h => absurd h (by simp)⟩

/-- **The tasks of a pool of throttling wrappers are always in order.** -/
theorem held_reachable (hheld : ∀ s i, Held pollF inner stored chk (cx i) s (poll s i))
    (hmake : ∀ x, stored (make x) = none) (h : (pool make cx poll).Reachable p) :
    PoolOk stored p := by
  refine Lts.Reachable.inv (P := PoolOk stored) ?_ ?_ h
  · intro k t ht
    exact absurd ht (by simp [pool])
  · intro q b q' es' _ hok hs
    exact (held_step hheld hok hs).ok hmake hok

end

end Async
