import RsRun.Lib.Async
import RsRun.Lib.Lists
import RsRun.Lib.Lts

/-!
# A pool of spawned futures

What a runtime does with the futures it was given, as far as they can tell: a task is
polled when it is in the run queue and not otherwise, a waker puts its task there, and a
timer that has elapsed calls the waker of the last poll it answered `pending` to. The
runtime reads what a poll did off the poll's actions, and refuses answers it cannot have
given: a timer is not ready before its time, and not pending after it has fired.

Futures are made by `make` out of what `spawn` is given, and `cx` finds the context in the
input of a poll. Nothing else is assumed of them.
-/

namespace Async

variable {ψ σ ι φ ω ν χ : Type*}

/-- What became of a spawned future. -/
inductive Fate (ν : Type*) where
  | live
  | answered (v : ν)
  | panicked
  | aborted
deriving DecidableEq, Repr

/-- What a poll makes of the future it was a poll of. -/
def Outcome.fate : Outcome ν → Fate ν
  | .ready v => .answered v
  | .pending => .live
  | .panicked _ => .panicked

/-- A timer, as the runtime knows it. -/
structure Timer where
  deadline : Nat
  /-- Whom it wakes. -/
  waker : Option Waker
  /-- Has it done so? -/
  fired : Bool
deriving DecidableEq, Repr

/-- Can the timer give this answer at `now`? -/
def Timer.permits (tm : Timer) (now : Nat) : Poll Unit → Bool
  | .ready () => decide (tm.deadline ≤ now)
  | .pending => !tm.fired

/-- A spawned future, and what the runtime keeps about it. -/
structure Task (σ ν : Type*) where
  wrapper : σ
  fate : Fate ν
  /-- Is it in the run queue? -/
  queued : Bool
  /-- The timer it holds. -/
  timer : Option Timer
  /-- The waker that the future inside has kept. -/
  kept : Option Waker

/-- A task that has just been spawned. -/
def Task.new (s : σ) : Task σ ν :=
  { wrapper := s, fate := .live, queued := true, timer := none, kept := none }

/-- Is it still to be polled? -/
def Task.isLive (t : Task σ ν) : Bool :=
  match t.fate with
  | .live => true
  | _ => false

/-- The task of a waker that was called. -/
def Task.wake (t : Task σ ν) : Task σ ν := { t with queued := true }

/-- The task once it has been taken out of the queue and polled. -/
def Task.polled (t : Task σ ν) (o : Polled σ ω ν χ) : Task σ ν :=
  { t with wrapper := o.next, fate := o.res.fate, queued := false }

/--
What the actions of a poll that began at `now` mean for the runtime; `none` where it did
not answer like that. Between the creation of a timer and its first poll `lag` passes.
-/
def Task.follow (lag : Nat) : Nat → Task σ ν → List (Act ω ν χ) → Option (Task σ ν)
  | _, t, [] => some t
  | now, t, .sleepInserted d :: as =>
      follow lag (now + lag)
        { t with timer := some { deadline := now + d, waker := none, fired := false } } as
  | now, t, .sleepPolled w answer :: as =>
      match t.timer with
      | none => none
      | some tm =>
          if tm.permits now answer then
            match answer with
            | .ready () => follow lag now { t with timer := none } as
            | .pending => follow lag now { t with timer := some { tm with waker := some w } } as
          else none
  | now, t, .innerPolled cx .pending :: as => follow lag now { t with kept := some cx.waker } as
  | now, t, .innerPolled _ (.ready _) :: as => follow lag now t as
  | now, t, .woke _ :: as => follow lag now t as
  | now, t, .own _ :: as => follow lag now t as

/-- The wakers that were called. -/
def wakers (as : List (Act ω ν χ)) : List Waker :=
  as.filterMap (fun a => match a with
    | .woke w => some w
    | _ => none)

/-- All spawned futures, and the clock. -/
structure Pool (σ ν : Type*) where
  tasks : List (Task σ ν)
  now : Nat

/-- A waker is called. -/
def Pool.wake (p : Pool σ ν) (w : Waker) : Pool σ ν :=
  { p with tasks := p.tasks.modify w Task.wake }

/-- Wakers are called, one after the other. -/
def Pool.wakeAll (p : Pool σ ν) (ws : List Waker) : Pool σ ν := ws.foldl Pool.wake p

/-- A task is replaced. -/
def Pool.put (p : Pool σ ν) (k : Nat) (t : Task σ ν) : Pool σ ν :=
  { p with tasks := p.tasks.set k t }

/-- What can happen. -/
inductive PoolAction (ψ ι : Type*) where
  | spawn (x : ψ)
  /-- Task `k` is polled, which takes `lag`. -/
  | poll (k : Nat) (i : ι) (lag : Nat)
  /-- Whoever has the waker that the future inside task `k` kept calls it. -/
  | wake (k : Nat)
  /-- The timer of task `k` elapses. -/
  | fire (k : Nat)
  | tick (n : Nat)
  /-- Task `k` is aborted. -/
  | abort (k : Nat)

/-- What an observer sees. -/
inductive PoolEvent (ψ σ ι ω ν χ : Type*) where
  | spawned (x : ψ)
  | polled (k : Nat) (turn : Turn σ ι ω ν χ)
  | woke (k : Nat)
  | aborted (k : Nat)

/-- One step. -/
def poolStep (make : ψ → σ) (cx : ι → Cx ω) (poll : σ → ι → Polled σ ω ν χ) (p : Pool σ ν) :
    PoolAction ψ ι → Option (Pool σ ν × List (PoolEvent ψ σ ι ω ν χ))
  | .spawn x => some ({ p with tasks := p.tasks ++ [Task.new (make x)] }, [.spawned x])
  | .poll k i lag =>
      match p.tasks[k]? with
      | none => none
      | some t =>
          if t.isLive ∧ t.queued ∧ (cx i).waker = k then
            match (t.polled (poll t.wrapper i)).follow lag p.now (poll t.wrapper i).acts with
            | none => none
            | some t' =>
                some (({ p with now := p.now + lag }.put k t').wakeAll
                    (wakers (poll t.wrapper i).acts),
                  [.polled k ⟨t.wrapper, i, poll t.wrapper i⟩])
          else none
  | .wake k =>
      match p.tasks[k]? with
      | none => none
      | some t =>
          match t.kept with
          | none => none
          | some w => if t.isLive then some (p.wake w, [.woke k]) else none
  | .fire k =>
      match p.tasks[k]? with
      | none => none
      | some t =>
          match t.timer with
          | none => none
          | some tm =>
              if t.isLive ∧ tm.fired = false ∧ tm.deadline ≤ p.now then
                some ((p.put k { t with timer := some { tm with fired := true } }).wakeAll
                  tm.waker.toList, [])
              else none
  | .tick n => some ({ p with now := p.now + n }, [])
  | .abort k =>
      match p.tasks[k]? with
      | none => none
      | some t =>
          if t.isLive then some (p.put k { t with fate := .aborted }, [.aborted k]) else none

/-- A runtime that has been given nothing yet. -/
def pool (make : ψ → σ) (cx : ι → Cx ω) (poll : σ → ι → Polled σ ω ν χ) :
    Lts (Pool σ ν) (PoolAction ψ ι) (PoolEvent ψ σ ι ω ν χ) where
  init := { tasks := [], now := 0 }
  step := poolStep make cx poll

/-- The future inside, spawned as it is. -/
def barePoll (pollF : φ → Cx ω → φ × Poll ν) (f : φ) (cx : Cx ω) : Polled φ ω ν χ :=
  ⟨(pollF f cx).1, (pollF f cx).2.outcome, [.innerPolled cx (pollF f cx).2]⟩

/-! ## What a step is -/

@[simp] theorem Task.isLive_iff (t : Task σ ν) : t.isLive = true ↔ t.fate = .live := by
  unfold Task.isLive
  cases t.fate <;> simp

@[simp] theorem Pool.wakeAll_nil (p : Pool σ ν) : p.wakeAll [] = p := rfl

@[simp] theorem Pool.wakeAll_singleton (p : Pool σ ν) (w : Waker) : p.wakeAll [w] = p.wake w := rfl

@[simp] theorem Pool.wake_now (p : Pool σ ν) (w : Waker) : (p.wake w).now = p.now := rfl

@[simp] theorem Pool.put_now (p : Pool σ ν) (k : Nat) (t : Task σ ν) : (p.put k t).now = p.now := rfl

@[simp] theorem Pool.put_put (p : Pool σ ν) (k : Nat) (t u : Task σ ν) :
    (p.put k t).put k u = p.put k u := by
  unfold Pool.put
  dsimp only
  rw [List.set_set]

/-- The same, as time goes by. -/
theorem Pool.put_at (p : Pool σ ν) (m n k : Nat) (t u : Task σ ν) :
    { { p with now := m }.put k t with now := n }.put k u = { p with now := n }.put k u := by
  unfold Pool.put
  dsimp only
  rw [List.set_set]

theorem Pool.put_self {p : Pool σ ν} {k : Nat} (hk : k < p.tasks.length) (t : Task σ ν) :
    (p.put k t).tasks[k]? = some t := List.getElem?_set_self hk

/-- A waker that is called is its task, put back awake. -/
theorem Pool.wake_eq_put {p : Pool σ ν} {k : Nat} {t : Task σ ν} (h : p.tasks[k]? = some t) :
    p.wake k = p.put k t.wake := by
  unfold Pool.wake Pool.put
  rw [List.modify_eq_set_getElem?, h]
  rfl

/-- Waking the task that was just put in place. -/
theorem Pool.put_wake {p : Pool σ ν} {k : Nat} (hk : k < p.tasks.length) (t : Task σ ν) :
    (p.put k t).wake k = p.put k t.wake := by
  rw [Pool.wake_eq_put (Pool.put_self hk t), Pool.put_put]

/-- What can happen in one step, and under which conditions. -/
inductive PoolStep (make : ψ → σ) (cx : ι → Cx ω) (poll : σ → ι → Polled σ ω ν χ)
    (p : Pool σ ν) :
    PoolAction ψ ι → Pool σ ν → List (PoolEvent ψ σ ι ω ν χ) → Prop where
  | spawned (x : ψ) :
      PoolStep make cx poll p (.spawn x) { p with tasks := p.tasks ++ [Task.new (make x)] }
        [.spawned x]
  | polled {k : Nat} {i : ι} {lag : Nat} {t t' : Task σ ν} (ht : p.tasks[k]? = some t)
      (hlive : t.fate = .live) (hq : t.queued = true) (hw : (cx i).waker = k)
      (hf : (t.polled (poll t.wrapper i)).follow lag p.now (poll t.wrapper i).acts = some t') :
      PoolStep make cx poll p (.poll k i lag)
        (({ p with now := p.now + lag }.put k t').wakeAll (wakers (poll t.wrapper i).acts))
        [.polled k ⟨t.wrapper, i, poll t.wrapper i⟩]
  | woke {k : Nat} {t : Task σ ν} {w : Waker} (ht : p.tasks[k]? = some t) (hlive : t.fate = .live)
      (hk : t.kept = some w) : PoolStep make cx poll p (.wake k) (p.wake w) [.woke k]
  | fired {k : Nat} {t : Task σ ν} {tm : Timer} (ht : p.tasks[k]? = some t)
      (hlive : t.fate = .live) (htm : t.timer = some tm) (hf : tm.fired = false)
      (hd : tm.deadline ≤ p.now) :
      PoolStep make cx poll p (.fire k)
        ((p.put k { t with timer := some { tm with fired := true } }).wakeAll tm.waker.toList) []
  | ticked (n : Nat) : PoolStep make cx poll p (.tick n) { p with now := p.now + n } []
  | aborted {k : Nat} {t : Task σ ν} (ht : p.tasks[k]? = some t) (hlive : t.fate = .live) :
      PoolStep make cx poll p (.abort k) (p.put k { t with fate := .aborted }) [.aborted k]

section
variable {make : ψ → σ} {cx : ι → Cx ω} {poll : σ → ι → Polled σ ω ν χ} {p p' : Pool σ ν}
  {a : PoolAction ψ ι} {es : List (PoolEvent ψ σ ι ω ν χ)}

/-- **The inversion lemma.** -/
theorem pool_step (h : (pool make cx poll).step p a = some (p', es)) :
    PoolStep make cx poll p a p' es := by
  change poolStep make cx poll p a = some (p', es) at h
  unfold poolStep at h
  cases a with
  | spawn x =>
      injection h with h; injection h with h1 h2
      subst h1; subst h2
      exact .spawned x
  | poll k i lag =>
      dsimp only at h
      split at h
      · exact absurd h (by simp)
      · rename_i t ht
        split at h
        · rename_i hc
          split at h
          · exact absurd h (by simp)
          · rename_i t' hf
            injection h with h; injection h with h1 h2
            subst h1; subst h2
            exact .polled ht (t.isLive_iff.mp hc.1) hc.2.1 hc.2.2 hf
        · exact absurd h (by simp)
  | wake k =>
      dsimp only at h
      split at h
      · exact absurd h (by simp)
      · rename_i t ht
        split at h
        · exact absurd h (by simp)
        · rename_i w hk
          split at h
          · rename_i hc
            injection h with h; injection h with h1 h2
            subst h1; subst h2
            exact .woke ht (t.isLive_iff.mp hc) hk
          · exact absurd h (by simp)
  | fire k =>
      dsimp only at h
      split at h
      · exact absurd h (by simp)
      · rename_i t ht
        split at h
        · exact absurd h (by simp)
        · rename_i tm htm
          split at h
          · rename_i hc
            injection h with h; injection h with h1 h2
            subst h1; subst h2
            exact .fired ht (t.isLive_iff.mp hc.1) htm hc.2.1 hc.2.2
          · exact absurd h (by simp)
  | tick n =>
      injection h with h; injection h with h1 h2
      subst h1; subst h2
      exact .ticked n
  | abort k =>
      dsimp only at h
      split at h
      · exact absurd h (by simp)
      · rename_i t ht
        split at h
        · rename_i hc
          injection h with h; injection h with h1 h2
          subst h1; subst h2
          exact .aborted ht (t.isLive_iff.mp hc)
        · exact absurd h (by simp)

/-- What meets the conditions is a step. -/
theorem PoolStep.enabled (h : PoolStep make cx poll p a p' es) :
    (pool make cx poll).step p a = some (p', es) := by
  change poolStep make cx poll p a = some (p', es)
  unfold poolStep
  cases h with
  | spawned x => rfl
  | polled ht hlive hq hw hf =>
      dsimp only
      rw [ht]
      dsimp only
      rw [if_pos ⟨(Task.isLive_iff _).mpr hlive, hq, hw⟩, hf]
  | woke ht hlive hk =>
      dsimp only
      rw [ht]
      dsimp only
      rw [hk]
      dsimp only
      rw [if_pos ((Task.isLive_iff _).mpr hlive)]
  | fired ht hlive htm hf hd =>
      dsimp only
      rw [ht]
      dsimp only
      rw [htm]
      dsimp only
      rw [if_pos ⟨(Task.isLive_iff _).mpr hlive, hf, hd⟩]
  | ticked n => rfl
  | aborted ht hlive =>
      dsimp only
      rw [ht]
      dsimp only
      rw [if_pos ((Task.isLive_iff _).mpr hlive)]

/-! ## Enabled steps -/

theorem pool_spawn (make : ψ → σ) (cx : ι → Cx ω) (poll : σ → ι → Polled σ ω ν χ)
    (p : Pool σ ν) (x : ψ) : (pool make cx poll).step p (.spawn x)
      = some ({ p with tasks := p.tasks ++ [Task.new (make x)] }, [.spawned x]) := rfl

theorem pool_tick (make : ψ → σ) (cx : ι → Cx ω) (poll : σ → ι → Polled σ ω ν χ)
    (p : Pool σ ν) (n : Nat) : (pool make cx poll).step p (.tick n)
      = some ({ p with now := p.now + n }, []) := rfl

/-- The future inside task `k` calls its waker. -/
theorem pool_wake (make : ψ → σ) (cx : ι → Cx ω) (poll : σ → ι → Polled σ ω ν χ) {k : Nat}
    {t : Task σ ν} (ht : p.tasks[k]? = some t) (hlive : t.fate = .live) (hk : t.kept = some k) :
    (pool make cx poll).step p (.wake k) = some (p.put k t.wake, [.woke k]) := by
  rw [← Pool.wake_eq_put ht]
  exact (PoolStep.woke ht hlive hk).enabled

/-- The timer of task `k` elapses. -/
theorem pool_fire (make : ψ → σ) (cx : ι → Cx ω) (poll : σ → ι → Polled σ ω ν χ) {k : Nat}
    {t : Task σ ν} {tm : Timer} (ht : p.tasks[k]? = some t) (hlive : t.fate = .live)
    (htm : t.timer = some tm) (hf : tm.fired = false) (hd : tm.deadline ≤ p.now)
    (hw : tm.waker = some k) :
    (pool make cx poll).step p (.fire k)
      = some (p.put k { t with timer := some { tm with fired := true }, queued := true }, []) := by
  have hstep := (@PoolStep.fired _ _ _ _ _ _ make cx poll p k t tm ht hlive htm hf hd).enabled
  have hwk : tm.waker.toList = [k] := by
    rw [hw]
    rfl
  rw [hwk, Pool.wakeAll_singleton, Pool.put_wake (List.getElem?_eq_some_iff.mp ht).1] at hstep
  exact hstep

/-- Task `k` is aborted. -/
theorem pool_abort (make : ψ → σ) (cx : ι → Cx ω) (poll : σ → ι → Polled σ ω ν χ) {k : Nat}
    {t : Task σ ν} (ht : p.tasks[k]? = some t) (hlive : t.fate = .live) :
    (pool make cx poll).step p (.abort k)
      = some (p.put k { t with fate := .aborted }, [.aborted k]) :=
  (PoolStep.aborted ht hlive).enabled

/-- Task `k` is polled, and nobody else is woken. -/
theorem pool_poll (make : ψ → σ) (cx : ι → Cx ω) (poll : σ → ι → Polled σ ω ν χ) {k lag : Nat}
    {i : ι} {t t' : Task σ ν} (ht : p.tasks[k]? = some t) (hlive : t.fate = .live)
    (hq : t.queued = true) (hw : (cx i).waker = k)
    (hf : (t.polled (poll t.wrapper i)).follow lag p.now (poll t.wrapper i).acts = some t')
    (hwk : wakers (poll t.wrapper i).acts = []) :
    (pool make cx poll).step p (.poll k i lag)
      = some ({ p with now := p.now + lag }.put k t',
        [.polled k ⟨t.wrapper, i, poll t.wrapper i⟩]) := by
  have hstep := (@PoolStep.polled _ _ _ _ _ _ make _ _ _ _ _ _ _ _ ht hlive hq hw hf).enabled
  rw [hwk, Pool.wakeAll_nil] at hstep
  exact hstep

/-! ## What holds of every wrapper -/

/-- Following a poll touches neither the wrapper nor what became of it. -/
theorem Task.follow_keeps {lag : Nat} (as : List (Act ω ν χ)) : ∀ {now : Nat} {t t' : Task σ ν},
    t.follow lag now as = some t' → t'.wrapper = t.wrapper ∧ t'.fate = t.fate := by
  induction as with
  | nil =>
      intro now t t' h
      injection h with h
      rw [h]
      exact ⟨rfl, rfl⟩
  | cons a as ih =>
      intro now t t' h
      cases a with
      | sleepInserted d => exact ih (t := { t with timer := some _ }) h
      | sleepPolled w answer =>
          rw [Task.follow] at h
          split at h
          · exact absurd h (by simp)
          · rename_i tm _
            split at h
            · cases answer with
              | ready u => exact ih (t := { t with timer := none }) h
              | pending => exact ih (t := { t with timer := some _ }) h
            · exact absurd h (by simp)
      | innerPolled c answer =>
          cases answer with
          | ready v => exact ih h
          | pending => exact ih (t := { t with kept := some c.waker }) h
      | woke w => exact ih h
      | own x => exact ih h

/-- Calling wakers does not touch them either. -/
theorem Pool.wakeAll_wrapper (ws : List Waker) : ∀ {p : Pool σ ν} {k : Nat} {t' : Task σ ν},
    (p.wakeAll ws).tasks[k]? = some t' → ∃ t, p.tasks[k]? = some t ∧ t'.wrapper = t.wrapper := by
  induction ws with
  | nil => exact fun {p k t'} h => ⟨t', h, rfl⟩
  | cons w ws ih =>
      intro p k t' h
      obtain ⟨t₁, h₁, hw₁⟩ := ih (p := p.wake w) h
      obtain ⟨t, ht, hcase⟩ := Lists.getElem?_modify_cases h₁
      refine ⟨t, ht, ?_⟩
      rcases hcase with ⟨_, heq⟩ | ⟨_, heq⟩
      · rw [hw₁, heq]
        rfl
      · rw [hw₁, heq]

/-- **What a wrapper is made with, and its polls keep, holds of every wrapper in the pool.** -/
theorem pool_wrappers {I : σ → Prop} (hmake : ∀ x, I (make x))
    (hpoll : ∀ s i, I s → I (poll s i).next) (h : (pool make cx poll).Reachable p) :
    ∀ (k : Nat) (t : Task σ ν), p.tasks[k]? = some t → I t.wrapper := by
  refine Lts.Reachable.inv (P := fun q => ∀ (k : Nat) (t : Task σ ν),
    q.tasks[k]? = some t → I t.wrapper) ?_ ?_ h
  · intro k t ht
    exact absurd ht (by simp [pool])
  · intro q b q' us _ hinv hs j u hu
    have hput : ∀ {k : Nat} {t u : Task σ ν}, I t.wrapper →
        (q.put k t).tasks[j]? = some u → I u.wrapper := by
      intro k t u hI hu
      rcases Lists.getElem?_set_cases hu with ⟨_, hu⟩ | ⟨_, hu⟩
      · rw [hu]
        exact hI
      · exact hinv j u hu
    cases pool_step hs with
    | spawned x =>
        rcases Lists.getElem?_snoc_cases hu with hu | ⟨_, hu⟩
        · exact hinv j u hu
        · rw [hu]
          exact hmake x
    | polled ht hlive hq hw hf =>
        obtain ⟨t₁, ht₁, hw₁⟩ := Pool.wakeAll_wrapper _ hu
        rw [hw₁]
        refine hput ?_ ht₁
        rw [(Task.follow_keeps _ hf).1]
        exact hpoll _ _ (hinv _ _ ht)
    | woke ht hlive hk =>
        obtain ⟨t₁, ht₁, hw₁⟩ := Pool.wakeAll_wrapper [_] hu
        rw [hw₁]
        exact hinv j t₁ ht₁
    | @fired k t tm ht hlive htm hf hd =>
        obtain ⟨t₁, ht₁, hw₁⟩ := Pool.wakeAll_wrapper _ hu
        rw [hw₁]
        exact hput (t := { t with timer := some { tm with fired := true } }) (hinv k t ht) ht₁
    | ticked n => exact hinv j u hu
    | @aborted k t ht hlive => exact hput (t := { t with fate := .aborted }) (hinv k t ht) hu

end

end Async
