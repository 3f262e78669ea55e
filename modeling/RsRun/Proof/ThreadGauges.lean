import RsRun.Proof.DeadRuntime
import RsRun.ThreadSystem

/-!
# What the thread gauges show

Each callback changes its gauge together with the phase of the thread that runs it, so a
gauge is always a count of threads, over all runtimes whose builders had that thread name.
It is no count per runtime: two runtimes with one thread name share their gauges.
-/

namespace RsRun.Proof

open ThreadSystem Gauges

/-! ## What a step does -/

/-- The turns there are, and the callback that goes with each. -/
inductive Turns : ThreadPhase → Turn → ThreadPhase → (String → Metrics → Metrics) → Prop where
  | take (job : Job) : Turns .running (.take job) (.working job) (fun _ m => m)
  | returns : Turns (.working (.steps 0)) .work .running (fun _ m => m)
  | goesOn (n : Nat) :
      Turns (.working (.steps (n + 1))) .work (.working (.steps n)) (fun _ m => m)
  | endless : Turns (.working .endless) .work (.working .endless) (fun _ m => m)
  | park : Turns .running .park .parked onThreadPark
  | unpark : Turns .parked .unpark .running onThreadUnpark
  | stop : Turns .running .stop .stopped onThreadStop

theorem turn_turns {src dst : ThreadPhase} {turn : Turn} {callback : String → Metrics → Metrics}
    (h : src.turn turn = some (dst, callback)) : Turns src turn dst callback := by
  unfold ThreadPhase.turn at h
  split at h
  case h_8 => exact absurd h (by simp)
  all_goals
    injection h with h; injection h with h1 h2
    subst h1; subst h2
    constructor

/-- Everything a step can do. -/
inductive Moved (w : ThreadSystem.World) : ThreadSystem.Action → ThreadSystem.World → Prop where
  | program {a : BlockerSystem.Action} {program : ExecutorSystem.World}
      {t : List ExecutorSystem.Event} (h : BlockerSystem.step w.program a = some (program, t)) :
      Moved w (.program a) { w with
        program := program
        pools := w.pools ++ built w.program.executors.length a }
  | start {p : Nat} {pool : Pool} (h : w.pools[p]? = some pool) (hopen : pool.isShut = false) :
      Moved w (.start p) { w with
        threads := w.threads ++ [{ pool := p, threadName := pool.threadName, phase := .running }]
        metrics := onThreadStart pool.threadName w.metrics }
  | turn {k : Nat} {turn : Turn} {thread : Thread} {dst : ThreadPhase}
      {callback : String → Metrics → Metrics} (h : w.threads[k]? = some thread)
      (hturn : Turns thread.phase turn dst callback) :
      Moved w (.turn k turn) { w with
        threads := w.threads.set k { thread with phase := dst }
        metrics := callback thread.threadName w.metrics }
  | shut {p : Nat} {pool : Pool} (h : w.pools[p]? = some pool) (hgone : w.givenUp pool = true)
      (hstopped : w.allStopped p = true) :
      Moved w (.shut p) { w with pools := w.pools.set p { pool with isShut := true } }

/-- **The inversion lemma.** -/
theorem step_moved {w w' : ThreadSystem.World} {a : ThreadSystem.Action}
    {t : List ExecutorSystem.Event} (h : ThreadSystem.step w a = some (w', t)) :
    Moved w a w' := by
  cases a with
  | program a =>
      rw [ThreadSystem.step] at h
      split at h
      · rename_i program t' hp
        injection h with h; injection h with h1 _
        subst h1
        exact .program hp
      · exact absurd h (by simp)
  | start p =>
      rw [ThreadSystem.step] at h
      split at h
      · rename_i pool hp
        split at h
        · exact absurd h (by simp)
        · rename_i hopen
          injection h with h; injection h with h1 _
          subst h1
          exact .start hp (Bool.eq_false_iff.mpr hopen)
      · exact absurd h (by simp)
  | turn k turn =>
      rw [ThreadSystem.step] at h
      split at h
      · rename_i thread hk
        split at h
        · rename_i dst callback hturn
          injection h with h; injection h with h1 _
          subst h1
          exact .turn hk (turn_turns hturn)
        · exact absurd h (by simp)
      · exact absurd h (by simp)
  | shut p =>
      rw [ThreadSystem.step] at h
      split at h
      · rename_i pool hp
        split at h
        · rename_i hdone
          rw [Bool.and_eq_true] at hdone
          injection h with h; injection h with h1 _
          subst h1
          exact .shut hp hdone.1 hdone.2
        · exact absurd h (by simp)
      · exact absurd h (by simp)

/-! ## The gauges and the threads -/

/-- The gauges show the threads that are alive, and those that are parked. -/
structure GaugesOk (w : ThreadSystem.World) : Prop where
  alive : Shows w.metrics.threadsAlive Thread.aliveUnder w.threads
  idle : Shows w.metrics.threadsIdle Thread.idleUnder w.threads

theorem gaugesOk_init : GaugesOk ThreadSystem.system.init := ⟨shows_zero _, shows_zero _⟩

/-- A callback changes the one gauge in which the turn of its thread is seen. -/
theorem gaugesOk_turn {w : ThreadSystem.World} (h : GaugesOk w) {k : Nat} {thread : Thread}
    {turn : Turn} {dst : ThreadPhase} {callback : String → Metrics → Metrics}
    (hk : w.threads[k]? = some thread) (hturn : Turns thread.phase turn dst callback) :
    GaugesOk { w with
      threads := w.threads.set k { thread with phase := dst }
      metrics := callback thread.threadName w.metrics } := by
  obtain ⟨pool, threadName, phase⟩ := thread
  dsimp only at hturn
  cases hturn with
  | take job => exact ⟨h.alive.keep hk rfl, h.idle.keep hk rfl⟩
  | returns => exact ⟨h.alive.keep hk rfl, h.idle.keep hk rfl⟩
  | goesOn n => exact ⟨h.alive.keep hk rfl, h.idle.keep hk rfl⟩
  | endless => exact ⟨h.alive.keep hk rfl, h.idle.keep hk rfl⟩
  | park => exact ⟨h.alive.keep hk rfl, h.idle.raise hk rfl rfl⟩
  | unpark => exact ⟨h.alive.keep hk rfl, h.idle.lower hk rfl rfl⟩
  | stop => exact ⟨h.alive.lower hk rfl rfl, h.idle.keep hk rfl⟩

/-- **One step keeps the gauges with the threads.** -/
theorem gaugesOk_moved {w w' : ThreadSystem.World} {a : ThreadSystem.Action} (h : GaugesOk w)
    (hm : Moved w a w') : GaugesOk w' := by
  cases hm with
  | program _ => exact ⟨h.alive, h.idle⟩
  | start _ _ => exact ⟨h.alive.push rfl, h.idle.push_none rfl⟩
  | turn hk hturn => exact gaugesOk_turn h hk hturn
  | shut _ _ _ => exact ⟨h.alive, h.idle⟩

/-! ## The pools behind the executors -/

/-- A thread that is alive belongs to a pool of its name that is not shut down. -/
def Belongs (pools : List Pool) (thread : Thread) : Prop :=
  thread.phase ≠ .stopped → ∃ pool, pools[thread.pool]? = some pool
    ∧ pool.threadName = thread.threadName ∧ pool.isShut = false

/-- The pool behind an executor: there is one, and all of them have this thread name. -/
structure PoolNamed (pools : List Pool) (i : Nat) (threadName : String) : Prop where
  there : ∃ pool ∈ pools, pool.executor = some i
  named : ∀ pool ∈ pools, pool.executor = some i → pool.threadName = threadName

/-- Pools are behind executors, and who holds a `Runtime` knows the name of its threads. -/
structure PoolsOk (w : ThreadSystem.World) : Prop where
  low : ∀ pool ∈ w.pools, ∀ i, pool.executor = some i → i < w.program.executors.length
  named : ∀ runtime, some runtime ∈ w.program.runtimes →
    PoolNamed w.pools (executorOf runtime) runtime.handle.threadName
  threads : ∀ thread ∈ w.threads, Belongs w.pools thread

theorem poolsOk_init : PoolsOk ThreadSystem.system.init where
  low := by intro pool h; simp [ThreadSystem.system] at h
  named := by
    intro runtime h
    simp [ThreadSystem.system, BlockerSystem.system, ExecutorSystem.system] at h
  threads := by intro thread h; simp [ThreadSystem.system] at h

/-- A `Runtime` that was there stays where it is; a new one comes with its pool. -/
structure Grown (w w' : ExecutorSystem.World) (pools : List Pool) : Prop where
  length : w.executors.length ≤ w'.executors.length
  fresh : ∀ pool ∈ pools, ∀ i, pool.executor = some i →
    i = w.executors.length ∧ i < w'.executors.length
  runtimes : ∀ runtime, some runtime ∈ w'.runtimes → some runtime ∈ w.runtimes
    ∨ (executorOf runtime = w.executors.length
      ∧ PoolNamed pools w.executors.length runtime.handle.threadName)

theorem Grown.same {w w' : ExecutorSystem.World} {pools : List Pool}
    (hlen : w'.executors.length = w.executors.length)
    (hnone : ∀ pool ∈ pools, pool.executor = none)
    (hsub : ∀ runtime, some runtime ∈ w'.runtimes → some runtime ∈ w.runtimes) :
    Grown w w' pools where
  length := Nat.le_of_eq hlen.symm
  fresh := fun pool hmem i hi => absurd ((hnone pool hmem).symm.trans hi) (by simp)
  runtimes := fun runtime h => .inl (hsub runtime h)

theorem release_sub {w : ExecutorSystem.World} {r : Nat} {runtime : Runtime} (x : Runtime)
    (h : some x ∈ (w.release r runtime).runtimes) : some x ∈ w.runtimes := by
  rcases List.mem_or_eq_of_mem_set h with h | heq
  · exact h
  · exact absurd heq (by simp)

/-- `build` makes a pool behind the executor it makes, if any. -/
theorem grown_build {w w' : ExecutorSystem.World} {b : Builder} {outcome : BuildOutcome}
    {t : List ExecutorSystem.Event}
    (h : ExecutorSystem.step w (.build b outcome) = some (w', t)) :
    Grown w w' (built w.executors.length (.program (.build b outcome))) := by
  rw [ExecutorSystem.step] at h
  rw [built]
  by_cases hsucceeds : outcome.Succeeds
  · rw [Builder.build_ok b hsucceeds] at h ⊢
    dsimp only at h
    rw [poolOf]
    injection h with h; injection h with h1 _
    subst h1
    refine ⟨?_, ?_, ?_⟩
    · dsimp only
      rw [List.length_append]
      exact Nat.le_add_right _ _
    · intro pool hmem i hi
      rw [List.mem_singleton.mp hmem] at hi
      injection hi with hi
      dsimp only
      rw [List.length_append, List.length_singleton]
      exact ⟨hi.symm, by omega⟩
    · intro runtime hmem
      rcases List.mem_append.mp hmem with hmem | hmem
      · exact .inl hmem
      · injection List.mem_singleton.mp hmem with heq
        subst heq
        refine .inr ⟨rfl, ⟨_, List.mem_singleton_self _, rfl⟩, ?_⟩
        intro pool hmem _
        rw [List.mem_singleton.mp hmem]
        rfl
  · rcases Builder.build_not_ok b hsucceeds w.executors.length with hres | hres
    · rw [hres] at h ⊢
      injection h with h; injection h with h1 _
      subst h1
      exact .same rfl (by simp [poolOf]) (fun _ h => h)
    · rw [hres] at h ⊢
      injection h with h; injection h with h1 _
      subst h1
      exact .same rfl (by simp [poolOf]) (fun _ h => h)

theorem grown_program {w w' : ExecutorSystem.World} {a : ExecutorSystem.Action}
    {t : List ExecutorSystem.Event} (h : ExecutorSystem.step w a = some (w', t)) :
    Grown w w' (built w.executors.length (.program a)) := by
  cases a with
  | build b outcome => exact grown_build h
  | clone r =>
      rw [ExecutorSystem.step] at h
      split at h
      · rename_i runtime hr
        injection h with h; injection h with h1 _
        subst h1
        refine .same (List.length_modify ..) (by simp [built]) ?_
        intro x hx
        rcases List.mem_append.mp hx with hx | hx
        · exact hx
        · rw [List.mem_singleton.mp hx]
          exact List.mem_of_getElem? hr
      · exact absurd h (by simp)
  | drop r =>
      rw [ExecutorSystem.step] at h
      split at h
      · injection h with h; injection h with h1 _
        subst h1
        exact .same (length_release ..) (by simp [built]) release_sub
      · exact absurd h (by simp)
  | newTask interval initialDelay taskFn =>
      rw [ExecutorSystem.step] at h
      injection h with h; injection h with h1 _
      subst h1
      exact .same rfl (by simp [built]) (fun _ h => h)
  | start k r =>
      rw [ExecutorSystem.step] at h
      split at h
      · split at h
        · exact absurd h (by simp)
        · injection h with h; injection h with h1 _
          subst h1
          exact .same (length_release ..) (by simp [built]) release_sub
      · exact absurd h (by simp)
  | stop k joined =>
      rw [ExecutorSystem.step] at h
      split at h
      · split at h
        · exact absurd h (by simp)
        · split at h
          · injection h with h; injection h with h1 _
            subst h1
            exact .same rfl (by simp [built]) (fun _ h => h)
          · injection h with h; injection h with h1 _
            subst h1
            exact .same rfl (by simp [built]) (fun _ h => h)
      · exact absurd h (by simp)
  | dropTask k =>
      rw [ExecutorSystem.step] at h
      split at h
      · split at h
        · exact absurd h (by simp)
        · injection h with h; injection h with h1 _
          subst h1
          exact .same rfl (by simp [built]) (fun _ h => h)
      · exact absurd h (by simp)

theorem grown_step {w w' : ExecutorSystem.World} {a : BlockerSystem.Action}
    {t : List ExecutorSystem.Event} (h : BlockerSystem.step w a = some (w', t)) :
    Grown w w' (built w.executors.length a) := by
  cases a with
  | program a => exact grown_program h
  | release i =>
      obtain ⟨e, _, _, _, rfl⟩ := release_step h
      exact .same List.length_set (by simp [built]) (fun _ h => h)

theorem poolsOk_program {w : ThreadSystem.World} (h : PoolsOk w) {a : BlockerSystem.Action}
    {program : ExecutorSystem.World} (hg : Grown w.program program
      (built w.program.executors.length a)) :
    PoolsOk { w with
      program := program
      pools := w.pools ++ built w.program.executors.length a } where
  low := by
    intro pool hmem i hi
    have hlen := hg.length
    rcases List.mem_append.mp hmem with hmem | hmem
    · exact Nat.lt_of_lt_of_le (h.low pool hmem i hi) hlen
    · exact (hg.fresh pool hmem i hi).2
  named := by
    intro runtime hmem
    rcases hg.runtimes runtime hmem with hold | ⟨hid, hnew⟩
    · obtain ⟨⟨pool, hpool, hexecutor⟩, hname⟩ := h.named runtime hold
      refine ⟨⟨pool, List.mem_append_left _ hpool, hexecutor⟩, ?_⟩
      intro pool' hmem' hexecutor'
      rcases List.mem_append.mp hmem' with hmem' | hmem'
      · exact hname pool' hmem' hexecutor'
      · -- a new pool is behind a new executor
        have hlow := h.low pool hpool _ hexecutor
        have hhigh := (hg.fresh pool' hmem' _ hexecutor').1
        omega
    · rw [hid]
      obtain ⟨⟨pool, hpool, hexecutor⟩, hname⟩ := hnew
      refine ⟨⟨pool, List.mem_append_right _ hpool, hexecutor⟩, ?_⟩
      intro pool' hmem' hexecutor'
      rcases List.mem_append.mp hmem' with hmem' | hmem'
      · exact absurd (h.low pool' hmem' _ hexecutor') (Nat.lt_irrefl _)
      · exact hname pool' hmem' hexecutor'
  threads := by
    intro thread hmem hlive
    obtain ⟨pool, hpool, hrest⟩ := h.threads thread hmem hlive
    exact ⟨pool, Lists.getElem?_append_some hpool _, hrest⟩

theorem Turns.alive {src dst : ThreadPhase} {turn : Turn} {callback : String → Metrics → Metrics}
    (h : Turns src turn dst callback) : src ≠ .stopped := by
  cases h <;> simp

theorem poolsOk_turn {w : ThreadSystem.World} (h : PoolsOk w) {k : Nat} {thread : Thread}
    {dst : ThreadPhase} (m : Metrics) (hk : w.threads[k]? = some thread)
    (hlive : thread.phase ≠ .stopped) :
    PoolsOk { w with
      threads := w.threads.set k { thread with phase := dst }
      metrics := m } where
  low := h.low
  named := h.named
  threads := by
    intro thread' hmem
    rcases List.mem_or_eq_of_mem_set hmem with hmem | heq
    · exact h.threads thread' hmem
    · subst heq
      exact fun _ => h.threads thread (List.mem_of_getElem? hk) hlive

theorem allStopped_ne {w : ThreadSystem.World} {p : Nat} (h : w.allStopped p = true)
    {thread : Thread} (hmem : thread ∈ w.threads) (hlive : thread.phase ≠ .stopped) :
    p ≠ thread.pool := by
  intro heq
  have hdone := List.all_eq_true.mp h thread hmem
  rw [heq] at hdone
  simp [hlive] at hdone

theorem poolsOk_shut {w : ThreadSystem.World} (h : PoolsOk w) {p : Nat} {pool : Pool}
    (hp : w.pools[p]? = some pool) (hstopped : w.allStopped p = true) :
    PoolsOk { w with pools := w.pools.set p { pool with isShut := true } } where
  low := by
    intro pool' hmem
    rcases List.mem_or_eq_of_mem_set hmem with hmem | heq
    · exact h.low pool' hmem
    · rw [heq]
      exact h.low pool (List.mem_of_getElem? hp)
  named := by
    intro runtime hmem
    obtain ⟨⟨pool₀, hpool₀, hexecutor⟩, hname⟩ := h.named runtime hmem
    constructor
    · obtain ⟨q, hq⟩ := List.getElem?_of_mem hpool₀
      by_cases hpq : p = q
      · subst hpq
        obtain ⟨hlt, _⟩ := List.getElem?_eq_some_iff.mp hp
        have hsame := hp.symm.trans hq
        injection hsame with hsame
        subst hsame
        exact ⟨_, List.mem_of_getElem? (List.getElem?_set_self hlt), hexecutor⟩
      · refine ⟨pool₀, List.mem_iff_getElem?.mpr ⟨q, ?_⟩, hexecutor⟩
        rw [List.getElem?_set_ne hpq]
        exact hq
    · intro pool' hmem' hexecutor'
      rcases List.mem_or_eq_of_mem_set hmem' with hmem' | heq
      · exact hname pool' hmem' hexecutor'
      · subst heq
        exact hname pool (List.mem_of_getElem? hp) hexecutor'
  threads := by
    intro thread hmem hlive
    have hne := allStopped_ne hstopped hmem hlive
    obtain ⟨pool', hpool', hrest⟩ := h.threads thread hmem hlive
    dsimp only
    exact ⟨pool', by rw [List.getElem?_set_ne hne]; exact hpool', hrest⟩

/-- **One step keeps every thread in the pool it was started by.** -/
theorem poolsOk_moved {w w' : ThreadSystem.World} {a : ThreadSystem.Action} (h : PoolsOk w)
    (hm : Moved w a w') : PoolsOk w' := by
  cases hm with
  | program hp => exact poolsOk_program h (grown_step hp)
  | @start p pool hp hopen =>
      exact ⟨h.low, h.named, Lists.forall_mem_snoc h.threads (fun _ => ⟨pool, hp, rfl, hopen⟩)⟩
  | turn hk hturn => exact poolsOk_turn h _ hk hturn.alive
  | shut hp _ hstopped => exact poolsOk_shut h hp hstopped

/-! ## Every run -/

theorem threads_reachable {w : ThreadSystem.World} (h : ThreadSystem.system.Reachable w) :
    GaugesOk w ∧ PoolsOk w :=
  Lts.Reachable.inv (M := ThreadSystem.system) (P := fun w => GaugesOk w ∧ PoolsOk w)
    ⟨gaugesOk_init, poolsOk_init⟩
    (fun _ _ _ _ _ hp hs =>
      ⟨gaugesOk_moved hp.1 (step_moved hs), poolsOk_moved hp.2 (step_moved hs)⟩) h

/-- What is to be read off the gauges under a thread name. -/
structure Gauged (w : ThreadSystem.World) (threadName : String) : Prop where
  alive : w.metrics.threadsAlive.value threadName = BitVec.ofNat 64 (w.alive threadName)
  idle : w.metrics.threadsIdle.value threadName = BitVec.ofNat 64 (w.idle threadName)
  exact_iff : (w.metrics.threadsAlive.value threadName).toInt = (w.alive threadName : Int)
    ↔ w.alive threadName < 2 ^ 63
  idle_le : w.idle threadName ≤ w.alive threadName
  still : (∀ pool ∈ w.pools, pool.threadName = threadName → pool.isShut = true) →
    w.alive threadName = 0

/-- Who is parked is alive. -/
theorem idle_le_alive (w : ThreadSystem.World) (threadName : String) :
    w.idle threadName ≤ w.alive threadName := by
  refine List.countP_mono_left ?_
  intro thread _ hidle
  rw [decide_eq_true_eq] at hidle ⊢
  unfold Thread.idleUnder at hidle
  unfold Thread.aliveUnder
  split at hidle
  · rename_i hparked
    rw [if_neg (by rw [hparked]; decide)]
    exact hidle
  · exact absurd hidle (by simp)

/-- No thread is alive in pools that are shut. -/
theorem PoolsOk.still {w : ThreadSystem.World} (h : PoolsOk w) {threadName : String}
    (hshut : ∀ pool ∈ w.pools, pool.threadName = threadName → pool.isShut = true) :
    w.alive threadName = 0 := by
  refine tally_eq_zero_iff.mpr ?_
  intro thread hmem halive
  unfold Thread.aliveUnder at halive
  split at halive
  · exact absurd halive (by simp)
  · rename_i hlive
    injection halive with hname
    obtain ⟨pool, hpool, hpoolName, hopen⟩ := h.threads thread hmem hlive
    have hdone := hshut pool (List.mem_of_getElem? hpool) (hpoolName.trans hname)
    exact absurd (hopen.symm.trans hdone) (by simp)

/--
**The gauges count the threads.**

Whatever the program, the blockers and the threads do, the gauges under a thread name show
how many threads are alive and how many are parked, over all runtimes with that name; as
an `i64` a gauge is that number exactly while it is below `2 ^ 63`. Who holds a `Runtime`
finds them under the thread name of its handle.
-/
theorem thread_gauges {as : List ThreadSystem.Action} {w : ThreadSystem.World}
    {t : List ExecutorSystem.Event}
    (hr : ThreadSystem.system.exec ThreadSystem.system.init as = some (w, t)) :
    (∀ threadName, Gauged w threadName)
      ∧ ∀ runtime, some runtime ∈ w.program.runtimes →
        PoolNamed w.pools (executorOf runtime) runtime.handle.threadName := by
  obtain ⟨hgauges, hpools⟩ := threads_reachable ⟨as, t, hr⟩
  refine ⟨?_, hpools.named⟩
  intro threadName
  exact
    { alive := hgauges.alive threadName
      idle := hgauges.idle threadName
      exact_iff := hgauges.alive.exact_iff threadName
      idle_le := idle_le_alive w threadName
      still := hpools.still }

/-- Two runtimes under one name: of their three threads one is parked, and one has stopped. -/
theorem thread_gauges_shared :
    ∃ w t, ThreadSystem.system.exec ThreadSystem.system.init
        [.program (.program (.build (Builder.default 0) ⟨.ok, .ok⟩)),
          .program (.program (.build (Builder.default 1) ⟨.ok, .ok⟩)),
          .start 0, .start 1, .start 1, .turn 1 .park, .turn 2 .stop] = some (w, t)
      ∧ w.metrics.threadsAlive.value "default-worker" = 2
      ∧ w.metrics.threadsIdle.value "default-worker" = 1 := by
  obtain ⟨w, t, hr, halive, hidle⟩ : ∃ w t, ThreadSystem.system.exec ThreadSystem.system.init
        [.program (.program (.build (Builder.default 0) ⟨.ok, .ok⟩)),
          .program (.program (.build (Builder.default 1) ⟨.ok, .ok⟩)),
          .start 0, .start 1, .start 1, .turn 1 .park, .turn 2 .stop] = some (w, t)
      ∧ w.alive "default-worker" = 2 ∧ w.idle "default-worker" = 1 :=
    ⟨_, _, rfl, rfl, rfl⟩
  have h := (thread_gauges hr).1 "default-worker"
  refine ⟨w, t, hr, ?_, ?_⟩
  · rw [h.alive, halive]
    rfl
  · rw [h.idle, hidle]
    rfl

end RsRun.Proof
