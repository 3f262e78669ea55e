import RsRun.Lib.Simulation
import RsRun.Proof.ThreadGauges

/-!
# When a runtime is shut down

Once the last `Runtime` is gone, the blocker, the threads and tokio need nothing from the
program any more: the runtime can be shut as soon as every job of its threads returns, and
the gauges are then what they would be without it. Before that it cannot, unless its blocker
was never spawned; and a job that never returns keeps it from being shut for ever.
-/

namespace RsRun.Proof

open ThreadSystem Gauges

/-! ## The program below the threads -/

/-- What each step of the program and its blockers keeps, the threads keep as well. -/
theorem Moved.keeps {P : ExecutorSystem.World → Prop}
    (hstep : ∀ s a s' t, P s → BlockerSystem.system.step s a = some (s', t) → P s')
    {w w' : ThreadSystem.World} {a : ThreadSystem.Action} (h : P w.program)
    (hm : Moved w a w') : P w'.program := by
  cases hm with
  | program hp => exact hstep _ _ _ _ h hp
  | start _ _ => exact h
  | turn _ _ => exact h
  | shut _ _ _ => exact h

/-- The tokio runtime behind `i` has been given up. -/
def GivenUp (w : ExecutorSystem.World) (i : Nat) : Prop :=
  ∃ e, w.executors[i]? = some e ∧ e.blocked = false

theorem executor_drop_blocked (e : Executor) : e.drop.blocked = e.blocked := by
  unfold Executor.drop
  dsimp only
  split <;> rfl

theorem givenUp_step {w w' : ExecutorSystem.World} {i : Nat} {a : BlockerSystem.Action}
    {t : List ExecutorSystem.Event} (h : GivenUp w i)
    (hs : BlockerSystem.system.step w a = some (w', t)) : GivenUp w' i := by
  cases a with
  | program a =>
      refine executors_kept (P := fun e => e.blocked = false) ?_ ?_ (executors_step hs) h
      · exact fun _ h => h
      · exact fun e h => (executor_drop_blocked e).trans h
  | release j =>
      obtain ⟨e', he', _, _, rfl⟩ := release_step hs
      obtain ⟨e, he, hgone⟩ := h
      unfold GivenUp
      dsimp only
      by_cases hij : j = i
      · subst hij
        obtain ⟨hlt, _⟩ := List.getElem?_eq_some_iff.mp he'
        exact ⟨_, List.getElem?_set_self hlt, rfl⟩
      · exact ⟨e, by rw [List.getElem?_set_ne hij]; exact he, hgone⟩

/-- Pool `p` is shut. -/
def IsShut (w : ThreadSystem.World) (p : Nat) : Prop :=
  ∃ pool, w.pools[p]? = some pool ∧ pool.isShut = true

/-- Pool `p` is behind executor `i`. -/
def Behind (w : ThreadSystem.World) (p i : Nat) : Prop :=
  ∃ pool, w.pools[p]? = some pool ∧ pool.executor = some i

theorem behind_moved {w w' : ThreadSystem.World} {a : ThreadSystem.Action} {p i : Nat}
    (h : Behind w p i) (hm : Moved w a w') : Behind w' p i := by
  obtain ⟨pool, hp, hexecutor⟩ := h
  cases hm with
  | program _ => exact ⟨pool, Lists.getElem?_append_some hp _, hexecutor⟩
  | start _ _ => exact ⟨pool, hp, hexecutor⟩
  | turn _ _ => exact ⟨pool, hp, hexecutor⟩
  | @shut q pool' hq _ _ =>
      unfold Behind
      dsimp only
      by_cases hqp : q = p
      · subst hqp
        obtain ⟨hlt, _⟩ := List.getElem?_eq_some_iff.mp hq
        have hsame := hp.symm.trans hq
        injection hsame with hsame
        subst hsame
        exact ⟨_, List.getElem?_set_self hlt, hexecutor⟩
      · exact ⟨pool, by rw [List.getElem?_set_ne hqp]; exact hp, hexecutor⟩

/-- Only what was given up is shut. -/
def ShutOk (w : ThreadSystem.World) : Prop :=
  ∀ p i, IsShut w p → Behind w p i → GivenUp w.program i

theorem built_open {id : Nat} {a : BlockerSystem.Action} {pool : Pool} (h : pool ∈ built id a) :
    pool.isShut = false := by
  unfold built at h
  split at h
  · unfold poolOf at h
    split at h
    · rw [List.mem_singleton.mp h]
    · exact absurd h List.not_mem_nil
    · rw [List.mem_singleton.mp h]
  · exact absurd h List.not_mem_nil

/-- Who may shut a pool knows that its executor was given up. -/
theorem givenUp_of_pool {w : ThreadSystem.World} {pool : Pool} {i : Nat}
    (h : w.givenUp pool = true) (hexecutor : pool.executor = some i) : GivenUp w.program i := by
  unfold World.givenUp at h
  rw [hexecutor] at h
  dsimp only at h
  split at h
  · rename_i e he
    exact ⟨e, he, by rwa [Bool.not_eq_true'] at h⟩
  · exact absurd h (by simp)

theorem shutOk_moved {w w' : ThreadSystem.World} {a : ThreadSystem.Action} (h : ShutOk w)
    (hm : Moved w a w') : ShutOk w' := by
  rintro p i ⟨pool, hpool, hshut⟩ ⟨pool', hpool', hexecutor⟩
  have hsame := hpool.symm.trans hpool'
  injection hsame with hsame
  subst hsame
  cases hm with
  | program hp =>
      dsimp only at hpool
      rcases Nat.lt_or_ge p w.pools.length with hlt | hge
      · rw [List.getElem?_append_left hlt] at hpool
        exact givenUp_step (h p i ⟨pool, hpool, hshut⟩ ⟨pool, hpool, hexecutor⟩) hp
      · rw [List.getElem?_append_right hge] at hpool
        rw [built_open (List.mem_of_getElem? hpool)] at hshut
        exact absurd hshut (by simp)
  | start _ _ => exact h p i ⟨pool, hpool, hshut⟩ ⟨pool, hpool, hexecutor⟩
  | turn _ _ => exact h p i ⟨pool, hpool, hshut⟩ ⟨pool, hpool, hexecutor⟩
  | shut hq hgone _ =>
      rcases Lists.getElem?_set_cases hpool with ⟨rfl, hnew⟩ | ⟨_, hpool⟩
      · rw [hnew] at hexecutor
        exact givenUp_of_pool hgone hexecutor
      · exact h p i ⟨pool, hpool, hshut⟩ ⟨pool, hpool, hexecutor⟩

/-- What every reachable state has. -/
structure ShutDownOk (w : ThreadSystem.World) : Prop where
  program : ProgramOk w.program
  shut : ShutOk w
  gauges : GaugesOk w
  pools : PoolsOk w

theorem shutDownOk_moved {w w' : ThreadSystem.World} {a : ThreadSystem.Action}
    (h : ShutDownOk w) (hm : Moved w a w') : ShutDownOk w' where
  program := hm.keeps (fun _ _ _ _ hp hs => programOk_blocker_step hp hs) h.program
  shut := shutOk_moved h.shut hm
  gauges := gaugesOk_moved h.gauges hm
  pools := poolsOk_moved h.pools hm

theorem shutDownOk_exec {w w' : ThreadSystem.World} {as : List ThreadSystem.Action}
    {t : List ExecutorSystem.Event} (h : ShutDownOk w)
    (hr : ThreadSystem.system.exec w as = some (w', t)) : ShutDownOk w' :=
  Lts.exec_inv (M := ThreadSystem.system) (P := ShutDownOk)
    (fun _ _ _ _ hp hs => shutDownOk_moved hp (step_moved hs)) h hr

theorem shutDownOk_reachable {w : ThreadSystem.World} (h : ThreadSystem.system.Reachable w) :
    ShutDownOk w := by
  obtain ⟨as, t, hr⟩ := h
  refine shutDownOk_exec ⟨programOk_init, ?_, gaugesOk_init, poolsOk_init⟩ hr
  rintro p i ⟨pool, hpool, _⟩
  exact absurd hpool (by simp [ThreadSystem.system])

/-! ## Without the program -/

/-- Is this a step of a blocker, a thread or tokio? -/
def withoutProgram : ThreadSystem.Action → Bool
  | .program (.program _) => false
  | _ => true

/-- The system when the program does nothing any more. -/
def leftAlone : Lts ThreadSystem.World ThreadSystem.Action ExecutorSystem.Event :=
  ThreadSystem.system.only withoutProgram

theorem leftAlone_step {w w' : ThreadSystem.World} {a : ThreadSystem.Action}
    {t : List ExecutorSystem.Event} (ha : withoutProgram a = true)
    (hs : ThreadSystem.step w a = some (w', t)) : leftAlone.step w a = some (w', t) :=
  Lts.only_step.mpr ⟨hs, ha⟩

theorem leftAlone_exec {w w' : ThreadSystem.World} {as : List ThreadSystem.Action}
    {t : List ExecutorSystem.Event} (hr : leftAlone.exec w as = some (w', t)) :
    ThreadSystem.system.exec w as = some (w', t) :=
  (Lts.only_exec.mp hr).1

theorem leftAlone_runtimes {w w' : ThreadSystem.World} {a : ThreadSystem.Action}
    {t : List ExecutorSystem.Event} (hs : leftAlone.step w a = some (w', t)) :
    w'.program.runtimes = w.program.runtimes := by
  obtain ⟨hs, ha⟩ := Lts.only_step.mp hs
  cases step_moved hs with
  | @program b _ _ hp =>
      cases b with
      | program b => exact absurd ha (by simp [withoutProgram])
      | release i =>
          obtain ⟨e, _, _, _, rfl⟩ := release_step hp
          rfl
  | start _ _ => rfl
  | turn _ _ => rfl
  | shut _ _ _ => rfl

theorem leftAlone_someAlive {w w' : ThreadSystem.World} {as : List ThreadSystem.Action}
    {t : List ExecutorSystem.Event} {i : Nat} (h : SomeAlive w.program i)
    (hr : leftAlone.exec w as = some (w', t)) : SomeAlive w'.program i := by
  refine Lts.exec_inv (M := leftAlone) (P := fun w => SomeAlive w.program i) ?_ h hr
  rintro s a s' t ⟨runtime, hmem, hid⟩ hs
  exact ⟨runtime, by rw [leftAlone_runtimes hs]; exact hmem, hid⟩

/-! ## A job that never returns -/

/-- A thread of pool `p` is at a job that never returns. -/
def Hangs (w : ThreadSystem.World) (p : Nat) : Prop :=
  ∃ thread ∈ w.threads, thread.pool = p ∧ thread.phase = .working .endless

theorem hangs_moved {w w' : ThreadSystem.World} {a : ThreadSystem.Action} {p : Nat}
    (h : Hangs w p) (hm : Moved w a w') : Hangs w' p := by
  obtain ⟨thread, hmem, hp, hphase⟩ := h
  cases hm with
  | program _ => exact ⟨thread, hmem, hp, hphase⟩
  | start _ _ => exact ⟨thread, List.mem_append_left _ hmem, hp, hphase⟩
  | shut _ _ _ => exact ⟨thread, hmem, hp, hphase⟩
  | @turn k turn thread' dst callback hk hturn =>
      unfold Hangs
      dsimp only
      obtain ⟨n, hn⟩ := List.getElem?_of_mem hmem
      by_cases hkn : k = n
      · subst hkn
        obtain ⟨hlt, _⟩ := List.getElem?_eq_some_iff.mp hk
        have hsame := hn.symm.trans hk
        injection hsame with hsame
        subst hsame
        rw [hphase] at hturn
        cases hturn with
        | endless => exact ⟨_, List.mem_of_getElem? (List.getElem?_set_self hlt), hp, rfl⟩
      · refine ⟨thread, List.mem_iff_getElem?.mpr ⟨n, ?_⟩, hp, hphase⟩
        rw [List.getElem?_set_ne hkn]
        exact hn

/-- Its pool is not shut, then or later. -/
theorem hangs_open {w w' : ThreadSystem.World} (hw : ShutDownOk w) {p : Nat} (h : Hangs w p)
    {as : List ThreadSystem.Action} {t : List ExecutorSystem.Event}
    (hr : ThreadSystem.system.exec w as = some (w', t)) : ¬ IsShut w' p := by
  have hhangs : Hangs w' p := Lts.exec_inv (M := ThreadSystem.system) (P := fun w => Hangs w p)
    (fun _ _ _ _ hp hs => hangs_moved hp (step_moved hs)) h hr
  obtain ⟨thread, hmem, hp, hphase⟩ := hhangs
  obtain ⟨pool, hpool, _, hopen⟩ :=
    (shutDownOk_exec hw hr).pools.threads thread hmem (by rw [hphase]; simp)
  rintro ⟨pool', hpool', hshut⟩
  rw [hp] at hpool
  have hsame := hpool.symm.trans hpool'
  injection hsame with hsame
  subst hsame
  exact absurd (hopen.symm.trans hshut) (by simp)

/-! ## How a runtime is shut -/

/-- A run of `leftAlone` that changes the threads and the metrics, and nothing else. -/
structure Winds (w : ThreadSystem.World) (threads : List Thread) (w' : ThreadSystem.World) :
    Prop where
  runs : ∃ as, leftAlone.exec w as = some (w', [])
  program : w'.program = w.program
  pools : w'.pools = w.pools
  threads : w'.threads = threads

theorem Winds.trans {w w₁ w₂ : ThreadSystem.World} {threads threads₁ : List Thread}
    (h₁ : Winds w threads₁ w₁) (h₂ : Winds w₁ threads w₂) : Winds w threads w₂ where
  runs := by
    obtain ⟨as, ha⟩ := h₁.runs
    obtain ⟨bs, hb⟩ := h₂.runs
    exact ⟨as ++ bs, Lts.exec_append.mpr ⟨w₁, [], [], ha, hb, rfl⟩⟩
  program := h₂.program.trans h₁.program
  pools := h₂.pools.trans h₁.pools
  threads := h₂.threads

theorem turn_winds {w : ThreadSystem.World} {k : Nat} {thread : Thread} {turn : Turn}
    {dst : ThreadPhase} {callback : String → Metrics → Metrics}
    (hk : w.threads[k]? = some thread) (hturn : thread.phase.turn turn = some (dst, callback)) :
    ∃ w', Winds w (w.threads.set k { thread with phase := dst }) w' := by
  have hs : ThreadSystem.step w (.turn k turn) = some ({ w with
      threads := w.threads.set k { thread with phase := dst }
      metrics := callback thread.threadName w.metrics }, []) := by
    rw [ThreadSystem.step, hk]
    dsimp only
    rw [hturn]
  exact ⟨_, ⟨_, Lts.exec_one (leftAlone_step rfl hs)⟩, rfl, rfl, rfl⟩

/-- Thread `k` can stop, if it is as `thread` is. -/
def CanStop (k : Nat) (thread : Thread) : Prop :=
  ∀ w : ThreadSystem.World, w.threads[k]? = some thread →
    ∃ w', Winds w (w.threads.set k { thread with phase := .stopped }) w'

theorem canStop_turn {k : Nat} {thread : Thread} {turn : Turn} {dst : ThreadPhase}
    {callback : String → Metrics → Metrics}
    (hturn : thread.phase.turn turn = some (dst, callback))
    (h : CanStop k { thread with phase := dst }) : CanStop k thread := by
  intro w hk
  obtain ⟨w₁, h₁⟩ := turn_winds hk hturn
  obtain ⟨hlt, _⟩ := List.getElem?_eq_some_iff.mp hk
  have hk₁ : w₁.threads[k]? = some { thread with phase := dst } := by
    rw [h₁.threads]
    exact List.getElem?_set_self hlt
  obtain ⟨w₂, h₂⟩ := h w₁ hk₁
  rw [h₁.threads, List.set_set] at h₂
  exact ⟨w₂, h₁.trans h₂⟩

theorem canStop_running {k : Nat} {thread : Thread} (h : thread.phase = .running) :
    CanStop k thread := by
  intro w hk
  have hturn : thread.phase.turn .stop = some (.stopped, onThreadStop) := by rw [h]; rfl
  exact turn_winds hk hturn

/-- A job that returns is worked off step by step. -/
theorem canStop_working {k : Nat} : ∀ (n : Nat) {thread : Thread},
    thread.phase = .working (.steps n) → CanStop k thread := by
  intro n
  induction n with
  | zero =>
      intro thread h
      have hturn : thread.phase.turn .work = some (.running, fun _ m => m) := by rw [h]; rfl
      exact canStop_turn hturn (canStop_running rfl)
  | succ n ih =>
      intro thread h
      have hturn : thread.phase.turn .work = some (.working (.steps n), fun _ m => m) := by
        rw [h]; rfl
      exact canStop_turn hturn (ih rfl)

/-- A thread that is alive can stop, unless its job never returns. -/
theorem thread_stops {k : Nat} {thread : Thread} (hlive : thread.phase ≠ .stopped)
    (hreturns : thread.phase ≠ .working .endless) : CanStop k thread := by
  cases hphase : thread.phase with
  | running => exact canStop_running hphase
  | stopped => exact absurd hphase hlive
  | parked =>
      -- it wakes up first
      have hturn : thread.phase.turn .unpark = some (.running, onThreadUnpark) := by
        rw [hphase]; rfl
      exact canStop_turn hturn (canStop_running rfl)
  | working job =>
      cases job with
      | endless => exact absurd hphase hreturns
      | steps n => exact canStop_working n hphase

/-- What becomes of a thread when all those of pool `p` stop. -/
def stopIn (p : Nat) (thread : Thread) : Thread :=
  if thread.pool = p then { thread with phase := .stopped } else thread

/-- Where a thread has yet to stop. -/
def liveIn (thread : Thread) : Option Nat :=
  if thread.phase = .stopped then none else some thread.pool

theorem liveIn_some {p : Nat} {thread : Thread} (h : liveIn thread = some p) :
    thread.phase ≠ .stopped ∧ thread.pool = p := by
  unfold liveIn at h
  split at h
  · exact absurd h (by simp)
  · rename_i hlive
    exact ⟨hlive, Option.some.inj h⟩

/-- Nothing becomes of a thread that has stopped, or belongs elsewhere. -/
theorem stopIn_same {p : Nat} {thread : Thread} (h : liveIn thread ≠ some p) :
    stopIn p thread = thread := by
  unfold stopIn
  split
  · rename_i hp
    unfold liveIn at h
    split at h
    · rename_i hstopped
      rw [← hstopped]
    · rw [hp] at h
      exact absurd rfl h
  · rfl

/-- **All threads of a pool can stop**, one after the other, if none of them hangs. -/
theorem threads_stop (p : Nat) : ∀ (n : Nat) (w : ThreadSystem.World),
    tally liveIn p w.threads = n → ¬ Hangs w p → ∃ w', Winds w (w.threads.map (stopIn p)) w' := by
  intro n
  induction n with
  | zero =>
      intro w hn _
      have hsame : w.threads.map (stopIn p) = w.threads := by
        refine (List.map_congr_left (g := id) ?_).trans (List.map_id _)
        exact fun thread hmem => stopIn_same (tally_eq_zero_iff.mp hn thread hmem)
      exact ⟨w, ⟨[], rfl⟩, rfl, rfl, hsame.symm⟩
  | succ n ih =>
      intro w hn hno
      obtain ⟨thread, hmem, hthread⟩ : ∃ thread ∈ w.threads, liveIn thread = some p := by
        by_contra hnone
        have hzero : tally liveIn p w.threads = 0 :=
          tally_eq_zero_iff.mpr (fun thread hmem heq => hnone ⟨thread, hmem, heq⟩)
        omega
      obtain ⟨hlive, hp⟩ := liveIn_some hthread
      obtain ⟨k, hk⟩ := List.getElem?_of_mem hmem
      obtain ⟨w₁, h₁⟩ := thread_stops hlive (fun hphase => hno ⟨thread, hmem, hp, hphase⟩) w hk
      have hless : tally liveIn p w₁.threads = n := by
        have hset := tally_set (f := liveIn) (y := { thread with phase := .stopped }) hk p
        rw [if_pos hthread, if_neg (by simp [liveIn])] at hset
        rw [h₁.threads]
        omega
      have hno₁ : ¬ Hangs w₁ p := by
        rintro ⟨thread', hmem', hp', hphase⟩
        rw [h₁.threads] at hmem'
        rcases List.mem_or_eq_of_mem_set hmem' with hmem' | heq
        · exact hno ⟨thread', hmem', hp', hphase⟩
        · rw [heq] at hphase
          exact absurd hphase (by simp)
      obtain ⟨w₂, h₂⟩ := ih w₁ hless hno₁
      have hmap : stopIn p { thread with phase := .stopped } = stopIn p thread := by
        simp [stopIn, hp]
      rw [h₁.threads, Lists.map_set_same hk hmap] at h₂
      exact ⟨w₂, h₁.trans h₂⟩

/-- Where stopped threads are not counted, those of pool `p` might as well be gone. -/
theorem tally_stopIn {f : Thread → Option String} (p : Nat)
    (hf : ∀ thread : Thread, f { thread with phase := .stopped } = none) (threadName : String)
    (threads : List Thread) :
    tally f threadName (threads.map (stopIn p))
      = tally f threadName (threads.filter (fun thread => thread.pool ≠ p)) := by
  refine tally_silenced ?_ ?_
  · intro thread hp
    rw [decide_eq_true_eq] at hp
    rw [stopIn, if_neg hp]
  · intro thread hp
    rw [decide_eq_false_iff_not, not_not] at hp
    rw [stopIn, if_pos hp]
    exact hf thread

/-- Pool `p` is shut, and of its threads none is counted. -/
structure ShutDown (w w' : ThreadSystem.World) (p : Nat) : Prop where
  isShut : IsShut w' p
  alive : ∀ threadName, w'.metrics.threadsAlive.value threadName = BitVec.ofNat 64
    (tally Thread.aliveUnder threadName (w.threads.filter (fun thread => thread.pool ≠ p)))
  idle : ∀ threadName, w'.metrics.threadsIdle.value threadName = BitVec.ofNat 64
    (tally Thread.idleUnder threadName (w.threads.filter (fun thread => thread.pool ≠ p)))

/-- What was given up can be shut, once no thread hangs. -/
theorem givenUp_shuts {w : ThreadSystem.World} (hw : ShutDownOk w) {p i : Nat}
    (hbehind : Behind w p i) (h : GivenUp w.program i) (hno : ¬ Hangs w p) :
    ∃ as w', leftAlone.exec w as = some (w', []) ∧ ShutDown w w' p := by
  obtain ⟨e, he, hgone⟩ := h
  obtain ⟨pool, hpool, hexecutor⟩ := hbehind
  obtain ⟨w₁, h₁⟩ := threads_stop p _ w rfl hno
  have hpool₁ : w₁.pools[p]? = some pool := by rw [h₁.pools]; exact hpool
  have hgone₁ : w₁.givenUp pool = true := by
    unfold World.givenUp
    rw [hexecutor, h₁.program]
    dsimp only
    rw [he]
    dsimp only
    rw [hgone]
    rfl
  have hstopped : w₁.allStopped p = true := by
    unfold World.allStopped
    rw [h₁.threads, List.all_map, List.all_eq_true]
    intro thread _
    by_cases hp : thread.pool = p
    · simp [stopIn, hp]
    · simp [stopIn, hp]
  have hs : ThreadSystem.step w₁ (.shut p) = some ({ w₁ with
      pools := w₁.pools.set p { pool with isShut := true } }, []) := by
    rw [ThreadSystem.step, hpool₁]
    dsimp only
    rw [hgone₁, hstopped]
    rfl
  obtain ⟨as, hr⟩ := h₁.runs
  have hr' := Lts.exec_append.mpr ⟨w₁, [], [], hr, Lts.exec_one (leftAlone_step rfl hs), rfl⟩
  obtain ⟨halive, hidle⟩ := (shutDownOk_exec hw (leftAlone_exec hr)).gauges
  rw [h₁.threads] at halive hidle
  obtain ⟨hlt, _⟩ := List.getElem?_eq_some_iff.mp hpool₁
  refine ⟨_, _, hr', ⟨_, List.getElem?_set_self hlt, rfl⟩, ?_, ?_⟩
  · intro threadName
    exact (halive threadName).trans
      (congrArg _ (tally_stopIn p (fun _ => rfl) threadName w.threads))
  · intro threadName
    exact (hidle threadName).trans
      (congrArg _ (tally_stopIn p (fun _ => rfl) threadName w.threads))

/-- A `build` whose blocker was spawned: its pool, and what its blocker holds. -/
theorem built_held {w w' : ThreadSystem.World} {b : Builder} {runtime : Runtime}
    (hs : ThreadSystem.system.step w
        (.program (.program (.build b { tokio := .ok, blocker := .ok })))
      = some (w', [.built (.ok runtime)])) :
    Held w'.program (executorOf runtime) ∧ Behind w' w.pools.length (executorOf runtime) := by
  dsimp only [ThreadSystem.system] at hs
  rw [ThreadSystem.step] at hs
  have hp : BlockerSystem.step w.program (.program (.build b { tokio := .ok, blocker := .ok }))
      = some ({ w.program with
          executors := w.program.executors
            ++ [BuildOutcome.executor { tokio := .ok, blocker := .ok }]
          runtimes := w.program.runtimes ++ [some (b.runtime w.program.executors.length)] },
        [.built (.ok (b.runtime w.program.executors.length))]) := rfl
  rw [hp] at hs
  injection hs with hs; injection hs with h1 h2
  injection h2 with h2
  injection h2 with h2
  injection h2 with h2
  subst h1; subst h2
  exact ⟨⟨_, List.getElem?_concat_length, fun _ => rfl⟩, _, List.getElem?_concat_length, rfl⟩

/--
**A runtime is shut when its last `Runtime` is gone, and its threads have come back.**

Say its tokio runtime was built and its blocker spawned. As long as some clone of it is
alive, blockers, threads and tokio by themselves never shut it; and while a thread is at a
job that never returns, nothing ever does. Otherwise they can, without another step of the
program and however far the jobs of its threads are; and then the gauges are those of the
other runtimes' threads.
-/
theorem runtime_shuts {w₀ w₁ w : ThreadSystem.World} {b : Builder} {runtime : Runtime}
    {as : List ThreadSystem.Action} {t : List ExecutorSystem.Event}
    (hw : ThreadSystem.system.Reachable w₀)
    (hb : ThreadSystem.system.step w₀
        (.program (.program (.build b { tokio := .ok, blocker := .ok })))
      = some (w₁, [.built (.ok runtime)]))
    (hr : ThreadSystem.system.exec w₁ as = some (w, t)) :
    (SomeAlive w.program (executorOf runtime) →
      ∀ bs w' u, leftAlone.exec w bs = some (w', u) → ¬ IsShut w' w₀.pools.length)
    ∧ (Hangs w w₀.pools.length →
      ∀ bs w' u, ThreadSystem.system.exec w bs = some (w', u) → ¬ IsShut w' w₀.pools.length)
    ∧ (¬ SomeAlive w.program (executorOf runtime) → ¬ Hangs w w₀.pools.length →
      ∃ bs w', leftAlone.exec w bs = some (w', []) ∧ ShutDown w w' w₀.pools.length) := by
  obtain ⟨hheld₁, hbehind₁⟩ := built_held hb
  have hkeep : ∀ {v v' : ThreadSystem.World} {cs : List ThreadSystem.Action}
      {u : List ExecutorSystem.Event}, Held v.program (executorOf runtime) →
      ThreadSystem.system.exec v cs = some (v', u) → Held v'.program (executorOf runtime) :=
    fun h hr => Lts.exec_inv (M := ThreadSystem.system)
      (P := fun w => Held w.program (executorOf runtime))
      (fun _ _ _ _ hp hs => (step_moved hs).keeps (fun _ _ _ _ hp hs => held_step hp hs) hp) h hr
  have hbehind : ∀ {v : ThreadSystem.World} {cs : List ThreadSystem.Action}
      {u : List ExecutorSystem.Event}, ThreadSystem.system.exec w₁ cs = some (v, u) →
      Behind v w₀.pools.length (executorOf runtime) :=
    fun hr => Lts.exec_inv (M := ThreadSystem.system)
      (P := fun w => Behind w w₀.pools.length (executorOf runtime))
      (fun _ _ _ _ hp hs => behind_moved hp (step_moved hs)) hbehind₁ hr
  have hheld := hkeep hheld₁ hr
  have hok : ShutDownOk w := shutDownOk_reachable ((hw.step hb).exec hr)
  refine ⟨?_, fun hhangs bs w' u hrun => hangs_open hok hhangs hrun, ?_⟩
  · intro halive bs w' u hrun hshut
    have hrun' := leftAlone_exec hrun
    have hok' := shutDownOk_exec hok hrun'
    obtain ⟨e, he, hkept⟩ := (hkeep hheld hrun').keptAlive hok'.program
    obtain ⟨e', he', hgone⟩ :=
      hok'.shut _ _ hshut (hbehind (Lts.exec_append.mpr ⟨w, t, u, hr, hrun', rfl⟩))
    rw [he] at he'
    injection he' with he'
    subst he'
    rw [hkept.alive (leftAlone_someAlive halive hrun)] at hgone
    exact absurd hgone (by simp)
  · intro hnone hno
    obtain ⟨e, he, hkept⟩ := hheld.keptAlive hok.program
    cases hblocked : e.blocked with
    | false => exact givenUp_shuts hok (hbehind hr) ⟨e, he, hblocked⟩ hno
    | true =>
        -- the signal was sent, so the blocker comes back first
        obtain ⟨program, e', hp, he', hgone⟩ := hkept.released hnone hblocked
        have hs : ThreadSystem.step w (.program (.release (executorOf runtime)))
            = some ({ w with program := program, pools := w.pools ++ [] }, []) := by
          rw [ThreadSystem.step, hp]
          rfl
        have hm := step_moved hs
        obtain ⟨bs, w', hrun, hdown⟩ := givenUp_shuts (shutDownOk_moved hok hm)
          (behind_moved (hbehind hr) hm) ⟨e', he', hgone⟩ hno
        exact ⟨_ :: bs, w', Lts.exec_cons.mpr ⟨_, [], [], leftAlone_step rfl hs, hrun, rfl⟩,
          hdown.isShut, hdown.alive, hdown.idle⟩

/--
Two runtimes under one name. The second is dropped while its worker is at a job; the worker
of the first is at one that never returns.
-/
theorem runtime_shuts_second :
    ∃ w t bs w', ThreadSystem.system.exec ThreadSystem.system.init
        [.program (.program (.build (Builder.default 0) ⟨.ok, .ok⟩)), .start 0,
          .program (.program (.build (Builder.default 1) ⟨.ok, .ok⟩)), .start 1,
          .turn 0 (.take .endless), .turn 1 (.take (.steps 2)), .program (.program (.drop 1)),
          .turn 1 .work] = some (w, t)
      ∧ leftAlone.exec w bs = some (w', []) ∧ IsShut w' 1
      ∧ w'.metrics.threadsAlive.value "default-worker" = 1
      ∧ w'.metrics.threadsIdle.value "default-worker" = 0 := by
  obtain ⟨w₀, t₀, w₁, runtime, w, h₀, hb, hr, hid, hlen, hgone, hworking, halive, hidle⟩ :
      ∃ w₀ t₀ w₁ runtime w,
        ThreadSystem.system.exec ThreadSystem.system.init
          [.program (.program (.build (Builder.default 0) ⟨.ok, .ok⟩)), .start 0]
          = some (w₀, t₀)
        ∧ ThreadSystem.system.step w₀
          (.program (.program (.build (Builder.default 1) { tokio := .ok, blocker := .ok })))
          = some (w₁, [.built (.ok runtime)])
        ∧ ThreadSystem.system.exec w₁ [.start 1, .turn 0 (.take .endless),
          .turn 1 (.take (.steps 2)), .program (.program (.drop 1)), .turn 1 .work]
          = some (w, [])
        ∧ executorOf runtime = 1
        ∧ w₀.pools.length = 1
        ∧ RefCount.shares executorOf 1 w.program.runtimes = 0
        ∧ w.threads = [⟨0, "default-worker", .working .endless⟩,
          ⟨1, "default-worker", .working (.steps 1)⟩]
        ∧ tally Thread.aliveUnder "default-worker"
          (w.threads.filter (fun thread => thread.pool ≠ 1)) = 1
        ∧ tally Thread.idleUnder "default-worker"
          (w.threads.filter (fun thread => thread.pool ≠ 1)) = 0 :=
    ⟨_, _, _, _, _, rfl, rfl, rfl, rfl, rfl, rfl, rfl, rfl, rfl⟩
  have hnone : ¬ SomeAlive w.program (executorOf runtime) := by
    intro hsome
    rw [hid] at hsome
    have hpos := (RefCount.shares_pos executorOf 1 w.program.runtimes).mpr hsome
    omega
  have hno : ¬ Hangs w w₀.pools.length := by
    rw [hlen]
    rintro ⟨thread, hmem, hp, hphase⟩
    rw [hworking] at hmem
    rcases List.mem_pair.mp hmem with heq | heq
    · rw [heq] at hp
      exact absurd hp (by simp)
    · rw [heq] at hphase
      exact absurd hphase (by simp)
  obtain ⟨bs, w', hrun, hdown⟩ := (runtime_shuts ⟨_, _, h₀⟩ hb hr).2.2 hnone hno
  rw [hlen] at hdown
  refine ⟨w, _, bs, w',
    Lts.exec_append.mpr ⟨w₀, t₀, _, h₀, Lts.exec_cons.mpr ⟨w₁, _, [], hb, hr, rfl⟩, rfl⟩,
    hrun, hdown.isShut, ?_, ?_⟩
  · rw [hdown.alive, halive]
    rfl
  · rw [hdown.idle, hidle]
    rfl

end RsRun.Proof
