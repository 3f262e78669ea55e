import RsRun.BlockerSystem
import RsRun.Metrics

/-!
# The threads of the runtimes

The program and its blockers, as in `BlockerSystem`, and the threads that tokio starts for
each runtime it began to build, when it likes. A thread takes jobs, one after the other: it
polls a task once, or runs a closure. It parks and stops only between two jobs, and runs the
callbacks that `build` gave to its runtime. A runtime whose blocker gave it up is shut once
all its threads have stopped, and starts no more.
-/

namespace RsRun.ThreadSystem

/-- What a thread is at: a poll or a closure that returns after so many steps, or never. -/
inductive Job where
  | steps (n : Nat)
  | endless
deriving DecidableEq, Repr

/-- Where a thread is; it is `running` between two jobs. -/
inductive ThreadPhase where
  | running
  | working (job : Job)
  | parked
  | stopped
deriving DecidableEq, Repr

/-- A thread of pool `pool`. -/
structure Thread where
  pool : Nat
  /-- The name its callbacks were made with. -/
  threadName : String
  phase : ThreadPhase
deriving DecidableEq, Repr

/-- What tokio was told by `build`, and whether it has shut the runtime down. -/
structure Pool where
  /-- The executor it is behind; there is none when `build` panicked. -/
  executor : Option Nat
  threadName : String
  isShut : Bool
deriving DecidableEq, Repr

/-- The program, the pools of its runtimes, all threads so far, and the metrics. -/
structure World where
  program : ExecutorSystem.World
  pools : List Pool
  threads : List Thread
  metrics : Metrics

/-- What a thread does next. -/
inductive Turn where
  | take (job : Job)
  /-- One step of its job. -/
  | work
  | park
  | unpark
  | stop
deriving DecidableEq, Repr

/-- What the program does, a blocker, a thread, or tokio. -/
inductive Action where
  | program (a : BlockerSystem.Action)
  | start (p : Nat)
  | turn (k : Nat) (turn : Turn)
  | shut (p : Nat)

/-- The pool that is left of a `build` with this result; its callbacks take the thread name. -/
def poolOf (b : Builder) (id : Nat) : Ret Runtime → List Pool
  | .ok _ => [{ executor := some id, threadName := b.threadName, isShut := false }]
  | .err _ => []
  -- what was started by then is dropped when the panic unwinds
  | .panicked => [{ executor := none, threadName := b.threadName, isShut := false }]

/-- The pool that comes with an operation, when the next handle is `id`. -/
def built (id : Nat) : BlockerSystem.Action → List Pool
  | .program (.build b outcome) => poolOf b id (b.build outcome id).1
  | _ => []

/-- Where a turn takes a thread, and the callback that runs with it. -/
def ThreadPhase.turn : ThreadPhase → Turn → Option (ThreadPhase × (String → Metrics → Metrics))
  | .running, .take job => some (.working job, fun _ m => m)
  | .working (.steps 0), .work => some (.running, fun _ m => m)
  | .working (.steps (n + 1)), .work => some (.working (.steps n), fun _ m => m)
  | .working .endless, .work => some (.working .endless, fun _ m => m)
  | .running, .park => some (.parked, onThreadPark)
  | .parked, .unpark => some (.running, onThreadUnpark)
  | .running, .stop => some (.stopped, onThreadStop)
  | _, _ => none

/-- Has whoever owned the tokio runtime of a pool given it up? -/
def World.givenUp (w : World) (pool : Pool) : Bool :=
  match pool.executor with
  | none => true
  | some i =>
      match w.program.executors[i]? with
      | some executor => !executor.blocked
      | none => false

/-- Have all threads of pool `p` stopped? -/
def World.allStopped (w : World) (p : Nat) : Bool :=
  w.threads.all (fun thread => thread.pool ≠ p || thread.phase = .stopped)

/-- One step. -/
def step (w : World) : Action → Option (World × List ExecutorSystem.Event)
  | .program a =>
      match BlockerSystem.step w.program a with
      | some (program, t) =>
          some ({ w with
            program := program
            pools := w.pools ++ built w.program.executors.length a }, t)
      | none => none
  | .start p =>
      match w.pools[p]? with
      | some pool =>
          if pool.isShut then none
          else
            some ({ w with
              threads := w.threads ++
                [{ pool := p, threadName := pool.threadName, phase := .running }]
              metrics := onThreadStart pool.threadName w.metrics }, [])
      | none => none
  | .turn k turn =>
      match w.threads[k]? with
      | some thread =>
          match thread.phase.turn turn with
          | some (phase, callback) =>
              some ({ w with
                threads := w.threads.set k { thread with phase := phase }
                metrics := callback thread.threadName w.metrics }, [])
          | none => none
      | none => none
  | .shut p =>
      match w.pools[p]? with
      | some pool =>
          if w.givenUp pool && w.allStopped p then
            some ({ w with pools := w.pools.set p { pool with isShut := true } }, [])
          else none
      | none => none

/-- A program that has done nothing yet. -/
def system : Lts World Action ExecutorSystem.Event where
  init :=
    { program := BlockerSystem.system.init
      pools := []
      threads := []
      metrics := { threadsAlive := .zero String 64, threadsIdle := .zero String 64 } }
  step := step

/-- Where a thread is counted as alive. -/
def Thread.aliveUnder (thread : Thread) : Option String :=
  if thread.phase = .stopped then none else some thread.threadName

/-- Where a thread is counted as idle. -/
def Thread.idleUnder (thread : Thread) : Option String :=
  if thread.phase = .parked then some thread.threadName else none

/-- How many threads under a name are alive. -/
def World.alive (w : World) (threadName : String) : Nat :=
  Gauges.tally Thread.aliveUnder threadName w.threads

/-- How many threads under a name are parked. -/
def World.idle (w : World) (threadName : String) : Nat :=
  Gauges.tally Thread.idleUnder threadName w.threads

end RsRun.ThreadSystem
