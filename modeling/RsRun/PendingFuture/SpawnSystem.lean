import RsRun.Lib.Owed
import RsRun.PendingFuture.ModeCount
import RsRun.PendingFuture.ModeTime
import RsRun.PendingFuture.LimiterSystem

/-!
# Throttled futures on a runtime

`tokio::spawn(PendingFuture::new(handle, future))`, any number of times, for each of the
three modes, and `tokio::spawn(future)` to compare it with. The runtime is the pool of the
library: it polls what was woken, and fires the timers of `tokio::time::sleep`.
-/

namespace RsRun.SpawnSystem

open Async

variable {φ ω ν L : Type*}

/-- What is spawned: a future, and the priority of the handle it is wrapped with. -/
structure Job (φ : Type*) where
  priority : Priority
  future : φ

/-- `mode_count::PendingFuture::new(CommonRuntimeHandle::new(priority), future)`. -/
def Job.count (job : Job φ) : ModeCount.PendingFuture φ :=
  ModeCount.PendingFuture.new ⟨job.priority⟩ job.future

/-- `mode_time::PendingFuture::new(CommonRuntimeHandle::new(priority), future)`. -/
def Job.time (job : Job φ) : ModeTime.PendingFuture φ :=
  ModeTime.PendingFuture.new ⟨job.priority⟩ job.future

/-- `mode_ratelimiter::PendingFuture::new(handle, future)`, with a clone of a handle. -/
def Job.limited (job : Job φ) : ModeRatelimiter.PendingFuture φ :=
  ModeRatelimiter.PendingFuture.new (RateLimiterRuntimeHandle.new job.priority) job.future

/-- A runtime that `mode_count` futures are spawned on. -/
def countRuntime (chk : Bool) (pollF : φ → Cx ω → φ × Poll ν) :
    Lts (Pool (ModeCount.PendingFuture φ) ν) (PoolAction (Job φ) (ModeCount.Env ω))
      (PoolEvent (Job φ) (ModeCount.PendingFuture φ) (ModeCount.Env ω) ω ν
        ModeCount.OneFutureRecord) :=
  pool Job.count ModeCount.Env.cx (ModeCount.poll chk pollF)

/-- A runtime that `mode_time` futures are spawned on. -/
def timeRuntime (chk : Bool) (pollF : φ → Cx ω → φ × Poll ν) :
    Lts (Pool (ModeTime.PendingFuture φ) ν) (PoolAction (Job φ) (ModeTime.Env ω))
      (PoolEvent (Job φ) (ModeTime.PendingFuture φ) (ModeTime.Env ω) ω ν Nat) :=
  pool Job.time ModeTime.Env.cx (ModeTime.poll chk pollF)

/--
A runtime that `mode_ratelimiter` futures are spawned on. Every poll may find the memory
of its handle changed, by whoever else has a clone.
-/
def limitedRuntime (chk : Bool) (pollF : φ → Cx ω → φ × Poll ν)
    (tryWait : ModeRatelimiter.Limiter L) :
    Lts (Pool (ModeRatelimiter.PendingFuture φ) ν)
      (PoolAction (Job φ) (Shared L × ModeRatelimiter.Env ω))
      (PoolEvent (Job φ) (ModeRatelimiter.PendingFuture φ) (Shared L × ModeRatelimiter.Env ω) ω ν
        ModeRatelimiter.TryWait) :=
  pool Job.limited (fun seen => seen.2.cx) (ModeRatelimiter.pollAlone chk pollF tryWait)

/-- A runtime that the same futures are spawned on as they are. -/
def bareRuntime (χ : Type*) (pollF : φ → Cx ω → φ × Poll ν) :
    Lts (Pool φ ν) (PoolAction (Job φ) (Cx ω)) (PoolEvent (Job φ) φ (Cx ω) ω ν χ) :=
  barePool Job.future pollF

section
variable {σ ι χ : Type*}

/--
Every run of the wrappers is a run of the futures inside: the same spawns, aborts and
wake-ups, the same polls with the same answers, and in the end the same results, except
that a wrapper may have panicked.
-/
def RunsAsBare (M : Lts (Pool σ ν) (PoolAction (Job φ) ι) (PoolEvent (Job φ) σ ι ω ν χ))
    (pollF : φ → Cx ω → φ × Poll ν) (inner : σ → φ) : Prop :=
  ∀ as p es, M.exec M.init as = some (p, es) →
    ∃ bs q vs, (bareRuntime χ pollF).exec (bareRuntime χ pollF).init bs = some (q, vs)
      ∧ vs.flatMap PoolEvent.seen = es.flatMap PoolEvent.seen
      ∧ PoolsMatch inner Task.crashed p q

/-- The wrappers and the futures inside have the same runs, as far as one can see. -/
def SameRuns (M : Lts (Pool σ ν) (PoolAction (Job φ) ι) (PoolEvent (Job φ) σ ι ω ν χ))
    (pollF : φ → Cx ω → φ × Poll ν) : Prop :=
  ∀ seen : List (Seen (Job φ) ω ν),
    (∃ as p es, M.exec M.init as = some (p, es) ∧ es.flatMap PoolEvent.seen = seen)
      ↔ ∃ bs q vs, (bareRuntime χ pollF).exec (bareRuntime χ pollF).init bs = some (q, vs)
        ∧ vs.flatMap PoolEvent.seen = seen

/-- What a live task waits for, by whether a poll of its future is owed. -/
structure Waits (k : Nat) (t : Task σ ν) (owing : Bool) : Prop where
  /-- It is in the run queue, or a timer will put it there. -/
  woken : owing = true → t.queued = true
    ∨ ∃ tm, t.timer = some tm ∧ tm.fired = false ∧ tm.waker = some k
  /-- Nothing but its future will wake it, and that can. -/
  asleep : owing = false → t.queued = false ∧ t.timer = none ∧ t.kept = some k

/-- In every run, what a live task waits for can be read off its history. -/
def NoneForgotten
    (M : Lts (Pool σ ν) (PoolAction (Job φ) ι) (PoolEvent (Job φ) σ ι ω ν χ)) : Prop :=
  ∀ as p es, M.exec M.init as = some (p, es) → ∀ (k : Nat) (t : Task σ ν),
    p.tasks[k]? = some t → t.fate = .live → Waits k t (owed (history k es))

/--
In every run, a task was polled at most as often as it was spawned, woken or held back by a
timer, and the future inside at most as often as it was spawned or woken.
-/
def WithinBudget
    (M : Lts (Pool σ ν) (PoolAction (Job φ) ι) (PoolEvent (Job φ) σ ι ω ν χ)) : Prop :=
  ∀ as p es, M.exec M.init as = some (p, es) → ∀ (k : Nat) (t : Task σ ν),
    p.tasks[k]? = some t →
      (turns (history k es)).length
          ≤ 1 + wakeCount (history k es) + (insertions (deeds (history k es))).length
        ∧ (innerPolls (deeds (history k es))).length ≤ 1 + wakeCount (history k es)

/--
In any stretch of any run in which the future inside a task is not polled, the task is held
back by at most `n` timers, and is polled no more often than wake-ups and these timers, and
what was due before, call for.
-/
def HeldBack (n : Nat)
    (M : Lts (Pool σ ν) (PoolAction (Job φ) ι) (PoolEvent (Job φ) σ ι ω ν χ)) : Prop :=
  ∀ p as p' es, M.Reachable p → M.exec p as = some (p', es) → ∀ (k : Nat) (t : Task σ ν),
    p'.tasks[k]? = some t → innerPolls (deeds (history k es)) = [] →
      (insertions (deeds (history k es))).length ≤ n
        ∧ (turns (history k es)).length ≤ 2 + wakeCount (history k es) + n

end

end RsRun.SpawnSystem
