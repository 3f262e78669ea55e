import RsRun.Proof.Throttled

/-!
# No lost wake-up

A future that answers `pending` without having left its waker anywhere is never
polled again. For each of the three wrappers: a poll that returns `Pending` ends by
arming exactly one thing with the waker it was given, the stored sleep, the inner
future or the task itself; and a sleep that stays behind between polls is the one
the most recent poll armed, never one that still knows an older waker.
-/

namespace RsRun.Proof

open Async

variable {φ ω ν L : Type*}

/-- **No wrapper ever loses a wake-up**, whatever wakers its polls carry. -/
theorem wakeup_never_lost (chk : Bool) (p : Priority) (pollF : φ → Cx ω → φ × Poll ν)
    (tryWait : ModeRatelimiter.Limiter L) (future : φ) :
    (∀ envs : List (ModeCount.Env ω),
      ArmedRun countStored (fun env => env.cx.waker)
        (ModeCount.PendingFuture.new ⟨p⟩ future)
        (drive (ModeCount.poll chk pollF) (ModeCount.PendingFuture.new ⟨p⟩ future) envs))
    ∧ (∀ envs : List (ModeTime.Env ω),
      ArmedRun timeStored (fun env => env.cx.waker)
        (ModeTime.PendingFuture.new ⟨p⟩ future)
        (drive (ModeTime.poll chk pollF) (ModeTime.PendingFuture.new ⟨p⟩ future) envs))
    ∧ ∀ seen : List (Shared L × ModeRatelimiter.Env ω),
      ArmedRun limitedStored (fun seen => seen.2.cx.waker)
        (ModeRatelimiter.PendingFuture.new (RateLimiterRuntimeHandle.new p) future)
        (drive (ModeRatelimiter.pollAlone chk pollF tryWait)
          (ModeRatelimiter.PendingFuture.new (RateLimiterRuntimeHandle.new p) future) seen) := by
  refine ⟨?_, ?_, ?_⟩
  · exact armed_drive (fun this env => (modeCount_throttled chk pollF this env).armed) rfl
  · exact armed_drive (fun this env => (modeTime_throttled chk pollF this env).armed) rfl
  · exact armed_drive
      (fun this seen => (modeRatelimiter_alone_throttled chk pollF tryWait this seen).armed) rfl

end RsRun.Proof
