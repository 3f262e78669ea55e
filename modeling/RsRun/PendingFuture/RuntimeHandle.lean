import RsRun.Priority

/-!
# Runtime handles

`CommonRuntimeHandle` is a priority. Every clone of a `RateLimiterRuntimeHandle`
refers to the same memory: the rate limiter, the stop flag and two counters. A
clone itself is two references and a priority, so the memory is a record of its
own, `Shared`, and the handle keeps what never changes: the limiter's
configuration, if there is one, and the priority.
-/

namespace RsRun

/-- `CommonRuntimeHandle`. -/
structure CommonRuntimeHandle where
  priority : Priority
deriving DecidableEq, Repr

/-- The configuration of a `Ratelimiter`, as given to its builder. -/
structure Ratelimiter where
  /-- Tokens added by one refill. -/
  refillAmount : Nat
  /-- Nanoseconds between refills. -/
  refillInterval : Nat
  maxTokens : Nat
deriving DecidableEq, Repr

/-- `RateLimiterRuntimeHandle`: `.0` and `.2`; `.1` is a reference to `Shared`. -/
structure RateLimiterRuntimeHandle where
  ratelimiter : Option Ratelimiter
  priority : Priority
deriving DecidableEq, Repr

/-- The memory behind the references of a handle: the state `L` of its limiter, and `.1`. -/
structure Shared (L : Type*) where
  limiter : L
  /-- `.1.0`, the stop flag. -/
  stop : Bool
  /-- `.1.2`. -/
  recentTotalPullTime : Nat
  /-- `.1.3`. -/
  counter : Nat

/-- `Ratelimiter::builder(amount, interval).max_tokens(2000)`. -/
def limited (amount intervalMs : Nat) (priority : Priority) : RateLimiterRuntimeHandle :=
  { ratelimiter := some { refillAmount := amount
                          refillInterval := intervalMs * 1000000
                          maxTokens := 2000 }
    priority := priority }

/-- `RateLimiterRuntimeHandle::new`, the handle. -/
def RateLimiterRuntimeHandle.new : Priority → RateLimiterRuntimeHandle
  | .veryLow => limited 800 70 .veryLow
  | .low => limited 1100 50 .low
  | .middle => limited 1400 30 .middle
  | .high => limited 1700 10 .high
  | .veryHigh => { ratelimiter := none, priority := .veryHigh }

/-- `RateLimiterRuntimeHandle::new`, the memory. -/
def Shared.new {L : Type*} (limiter : L) : Shared L :=
  { limiter := limiter, stop := false, recentTotalPullTime := 0, counter := 0 }

/-- `RateLimiterRuntimeHandle::drop`, which runs for every clone. -/
def Shared.drop {L : Type*} (sh : Shared L) : Shared L := { sh with stop := true }

/-- A throttled priority has a limiter, and its cap is 2000 whatever the priority. -/
theorem new_ratelimiter {p : Priority} (h : p ≠ .veryHigh) :
    ∃ rl, (RateLimiterRuntimeHandle.new p).ratelimiter = some rl ∧ rl.maxTokens = 2000 := by
  cases p with
  | veryLow => exact ⟨_, rfl, rfl⟩
  | low => exact ⟨_, rfl, rfl⟩
  | middle => exact ⟨_, rfl, rfl⟩
  | high => exact ⟨_, rfl, rfl⟩
  | veryHigh => exact absurd rfl h

end RsRun
