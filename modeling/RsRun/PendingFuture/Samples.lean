import RsRun.PendingFuture.ModeCount
import RsRun.PendingFuture.ModeTime
import RsRun.PendingFuture.ModeRatelimiter

/-!
# Futures and polls to try the wrappers on

Three inner futures, a limiter, and one poll of each wrapper with the answers of the
outside left open. The worked runs of the proofs are made of these.
-/

namespace RsRun

open Async

/-! ## Inner futures -/

/-- A future that is ready when it is polled. -/
def readyAtOnce (f : Unit) (_ : Cx Unit) : Unit × Poll Unit := (f, .ready ())

/-- A future that is never ready. -/
def stuck (_ : Unit) (_ : Cx Unit) : Unit × Poll Unit := ((), .pending)

/-- A future that is pending as often as its state says. -/
def countdown (n : Nat) (_ : Cx Unit) : Nat × Poll Unit :=
  (n - 1, if n = 0 then .ready () else .pending)

/-! ## What the outside answers -/

/-- A limiter that grants everything. -/
def grantAll : ModeRatelimiter.Limiter Unit := fun _ limiter _ => (.granted, limiter)

/-- One poll, with these answers of the two timers and this jitter, at a clock that stands still. -/
def countEnv (stored inserted : Poll Unit) (jitter : Fin 10) : ModeCount.Env Unit :=
  { cx := { waker := 0, world := () }
    stored := stored
    inserted := inserted
    jitter := jitter
    bfPoll := 0
    beginNow := 0
    polledNow := 0
    endNow := 0 }

/-- One poll in which this many microseconds pass, with these answers of the timers. -/
def timeEnv (stored inserted : Poll Unit) (elapsed : Nat) : ModeTime.Env Unit :=
  { cx := { waker := 0, world := () }
    stored := stored
    inserted := inserted
    beginNow := 0
    polledNow := elapsed * 1000 }

/-- One poll, with these answers of the two sleeps and a refusal for this long. -/
def limiterEnv (stored inserted : Poll Unit) (wait : Nat) : ModeRatelimiter.Env Unit :=
  { cx := { waker := 0, world := () }
    stored := stored
    inserted := inserted
    wait := wait }

end RsRun
