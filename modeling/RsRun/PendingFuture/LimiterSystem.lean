import RsRun.Lib.Lts
import RsRun.Lib.TokenBucket
import RsRun.PendingFuture.ModeRatelimiter

/-!
# Many futures on one rate limiter

Futures built from clones of one `RateLimiterRuntimeHandle` share its memory. The
limiter is a token bucket: `try_wait` grants exactly when it takes a token, and a
refill adds the configured amount up to the cap. The inner futures may all be of
different types, so everything is indexed by which future it belongs to.

What an observer sees of a poll is how often the inner future was polled, and how
many tokens are gone from the bucket afterwards.
-/

namespace RsRun.LimiterSystem

open Async ModeRatelimiter

/-- `try_wait` on a token bucket. -/
def tryWait : Limiter Nat := fun ratelimiter available wait =>
  match TokenBucket.step ratelimiter.refillAmount ratelimiter.maxTokens available .take with
  | some left => (.granted, left)
  | none => (.refused wait, available)

/-- A refill of the bucket. -/
def refill (ratelimiter : Ratelimiter) (sh : Shared Nat) : Shared Nat :=
  { sh with limiter := min (sh.limiter + ratelimiter.refillAmount) ratelimiter.maxTokens }

section
variable {F V : Nat → Type} {ω : Type}

/-- The shared memory, and the futures that exist. -/
structure World (F : Nat → Type) where
  shared : Shared Nat
  futures : (i : Nat) → Option (PendingFuture (F i))

/-- What can happen. -/
inductive Action (F : Nat → Type) (ω : Type) where
  /-- `PendingFuture::new` with a clone of the handle. -/
  | new (i : Nat) (future : F i)
  | poll (i : Nat) (env : Env ω)
  /-- The clock gives the bucket its next amount. -/
  | refill
  /-- A future is dropped, and with it its clone of the handle. -/
  | drop (i : Nat)

/-- What an observer sees. -/
inductive Event where
  | innerPoll (i : Nat)
  | token (i : Nat)
  | refill
deriving DecidableEq, Repr

/-- Put future `i` in place, or take it away. -/
def World.set (w : World F) (i : Nat) (f : Option (PendingFuture (F i))) : World F :=
  { w with futures := Function.update w.futures i f }

/-- One step, for a handle `handle` whose clones all futures are given. -/
def step (chk : Bool) (pollF : ∀ i, F i → Cx ω → F i × Poll (V i))
    (handle : RateLimiterRuntimeHandle) (w : World F) :
    Action F ω → Option (World F × List Event)
  | .new i future =>
      match w.futures i with
      | some _ => none
      | none => some (w.set i (some (PendingFuture.new handle future)), [])
  | .poll i env =>
      match w.futures i with
      | none => none
      | some this =>
          let o := poll chk (pollF i) tryWait w.shared this env
          some ({ w.set i (some o.next.2) with shared := o.next.1 },
            (innerPolls o.acts).map (fun _ => .innerPoll i)
              ++ List.replicate (w.shared.limiter - o.next.1.limiter) (.token i))
  | .refill =>
      match handle.ratelimiter with
      | none => none
      | some ratelimiter => some ({ w with shared := refill ratelimiter w.shared }, [.refill])
  | .drop i =>
      match w.futures i with
      | none => none
      | some _ => some ({ w.set i none with shared := w.shared.drop }, [])

/-- All futures sharing the handle that `RateLimiterRuntimeHandle::new` makes for `p`. -/
def system (chk : Bool) (pollF : ∀ i, F i → Cx ω → F i × Poll (V i)) (p : Priority) :
    Lts (World F) (Action F ω) Event where
  init := { shared := Shared.new 0, futures := fun _ => none }
  step := step chk pollF (RateLimiterRuntimeHandle.new p)

/-- How often an inner future was polled. -/
def innerCount (t : List Event) : Nat := t.countP (fun e => match e with
  | .innerPoll _ => true
  | _ => false)

/-- How many tokens were removed from the bucket. -/
def tokenCount (t : List Event) : Nat := t.countP (fun e => match e with
  | .token _ => true
  | _ => false)

/-- How often the bucket was refilled. -/
def refillCount (t : List Event) : Nat := t.count .refill

end

end RsRun.LimiterSystem
