import RsRun.PendingFuture.State
import RsRun.PendingFuture.RuntimeHandle

/-!
# `mode_ratelimiter`: a token for every poll

Before the inner future is polled the shared limiter is asked for a token; a
refusal names a waiting time, and a sleep of that length is inserted instead of
polling. The limiter itself is a parameter: `tryWait` takes its configuration and
its state, and answers with the state it leaves behind.
-/

namespace RsRun.ModeRatelimiter

open Async

/-- `mode_ratelimiter::PendingFuture`. -/
structure PendingFuture (φ : Type*) where
  future : φ
  handle : RateLimiterRuntimeHandle
  pendCnt : Nat
  state : State

/-- What the outside answers during one poll. -/
structure Env (ω : Type*) where
  cx : Cx ω
  /-- Has the stored sleep elapsed? -/
  stored : Poll Unit
  /-- Is a sleep inserted by this poll ready at once? -/
  inserted : Poll Unit
  /-- The waiting time a refusal of the limiter names, in nanoseconds. -/
  wait : Nat

/-- The answer of `try_wait`. -/
inductive TryWait where
  | granted
  | refused (wait : Nat)
deriving DecidableEq, Repr

/-- `Ratelimiter::try_wait`: configuration, state and proposed waiting time to answer and state. -/
abbrev Limiter (L : Type*) := Ratelimiter → L → Nat → TryWait × L

section
variable {φ ω ν L : Type*}

/-- `PendingFuture::new`. -/
def PendingFuture.new (handle : RateLimiterRuntimeHandle) (future : φ) : PendingFuture φ :=
  { future := future, handle := handle, pendCnt := 0, state := .common }

/-- From `this.future.poll(cx)` to the end of `poll`. -/
def pollInner (chk : Bool) (pollF : φ → Cx ω → φ × Poll ν) (sh : Shared L)
    (this : PendingFuture φ) (env : Env ω) : Polled (Shared L × PendingFuture φ) ω ν TryWait :=
  let res := (pollF this.future env.cx).2
  let this := { this with future := (pollF this.future env.cx).1 }
  match res with
  | .ready r => ⟨(sh, this), .ready r, [.innerPolled env.cx res]⟩
  | .pending =>
      match Word.add chk 32 this.pendCnt 1 with
      | none => ⟨(sh, this), .panicked .overflow, [.innerPolled env.cx res]⟩
      | some pendCnt =>
          ⟨(sh, { this with pendCnt := pendCnt }), .pending, [.innerPolled env.cx res]⟩

/-- From the limiter test on, with the state `Common`. -/
def throttle (chk : Bool) (pollF : φ → Cx ω → φ × Poll ν) (tryWait : Limiter L) (sh : Shared L)
    (this : PendingFuture φ) (env : Env ω) : Polled (Shared L × PendingFuture φ) ω ν TryWait :=
  match this.handle.ratelimiter with
  | none => pollInner chk pollF sh this env
  | some ratelimiter =>
      -- counted whether the limiter grants or refuses
      match Word.add chk 32 this.pendCnt 1 with
      | none => ⟨(sh, this), .panicked .overflow, []⟩
      | some pendCnt =>
          let this := { this with pendCnt := pendCnt }
          match tryWait ratelimiter sh.limiter env.wait with
          | (.granted, limiter) =>
              (pollInner chk pollF { sh with limiter := limiter } this env).after [.own .granted]
          | (.refused wait, limiter) =>
              (insertBackoff (fun state => ({ sh with limiter := limiter },
                { this with state := state })) wait env.cx.waker env.inserted).after
                [.own (.refused wait)]

/-- The `fetch_sub` on `.1.3` in the arm that found a stored back-off elapsed. -/
def settle (elapsed : Bool) (sh : Shared L) : Shared L :=
  if elapsed then { sh with counter := Word.fetchSub 64 sh.counter 1 } else sh

/-- `PendingFuture::poll`; `chk` says whether the build checks for overflow. -/
def poll (chk : Bool) (pollF : φ → Cx ω → φ × Poll ν) (tryWait : Limiter L) (sh : Shared L)
    (this : PendingFuture φ) (env : Env ω) : Polled (Shared L × PendingFuture φ) ω ν TryWait :=
  pollBackoff this.state (fun state => (sh, { this with state := state })) env.cx.waker env.stored
    (fun elapsed => throttle chk pollF tryWait (settle elapsed sh) { this with state := .common } env)

/-- The same poll of one wrapper alone: the memory it finds is part of what the outside answers. -/
def pollAlone (chk : Bool) (pollF : φ → Cx ω → φ × Poll ν) (tryWait : Limiter L)
    (this : PendingFuture φ) (seen : Shared L × Env ω) : Polled (PendingFuture φ) ω ν TryWait :=
  (poll chk pollF tryWait seen.1 this seen.2).map Prod.snd

end

end RsRun.ModeRatelimiter
