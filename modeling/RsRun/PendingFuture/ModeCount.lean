import RsRun.PendingFuture.State
import RsRun.PendingFuture.RuntimeHandle

/-!
# `mode_count`: a back-off every fifth count

One counter counts both the `Pending` answers of the inner future and the sleeps
inserted so far; whenever the next count is a multiple of five, a sleep is
inserted instead of polling. A completing future leaves a record of how much of
its life it spent being polled.
-/

namespace RsRun

open Async

namespace ModeCount

/-- `OneFutureRecord`. -/
structure OneFutureRecord where
  totalMicro : Nat
  cpuMicro : Nat
deriving DecidableEq, Repr

/-- `mode_count::PendingFuture`. -/
structure PendingFuture (φ : Type*) where
  future : φ
  handle : CommonRuntimeHandle
  pendCnt : Nat
  state : State
  /-- When the first poll began, in nanoseconds. -/
  beginTime : Option Nat
  /-- Microseconds spent in polls that reached the inner future. -/
  pollTime : Nat

/-- What the outside answers during one poll. -/
structure Env (ω : Type*) where
  cx : Cx ω
  /-- Has the stored sleep elapsed? -/
  stored : Poll Unit
  /-- Is a sleep inserted by this poll ready at once? -/
  inserted : Poll Unit
  /-- `thread_rng().gen_range(0..10)`. -/
  jitter : Fin 10
  /-- The clock, in nanoseconds, at the four places that read it. -/
  bfPoll : Nat
  beginNow : Nat
  polledNow : Nat
  endNow : Nat

/-- Every how many counts a sleep is inserted. -/
def inter : Nat := 5

section
variable {φ ω ν : Type*}

/-- `PendingFuture::new`. -/
def PendingFuture.new (handle : CommonRuntimeHandle) (future : φ) : PendingFuture φ :=
  { future := future
    handle := handle
    pendCnt := 0
    state := .common
    beginTime := none
    pollTime := 0 }

/-- From `this.future.poll(cx)` to the end of `poll`. -/
def pollInner (chk : Bool) (pollF : φ → Cx ω → φ × Poll ν) (this : PendingFuture φ)
    (env : Env ω) : Polled (PendingFuture φ) ω ν OneFutureRecord :=
  let res := (pollF this.future env.cx).2
  let this := { this with future := (pollF this.future env.cx).1 }
  match Word.add chk 64 this.pollTime (elapsedMicros env.bfPoll env.polledNow) with
  | none => ⟨this, .panicked .overflow, [.innerPolled env.cx res]⟩
  | some pollTime =>
      let this := { this with pollTime := pollTime }
      match res with
      | .ready r =>
          match this.beginTime with
          | none => ⟨this, .panicked .unwrap, [.innerPolled env.cx res]⟩
          | some beginTime =>
              let record := { totalMicro := elapsedMicros beginTime env.endNow
                              cpuMicro := this.pollTime }
              ⟨this, .ready r, [.innerPolled env.cx res, .own record]⟩
      | .pending =>
          match Word.add chk 32 this.pendCnt 1 with
          | none => ⟨this, .panicked .overflow, [.innerPolled env.cx res]⟩
          | some pendCnt =>
              ⟨{ this with pendCnt := pendCnt }, .pending, [.innerPolled env.cx res]⟩

/-- From the throttling test on, with the state `Common`. -/
def throttle (chk : Bool) (pollF : φ → Cx ω → φ × Poll ν) (this : PendingFuture φ)
    (env : Env ω) : Polled (PendingFuture φ) ω ν OneFutureRecord :=
  match Word.add chk 32 this.pendCnt 1 with
  | none => ⟨this, .panicked .overflow, []⟩
  | some next =>
      if next % inter = 0 then
        match this.handle.priority.fixedIntervalCount with
        | some pendPeriod =>
            -- `*this.pend_cnt += 1` is the sum just tested
            let this := { this with pendCnt := next }
            insertBackoff (fun state => { this with state := state })
              (fromMillis (pendPeriod + env.jitter)) env.cx.waker env.inserted
        | none => pollInner chk pollF this env
      else pollInner chk pollF this env

/-- `PendingFuture::poll`; `chk` says whether the build checks for overflow. -/
def poll (chk : Bool) (pollF : φ → Cx ω → φ × Poll ν) (this : PendingFuture φ)
    (env : Env ω) : Polled (PendingFuture φ) ω ν OneFutureRecord :=
  let this := { this with beginTime := some (this.beginTime.getD env.beginNow) }
  pollBackoff this.state (fun state => { this with state := state }) env.cx.waker env.stored
    (fun _ => throttle chk pollF { this with state := .common } env)

end

end ModeCount

end RsRun
