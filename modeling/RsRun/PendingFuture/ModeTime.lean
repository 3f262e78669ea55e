import RsRun.PendingFuture.State
import RsRun.PendingFuture.RuntimeHandle

/-!
# `mode_time`: a back-off for every ten microseconds of polling

The time of `Pending` polls is added up. Once more than ten microseconds have
accumulated, whole tens are taken off and paid for with one sleep; the remainder
is carried over.
-/

namespace RsRun.ModeTime

open Async

/-- `mode_time::PendingFuture`. -/
structure PendingFuture (φ : Type*) where
  future : φ
  handle : CommonRuntimeHandle
  pendCnt : Nat
  insertedPendCnt : Nat
  addingUpTime : Nat
  state : State

/-- What the outside answers during one poll. -/
structure Env (ω : Type*) where
  cx : Cx ω
  /-- Has the stored sleep elapsed? -/
  stored : Poll Unit
  /-- Is a sleep inserted by this poll ready at once? -/
  inserted : Poll Unit
  /-- The clock, in nanoseconds, before and after the inner poll. -/
  beginNow : Nat
  polledNow : Nat

/-- How many microseconds one unit of sleep pays for. -/
def inter : Nat := 10

/-- `pend_period * time / 2 + 2`, in milliseconds. -/
def sleepMillis (chk : Bool) (pendPeriod time : Nat) : Option Nat :=
  (Word.mul chk 64 pendPeriod time).bind (fun product => Word.add chk 64 (product / 2) 2)

/-- `adding_up_time - time * inter`. -/
def payOff (chk : Bool) (addingUpTime time : Nat) : Option Nat :=
  (Word.mul chk 64 time inter).bind (fun paid => Word.sub chk 64 addingUpTime paid)

section
variable {φ ω ν : Type*}

/-- `PendingFuture::new`. -/
def PendingFuture.new (handle : CommonRuntimeHandle) (future : φ) : PendingFuture φ :=
  { future := future
    handle := handle
    pendCnt := 0
    insertedPendCnt := 0
    addingUpTime := 0
    state := .common }

/-- From `let begin = Instant::now()` to the end of `poll`. -/
def pollInner (chk : Bool) (pollF : φ → Cx ω → φ × Poll ν) (this : PendingFuture φ)
    (env : Env ω) : Polled (PendingFuture φ) ω ν Nat :=
  let res := (pollF this.future env.cx).2
  let this := { this with future := (pollF this.future env.cx).1 }
  match res with
  | .ready r => ⟨this, .ready r, [.innerPolled env.cx res]⟩
  | .pending =>
      match Word.add chk 64 this.addingUpTime (elapsedMicros env.beginNow env.polledNow) with
      | none => ⟨this, .panicked .overflow, [.innerPolled env.cx res]⟩
      | some addingUpTime =>
          ⟨{ this with addingUpTime := addingUpTime
                       pendCnt := Word.fetchAdd 32 this.pendCnt 1 },
            .pending, [.innerPolled env.cx res]⟩

/-- From the throttling test on, with the state `Common`. -/
def throttle (chk : Bool) (pollF : φ → Cx ω → φ × Poll ν) (this : PendingFuture φ)
    (env : Env ω) : Polled (PendingFuture φ) ω ν Nat :=
  match this.handle.priority.fixedIntervalTimeMs with
  | none => pollInner chk pollF this env
  | some pendPeriod =>
      -- whole tens only; the remainder stays in `adding_up_time`
      if inter < this.addingUpTime then
        let time := this.addingUpTime / inter
        match payOff chk this.addingUpTime time with
        | none => ⟨this, .panicked .overflow, []⟩
        | some left =>
            let this := { this with addingUpTime := left
                                    insertedPendCnt := Word.fetchAdd 32 this.insertedPendCnt 1 }
            match sleepMillis chk pendPeriod time with
            | none => ⟨this, .panicked .overflow, [.own time]⟩
            | some ms =>
                (insertBackoff (fun state => { this with state := state }) (fromMillis ms)
                  env.cx.waker env.inserted).after [.own time]
      else pollInner chk pollF this env

/-- `PendingFuture::poll`; `chk` says whether the build checks for overflow. -/
def poll (chk : Bool) (pollF : φ → Cx ω → φ × Poll ν) (this : PendingFuture φ)
    (env : Env ω) : Polled (PendingFuture φ) ω ν Nat :=
  pollBackoff this.state (fun state => { this with state := state }) env.cx.waker env.stored
    (fun _ => throttle chk pollF { this with state := .common } env)

end

end RsRun.ModeTime
