import RsRun.Lib.Sync
import RsRun.Error

/-!
# `RepeatedTask`

The fields of a task, its `start`, `stop` and `drop`, and the background loop that
`start` spawns. The sections under the inner mutex are functions on the fields; the
loop is a state machine whose steps are the stretches between two awaits. All times
are in nanoseconds.
-/

namespace RsRun

open Sync

/-- A `BoxedTaskFunction`, as far as a `RepeatedTask` looks at it. -/
structure TaskFunction where
  name : String
deriving DecidableEq, Repr

/-- A `JoinHandle` names the task it was returned for. -/
abbrev JoinHandle := Nat

/-- `TaskInner`. -/
structure TaskInner where
  taskHandle : Option JoinHandle
  taskFn : Option TaskFunction
deriving DecidableEq, Repr

/-- `RepeatedTask`. -/
structure RepeatedTask where
  name : String
  /-- Has the token, and with it every child token, been cancelled? -/
  cancelToken : Bool
  inner : Mutex TaskInner
  started : Bool
  interval : Nat
  initialDelay : Option Nat

/-! ## The background loop -/

/-- Where the loop is between two of its steps. -/
inductive Phase where
  /-- At the head of `loop`. -/
  | top
  /-- In `select!`, with a sleep that elapses at `till`. -/
  | sleeping (till : Nat)
  /-- In `task_fn.call().await`. -/
  | calling
  | returned
  /-- A call panicked, and the task with it. -/
  | panicked
  /-- The executor dropped the task. -/
  | aborted
deriving DecidableEq, Repr

/-- Is the task over, and what does joining it say? -/
def Phase.joined : Phase → Option (Except JoinError Unit)
  | .top => none
  | .sleeping _ => none
  | .calling => none
  | .returned => some (.ok ())
  | .panicked => some (.error .panic)
  | .aborted => some (.error .cancelled)

/-- What the spawned future captures, and where it is. -/
structure Loop where
  taskFn : TaskFunction
  interval : Nat
  initialDelay : Option Nat
  phase : Phase
deriving DecidableEq, Repr

/-- What makes the loop go on. -/
inductive LoopStep where
  /-- It runs from the head of `loop` to its first await. -/
  | resume
  /-- `select!` takes the elapsed sleep. -/
  | sleepDone
  /-- `select!` takes the cancellation. -/
  | cancelSeen
  /-- The call returns `Ok` or `Err`. -/
  | callDone (ok : Bool)
deriving DecidableEq, Repr

/-- What the loop shows. -/
inductive LoopEvent where
  | callBegin
  | callEnd (ok : Bool)
  | loopReturned
deriving DecidableEq, Repr

/-- One step of the loop, at time `now`; the child token is cancelled when `cancelled` says so. -/
def Loop.step (cancelled : Bool) (now : Nat) (l : Loop) : LoopStep → Option (Loop × List LoopEvent)
  | .resume =>
      match l.phase with
      | .top =>
          let sleepTime := l.initialDelay.getD l.interval
          let l := { l with initialDelay := none }
          if 0 < sleepTime then
            -- a fresh sleep is not ready, so only the token can end the first poll of `select!`
            if cancelled then some ({ l with phase := .returned }, [.loopReturned])
            else some ({ l with phase := .sleeping (now + sleepTime) }, [])
          else some ({ l with phase := .calling }, [.callBegin])
      | _ => none
  | .sleepDone =>
      match l.phase with
      | .sleeping till =>
          if till ≤ now then some ({ l with phase := .calling }, [.callBegin]) else none
      | _ => none
  | .cancelSeen =>
      match l.phase with
      | .sleeping _ =>
          if cancelled then some ({ l with phase := .returned }, [.loopReturned]) else none
      | _ => none
  | .callDone ok =>
      match l.phase with
      | .calling => some ({ l with phase := .top }, [.callEnd ok])
      | _ => none

namespace RepeatedTask

/-! ## The operations -/

/-- `RepeatedTask::new`. -/
def new (interval : Nat) (taskFn : TaskFunction) : RepeatedTask :=
  { name := taskFn.name
    cancelToken := false
    inner := Mutex.new { taskHandle := none, taskFn := some taskFn }
    started := false
    interval := interval
    initialDelay := none }

/-- `RepeatedTask::with_initial_delay`. -/
def withInitialDelay (task : RepeatedTask) (initialDelay : Option Nat) : RepeatedTask :=
  { task with initialDelay := initialDelay }

/-- The mutex as a panic under its guard leaves it. -/
def poison (task : RepeatedTask) : RepeatedTask :=
  { task with inner := { task.inner with poisoned := true } }

/--
`RepeatedTask::start`. `handle` is what `runtime.spawn` returns; the loop it is
given to run comes back with the result.
-/
def start (task : RepeatedTask) (handle : JoinHandle) : RepeatedTask × Ret Unit × Option Loop :=
  if task.inner.poisoned then (task, .panicked, none)
  else if task.inner.val.taskFn.isNone then (task, .err (.illegalState task.name), none)
  else
    -- `inner.task_fn.take().unwrap()`
    match task.inner.val.taskFn with
    | none => (task.poison, .panicked, none)
    | some taskFn =>
        ({ task with
            inner := { task.inner with val := { taskHandle := some handle, taskFn := none } }
            started := true },
          .ok (),
          some { taskFn := taskFn
                 interval := task.interval
                 initialDelay := task.initialDelay
                 phase := .top })

/-- How the section of `stop` under the mutex goes on. -/
inductive StopNext where
  | done (r : Ret Unit)
  | await (handle : JoinHandle)
deriving DecidableEq, Repr

/-- `RepeatedTask::stop`, up to the await of the handle. -/
def stopSection (task : RepeatedTask) : RepeatedTask × StopNext :=
  if task.inner.poisoned then (task, .done .panicked)
  else if task.inner.val.taskHandle.isNone then (task, .done (.ok ()))
  else
    let task := { task with cancelToken := true, started := false }
    -- `inner.task_handle.take().unwrap()`
    match task.inner.val.taskHandle with
    | none => (task.poison, .done .panicked)
    | some handle =>
        ({ task with
            inner := { task.inner with val := { task.inner.val with taskHandle := none } } },
          .await handle)

/-- `RepeatedTask::stop`, from the end of the await on. -/
def stopJoined (task : RepeatedTask) : Except JoinError Unit → Ret Unit
  | .ok () => .ok ()
  | .error error => .err (.waitGcTaskStop task.name error)

/-- `RepeatedTask::drop`; the poisoned case panics before it does anything. -/
def drop (task : RepeatedTask) : RepeatedTask :=
  if task.inner.poisoned then task
  else if task.inner.val.taskHandle.isSome then { task with cancelToken := true }
  else task

end RepeatedTask

end RsRun
