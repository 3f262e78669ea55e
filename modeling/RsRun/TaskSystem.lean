import RsRun.Lib.Lts
import RsRun.RepeatedTask

/-!
# One `RepeatedTask` and everybody who uses it

Any number of callers start, stop and query one task, while the loop it spawned
runs. A section under the inner mutex is one step. A `stop` call is known by the
position it was made in, and stays on record after it is over; its future can be
dropped at any await. The task itself can be dropped when no call borrows it.
-/

namespace RsRun.TaskSystem

/-- How far a call of `stop` has come. -/
inductive StopCall where
  /-- It has begun, and has not come to the mutex yet. -/
  | called
  /-- It took the handle and awaits it. -/
  | waiting (handle : JoinHandle)
  /-- It awaited the handle, and returned. -/
  | joined (r : Ret Unit)
  /-- It did not find a handle to await, and returned (or panicked). -/
  | returned (r : Ret Unit)
  /-- Its future was dropped, with the handle it may have taken. -/
  | dropped (handle : Option JoinHandle)
deriving DecidableEq, Repr

/-- Does the call still borrow the task? -/
def StopCall.inFlight : StopCall → Bool
  | .called => true
  | .waiting _ => true
  | _ => false

/-- Did the call take the handle out? -/
def StopCall.took : StopCall → Bool
  | .waiting _ => true
  | .joined _ => true
  | .dropped (some _) => true
  | _ => false

/-- Did the call take the handle out, without having learned yet that the loop is over? -/
def StopCall.unsettled : StopCall → Bool
  | .waiting _ => true
  | .dropped (some _) => true
  | _ => false

/-- The task, its spawned loops, and all calls of `stop` so far. -/
structure World where
  task : RepeatedTask
  dropped : Bool
  loops : List Loop
  stops : List StopCall
  now : Nat

/-- What can happen. -/
inductive Action where
  | start
  | started
  | stopCall
  | stopLock (c : Nat)
  | stopJoin (c : Nat)
  | stopDrop (c : Nat)
  | drop
  | loop (i : Nat) (a : LoopStep)
  | loopPanics (i : Nat)
  | loopAborts (i : Nat)
  | tick (n : Nat)
deriving DecidableEq, Repr

/-- What an observer sees. -/
inductive Event where
  | startRet (r : Ret Unit)
  | startedIs (b : Bool)
  | stopCalled (c : Nat)
  | stopRet (c : Nat) (r : Ret Unit)
  | loop (i : Nat) (e : LoopEvent)
  | loopDied (i : Nat)
deriving DecidableEq, Repr

/-- A loop that is at `phase` from now on. -/
def World.setPhase (w : World) (i : Nat) (l : Loop) (phase : Phase) : World :=
  { w with loops := w.loops.set i { l with phase := phase } }

/-- One step. -/
def step (w : World) : Action → Option (World × List Event)
  | .start =>
      if w.dropped then none
      else
        match w.task.start w.loops.length with
        | (task, r, spawned) =>
            some ({ w with task := task, loops := w.loops ++ spawned.toList }, [.startRet r])
  | .started => if w.dropped then none else some (w, [.startedIs w.task.started])
  | .stopCall =>
      if w.dropped then none
      else some ({ w with stops := w.stops ++ [.called] }, [.stopCalled w.stops.length])
  -- from the lock to the await, or to the end where there is no handle
  | .stopLock c =>
      match w.stops[c]? with
      | some .called =>
          match w.task.stopSection with
          | (task, .done r) =>
              some ({ w with task := task, stops := w.stops.set c (.returned r) }, [.stopRet c r])
          | (task, .await handle) =>
              some ({ w with task := task, stops := w.stops.set c (.waiting handle) }, [])
      | _ => none
  | .stopJoin c =>
      match w.stops[c]? with
      | some (.waiting handle) =>
          match (w.loops[handle]?).bind (fun l => l.phase.joined) with
          | some res =>
              some ({ w with stops := w.stops.set c (.joined (w.task.stopJoined res)) },
                [.stopRet c (w.task.stopJoined res)])
          | none => none
      | _ => none
  | .stopDrop c =>
      match w.stops[c]? with
      | some .called => some ({ w with stops := w.stops.set c (.dropped none) }, [])
      | some (.waiting handle) =>
          some ({ w with stops := w.stops.set c (.dropped (some handle)) }, [])
      | _ => none
  -- a call that is in flight borrows the task
  | .drop =>
      if w.dropped || w.stops.any StopCall.inFlight then none
      else some ({ w with task := w.task.drop, dropped := true }, [])
  | .loop i a =>
      match w.loops[i]? with
      | none => none
      | some l =>
          match l.step w.task.cancelToken w.now a with
          | none => none
          | some (l, es) => some ({ w with loops := w.loops.set i l }, es.map (.loop i))
  | .loopPanics i =>
      match w.loops[i]? with
      | none => none
      | some l =>
          if l.phase = .calling then some (w.setPhase i l .panicked, [.loopDied i]) else none
  | .loopAborts i =>
      match w.loops[i]? with
      | none => none
      | some l =>
          if l.phase.joined = none then some (w.setPhase i l .aborted, [.loopDied i]) else none
  | .tick n => some ({ w with now := w.now + n }, [])

/-- A task as `new` and `with_initial_delay` make it, which nobody has used yet. -/
def World.new (interval : Nat) (initialDelay : Option Nat) (taskFn : TaskFunction) : World :=
  { task := (RepeatedTask.new interval taskFn).withInitialDelay initialDelay
    dropped := false
    loops := []
    stops := []
    now := 0 }

/-- Everything that can be done with one task. -/
def system (interval : Nat) (initialDelay : Option Nat) (taskFn : TaskFunction) :
    Lts World Action Event where
  init := World.new interval initialDelay taskFn
  step := step

end RsRun.TaskSystem
