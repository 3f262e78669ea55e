import RsRun.Lib.Scheduled
import RsRun.TaskSystem

/-!
# The loop, as the runtime polls it

The future that `start` spawns does not run from await to await: the runtime polls it, and
it runs until one of the futures it waits for is not ready. Here the same task and the same
callers are put together with the loop at that level. Whatever else happens may happen
between any two actions of a poll. A timer and a token know whom to wake once they have
been polled, and not before.
-/

namespace RsRun

open Sched

/-- The two futures of `select!`, and how far the poll of it has come. -/
structure Select where
  /-- Is this the first poll of it? -/
  first : Bool
  /-- Has this poll polled the sleep, which was not ready? -/
  slept : Bool
  /-- Has this poll polled `child.cancelled()`, which was not ready? -/
  listened : Bool
  /-- Does the timer hold the waker of the task? -/
  armed : Bool
  /-- Has it called it? -/
  fired : Bool
  /-- Does the token hold the waker of the task? -/
  listening : Bool
deriving DecidableEq, Repr

/-- Both futures are made anew for each `select!`. -/
def Select.new : Select :=
  { first := true, slept := false, listened := false
    armed := false, fired := false, listening := false }

/-- The next poll of the same `select!`. -/
def Select.again (s : Select) : Select :=
  { s with first := false, slept := false, listened := false }

/-- The spawned loop, and what the runtime keeps about it. -/
structure LoopTask where
  loop : Loop
  select : Select
  /-- Has the call that is in progress kept the waker of the task? -/
  kept : Bool
  run : Run
deriving DecidableEq, Repr

/-- What a poll of the sleep comes back with. -/
inductive SleepAnswer where
  | ready
  | pending
  /-- The budget of the task is spent, and it has been woken. -/
  | spent
deriving DecidableEq, Repr

/-- What a poll of the call comes back with. -/
inductive CallAnswer where
  | pending
  | done (ok : Bool)
deriving DecidableEq, Repr

/-- What the task does when it is polled, one action at a time. -/
inductive PollStep where
  /-- The runtime takes it out of the run queue. -/
  | begin
  /-- From the head of `loop` to the first future there. -/
  | head
  /-- `select!` polls the sleep. -/
  | sleep (answer : SleepAnswer)
  /-- `select!` polls `child.cancelled()`. -/
  | token
  /-- `select!` has polled both. -/
  | giveBack
  /-- The call is polled. -/
  | call (answer : CallAnswer)
deriving DecidableEq, Repr

namespace LoopTask

/-- A loop that was just spawned. -/
def new (loop : Loop) : LoopTask :=
  { loop := loop, select := .new, kept := false, run := .queued }

/-- A waker of the task is called. -/
def wake (t : LoopTask) : LoopTask := { t with run := t.run.wake }

/-- The token is cancelled, and calls the wakers it holds. -/
def cancelled (t : LoopTask) : LoopTask := if t.select.listening then t.wake else t

/-- `select!` is over, or there was none, and `task_fn.call()` is made. -/
def toCall (t : LoopTask) : LoopTask :=
  { t with loop := { t.loop with phase := .calling }, select := .new, kept := false }

/-- The loop is over. -/
def ended (t : LoopTask) (phase : Phase) : LoopTask :=
  { t with loop := { t.loop with phase := phase }, run := .idle }

/-- From the head of `loop` to the first future there. -/
def head (now : Nat) (t : LoopTask) : LoopTask × List LoopEvent :=
  let sleepTime := t.loop.initialDelay.getD t.loop.interval
  let t := { t with loop := { t.loop with initialDelay := none } }
  if 0 < sleepTime then
    ({ t with
        loop := { t.loop with phase := .sleeping (now + sleepTime) }
        select := .new }, [])
  else (t.toCall, [.callBegin])

/--
One action of a poll, at time `now`. A sleep that is polled for the first time is not ready;
after that it may be ready once it has elapsed, and must be once its timer has fired.
-/
def step (cancelled : Bool) (now : Nat) (t : LoopTask) :
    PollStep → Option (LoopTask × List LoopEvent)
  | .begin =>
      match t.loop.phase.joined, t.run with
      | none, .queued => some ({ t with run := .running, select := t.select.again }, [])
      | _, _ => none
  | .head =>
      match t.loop.phase with
      | .top => if t.run.polling then some (t.head now) else none
      | _ => none
  | .sleep answer =>
      match t.loop.phase with
      | .sleeping till =>
          if t.run.polling && !t.select.slept then
            match answer with
            | .ready =>
                if !t.select.first && decide (till ≤ now) then some (t.toCall, [.callBegin])
                else none
            | .pending =>
                if t.select.fired then none
                else some ({ t with select := { t.select with slept := true, armed := true } }, [])
            | .spent => some ({ t with select := { t.select with slept := true } }.wake, [])
          else none
      | _ => none
  | .token =>
      match t.loop.phase with
      | .sleeping _ =>
          if t.run.polling && !t.select.listened then
            if cancelled then some (t.ended .returned, [.loopReturned])
            else
              some ({ t with select := { t.select with listened := true, listening := true } }, [])
          else none
      | _ => none
  | .giveBack =>
      match t.loop.phase with
      | .sleeping _ =>
          if t.run.polling && t.select.slept && t.select.listened then
            some ({ t with run := t.run.park }, [])
          else none
      | _ => none
  | .call answer =>
      match t.loop.phase with
      | .calling =>
          if t.run.polling then
            match answer with
            | .pending => some ({ t with kept := true, run := t.run.park }, [])
            | .done ok => some ({ t with loop := { t.loop with phase := .top } }, [.callEnd ok])
          else none
      | _ => none

end LoopTask

namespace PollSystem

open TaskSystem (StopCall Event)

/-- The task, its spawned loops, and all calls of `stop` so far. -/
structure World where
  task : RepeatedTask
  dropped : Bool
  loops : List LoopTask
  stops : List StopCall
  now : Nat

/-- What can happen. -/
inductive Action where
  | start
  | started
  | stopCall
  | stopLock (c : Nat)
  | stopJoin (c : Nat)
  | stopDrop (c : Nat)
  | drop
  | poll (i : Nat) (a : PollStep)
  /-- The call that loop `i` polls panics. -/
  | panic (i : Nat)
  /-- The runtime drops loop `i`, which nobody polls. -/
  | abort (i : Nat)
  /-- The timer of loop `i` elapses. -/
  | fire (i : Nat)
  /-- Whoever has a waker of loop `i` calls it. -/
  | wake (i : Nat)
  | tick (n : Nat)
deriving DecidableEq, Repr

/-- The task was replaced; if that cancelled its token, the loops hear of it. -/
def World.setTask (w : World) (task : RepeatedTask) : World :=
  { w with
    task := task
    loops :=
      if task.cancelToken && !w.task.cancelToken then w.loops.map LoopTask.cancelled else w.loops }

/-- A loop is replaced. -/
def World.put (w : World) (i : Nat) (l : LoopTask) : World := { w with loops := w.loops.set i l }

/-- One step. -/
def step (w : World) : Action → Option (World × List Event)
  | .start =>
      if w.dropped then none
      else
        match w.task.start w.loops.length with
        | (task, r, spawned) =>
            some ({ w with
              task := task
              loops := w.loops ++ (spawned.map LoopTask.new).toList }, [.startRet r])
  | .started => if w.dropped then none else some (w, [.startedIs w.task.started])
  | .stopCall =>
      if w.dropped then none
      else some ({ w with stops := w.stops ++ [.called] }, [.stopCalled w.stops.length])
  | .stopLock c =>
      match w.stops[c]? with
      | some .called =>
          match w.task.stopSection with
          | (task, .done r) =>
              some ({ w.setTask task with stops := w.stops.set c (.returned r) }, [.stopRet c r])
          | (task, .await handle) =>
              some ({ w.setTask task with stops := w.stops.set c (.waiting handle) }, [])
      | _ => none
  | .stopJoin c =>
      match w.stops[c]? with
      | some (.waiting handle) =>
          match (w.loops[handle]?).bind (fun l => l.loop.phase.joined) with
          | some res =>
              some ({ w with stops := w.stops.set c (.joined (w.task.stopJoined res)) },
                [.stopRet c (w.task.stopJoined res)])
          | none => none
      | _ => none
  | .stopDrop c =>
      match w.stops[c]? with
      | some .called => some ({ w with stops := w.stops.set c (.dropped none) }, [])
      | some (.waiting handle) =>
          some ({ w with stops := w.stops.set c (.dropped (some handle)) }, [])
      | _ => none
  | .drop =>
      if w.dropped || w.stops.any StopCall.inFlight then none
      else some ({ w.setTask w.task.drop with dropped := true }, [])
  | .poll i a =>
      match w.loops[i]? with
      | none => none
      | some l =>
          match l.step w.task.cancelToken w.now a with
          | none => none
          | some (l, es) => some (w.put i l, es.map (.loop i))
  | .panic i =>
      match w.loops[i]? with
      | none => none
      | some l =>
          if l.loop.phase = .calling ∧ l.run.polling = true then
            some (w.put i (l.ended .panicked), [.loopDied i])
          else none
  | .abort i =>
      match w.loops[i]? with
      | none => none
      | some l =>
          if l.loop.phase.joined = none ∧ l.run.polling = false then
            some (w.put i (l.ended .aborted), [.loopDied i])
          else none
  | .fire i =>
      match w.loops[i]? with
      | none => none
      | some l =>
          match l.loop.phase with
          | .sleeping till =>
              if l.select.armed ∧ l.select.fired = false ∧ till ≤ w.now then
                some (w.put i { l with select := { l.select with fired := true } }.wake, [])
              else none
          | _ => none
  | .wake i =>
      match w.loops[i]? with
      | none => none
      | some l => some (w.put i l.wake, [])
  | .tick n => some ({ w with now := w.now + n }, [])

/-- A task as `new` and `with_initial_delay` make it, which nobody has used yet. -/
def World.new (interval : Nat) (initialDelay : Option Nat) (taskFn : TaskFunction) : World :=
  { task := (RepeatedTask.new interval taskFn).withInitialDelay initialDelay
    dropped := false
    loops := []
    stops := []
    now := 0 }

/-- Everything that can be done with one task, with its loop polled by a runtime. -/
def system (interval : Nat) (initialDelay : Option Nat) (taskFn : TaskFunction) :
    Lts World Action Event where
  init := World.new interval initialDelay taskFn
  step := step

end PollSystem

end RsRun
