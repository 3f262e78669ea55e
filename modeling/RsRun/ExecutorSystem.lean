import RsRun.Lib.Lts
import RsRun.RepeatedTask
import RsRun.Runtime

/-!
# Runtimes and the tasks that run on them

A program builds, clones and drops `Runtime`s, and makes, starts, stops and drops
`RepeatedTask`s. A `Runtime` is a value in a slot: a clone goes to a new slot, and a
drop empties one. `start` takes its `Runtime` by value, so it empties the slot as well,
however it ends.
-/

namespace RsRun.ExecutorSystem

/-- A task, and the executor its loop was spawned on. -/
structure TaskSlot where
  task : RepeatedTask
  spawnedOn : Option Nat
  dropped : Bool

/-- What the handles lead to, the program's `Runtime`s, and its tasks. -/
structure World where
  executors : List Executor
  runtimes : List (Option Runtime)
  tasks : List TaskSlot

/-- What the program can do. -/
inductive Action where
  | build (b : Builder) (outcome : BuildOutcome)
  | clone (r : Nat)
  | drop (r : Nat)
  | newTask (interval : Nat) (initialDelay : Option Nat) (taskFn : TaskFunction)
  | start (k : Nat) (r : Nat)
  | stop (k : Nat) (joined : Except JoinError Unit)
  | dropTask (k : Nat)

/-- What the program sees of it. -/
inductive Event where
  | built (r : Ret Runtime)
  | started (k : Nat) (r : Ret Unit)
  | stopped (k : Nat) (r : Ret Unit)

/-- The `Runtime` in slot `r` goes out of scope. -/
def World.release (w : World) (r : Nat) (runtime : Runtime) : World :=
  { w with
    runtimes := w.runtimes.set r none
    executors := w.executors.modify runtime.handle.id Executor.drop }

/-- One step. -/
def step (w : World) : Action → Option (World × List Event)
  | .build b outcome =>
      match b.build outcome w.executors.length with
      | (.ok runtime, some executor) =>
          some ({ w with
            executors := w.executors ++ [executor]
            runtimes := w.runtimes ++ [some runtime] }, [.built (.ok runtime)])
      | (res, _) => some (w, [.built res])
  | .clone r =>
      match w.runtimes[r]? with
      | some (some runtime) =>
          some ({ w with
            executors := w.executors.modify runtime.handle.id Executor.clone
            runtimes := w.runtimes ++ [some runtime] }, [])
      | _ => none
  | .drop r =>
      match w.runtimes[r]? with
      | some (some runtime) => some (w.release r runtime, [])
      | _ => none
  | .newTask interval initialDelay taskFn =>
      some ({ w with tasks := w.tasks ++
        [{ task := (RepeatedTask.new interval taskFn).withInitialDelay initialDelay
           spawnedOn := none
           dropped := false }] }, [])
  | .start k r =>
      match w.tasks[k]?, w.runtimes[r]? with
      | some slot, some (some runtime) =>
          if slot.dropped then none
          else
            match slot.task.start k with
            | (task, res, spawned) =>
                let spawnedOn := if spawned.isSome then some runtime.handle.id else slot.spawnedOn
                let w := { w with
                  tasks := w.tasks.set k { slot with task := task, spawnedOn := spawnedOn } }
                -- `start` owns its `Runtime`, and keeps only the join handle
                some (w.release r runtime, [.started k res])
      | _, _ => none
  | .stop k joined =>
      match w.tasks[k]? with
      | some slot =>
          if slot.dropped then none
          else
            match slot.task.stopSection with
            | (task, .done res) =>
                some ({ w with tasks := w.tasks.set k { slot with task := task } },
                  [.stopped k res])
            | (task, .await _) =>
                some ({ w with tasks := w.tasks.set k { slot with task := task } },
                  [.stopped k (task.stopJoined joined)])
      | none => none
  | .dropTask k =>
      match w.tasks[k]? with
      | some slot =>
          if slot.dropped then none
          else
            some ({ w with
              tasks := w.tasks.set k { slot with task := slot.task.drop, dropped := true } }, [])
      | none => none

/-- A program that has done nothing yet. -/
def system : Lts World Action Event where
  init := { executors := [], runtimes := [], tasks := [] }
  step := step

end RsRun.ExecutorSystem
