import RsRun.ExecutorSystem

/-!
# Runtimes, tasks, and the blocker threads

The program of `ExecutorSystem`, together with the threads that `Builder::build` spawns.
A blocker thread owns a tokio runtime until it receives the signal of the dropper; then
it comes back from `block_on`, and takes the tokio runtime with it.
-/

namespace RsRun.BlockerSystem

/-- What the program does, or a blocker thread. -/
inductive Action where
  | program (a : ExecutorSystem.Action)
  /-- The blocker of executor `i` receives the signal. -/
  | release (i : Nat)

/-- One step. -/
def step (w : ExecutorSystem.World) :
    Action → Option (ExecutorSystem.World × List ExecutorSystem.Event)
  | .program a => ExecutorSystem.step w a
  | .release i =>
      match w.executors[i]? with
      | some e =>
          if e.blocked && e.closeSent then
            some ({ w with executors := w.executors.set i { e with blocked := false } }, [])
          else none
      | none => none

/-- A program that has done nothing yet. -/
def system : Lts ExecutorSystem.World Action ExecutorSystem.Event where
  init := ExecutorSystem.system.init
  step := step

end RsRun.BlockerSystem
