import RsRun.Lib.Lts
import RsRun.Global

/-!
# Everybody who uses the global runtimes

Any number of threads call `init_global_runtimes` or ask for a global runtime. A call
enters its one-shot static, runs the closure under the mutex if it is the first there,
and then publishes what came of it; between these steps the other threads do theirs.
When a closure panics, the guard poisons the mutex first and the static is poisoned
afterwards, by the step that publishes.

`Statics.call` is a whole call that nobody interferes with.
-/

namespace RsRun.Global

open Sync

/-- What a thread calls. -/
inductive Op where
  | init (options : RuntimeOptions)
  | use (kind : Kind)
deriving DecidableEq, Repr

/-- What a call returns; `init` returns nothing. -/
abbrev Answer := Ret (Option Runtime)

/-- What `init_global_runtimes` makes of the state of `START`. -/
def initAnswer : Option Unit → Answer
  | some () => .ok none
  | none => .panicked

/-- What `read_runtime()` and its siblings make of the state of `GLOBAL_RUNTIMES`. -/
def useAnswer (kind : Kind) : Option GlobalRuntimes → Answer
  | some g => .ok (some (g.get kind))
  | none => .panicked

/-! ## Threads -/

/-- A call, and its answer once it has one. -/
structure Call where
  op : Op
  answer : Option Answer
deriving DecidableEq, Repr

/-- The statics, and all calls so far. -/
structure World where
  statics : Statics
  calls : List Call
deriving DecidableEq, Repr

/-- What can happen. -/
inductive Action where
  | call (op : Op)
  /-- Call `c` comes to its static. -/
  | enter (c : Nat)
  /-- Call `c` runs its closure; the creations end as `outcome` says. -/
  | run (c : Nat) (outcome : Kind → BuildOutcome)
  /-- Call `c` publishes what its closure came to. -/
  | leave (c : Nat)

/-- What an observer sees. -/
inductive Event where
  | created (c : Nat) (kind : Kind) (runtime : Runtime)
  | answered (c : Nat) (answer : Answer)
deriving DecidableEq, Repr

/-- Call `c` returns. -/
def World.answer (w : World) (c : Nat) (op : Op) (answer : Answer) : World × List Event :=
  ({ w with calls := w.calls.set c { op := op, answer := some answer } }, [.answered c answer])

/-- What call `c` created. -/
def createdBy (c : Nat) (made : Made) : List Event :=
  made.map (fun m => .created c m.1 m.2)

/-- One step. -/
def step (w : World) : Action → Option (World × List Event)
  | .call op => some ({ w with calls := w.calls ++ [{ op := op, answer := none }] }, [])
  | .enter c =>
      match w.calls[c]? with
      | some { op := .init options, answer := none } =>
          match w.statics.start.enter c with
          | none => none
          | some (start, none) => some ({ w with statics := { w.statics with start := start } }, [])
          | some (_, some res) => some (w.answer c (.init options) (initAnswer res))
      | some { op := .use kind, answer := none } =>
          match w.statics.global.enter c with
          | none => none
          | some (global, none) =>
              some ({ w with statics := { w.statics with global := global } }, [])
          | some (_, some res) => some (w.answer c (.use kind) (useAnswer kind res))
      | _ => none
  | .run c outcome =>
      match w.calls[c]? with
      | some { op := .init options, answer := none } =>
          match w.statics.runInit options outcome with
          | (statics, made, res) =>
              match w.statics.start.close c res with
              | none => none
              | some start =>
                  some ({ w with statics := { statics with start := start } }, createdBy c made)
      | some { op := .use _, answer := none } =>
          match w.statics.runGlobal outcome with
          | (statics, made, res) =>
              match w.statics.global.close c res with
              | none => none
              | some global =>
                  some ({ w with statics := { statics with global := global } }, createdBy c made)
      | _ => none
  | .leave c =>
      match w.calls[c]? with
      | some { op := .init options, answer := none } =>
          match w.statics.start.leave c with
          | none => none
          | some (start, res) =>
              some ({ w with statics := { w.statics with start := start } }.answer c
                (.init options) (initAnswer res))
      | some { op := .use kind, answer := none } =>
          match w.statics.global.leave c with
          | none => none
          | some (global, res) =>
              some ({ w with statics := { w.statics with global := global } }.answer c
                (.use kind) (useAnswer kind res))
      | _ => none

/-- A program in which nobody has called anything yet. -/
def system : Lts World Action Event where
  init := { statics := Statics.init, calls := [] }
  step := step

/-! ## Whole calls -/

/-- A call that has the statics to itself; `none` blocks for ever. -/
def Statics.call (s : Statics) (op : Op) (outcome : Kind → BuildOutcome) :
    Option (Statics × Answer) :=
  match op with
  | .init options =>
      match s.start with
      | .ready () => some (s, initAnswer (some ()))
      | .poisoned => some (s, initAnswer none)
      | .running _ _ => none
      | .incomplete =>
          match s.runInit options outcome with
          | (s, _, res) => some ({ s with start := OneShot.publish res }, initAnswer res)
  | .use kind =>
      match s.global with
      | .ready g => some (s, useAnswer kind (some g))
      | .poisoned => some (s, useAnswer kind none)
      | .running _ _ => none
      | .incomplete =>
          match s.runGlobal outcome with
          | (s, _, res) => some ({ s with global := OneShot.publish res }, useAnswer kind res)

/-- Every build succeeds. -/
def granted (_ : Kind) : BuildOutcome := { tokio := .ok, blocker := .ok }

theorem granted_succeeds (kind : Kind) : (granted kind).Succeeds := ⟨rfl, by simp [granted]⟩

/-- The statics after a history of calls, one after the other, whose builds succeed. -/
def Statics.replay (s : Statics) : List Op → Option Statics
  | [] => some s
  | op :: ops =>
      match s.call op granted with
      | none => none
      | some (s, _) => s.replay ops

/-- What a call returns after a history of calls. -/
def answerAfter (before : List Op) (op : Op) : Option Answer :=
  match Statics.init.replay before with
  | none => none
  | some s =>
      match s.call op granted with
      | none => none
      | some (_, answer) => some answer

end RsRun.Global
