import RsRun.GlobalSystem
import RsRun.Lib.Heap

/-!
# Everybody who owns a runtime

A program builds, clones and drops `Runtime`s of its own, and uses the global ones: it asks
for a clone of one, or hands it work. A `Runtime` has its owner in a variable of the
program, in the configuration under its mutex, or in `GLOBAL_RUNTIMES`. A closure that
panics drops what it owned: the one of `GLOBAL_RUNTIMES` has taken the runtimes out of the
configuration by then, the one of `init_global_runtimes` has put them there.
-/

namespace RsRun

/-- What reaches a tokio runtime through a handle. -/
inductive Work (ψ : Type*) where
  | spawn (future : ψ)
  | spawnBlocking (func : ψ)
  | blockOn (future : ψ)
deriving DecidableEq, Repr

/-- Work, and the executor it was handed to. -/
structure Submission (ψ : Type*) where
  executor : Nat
  work : Work ψ
deriving DecidableEq, Repr

section
variable {ψ : Type*}

/-- `Runtime::spawn`. -/
def Runtime.spawn (self : Runtime) (future : ψ) : Submission ψ := ⟨self.handle.id, .spawn future⟩

/-- `Runtime::spawn_blocking`. -/
def Runtime.spawnBlocking (self : Runtime) (func : ψ) : Submission ψ :=
  ⟨self.handle.id, .spawnBlocking func⟩

/-- `Runtime::block_on`. -/
def Runtime.blockOn (self : Runtime) (future : ψ) : Submission ψ :=
  ⟨self.handle.id, .blockOn future⟩

end

/-- The blocker thread comes back from `block_on`, and takes the tokio runtime with it. -/
def Executor.released (e : Executor) : Executor := { e with blocked := false }

namespace Global

/-- The runtimes in a configuration. -/
def ConfigRuntimes.slots (c : ConfigRuntimes) : List (Option Runtime) :=
  [c.readRuntime, c.writeRuntime, c.bgRuntime, c.hbRuntime]

/-- The runtimes in `GLOBAL_RUNTIMES`, once its closure is over. -/
def Statics.globalSlots (s : Statics) : List (Option Runtime) :=
  match s.global.decided with
  | some (some g) => [some g.readRuntime, some g.writeRuntime, some g.bgRuntime, some g.hbRuntime]
  | _ => []

/--
What the closure of `GLOBAL_RUNTIMES` drops: nothing, unless it panics with runtimes that
it took or created.
-/
def Statics.unwound (s : Statics) (outcome : Kind → BuildOutcome) : List Runtime :=
  if s.config.poisoned then []
  else
    match (globalClosure s.config.val outcome s.handles).2 with
    | (made, none) => s.config.val.slots.filterMap id ++ made.map Prod.snd
    | (_, some _) => []

end Global

namespace OwnerSystem

open Global

variable {ψ : Type*}

/-- What a program calls; each of these functions but the first exists for every kind. -/
inductive Request (ψ : Type*) where
  /-- `init_global_runtimes`. -/
  | init (options : RuntimeOptions)
  /-- `read_runtime()`. -/
  | runtime (kind : Kind)
  /-- `spawn_read(future)`. -/
  | spawn (kind : Kind) (future : ψ)
  /-- `spawn_blocking_read(func)`. -/
  | spawnBlocking (kind : Kind) (func : ψ)
  /-- `block_on_read(future)`. -/
  | blockOn (kind : Kind) (future : ψ)
deriving DecidableEq, Repr

/-- What the statics see of a request. -/
def Request.op : Request ψ → Op
  | .init options => .init options
  | .runtime kind => .use kind
  | .spawn kind _ => .use kind
  | .spawnBlocking kind _ => .use kind
  | .blockOn kind _ => .use kind

/-- The statics, all requests so far, what the handles lead to, and the program's variables. -/
structure World (ψ : Type*) where
  global : Global.World
  requests : List (Request ψ)
  executors : Nat → Option Executor
  runtimes : List (Option Runtime)

/-- What can happen. -/
inductive Action (ψ : Type*) where
  | call (q : Request ψ)
  | enter (c : Nat)
  | run (c : Nat) (outcome : Kind → BuildOutcome)
  | leave (c : Nat)
  | build (b : Builder) (outcome : BuildOutcome)
  | clone (r : Nat)
  | drop (r : Nat)
  | spawn (r : Nat) (future : ψ)
  | spawnBlocking (r : Nat) (func : ψ)
  | blockOn (r : Nat) (future : ψ)
  /-- The blocker thread of executor `i` receives the signal. -/
  | release (i : Nat)

/-- What an observer sees. -/
inductive Event (ψ : Type*) where
  | global (e : Global.Event)
  | built (r : Ret Runtime)
  /-- A clone of the global runtime of a kind was returned. -/
  | cloned (kind : Kind) (runtime : Runtime)
  /-- Work was handed to the global runtime of a kind. -/
  | served (kind : Kind) (s : Submission ψ)
  /-- Work was handed to a runtime of the program's own. -/
  | submitted (s : Submission ψ)
deriving DecidableEq, Repr

/-- All that owns a runtime, or may own one. -/
def World.slots (w : World ψ) : List (Option Runtime) :=
  w.runtimes ++ w.global.statics.config.val.slots ++ w.global.statics.globalSlots

/-- How many owners an executor has. -/
def World.owners (w : World ψ) (i : Nat) : Nat :=
  RefCount.shares (fun runtime => runtime.handle.id) i w.slots

/-- What is done with the global runtime that `GLOBAL_RUNTIMES` was dereferenced for. -/
def World.serve (w : World ψ) (runtime : Runtime) : Request ψ → World ψ × List (Event ψ)
  | .init _ => (w, [])
  | .runtime kind =>
      ({ w with
          executors := RefCount.tell Executor.clone w.executors runtime.handle.id
          runtimes := w.runtimes ++ [some runtime] }, [.cloned kind runtime])
  | .spawn kind future => (w, [.served kind (runtime.spawn future)])
  | .spawnBlocking kind func => (w, [.served kind (runtime.spawnBlocking func)])
  | .blockOn kind future => (w, [.served kind (runtime.blockOn future)])

/-- What a call goes on to do with its answer, if it has one. -/
def World.answered (w : World ψ) : List Global.Event → World ψ × List (Event ψ)
  | [.answered c answer] =>
      match answer, w.requests[c]? with
      | .ok (some runtime), some q =>
          match w.serve runtime q with
          | (w, es) => (w, .global (.answered c answer) :: es)
      | _, _ => (w, [.global (.answered c answer)])
  | es => (w, es.map .global)

/-- The runtimes that a closure created. -/
def creations (es : List Global.Event) : List (Kind × Runtime) :=
  es.filterMap (fun e => match e with
    | .created _ kind runtime => some (kind, runtime)
    | .answered _ _ => none)

/-- The runtimes that the closure of call `c` drops. -/
def World.unwound (w : World ψ) (c : Nat) (outcome : Kind → BuildOutcome) : List Runtime :=
  match w.global.calls[c]? with
  | some { op := .use _, answer := _ } => w.global.statics.unwound outcome
  | _ => []

/-- A number is used up for the handle of a runtime of the program's own. -/
def World.bump (w : World ψ) : Global.World :=
  { w.global with statics := { w.global.statics with handles := w.global.statics.handles + 1 } }

/-- A runtime of the program's own is handed work. -/
def World.submit (w : World ψ) (r : Nat) (work : Runtime → Submission ψ) :
    Option (World ψ × List (Event ψ)) :=
  match w.runtimes[r]? with
  | some (some runtime) => some (w, [.submitted (work runtime)])
  | _ => none

/-- One step. -/
def step (w : World ψ) : Action ψ → Option (World ψ × List (Event ψ))
  | .call q =>
      match Global.step w.global (.call q.op) with
      | none => none
      | some (global, es) =>
          some ({ w with global := global, requests := w.requests ++ [q] }, es.map .global)
  | .enter c =>
      match Global.step w.global (.enter c) with
      | none => none
      | some (global, es) => some ({ w with global := global }.answered es)
  | .run c outcome =>
      match Global.step w.global (.run c outcome) with
      | none => none
      | some (global, es) =>
          let cells := (creations es).map (fun x => (x.2.handle.id, (outcome x.1).executor))
          some ({ w with
            global := global
            executors := RefCount.tellAll Executor.drop (RefCount.putAll w.executors cells)
              ((w.unwound c outcome).map (fun runtime => runtime.handle.id)) }, es.map .global)
  | .leave c =>
      match Global.step w.global (.leave c) with
      | none => none
      | some (global, es) => some ({ w with global := global }.answered es)
  | .build b outcome =>
      match b.build outcome w.global.statics.handles with
      | (.ok runtime, some executor) =>
          some ({ w with
            global := w.bump
            executors := RefCount.put w.executors (runtime.handle.id, executor)
            runtimes := w.runtimes ++ [some runtime] }, [.built (.ok runtime)])
      | (res, _) => some (w, [.built res])
  | .clone r =>
      match w.runtimes[r]? with
      | some (some runtime) =>
          some ({ w with
            executors := RefCount.tell Executor.clone w.executors runtime.handle.id
            runtimes := w.runtimes ++ [some runtime] }, [])
      | _ => none
  | .drop r =>
      match w.runtimes[r]? with
      | some (some runtime) =>
          some ({ w with
            executors := RefCount.tell Executor.drop w.executors runtime.handle.id
            runtimes := w.runtimes.set r none }, [])
      | _ => none
  | .spawn r future => w.submit r (fun runtime => runtime.spawn future)
  | .spawnBlocking r func => w.submit r (fun runtime => runtime.spawnBlocking func)
  | .blockOn r future => w.submit r (fun runtime => runtime.blockOn future)
  | .release i =>
      match w.executors i with
      | some e =>
          if e.blocked && e.closeSent then
            some ({ w with executors := RefCount.tell Executor.released w.executors i }, [])
          else none
      | none => none

/-- A program that has done nothing yet. -/
def system (ψ : Type*) : Lts (World ψ) (Action ψ) (Event ψ) where
  init :=
    { global := Global.system.init
      requests := []
      executors := fun _ => none
      runtimes := [] }
  step := step

/-! ## Who is told to shut down -/

/-- The droppers tell the truth about the owners. -/
structure Accounted (w : World ψ) : Prop where
  /-- The strong count of a dropper is the number of its owners. -/
  droppers : ∀ i e, w.executors i = some e → e.droppers = w.owners i
  /-- An executor has been told to shut down once nobody owns it any more, and not before. -/
  closeSent : ∀ i e, w.executors i = some e →
    (e.closeSent = true ↔ ∀ runtime, some runtime ∈ w.slots → runtime.handle.id ≠ i)
  /-- Whoever owns a runtime owns one that is there, and has not been told to shut down. -/
  there : ∀ runtime, some runtime ∈ w.slots →
    ∃ e, w.executors runtime.handle.id = some e ∧ e.closeSent = false

/-- Work is handed to an executor. -/
def Hands (t : List (Event ψ)) (s : Submission ψ) : Prop :=
  .submitted s ∈ t ∨ ∃ kind, .served kind s ∈ t

/-- Clones and work go where the runtimes `route` are. -/
def RoutedBy (route : Kind → Runtime) : Event ψ → Prop
  | .cloned kind runtime => runtime = route kind
  | .served kind s => s.executor = (route kind).handle.id
  | _ => True

/-- Call `c` asked for a global runtime, and the closure that makes them panicked. -/
def FailedUse (w : World ψ) (c : Nat) : Prop :=
  (∃ q, w.requests[c]? = some q ∧ ∃ kind, q.op = .use kind)
    ∧ w.global.statics.global.decided = some none

end OwnerSystem

end RsRun
