import RsRun.Error

/-!
# `Runtime` and its `Builder`

A `Runtime` is a name, a handle to a tokio runtime, and a share of the `Dropper` that
was made with it. The tokio runtime itself is owned by the blocker thread, which
waits for the dropper's signal.
-/

namespace RsRun

/-- A handle to a tokio runtime: which one, and how it was set up. -/
structure Handle where
  id : Nat
  threadName : String
  /-- `none` is as many as there are cores. -/
  workerThreads : Option Nat
deriving DecidableEq, Repr

/-- `Runtime`; its dropper is the one that was made together with its handle. -/
structure Runtime where
  name : String
  handle : Handle
deriving DecidableEq, Repr

/-- What is behind a handle. -/
structure Executor where
  /-- Does a blocker thread own the tokio runtime? -/
  blocked : Bool
  /-- The strong count of the `Arc<Dropper>`. -/
  droppers : Nat
  /-- Has the dropper sent its signal? -/
  closeSent : Bool
deriving DecidableEq, Repr

/-- `Runtime::clone`, as far as it concerns what is behind the handle. -/
def Executor.clone (e : Executor) : Executor := { e with droppers := e.droppers + 1 }

/-- A `Runtime` goes out of scope; the last one runs `Dropper::drop`. -/
def Executor.drop (e : Executor) : Executor :=
  let e := { e with droppers := e.droppers - 1 }
  if e.droppers = 0 then { e with closeSent := true } else e

/-- `Builder`, with what the crate sets. -/
structure Builder where
  runtimeName : String
  threadName : String
  workerThreads : Option Nat
deriving DecidableEq, Repr

/-- How a call that leaves the crate ends. -/
inductive CallEnd where
  | ok
  | err
  | panicked
deriving DecidableEq, Repr

/-- How the tokio build and the spawn of the blocker end. -/
structure BuildOutcome where
  tokio : CallEnd
  blocker : CallEnd
deriving DecidableEq, Repr

/-- Neither call panics, and tokio builds its runtime. -/
def BuildOutcome.Succeeds (outcome : BuildOutcome) : Prop :=
  outcome.tokio = .ok ∧ outcome.blocker ≠ .panicked

/-- What `build` puts behind a handle. -/
def BuildOutcome.executor (outcome : BuildOutcome) : Executor :=
  { blocked := outcome.blocker = .ok, droppers := 1, closeSent := false }

namespace Builder

/-- `Builder::default`; `runtimeId` is what the counter says. -/
def default (runtimeId : Nat) : Builder :=
  { runtimeName := "runtime-" ++ toString runtimeId
    threadName := "default-worker"
    workerThreads := none }

/-- `Builder::runtime_name`. -/
def setRuntimeName (b : Builder) (val : String) : Builder := { b with runtimeName := val }

/-- `Builder::thread_name`. -/
def setThreadName (b : Builder) (val : String) : Builder := { b with threadName := val }

/-- `Builder::worker_threads`; tokio panics when there are none. -/
def setWorkerThreads (b : Builder) (val : Nat) : Option Builder :=
  if val = 0 then none else some { b with workerThreads := some val }

/-- The `Runtime` that `build` puts together, with handle `id`. -/
def runtime (b : Builder) (id : Nat) : Runtime :=
  { name := b.runtimeName
    handle := { id := id, threadName := b.threadName, workerThreads := b.workerThreads } }

/-- `Builder::build`: the result, and what is then behind handle `id`. -/
def build (b : Builder) (outcome : BuildOutcome) (id : Nat) : Ret Runtime × Option Executor :=
  match outcome.tokio, outcome.blocker with
  | .err, _ => (.err .buildRuntime, none)
  | .panicked, _ => (.panicked, none)
  | .ok, .panicked => (.panicked, none)
  -- whether the blocker was spawned is not looked at
  | .ok, _ => (.ok (b.runtime id), some outcome.executor)

theorem build_ok (b : Builder) {outcome : BuildOutcome} (h : outcome.Succeeds) (id : Nat) :
    b.build outcome id = (.ok (b.runtime id), some outcome.executor) := by
  obtain ⟨tokio, blocker⟩ := outcome
  obtain ⟨htokio, hblocker⟩ := h
  cases htokio
  cases blocker with
  | ok => rfl
  | err => rfl
  | panicked => exact absurd rfl hblocker

/-- Otherwise there is neither a runtime nor anything behind its handle. -/
theorem build_not_ok (b : Builder) {outcome : BuildOutcome} (h : ¬ outcome.Succeeds) (id : Nat) :
    b.build outcome id = (.err .buildRuntime, none) ∨ b.build outcome id = (.panicked, none) := by
  obtain ⟨tokio, blocker⟩ := outcome
  cases tokio with
  | err => exact .inl rfl
  | panicked => exact .inr rfl
  | ok =>
      cases blocker with
      | panicked => exact .inr rfl
      | ok => exact absurd ⟨rfl, by simp⟩ h
      | err => exact absurd ⟨rfl, by simp⟩ h

theorem build_some {b : Builder} {outcome : BuildOutcome} {id : Nat} {runtime : Runtime}
    {executor : Executor} (h : b.build outcome id = (.ok runtime, some executor)) :
    runtime = b.runtime id ∧ executor = outcome.executor := by
  by_cases hsucceeds : outcome.Succeeds
  · rw [build_ok b hsucceeds] at h
    injection h with hruntime hexecutor
    injection hruntime with hruntime
    injection hexecutor with hexecutor
    exact ⟨hruntime.symm, hexecutor.symm⟩
  · rcases build_not_ok b hsucceeds id with hres | hres
    · rw [hres] at h
      exact absurd h (by simp)
    · rw [hres] at h
      exact absurd h (by simp)

end Builder

end RsRun
