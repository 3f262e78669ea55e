import RsRun.Lib.Sync
import RsRun.Runtime

/-!
# The global runtimes

Three statics: the configuration under its mutex, the `Once` that lets one call of
`init_global_runtimes` fill it, and the lazily made global runtimes, which take what
they find there. Either closure holds the mutex from its first statement to its last,
so it is one function of what the mutex protects.
-/

namespace RsRun.Global

open Sync

/-! ## Options and values -/

def readWorkers : Nat := 8
def writeWorkers : Nat := 8
def bgWorkers : Nat := 4
def hbWorkers : Nat := 2

/-- The four global runtimes. -/
inductive Kind where
  | read
  | write
  | bg
  | hb
deriving DecidableEq, Repr

/-- `RuntimeOptions`. -/
structure RuntimeOptions where
  readRtSize : Nat
  writeRtSize : Nat
  bgRtSize : Nat
deriving DecidableEq, Repr

/-- `RuntimeOptions::default`, on a machine with `cpus` cores. -/
def RuntimeOptions.default (cpus : Nat) : RuntimeOptions :=
  { readRtSize := cpus
    writeRtSize := cpus
    bgRtSize := max (cpus / 2) 1 }

/-- `create_runtime`; `none` is a panic. -/
def createRuntime (outcome : BuildOutcome) (id : Nat) (runtimeName threadName : String)
    (workerThreads : Nat) : Option Runtime :=
  match (((Builder.default id).setRuntimeName runtimeName).setThreadName threadName).setWorkerThreads
      workerThreads with
  | none => none
  | some builder =>
      -- `expect("Fail to create runtime")`
      match (builder.build outcome id).1 with
      | .ok runtime => some runtime
      | _ => none

/-- `GlobalRuntimes`. -/
structure GlobalRuntimes where
  readRuntime : Runtime
  writeRuntime : Runtime
  bgRuntime : Runtime
  hbRuntime : Runtime
deriving DecidableEq, Repr

/-- The runtime that `read_runtime()` and its siblings clone. -/
def GlobalRuntimes.get (g : GlobalRuntimes) : Kind → Runtime
  | .read => g.readRuntime
  | .write => g.writeRuntime
  | .bg => g.bgRuntime
  | .hb => g.hbRuntime

/-- `ConfigRuntimes`. -/
structure ConfigRuntimes where
  readRuntime : Option Runtime
  writeRuntime : Option Runtime
  bgRuntime : Option Runtime
  hbRuntime : Option Runtime
  alreadyInit : Bool
deriving DecidableEq, Repr

/-- `ConfigRuntimes::default`. -/
def ConfigRuntimes.default : ConfigRuntimes :=
  { readRuntime := none
    writeRuntime := none
    bgRuntime := none
    hbRuntime := none
    alreadyInit := false }

/-- The runtimes that were created, in order. -/
abbrev Made := List (Kind × Runtime)

/-! ## The two closures -/

/--
The closure of `init_global_runtimes` under the guard: the configuration it leaves
behind, the runtimes it created, and whether it got to its end.
-/
def initClosure (c : ConfigRuntimes) (options : RuntimeOptions) (outcome : Kind → BuildOutcome)
    (id : Nat) : ConfigRuntimes × Made × Option Unit :=
  if c.alreadyInit then (c, [], none)
  else
    match createRuntime (outcome .read) id "global-read" "global-read-worker"
        options.readRtSize with
    | none => (c, [], none)
    | some read =>
        let c := { c with readRuntime := some read }
        match createRuntime (outcome .write) (id + 1) "global-write" "global-write-worker"
            options.writeRtSize with
        | none => (c, [(.read, read)], none)
        | some write =>
            let c := { c with writeRuntime := some write }
            match createRuntime (outcome .bg) (id + 2) "global-bg" "global-bg-worker"
                options.bgRtSize with
            | none => (c, [(.read, read), (.write, write)], none)
            | some bg =>
                let c := { c with bgRuntime := some bg }
                match createRuntime (outcome .hb) (id + 3) "global-hb" "global-hb-worker"
                    hbWorkers with
                | none => (c, [(.read, read), (.write, write), (.bg, bg)], none)
                | some hb =>
                    ({ c with hbRuntime := some hb },
                      [(.read, read), (.write, write), (.bg, bg), (.hb, hb)], some ())

/-- `unwrap_or_else` over a `create_runtime`: what it created, and the runtime. -/
def unwrapOrCreate (kind : Kind) (given created : Option Runtime) : Option (Made × Runtime) :=
  match given with
  | some runtime => some ([], runtime)
  | none =>
      match created with
      | some runtime => some ([(kind, runtime)], runtime)
      | none => none

/-- `GlobalRuntimes::new`; `none` is a panic. -/
def GlobalRuntimes.new (outcome : Kind → BuildOutcome) (id : Nat)
    (read write background heartbeat : Option Runtime) : Made × Option GlobalRuntimes :=
  match unwrapOrCreate .read read
      (createRuntime (outcome .read) id "global-read" "read-worker" readWorkers) with
  | none => ([], none)
  | some (m₁, readRuntime) =>
      match unwrapOrCreate .write write
          (createRuntime (outcome .write) (id + 1) "global-write" "write-worker"
            writeWorkers) with
      | none => (m₁, none)
      | some (m₂, writeRuntime) =>
          match unwrapOrCreate .bg background
              (createRuntime (outcome .bg) (id + 2) "global-bg" "bg-worker" bgWorkers) with
          | none => (m₁ ++ m₂, none)
          | some (m₃, bgRuntime) =>
              match unwrapOrCreate .hb heartbeat
                  (createRuntime (outcome .hb) (id + 3) "global-hb" "hb-worker" hbWorkers) with
              | none => (m₁ ++ m₂ ++ m₃, none)
              | some (m₄, hbRuntime) =>
                  (m₁ ++ m₂ ++ m₃ ++ m₄,
                    some { readRuntime := readRuntime
                           writeRuntime := writeRuntime
                           bgRuntime := bgRuntime
                           hbRuntime := hbRuntime })

/-- The closure of `GLOBAL_RUNTIMES` under the guard. -/
def globalClosure (c : ConfigRuntimes) (outcome : Kind → BuildOutcome) (id : Nat) :
    ConfigRuntimes × Made × Option GlobalRuntimes :=
  ({ readRuntime := none
     writeRuntime := none
     bgRuntime := none
     hbRuntime := none
     alreadyInit := true },
    GlobalRuntimes.new outcome id c.readRuntime c.writeRuntime c.bgRuntime c.hbRuntime)

/-! ## The statics -/

/-- `START`, `CONFIG_RUNTIMES` and `GLOBAL_RUNTIMES`, and how many handles there are. -/
structure Statics where
  start : OneShot Unit
  config : Mutex ConfigRuntimes
  global : OneShot GlobalRuntimes
  handles : Nat
deriving DecidableEq, Repr

/-- The statics of a program that has just begun. -/
def Statics.init : Statics :=
  { start := .incomplete
    config := Mutex.new ConfigRuntimes.default
    global := .incomplete
    handles := 0 }

/--
Lock the configuration and run a closure on it. A poisoned lock panics before the
closure runs, and a closure that panics poisons the lock.
-/
def Statics.locked {α : Type} (s : Statics)
    (closure : ConfigRuntimes → Nat → ConfigRuntimes × Made × Option α) :
    Statics × Made × Option α :=
  if s.config.poisoned then (s, [], none)
  else
    match closure s.config.val s.handles with
    | (c, made, res) =>
        ({ s with
            config := { val := c, poisoned := res.isNone }
            handles := s.handles + 4 }, made, res)

/-- What the closure of `START` does with the statics. -/
def Statics.runInit (s : Statics) (options : RuntimeOptions) (outcome : Kind → BuildOutcome) :
    Statics × Made × Option Unit :=
  s.locked (fun c id => initClosure c options outcome id)

/-- What the closure of `GLOBAL_RUNTIMES` does with the statics. -/
def Statics.runGlobal (s : Statics) (outcome : Kind → BuildOutcome) :
    Statics × Made × Option GlobalRuntimes :=
  s.locked (fun c id => globalClosure c outcome id)

end RsRun.Global
