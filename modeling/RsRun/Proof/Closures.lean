import RsRun.Global

/-!
# What the closures make

Either closure creates the four runtimes in order, and stops at the first creation
that panics. So what it made is always an initial piece of the four, and when it got
to its end it is all of them.
-/

namespace RsRun.Proof

open Global Sync

/-! ## Creations -/

/-- A runtime as `create_runtime` sets it up. -/
def made (runtimeName threadName : String) (id workerThreads : Nat) : Runtime :=
  { name := runtimeName
    handle := { id := id, threadName := threadName, workerThreads := some workerThreads } }

/-- `create_runtime` panics, or makes what it was asked for. -/
theorem createRuntime_cases (outcome : BuildOutcome) (id : Nat) (runtimeName threadName : String)
    (workerThreads : Nat) :
    createRuntime outcome id runtimeName threadName workerThreads = none
      ∨ createRuntime outcome id runtimeName threadName workerThreads
          = some (made runtimeName threadName id workerThreads) := by
  unfold createRuntime
  cases h : (((Builder.default id).setRuntimeName runtimeName).setThreadName
      threadName).setWorkerThreads workerThreads with
  | none => exact Or.inl rfl
  | some builder =>
      unfold Builder.setWorkerThreads at h
      split at h
      · exact absurd h (by simp)
      · injection h with h
        subst h
        dsimp only
        by_cases hsucceeds : outcome.Succeeds
        · rw [Builder.build_ok _ hsucceeds]
          exact Or.inr rfl
        · rcases Builder.build_not_ok _ hsucceeds id with hres | hres
          · rw [hres]
            exact Or.inl rfl
          · rw [hres]
            exact Or.inl rfl

theorem createRuntime_granted {outcome : BuildOutcome} (h : outcome.Succeeds) (id : Nat)
    (runtimeName threadName : String) {workerThreads : Nat} (hpos : 0 < workerThreads) :
    createRuntime outcome id runtimeName threadName workerThreads
      = some (made runtimeName threadName id workerThreads) := by
  have hne : workerThreads ≠ 0 := by omega
  unfold createRuntime Builder.setWorkerThreads
  rw [if_neg hne]
  dsimp only
  rw [Builder.build_ok _ h]
  rfl

/-- The runtimes that `init_global_runtimes` configures. -/
def configured (options : RuntimeOptions) (id : Nat) : Kind → Runtime
  | .read => made "global-read" "global-read-worker" id options.readRtSize
  | .write => made "global-write" "global-write-worker" (id + 1) options.writeRtSize
  | .bg => made "global-bg" "global-bg-worker" (id + 2) options.bgRtSize
  | .hb => made "global-hb" "global-hb-worker" (id + 3) hbWorkers

/-- The runtimes made when nothing is configured. -/
def builtin (id : Nat) : Kind → Runtime
  | .read => made "global-read" "read-worker" id readWorkers
  | .write => made "global-write" "write-worker" (id + 1) writeWorkers
  | .bg => made "global-bg" "bg-worker" (id + 2) bgWorkers
  | .hb => made "global-hb" "hb-worker" (id + 3) hbWorkers

/-- The four kinds, in the order they are created in. -/
def kinds : List Kind := [.read, .write, .bg, .hb]

/-- All four creations. -/
def allMade (f : Kind → Runtime) : Made := kinds.map (fun k => (k, f k))

/-- The global runtimes, one of each kind. -/
def ofKinds (f : Kind → Runtime) : GlobalRuntimes :=
  { readRuntime := f .read
    writeRuntime := f .write
    bgRuntime := f .bg
    hbRuntime := f .hb }

theorem get_ofKinds (f : Kind → Runtime) (k : Kind) : (ofKinds f).get k = f k := by
  cases k <;> rfl

/-- A configuration with one runtime of each kind that nobody has taken. -/
def full (f : Kind → Runtime) : ConfigRuntimes :=
  { readRuntime := some (f .read)
    writeRuntime := some (f .write)
    bgRuntime := some (f .bg)
    hbRuntime := some (f .hb)
    alreadyInit := false }

/-- A configuration that the global runtimes have taken theirs from. -/
def taken : ConfigRuntimes :=
  { readRuntime := none
    writeRuntime := none
    bgRuntime := none
    hbRuntime := none
    alreadyInit := true }

/-! ## The closure of `init_global_runtimes` -/

/-- It refuses when the global runtimes are there already. -/
theorem initClosure_already {c : ConfigRuntimes} (h : c.alreadyInit = true)
    (options : RuntimeOptions) (outcome : Kind → BuildOutcome) (id : Nat) :
    initClosure c options outcome id = (c, [], none) := by
  unfold initClosure
  rw [if_pos h]

/-- Otherwise it makes all four, or an initial piece of them and panics. -/
theorem initClosure_cases (options : RuntimeOptions) (outcome : Kind → BuildOutcome) (id : Nat) :
    initClosure ConfigRuntimes.default options outcome id
        = (full (configured options id), allMade (configured options id), some ())
      ∨ ((initClosure ConfigRuntimes.default options outcome id).2.2 = none
          ∧ (initClosure ConfigRuntimes.default options outcome id).2.1
              <+: allMade (configured options id)) := by
  unfold initClosure
  rw [if_neg (by decide)]
  -- the first creation that panics ends the closure with what was made so far
  rcases createRuntime_cases (outcome .read) id "global-read" "global-read-worker"
    options.readRtSize with h1 | h1
  · rw [h1]; exact Or.inr ⟨rfl, List.nil_prefix⟩
  rw [h1]
  rcases createRuntime_cases (outcome .write) (id + 1) "global-write" "global-write-worker"
    options.writeRtSize with h2 | h2
  · rw [h2]; exact Or.inr ⟨rfl, ⟨_, rfl⟩⟩
  rw [h2]
  rcases createRuntime_cases (outcome .bg) (id + 2) "global-bg" "global-bg-worker"
    options.bgRtSize with h3 | h3
  · rw [h3]; exact Or.inr ⟨rfl, ⟨_, rfl⟩⟩
  rw [h3]
  rcases createRuntime_cases (outcome .hb) (id + 3) "global-hb" "global-hb-worker"
    hbWorkers with h4 | h4
  · rw [h4]; exact Or.inr ⟨rfl, ⟨_, rfl⟩⟩
  rw [h4]
  exact Or.inl rfl

/-- Options that tokio accepts. -/
structure Valid (options : RuntimeOptions) : Prop where
  read : 0 < options.readRtSize
  write : 0 < options.writeRtSize
  bg : 0 < options.bgRtSize

/-- The default options are accepted on every machine that has a core. -/
theorem default_valid {cpus : Nat} (h : 0 < cpus) : Valid (RuntimeOptions.default cpus) where
  read := h
  write := h
  bg := Nat.lt_of_lt_of_le Nat.zero_lt_one (Nat.le_max_right (cpus / 2) 1)

theorem initClosure_granted {options : RuntimeOptions} (hv : Valid options)
    {outcome : Kind → BuildOutcome} (ht : ∀ k, (outcome k).Succeeds) (id : Nat) :
    initClosure ConfigRuntimes.default options outcome id
      = (full (configured options id), allMade (configured options id), some ()) := by
  unfold initClosure
  rw [if_neg (by decide), createRuntime_granted (ht .read) _ _ _ hv.read]
  dsimp only
  rw [createRuntime_granted (ht .write) _ _ _ hv.write]
  dsimp only
  rw [createRuntime_granted (ht .bg) _ _ _ hv.bg]
  dsimp only
  rw [createRuntime_granted (ht .hb) _ _ _ (by decide)]
  rfl

/-! ## The closure of `GLOBAL_RUNTIMES` -/

/-- It takes all four from a full configuration, and creates none. -/
theorem globalClosure_full (f : Kind → Runtime) (outcome : Kind → BuildOutcome) (id : Nat) :
    globalClosure (full f) outcome id = (taken, [], some (ofKinds f)) := rfl

/-- With an empty one it makes all four, or an initial piece of them and panics. -/
theorem globalClosure_cases (outcome : Kind → BuildOutcome) (id : Nat) :
    globalClosure ConfigRuntimes.default outcome id
        = (taken, allMade (builtin id), some (ofKinds (builtin id)))
      ∨ ((globalClosure ConfigRuntimes.default outcome id).2.2 = none
          ∧ (globalClosure ConfigRuntimes.default outcome id).2.1 <+: allMade (builtin id)) := by
  unfold globalClosure GlobalRuntimes.new unwrapOrCreate
  rcases createRuntime_cases (outcome .read) id "global-read" "read-worker" readWorkers with h1 | h1
  · rw [h1]; exact Or.inr ⟨rfl, List.nil_prefix⟩
  rw [h1]
  rcases createRuntime_cases (outcome .write) (id + 1) "global-write" "write-worker"
    writeWorkers with h2 | h2
  · rw [h2]; exact Or.inr ⟨rfl, ⟨_, rfl⟩⟩
  rw [h2]
  rcases createRuntime_cases (outcome .bg) (id + 2) "global-bg" "bg-worker" bgWorkers with h3 | h3
  · rw [h3]; exact Or.inr ⟨rfl, ⟨_, rfl⟩⟩
  rw [h3]
  rcases createRuntime_cases (outcome .hb) (id + 3) "global-hb" "hb-worker" hbWorkers with h4 | h4
  · rw [h4]; exact Or.inr ⟨rfl, ⟨_, rfl⟩⟩
  rw [h4]
  exact Or.inl rfl

theorem globalClosure_granted {outcome : Kind → BuildOutcome} (ht : ∀ k, (outcome k).Succeeds)
    (id : Nat) :
    globalClosure ConfigRuntimes.default outcome id
      = (taken, allMade (builtin id), some (ofKinds (builtin id))) := by
  unfold globalClosure GlobalRuntimes.new unwrapOrCreate
  rw [createRuntime_granted (ht .read) _ _ _ (by decide),
    createRuntime_granted (ht .write) _ _ _ (by decide),
    createRuntime_granted (ht .bg) _ _ _ (by decide),
    createRuntime_granted (ht .hb) _ _ _ (by decide)]
  rfl

/-! ## Under the lock -/

/-- Under a poisoned lock no closure runs. -/
theorem locked_poisoned {α : Type} {s : Statics} (h : s.config.poisoned = true)
    (closure : ConfigRuntimes → Nat → ConfigRuntimes × Made × Option α) :
    s.locked closure = (s, [], none) := by
  unfold Statics.locked
  rw [if_pos h]

/-- Under a sound lock the closure runs, and poisons the lock if it panics. -/
theorem locked_sound {α : Type} {s : Statics} {c c' : ConfigRuntimes} {m : Made} {res : Option α}
    {closure : ConfigRuntimes → Nat → ConfigRuntimes × Made × Option α}
    (hs : s.config = Mutex.new c) (h : closure c s.handles = (c', m, res)) :
    s.locked closure
      = ({ s with config := { val := c', poisoned := res.isNone }, handles := s.handles + 4 },
          m, res) := by
  unfold Statics.locked
  have hp : s.config.poisoned = false := by rw [hs]; rfl
  have hv : s.config.val = c := by rw [hs]; rfl
  rw [if_neg (by rw [hp]; decide), hv, h]

theorem config_eq_new {s : Statics} (h : s.config.poisoned = false) :
    s.config = Mutex.new s.config.val := by
  rw [Mutex.new, ← h]

/-- Running a closure under the lock leaves the other statics alone. -/
theorem locked_start {α : Type} (s : Statics)
    (closure : ConfigRuntimes → Nat → ConfigRuntimes × Made × Option α) :
    (s.locked closure).1.start = s.start := by
  unfold Statics.locked
  split <;> rfl

theorem locked_global {α : Type} (s : Statics)
    (closure : ConfigRuntimes → Nat → ConfigRuntimes × Made × Option α) :
    (s.locked closure).1.global = s.global := by
  unfold Statics.locked
  split <;> rfl

/-- A closure that panics leaves the lock poisoned. -/
theorem locked_failed {α : Type} {s : Statics}
    {closure : ConfigRuntimes → Nat → ConfigRuntimes × Made × Option α}
    (h : (s.locked closure).2.2 = none) : (s.locked closure).1.config.poisoned = true := by
  unfold Statics.locked at h ⊢
  split
  · rename_i hp; exact hp
  · rename_i hp
    rw [if_neg hp] at h
    dsimp only at h ⊢
    rw [h]
    rfl

end RsRun.Proof
