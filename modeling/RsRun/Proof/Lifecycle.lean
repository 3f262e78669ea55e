import RsRun.TaskSystem
import RsRun.Proof.Loop

/-!
# The lifecycle of a `RepeatedTask`

A task is fresh, then running, then stopped, and never goes back. The stage ties
together what `start` and `stop` store in separate places: the two options under the
mutex, the `started` flag, the cancel token, the spawned loops, and which calls of
`stop` have taken the handle.

`step_moves` says once what each action can do to a task whose mutex is not poisoned;
every invariant below is a case analysis on it.
-/

namespace RsRun.Proof

open TaskSystem RepeatedTask

/-! ## The sections under the mutex -/

section
variable {task : RepeatedTask} (hp : task.inner.poisoned = false)
include hp

theorem start_fresh {taskFn : TaskFunction} (hf : task.inner.val.taskFn = some taskFn)
    (handle : JoinHandle) :
    task.start handle =
      ({ task with
          inner := { task.inner with val := { taskHandle := some handle, taskFn := none } }
          started := true },
        .ok (),
        some { taskFn := taskFn
               interval := task.interval
               initialDelay := task.initialDelay
               phase := .top }) := by
  rw [RepeatedTask.start, hp, hf]
  rfl

theorem start_used (hf : task.inner.val.taskFn = none) (handle : JoinHandle) :
    task.start handle = (task, .err (.illegalState task.name), none) := by
  rw [RepeatedTask.start, hp, hf]
  rfl

theorem stopSection_empty (hh : task.inner.val.taskHandle = none) :
    task.stopSection = (task, .done (.ok ())) := by
  rw [stopSection, hp, hh]
  rfl

theorem stopSection_takes {handle : JoinHandle} (hh : task.inner.val.taskHandle = some handle) :
    task.stopSection =
      ({ task with
          cancelToken := true
          started := false
          inner := { task.inner with val := { task.inner.val with taskHandle := none } } },
        .await handle) := by
  simp [stopSection, hp, hh]

end

theorem stopJoined_ne_panicked (task : RepeatedTask) (res : Except JoinError Unit) :
    task.stopJoined res ≠ .panicked := by
  cases res with
  | ok u => simp [stopJoined]
  | error error => simp [stopJoined]

/-! ## What one step does -/

/-- What an action does to a task whose mutex is not poisoned, one constructor for each way. -/
inductive Moves (w : World) : Action → World → List Event → Prop where
  | startFresh (taskFn : TaskFunction) (hf : w.task.inner.val.taskFn = some taskFn) :
      Moves w .start
        { w with
          task := { w.task with
            inner := { w.task.inner with
              val := { taskHandle := some w.loops.length, taskFn := none } }
            started := true }
          loops := w.loops ++
            [{ taskFn := taskFn
               interval := w.task.interval
               initialDelay := w.task.initialDelay
               phase := .top }] }
        [.startRet (.ok ())]
  | startUsed (hf : w.task.inner.val.taskFn = none) :
      Moves w .start w [.startRet (.err (.illegalState w.task.name))]
  | started : Moves w .started w [.startedIs w.task.started]
  | stopCall :
      Moves w .stopCall { w with stops := w.stops ++ [.called] } [.stopCalled w.stops.length]
  | stopEmpty (c : Nat) (hc : w.stops[c]? = some .called)
      (hh : w.task.inner.val.taskHandle = none) :
      Moves w (.stopLock c) { w with stops := w.stops.set c (.returned (.ok ())) }
        [.stopRet c (.ok ())]
  | stopTakes (c : Nat) (handle : JoinHandle) (hc : w.stops[c]? = some .called)
      (hh : w.task.inner.val.taskHandle = some handle) :
      Moves w (.stopLock c)
        { w with
          task := { w.task with
            cancelToken := true
            started := false
            inner := { w.task.inner with
              val := { w.task.inner.val with taskHandle := none } } }
          stops := w.stops.set c (.waiting handle) } []
  | stopJoin (c : Nat) (handle : JoinHandle) (l : Loop) (res : Except JoinError Unit)
      (hc : w.stops[c]? = some (.waiting handle)) (hl : w.loops[handle]? = some l)
      (hres : l.phase.joined = some res) :
      Moves w (.stopJoin c) { w with stops := w.stops.set c (.joined (w.task.stopJoined res)) }
        [.stopRet c (w.task.stopJoined res)]
  | stopDropCalled (c : Nat) (hc : w.stops[c]? = some .called) :
      Moves w (.stopDrop c) { w with stops := w.stops.set c (.dropped none) } []
  | stopDropWaiting (c : Nat) (handle : JoinHandle) (hc : w.stops[c]? = some (.waiting handle)) :
      Moves w (.stopDrop c) { w with stops := w.stops.set c (.dropped (some handle)) } []
  | drop :
      Moves w .drop
        { w with
          task := { w.task with
            cancelToken := w.task.cancelToken || w.task.inner.val.taskHandle.isSome }
          dropped := true } []
  | loop (i : Nat) (a : LoopStep) (l l' : Loop) (es : List LoopEvent) (hl : w.loops[i]? = some l)
      (hs : l.step w.task.cancelToken w.now a = some (l', es)) :
      Moves w (.loop i a) { w with loops := w.loops.set i l' } (es.map (.loop i))
  | loopPanics (i : Nat) (l : Loop) (hl : w.loops[i]? = some l) (hcall : l.phase = .calling) :
      Moves w (.loopPanics i) (w.setPhase i l .panicked) [.loopDied i]
  | loopAborts (i : Nat) (l : Loop) (hl : w.loops[i]? = some l) (hlive : l.phase.joined = none) :
      Moves w (.loopAborts i) (w.setPhase i l .aborted) [.loopDied i]
  | tick (n : Nat) : Moves w (.tick n) { w with now := w.now + n } []

/-- **The inversion lemma.** -/
theorem step_moves {w w' : World} {a : Action} {t : List Event}
    (hp : w.task.inner.poisoned = false) (h : step w a = some (w', t)) : Moves w a w' t := by
  cases a with
  | start =>
      rw [step] at h
      split at h
      · exact absurd h (by simp)
      · cases hf : w.task.inner.val.taskFn with
        | none =>
            rw [start_used hp hf] at h
            injection h with h; injection h with h1 h2
            subst h1; subst h2
            have hloops : w.loops ++ (none : Option Loop).toList = w.loops := List.append_nil _
            rw [hloops]
            exact .startUsed hf
        | some taskFn =>
            rw [start_fresh hp hf] at h
            injection h with h; injection h with h1 h2
            subst h1; subst h2
            exact .startFresh taskFn hf
  | started =>
      rw [step] at h
      split at h
      · exact absurd h (by simp)
      · injection h with h; injection h with h1 h2
        subst h1; subst h2
        exact .started
  | stopCall =>
      rw [step] at h
      split at h
      · exact absurd h (by simp)
      · injection h with h; injection h with h1 h2
        subst h1; subst h2
        exact .stopCall
  | stopLock c =>
      rw [step] at h
      split at h
      · rename_i hc
        cases hh : w.task.inner.val.taskHandle with
        | none =>
            rw [stopSection_empty hp hh] at h
            injection h with h; injection h with h1 h2
            subst h1; subst h2
            exact .stopEmpty c hc hh
        | some handle =>
            rw [stopSection_takes hp hh] at h
            injection h with h; injection h with h1 h2
            subst h1; subst h2
            exact .stopTakes c handle hc hh
      · exact absurd h (by simp)
  | stopJoin c =>
      rw [step] at h
      split at h
      · rename_i handle hc
        split at h
        · rename_i res hres
          obtain ⟨l, hl, hj⟩ := Option.bind_eq_some_iff.mp hres
          injection h with h; injection h with h1 h2
          subst h1; subst h2
          exact .stopJoin c handle l res hc hl hj
        · exact absurd h (by simp)
      · exact absurd h (by simp)
  | stopDrop c =>
      rw [step] at h
      split at h
      · rename_i hc
        injection h with h; injection h with h1 h2
        subst h1; subst h2
        exact .stopDropCalled c hc
      · rename_i handle hc
        injection h with h; injection h with h1 h2
        subst h1; subst h2
        exact .stopDropWaiting c handle hc
      · exact absurd h (by simp)
  | drop =>
      rw [step] at h
      split at h
      · exact absurd h (by simp)
      · injection h with h; injection h with h1 h2
        subst h1; subst h2
        have htask : w.task.drop = { w.task with
            cancelToken := w.task.cancelToken || w.task.inner.val.taskHandle.isSome } := by
          unfold RepeatedTask.drop
          rw [hp, if_neg (by simp)]
          cases w.task.inner.val.taskHandle with
          | none => rw [if_neg (by simp), Option.isSome_none, Bool.or_false]
          | some handle => rw [Option.isSome_some, if_pos rfl, Bool.or_true]
        rw [htask]
        exact .drop
  | loop i a =>
      rw [step] at h
      split at h
      · exact absurd h (by simp)
      · rename_i l hl
        split at h
        · exact absurd h (by simp)
        · rename_i l' es hs
          injection h with h; injection h with h1 h2
          subst h1; subst h2
          exact .loop i a l l' es hl hs
  | loopPanics i =>
      rw [step] at h
      split at h
      · exact absurd h (by simp)
      · rename_i l hl
        split at h
        · rename_i hcall
          injection h with h; injection h with h1 h2
          subst h1; subst h2
          exact .loopPanics i l hl hcall
        · exact absurd h (by simp)
  | loopAborts i =>
      rw [step] at h
      split at h
      · exact absurd h (by simp)
      · rename_i l hl
        split at h
        · rename_i hlive
          injection h with h; injection h with h1 h2
          subst h1; subst h2
          exact .loopAborts i l hl hlive
        · exact absurd h (by simp)
  | tick n =>
      rw [step] at h
      injection h with h; injection h with h1 h2
      subst h1; subst h2
      exact .tick n

/-! ## The stage -/

/-- The three stages of a task, in order. -/
inductive Stage where
  | fresh
  | running
  | stopped
deriving DecidableEq, Repr

def Stage.rank : Stage → Nat
  | .fresh => 0
  | .running => 1
  | .stopped => 2

/-- The stage that `(task_fn, task_handle)` shows, if it shows one. -/
def stageOf (inner : TaskInner) : Option Stage :=
  match inner.taskFn, inner.taskHandle with
  | some _, none => some .fresh
  | none, some _ => some .running
  | none, none => some .stopped
  | some _, some _ => none

/-- What a world looks like at each stage. -/
inductive InStage (w : World) : Stage → Prop where
  | fresh (taskFn : TaskFunction)
      (inner : w.task.inner.val = { taskHandle := none, taskFn := some taskFn })
      (started : w.task.started = false) (loops : w.loops = [])
      (token : w.task.cancelToken = false)
      (took : w.stops.any StopCall.took = false) : InStage w .fresh
  | running (inner : w.task.inner.val = { taskHandle := some 0, taskFn := none })
      (started : w.task.started = true) (loops : w.loops.length = 1)
      (took : w.stops.any StopCall.took = false) : InStage w .running
  | stopped (inner : w.task.inner.val = { taskHandle := none, taskFn := none })
      (started : w.task.started = false) (loops : w.loops.length = 1)
      (token : w.task.cancelToken = true)
      (took : w.stops.any StopCall.took = true) : InStage w .stopped

/-- The stage can be read off the two options. -/
theorem inStage_stageOf {w : World} {s : Stage} (h : InStage w s) :
    stageOf w.task.inner.val = some s := by
  cases h with
  | fresh _ inner => rw [inner]; rfl
  | running inner => rw [inner]; rfl
  | stopped inner => rw [inner]; rfl

theorem InStage.frame {w w' : World} {s : Stage} (h : InStage w s)
    (hinner : w'.task.inner.val = w.task.inner.val) (hstarted : w'.task.started = w.task.started)
    (htoken : w'.task.cancelToken = w.task.cancelToken)
    (hloops : w'.loops.length = w.loops.length)
    (htook : w'.stops.any StopCall.took = w.stops.any StopCall.took) : InStage w' s := by
  cases h with
  | fresh taskFn inner started loops token took =>
      refine .fresh taskFn (hinner.trans inner) (hstarted.trans started) ?_
        (htoken.trans token) (htook.trans took)
      rw [loops] at hloops
      exact List.length_eq_zero_iff.mp hloops
  | running inner started loops took =>
      exact .running (hinner.trans inner) (hstarted.trans started) (hloops.trans loops)
        (htook.trans took)
  | stopped inner started loops token took =>
      exact .stopped (hinner.trans inner) (hstarted.trans started) (hloops.trans loops)
        (htoken.trans token) (htook.trans took)

theorem any_took_set {stops : List StopCall} {c : Nat} {x y : StopCall}
    (hc : stops[c]? = some x) (hxy : y.took = x.took) :
    (stops.set c y).any StopCall.took = stops.any StopCall.took := by
  induction stops generalizing c with
  | nil => rfl
  | cons z zs ih =>
      cases c with
      | zero =>
          injection hc with hc
          subst hc
          rw [List.set_cons_zero, List.any_cons, List.any_cons, hxy]
      | succ c =>
          rw [List.set_cons_succ, List.any_cons, List.any_cons, ih hc]

theorem any_took_of_set {stops : List StopCall} {c : Nat} {x y : StopCall}
    (hc : stops[c]? = some x) (hy : y.took = true) :
    (stops.set c y).any StopCall.took = true := by
  obtain ⟨hlt, _⟩ := List.getElem?_eq_some_iff.mp hc
  exact List.any_eq_true.mpr ⟨y, List.mem_set hlt y, hy⟩

/-- **One step keeps the mutex sound and moves the stage at most one ahead.** -/
theorem inStage_step {w w' : World} {a : Action} {t : List Event} {s : Stage}
    (h : InStage w s) (hm : Moves w a w' t) :
    ∃ s', InStage w' s' ∧ (s'.rank = s.rank ∨ s'.rank = s.rank + 1) := by
  have keep : ∀ {v : World}, v.task.inner.val = w.task.inner.val →
      v.task.started = w.task.started →
      v.task.cancelToken = w.task.cancelToken →
      v.loops.length = w.loops.length →
      v.stops.any StopCall.took = w.stops.any StopCall.took →
      ∃ s', InStage v s' ∧ (s'.rank = s.rank ∨ s'.rank = s.rank + 1) :=
    fun h1 h2 h3 h4 h5 => ⟨s, h.frame h1 h2 h3 h4 h5, Or.inl rfl⟩
  cases hm with
  | startFresh taskFn hf =>
      -- only a fresh task has its function
      cases h with
      | fresh _ inner started loops token took =>
          refine ⟨.running, .running ?_ rfl ?_ took, Or.inr rfl⟩
          · rw [loops]; rfl
          · rw [loops]; rfl
      | running inner => rw [inner] at hf; exact absurd hf (by simp)
      | stopped inner => rw [inner] at hf; exact absurd hf (by simp)
  | startUsed hf => exact keep rfl rfl rfl rfl rfl
  | started => exact keep rfl rfl rfl rfl rfl
  | stopCall =>
      refine keep rfl rfl rfl rfl ?_
      rw [List.any_append]
      exact Bool.or_false _
  | stopEmpty c hc hh => exact keep rfl rfl rfl rfl (any_took_set hc rfl)
  | stopTakes c handle hc hh =>
      -- only a running task has a handle
      cases h with
      | fresh taskFn inner => rw [inner] at hh; exact absurd hh (by simp)
      | running inner started loops took =>
          refine ⟨.stopped, .stopped ?_ rfl loops rfl (any_took_of_set hc rfl), Or.inr rfl⟩
          rw [inner]
      | stopped inner => rw [inner] at hh; exact absurd hh (by simp)
  | stopJoin c handle l res hc hl hres => exact keep rfl rfl rfl rfl (any_took_set hc rfl)
  | stopDropCalled c hc => exact keep rfl rfl rfl rfl (any_took_set hc rfl)
  | stopDropWaiting c handle hc => exact keep rfl rfl rfl rfl (any_took_set hc rfl)
  | drop =>
      cases h with
      | fresh taskFn inner started loops token took =>
          refine ⟨.fresh, .fresh taskFn inner started loops ?_ took, Or.inl rfl⟩
          rw [token, inner]; rfl
      | running inner started loops took =>
          exact ⟨.running, .running inner started loops took, Or.inl rfl⟩
      | stopped inner started loops token took =>
          refine ⟨.stopped, .stopped inner started loops ?_ took, Or.inl rfl⟩
          rw [token]; rfl
  | loop i a l l' es hl hs => exact keep rfl rfl rfl (List.length_set ..) rfl
  | loopPanics i l hl hcall => exact keep rfl rfl rfl (List.length_set ..) rfl
  | loopAborts i l hl hlive => exact keep rfl rfl rfl (List.length_set ..) rfl
  | tick n => exact keep rfl rfl rfl rfl rfl

/-- No action poisons the mutex. -/
theorem sound_step {w w' : World} {a : Action} {t : List Event}
    (hp : w.task.inner.poisoned = false) (hm : Moves w a w' t) :
    w'.task.inner.poisoned = false := by
  cases hm <;> exact hp

/-- The invariant: the mutex is sound and the task is at some stage. -/
def Staged (w : World) : Prop :=
  w.task.inner.poisoned = false ∧ ∃ s, InStage w s

section
variable {interval : Nat} {initialDelay : Option Nat} {taskFn : TaskFunction}

theorem staged_init : Staged (system interval initialDelay taskFn).init :=
  ⟨rfl, .fresh, .fresh taskFn rfl rfl rfl rfl rfl⟩

theorem staged_step {w w' : World} {a : Action} {t : List Event} (h : Staged w)
    (hs : step w a = some (w', t)) : Staged w' := by
  obtain ⟨hp, s, hst⟩ := h
  have hm := step_moves hp hs
  obtain ⟨s', hst', _⟩ := inStage_step hst hm
  exact ⟨sound_step hp hm, s', hst'⟩

theorem staged_reachable {w : World} (h : (system interval initialDelay taskFn).Reachable w) :
    Staged w :=
  h.inv staged_init (fun _ _ _ _ _ hp hs => staged_step hp hs)

/-- What a step of a reachable world does. -/
theorem reachable_moves {w w' : World} {a : Action} {t : List Event}
    (h : (system interval initialDelay taskFn).Reachable w)
    (hs : (system interval initialDelay taskFn).step w a = some (w', t)) : Moves w a w' t :=
  step_moves (staged_reachable h).1 hs

/-- In a reachable world the stage can be read off the two options. -/
theorem reachable_stage {w : World} (h : (system interval initialDelay taskFn).Reachable w) :
    ∃ s, InStage w s ∧ stageOf w.task.inner.val = some s := by
  obtain ⟨_, s, hst⟩ := staged_reachable h
  exact ⟨s, hst, inStage_stageOf hst⟩

/-! ## Runs -/

/-- How often `start` returned `Ok`. -/
def startOks (t : List Event) : Nat := t.count (.startRet (.ok ()))

/-- **Every loop was spawned by a `start` that returned `Ok`.** -/
theorem loops_step {w w' : World} {a : Action} {t : List Event} (hm : Moves w a w' t) :
    w'.loops.length = w.loops.length + startOks t := by
  cases hm with
  | startFresh taskFn hf => exact List.length_append
  | startUsed hf => rfl
  | started => rfl
  | stopCall => rfl
  | stopEmpty c hc hh => rfl
  | stopTakes c handle hc hh => rfl
  | stopJoin c handle l res hc hl hres => rfl
  | stopDropCalled c hc => rfl
  | stopDropWaiting c handle hc => rfl
  | drop => rfl
  | loop i a l l' es hl hs =>
      have hnone : startOks (es.map (.loop i)) = 0 := by
        refine List.count_eq_zero.mpr ?_
        intro he
        obtain ⟨e, _, heq⟩ := List.mem_map.mp he
        exact absurd heq (by simp)
      rw [hnone]
      exact List.length_set ..
  | loopPanics i l hl hcall => exact List.length_set ..
  | loopAborts i l hl hlive => exact List.length_set ..
  | tick n => rfl

/-- No call has panicked. -/
def NoPanic (t : List Event) : Prop :=
  Event.startRet .panicked ∉ t ∧ ∀ c, Event.stopRet c .panicked ∉ t

theorem noPanic_step {w w' : World} {a : Action} {t : List Event} (hm : Moves w a w' t) :
    NoPanic t := by
  cases hm with
  | stopJoin c handle l res hc hl hres =>
      have hne := stopJoined_ne_panicked w.task res
      refine ⟨by simp, ?_⟩
      intro c' hc'
      rw [List.mem_singleton] at hc'
      injection hc' with _ hr
      exact hne hr.symm
  | loop i a l l' es hl hs => exact ⟨by simp, by simp⟩
  | _ => exact ⟨by simp, by simp⟩

/-- What the lifecycle promises of a world reached with the log `t`. -/
structure LifecycleOk (w : World) (t : List Event) : Prop where
  stage : ∃ s, stageOf w.task.inner.val = some s
  started : w.task.started = w.task.inner.val.taskHandle.isSome
  startOk : startOks t ≤ 1
  spawned : w.loops.length ≤ 1
  noPanic : NoPanic t

/-- In a whole run, as many loops are spawned as calls of `start` returned `Ok`. -/
theorem loops_run {as : List Action} {w : World} {t : List Event}
    (h : (system interval initialDelay taskFn).exec (system interval initialDelay taskFn).init as
      = some (w, t)) : w.loops.length = startOks t := by
  refine Lts.log_of_init (P := fun w t => w.loops.length = startOks t) rfl ?_ h
  intro v a v' u t' hr hp hs
  rw [loops_step (reachable_moves hr hs), hp, startOks, startOks, startOks, List.count_append]

theorem noPanic_run {as : List Action} {w : World} {t : List Event}
    (h : (system interval initialDelay taskFn).exec (system interval initialDelay taskFn).init as
      = some (w, t)) : NoPanic t := by
  have hrun := Lts.exec_events (I := fun v => (system interval initialDelay taskFn).Reachable v)
    (Q := fun e => e ≠ .startRet .panicked ∧ ∀ c, e ≠ .stopRet c .panicked)
    ?_ Lts.reachable_init h
  · exact ⟨fun hmem => (hrun.2 _ hmem).1 rfl, fun c hmem => (hrun.2 _ hmem).2 c rfl⟩
  · intro v a v' t' hr hs
    have hquiet := noPanic_step (reachable_moves hr hs)
    refine ⟨hr.step hs, ?_⟩
    intro e he
    refine ⟨?_, ?_⟩
    · intro heq
      exact hquiet.1 (heq ▸ he)
    · intro c heq
      exact hquiet.2 c (heq ▸ he)

/-- **Every reachable world is at a stage, and every log agrees with it.** -/
theorem lifecycleOk_run {as : List Action} {w : World} {t : List Event}
    (h : (system interval initialDelay taskFn).exec (system interval initialDelay taskFn).init as
      = some (w, t)) : LifecycleOk w t := by
  obtain ⟨s, hst, hs⟩ := reachable_stage ⟨as, t, h⟩
  have hone : w.loops.length ≤ 1 := by
    cases hst with
    | fresh _ _ _ loops => rw [loops]; exact Nat.zero_le 1
    | running _ _ loops => omega
    | stopped _ _ loops => omega
  have hstarted : w.task.started = w.task.inner.val.taskHandle.isSome := by
    cases hst with
    | fresh _ inner started => rw [inner, started]; rfl
    | running inner started => rw [inner, started]; rfl
    | stopped inner started => rw [inner, started]; rfl
  exact
    { stage := ⟨s, hs⟩
      started := hstarted
      startOk := by have := loops_run h; omega
      spawned := hone
      noPanic := noPanic_run h }

/-- From its stage, `w` leads to the same stage in `w'` or to a later one. -/
def Forward (w w' : World) : Prop :=
  ∀ s, stageOf w.task.inner.val = some s →
    ∃ s', stageOf w'.task.inner.val = some s' ∧ s.rank ≤ s'.rank

/-- One step stays at its stage or moves on to the next one. -/
theorem stage_step {w w' : World} {a : Action} {t : List Event}
    (h : (system interval initialDelay taskFn).Reachable w)
    (hs : (system interval initialDelay taskFn).step w a = some (w', t)) :
    ∃ s s', stageOf w.task.inner.val = some s ∧ stageOf w'.task.inner.val = some s'
      ∧ (s'.rank = s.rank ∨ s'.rank = s.rank + 1) := by
  obtain ⟨s, hst, hstage⟩ := reachable_stage h
  obtain ⟨s', hst', hrank⟩ := inStage_step hst (reachable_moves h hs)
  exact ⟨s, s', hstage, inStage_stageOf hst', hrank⟩

/-- A run never goes back. -/
theorem forward_run {w w' : World} {as : List Action} {t : List Event}
    (h : (system interval initialDelay taskFn).Reachable w)
    (hr : (system interval initialDelay taskFn).exec w as = some (w', t)) : Forward w w' := by
  refine Lts.Reachable.rel (R := Forward) ?_ ?_ ?_ h hr
  · intro v s hs
    exact ⟨s, hs, Nat.le_refl _⟩
  · intro v₁ v₂ v₃ h12 h23 s hs
    obtain ⟨s₂, hs₂, hle₂⟩ := h12 s hs
    obtain ⟨s₃, hs₃, hle₃⟩ := h23 s₂ hs₂
    exact ⟨s₃, hs₃, Nat.le_trans hle₂ hle₃⟩
  · intro v a v' u hv hs r hr'
    obtain ⟨s, s', h1, h2, hrank⟩ := stage_step hv hs
    rw [h1] at hr'
    injection hr' with hr'
    subst hr'
    exact ⟨s', h2, by omega⟩

/-- A `start` returns `Ok` on a fresh task, and otherwise changes nothing. -/
theorem start_step {w w' : World} {t : List Event} (hm : Moves w .start w' t) :
    (t = [.startRet (.ok ())] ∧ w.task.inner.val.taskFn.isSome = true)
      ∨ (t = [.startRet (.err (.illegalState w.task.name))] ∧ w' = w) := by
  cases hm with
  | startFresh taskFn hf => exact Or.inl ⟨rfl, by rw [hf]; rfl⟩
  | startUsed hf => exact Or.inr ⟨rfl, rfl⟩

/-- A `stop` that finds no handle returns `Ok`, and leaves the task and its loops alone. -/
theorem stopLock_empty {w w' : World} {c : Nat} {t : List Event} (hm : Moves w (.stopLock c) w' t)
    (hh : w.task.inner.val.taskHandle = none) :
    t = [.stopRet c (.ok ())] ∧ w'.task = w.task ∧ w'.loops = w.loops := by
  cases hm with
  | stopEmpty _ hc _ => exact ⟨rfl, rfl, rfl⟩
  | stopTakes _ handle hc hsome => rw [hh] at hsome; exact absurd hsome (by simp)

end

/--
**The lifecycle of a `RepeatedTask`.**

Whatever the callers do in whatever order: every world reached is at a stage, and
its flag, its loops and its log agree with it; the stage moves ahead one at a time
and never back; `start` returns `Ok` or changes nothing and returns `IllegalState`;
and a `stop` without a handle returns `Ok` and changes nothing.
-/
theorem lifecycle (interval : Nat) (initialDelay : Option Nat) (taskFn : TaskFunction) :
    (∀ as w t, (system interval initialDelay taskFn).exec
        (system interval initialDelay taskFn).init as = some (w, t) → LifecycleOk w t)
      ∧ (∀ w a w' t, (system interval initialDelay taskFn).Reachable w →
          (system interval initialDelay taskFn).step w a = some (w', t) →
          ∃ s s', stageOf w.task.inner.val = some s ∧ stageOf w'.task.inner.val = some s'
            ∧ (s'.rank = s.rank ∨ s'.rank = s.rank + 1))
      ∧ (∀ w as w' t, (system interval initialDelay taskFn).Reachable w →
          (system interval initialDelay taskFn).exec w as = some (w', t) → Forward w w')
      ∧ (∀ w w' t, (system interval initialDelay taskFn).Reachable w →
          (system interval initialDelay taskFn).step w .start = some (w', t) →
          (t = [.startRet (.ok ())] ∧ w.task.inner.val.taskFn.isSome = true)
            ∨ (t = [.startRet (.err (.illegalState w.task.name))] ∧ w' = w))
      ∧ ∀ w c w' t, (system interval initialDelay taskFn).Reachable w →
          w.task.inner.val.taskHandle = none →
          (system interval initialDelay taskFn).step w (.stopLock c) = some (w', t) →
          t = [.stopRet c (.ok ())] ∧ w'.task = w.task ∧ w'.loops = w.loops := by
  refine ⟨?_, ?_, ?_, ?_, ?_⟩
  · intro as w t h
    exact lifecycleOk_run h
  · intro w a w' t h hs
    exact stage_step h hs
  · intro w as w' t h hr
    exact forward_run h hr
  · intro w w' t h hs
    exact start_step (reachable_moves h hs)
  · intro w c w' t h hh hs
    exact stopLock_empty (reachable_moves h hs) hh

/-- A task that is started twice, stopped twice and started again. -/
example : ((system 100 none ⟨"tick"⟩).exec (system 100 none ⟨"tick"⟩).init
    [.start, .start, .stopCall, .stopCall, .stopLock 1, .stopLock 0, .started, .start]).map Prod.snd
    = some [.startRet (.ok ()), .startRet (.err (.illegalState "tick")), .stopCalled 0,
        .stopCalled 1, .stopRet 0 (.ok ()), .startedIs false,
        .startRet (.err (.illegalState "tick"))] := rfl

end RsRun.Proof
