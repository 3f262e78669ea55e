import RsRun.Proof.Lifecycle

/-!
# `stop` as a barrier

A call of `stop` that returns `Ok` has either joined the loop, or found that the
handle was gone. In the first case the loop is over. In the second it is only known
that some earlier call took the handle, and that call may still be waiting for the
loop, or may have been dropped while it waited. So `stop` is a barrier exactly as
far as the call that took the handle is known to have joined.
-/

namespace RsRun.Proof

open TaskSystem RepeatedTask

/-! ## Loops that are over -/

/-- Every loop is over. -/
def LoopsOver (w : World) : Prop :=
  ∀ l ∈ w.loops, l.phase.joined.isSome = true

/-- No call begins in the log. -/
def NoBegin (t : List Event) : Prop :=
  ∀ i, Event.loop i .callBegin ∉ t

/-- Every loop is over, and none can be spawned any more. -/
structure Ended (w : World) : Prop where
  taskFn : w.task.inner.val.taskFn = none
  loops : LoopsOver w

/-- Only `start` spawns a loop, and a loop that is over stays over. -/
theorem loopsOver_step {w w' : World} {a : Action} {t : List Event}
    (h : LoopsOver w) (hm : Moves w a w' t) (hf : w.task.inner.val.taskFn = none) :
    LoopsOver w' ∧ NoBegin t := by
  cases hm with
  | startFresh taskFn hsome => rw [hf] at hsome; exact absurd hsome (by simp)
  | loop i a l l' es hl hs =>
      have hover := h l (List.mem_of_getElem? hl)
      rw [loop_step_live hs] at hover
      exact absurd hover (by simp)
  | loopPanics i l hl hcall =>
      have hover := h l (List.mem_of_getElem? hl)
      rw [hcall] at hover
      exact absurd hover (by simp [Phase.joined])
  | loopAborts i l hl hlive =>
      have hover := h l (List.mem_of_getElem? hl)
      rw [hlive] at hover
      exact absurd hover (by simp)
  | _ => exact ⟨h, by intro i; simp⟩

theorem ended_step {w w' : World} {a : Action} {t : List Event}
    (h : Ended w) (hm : Moves w a w' t) : Ended w' ∧ NoBegin t := by
  obtain ⟨hover, hnone⟩ := loopsOver_step h.loops hm h.taskFn
  refine ⟨⟨?_, hover⟩, hnone⟩
  have hf := h.taskFn
  cases hm with
  | startFresh taskFn hsome => rfl
  | _ => exact hf

section
variable {interval : Nat} {initialDelay : Option Nat} {taskFn : TaskFunction}

/-- **Once every loop has ended, no call begins any more.** -/
theorem ended_run {w w' : World} {as : List Action} {t : List Event}
    (hw : (system interval initialDelay taskFn).Reachable w) (h : Ended w)
    (hr : (system interval initialDelay taskFn).exec w as = some (w', t)) : NoBegin t := by
  have hrun := Lts.exec_events
    (I := fun v => (system interval initialDelay taskFn).Reachable v ∧ Ended v)
    (Q := fun e => ∀ i, e ≠ .loop i .callBegin) ?_ ⟨hw, h⟩ hr
  · intro i hmem
    exact hrun.2 _ hmem i rfl
  · intro v a v' t' hp hs
    obtain ⟨hend', ht'⟩ := ended_step hp.2 (reachable_moves hp.1 hs)
    refine ⟨⟨hp.1.step hs, hend'⟩, ?_⟩
    intro e he i heq
    subst heq
    exact ht' i he

/-! ## What the calls of `stop` know -/

/-- What a call of `stop` knows about the loops from the point it has come to. -/
structure Calls (w : World) : Prop where
  /-- The handle a call waits for is the handle of the only loop. -/
  waits : ∀ handle, StopCall.waiting handle ∈ w.stops → handle = 0
  /-- A call that has joined has seen the loop end. -/
  joins : ∀ r, StopCall.joined r ∈ w.stops → LoopsOver w

theorem calls_init : Calls (system interval initialDelay taskFn).init where
  waits := by intro handle h; simp [system, World.new] at h
  joins := by intro r h; simp [system, World.new] at h

theorem mem_of_mem_set {α : Type} {xs : List α} {c : Nat} {x y : α} (h : x ∈ xs.set c y)
    (hne : x ≠ y) : x ∈ xs := by
  rcases List.mem_or_eq_of_mem_set h with hmem | heq
  · exact hmem
  · exact absurd heq hne

/-- Some call has taken the handle, so the task is stopped. -/
theorem stopped_of_took {w : World} {s : Stage} (h : InStage w s) {x : StopCall}
    (hx : x ∈ w.stops) (htook : x.took = true) :
    s = .stopped ∧ w.task.inner.val.taskFn = none ∧ w.loops.length = 1 := by
  have hany : w.stops.any StopCall.took = true := List.any_eq_true.mpr ⟨x, hx, htook⟩
  cases h with
  | fresh _ _ _ _ _ took => rw [took] at hany; exact absurd hany (by simp)
  | running _ _ _ took => rw [took] at hany; exact absurd hany (by simp)
  | stopped inner _ loops => exact ⟨rfl, by rw [inner], loops⟩

theorem Calls.set {w w' : World} (h : Calls w) {c : Nat} {y : StopCall}
    (hstops : w'.stops = w.stops.set c y) (hw : ∀ handle, y ≠ .waiting handle)
    (hj : ∀ r, y ≠ .joined r) (hover : ∀ r, StopCall.joined r ∈ w.stops → LoopsOver w') :
    Calls w' := by
  constructor
  · intro handle hmem
    rw [hstops] at hmem
    exact h.waits handle (mem_of_mem_set hmem (hw handle).symm)
  · intro r hmem
    rw [hstops] at hmem
    exact hover r (mem_of_mem_set hmem (hj r).symm)

theorem calls_step {w w' : World} {a : Action} {t : List Event}
    (hw : (system interval initialDelay taskFn).Reachable w) (h : Calls w)
    (hm : Moves w a w' t) : Calls w' := by
  obtain ⟨s, hst, _⟩ := reachable_stage hw
  have hjoin : ∀ r, StopCall.joined r ∈ w.stops → LoopsOver w' := by
    intro r hr
    obtain ⟨_, hf, _⟩ := stopped_of_took hst hr rfl
    exact (loopsOver_step (h.joins r hr) hm hf).1
  cases hm with
  | stopCall =>
      constructor
      · intro handle hmem
        rcases List.mem_append.mp hmem with hmem | hmem
        · exact h.waits handle hmem
        · rw [List.mem_singleton] at hmem; exact absurd hmem (by simp)
      · intro r hmem
        rcases List.mem_append.mp hmem with hmem | hmem
        · exact hjoin r hmem
        · rw [List.mem_singleton] at hmem; exact absurd hmem (by simp)
  | stopEmpty c hc hh => exact h.set rfl (by simp) (by simp) hjoin
  | stopTakes c handle hc hh =>
      constructor
      · intro handle' hmem
        rcases List.mem_or_eq_of_mem_set hmem with hmem | heq
        · exact h.waits handle' hmem
        · injection heq with heq
          subst heq
          -- the handle that is taken is the one a running task stores
          cases hst with
          | fresh _ inner => rw [inner] at hh; exact absurd hh (by simp)
          | running inner => rw [inner] at hh; injection hh with hh; exact hh.symm
          | stopped inner => rw [inner] at hh; exact absurd hh (by simp)
      · intro r hmem
        exact hjoin r (mem_of_mem_set hmem (by simp))
  | stopJoin c handle l res hc hl hres =>
      have hzero : handle = 0 := h.waits handle (List.mem_of_getElem? hc)
      obtain ⟨_, _, hlen⟩ := stopped_of_took hst (List.mem_of_getElem? hc) rfl
      constructor
      · intro handle' hmem
        exact h.waits handle' (mem_of_mem_set hmem (by simp))
      · -- the only loop is the one that was joined
        intro r _ l' hl'
        obtain ⟨l₀, hl₀⟩ := List.length_eq_one_iff.mp hlen
        rw [hl₀, hzero] at hl
        injection hl with hl
        rw [hl₀, List.mem_singleton] at hl'
        rw [hl', hl, hres]
        rfl
  | stopDropCalled c hc => exact h.set rfl (by simp) (by simp) hjoin
  | stopDropWaiting c handle hc => exact h.set rfl (by simp) (by simp) hjoin
  | _ => exact ⟨h.waits, hjoin⟩

theorem calls_reachable {w : World} (h : (system interval initialDelay taskFn).Reachable w) :
    Calls w :=
  h.inv calls_init (fun _ _ _ _ hr hp hs => calls_step hr hp (reachable_moves hr hs))

/-- The task was started, so it has no function any more. -/
theorem taskFn_of_started {as : List Action} {w : World} {t : List Event}
    (h : (system interval initialDelay taskFn).exec (system interval initialDelay taskFn).init as
      = some (w, t)) (hstart : Event.startRet (.ok ()) ∈ t) : w.task.inner.val.taskFn = none := by
  have hpos : 0 < startOks t := List.count_pos_iff.mpr hstart
  have hlen := loops_run h
  obtain ⟨s, hst, _⟩ := reachable_stage ⟨as, t, h⟩
  cases hst with
  | fresh _ _ _ loops => rw [loops, List.length_nil] at hlen; omega
  | running inner => rw [inner]
  | stopped inner => rw [inner]

theorem taskFn_run {w w' : World} {as : List Action} {t : List Event}
    (hw : (system interval initialDelay taskFn).Reachable w)
    (hr : (system interval initialDelay taskFn).exec w as = some (w', t))
    (hf : w.task.inner.val.taskFn = none) : w'.task.inner.val.taskFn = none := by
  refine Lts.Reachable.rel
    (R := fun v v' => v.task.inner.val.taskFn = none → v'.task.inner.val.taskFn = none)
    ?_ ?_ ?_ hw hr hf
  · intro v hv; exact hv
  · intro v₁ v₂ v₃ h12 h23 hv; exact h23 (h12 hv)
  · intro v a v' u hv hs hnone
    have hm := reachable_moves hv hs
    cases hm with
    | startFresh taskFn hsome => rfl
    | _ => exact hnone

/-! ## The barrier -/

/-- No call is in progress, and none begins in any run from here. -/
def Silent (interval : Nat) (initialDelay : Option Nat) (taskFn : TaskFunction) (w : World) :
    Prop :=
  (∀ l ∈ w.loops, l.phase ≠ .calling)
    ∧ ∀ as w' t, (system interval initialDelay taskFn).exec w as = some (w', t) → NoBegin t

/-- No call of `stop` took the handle and has not joined. -/
def Settled (w : World) : Prop :=
  ∀ x ∈ w.stops, x.unsettled = false

/--
A call of `stop` that begins after some `start` has returned `Ok`, and itself returns
`Ok` in a world that satisfies `Q`, leaves that world silent.
-/
def StopIsBarrier (Q : World → Prop) (interval : Nat) (initialDelay : Option Nat)
    (taskFn : TaskFunction) : Prop :=
  ∀ as w₀ t₀ w₁ t₁ bs w₂ t₂ a w₃ t₃,
    (system interval initialDelay taskFn).exec (system interval initialDelay taskFn).init as
      = some (w₀, t₀) →
    Event.startRet (.ok ()) ∈ t₀ →
    (system interval initialDelay taskFn).step w₀ .stopCall = some (w₁, t₁) →
    (system interval initialDelay taskFn).exec w₁ bs = some (w₂, t₂) →
    (system interval initialDelay taskFn).step w₂ a = some (w₃, t₃) →
    Event.stopRet w₀.stops.length (.ok ()) ∈ t₃ →
    Q w₃ → Silent interval initialDelay taskFn w₃

/-- A world in which every loop has ended is silent. -/
theorem Ended.silent {w : World} (hw : (system interval initialDelay taskFn).Reachable w)
    (h : Ended w) : Silent interval initialDelay taskFn w := by
  refine ⟨?_, ?_⟩
  · intro l hl hcall
    have hover := h.loops l hl
    rw [hcall] at hover
    exact absurd hover (by simp [Phase.joined])
  · intro as w' t hr
    exact ended_run hw h hr

/-- A call of `stop` that returned `Ok`: some call, this one or an earlier one, took the handle. -/
theorem took_of_stopRet {w w' : World} {a : Action} {t : List Event} {c : Nat}
    (hw : (system interval initialDelay taskFn).Reachable w)
    (hs : (system interval initialDelay taskFn).step w a = some (w', t))
    (hf : w.task.inner.val.taskFn = none) (hret : Event.stopRet c (.ok ()) ∈ t) :
    ∃ x ∈ w'.stops, x.took = true := by
  have hm := reachable_moves hw hs
  obtain ⟨s, hst, _⟩ := reachable_stage (hw.step hs)
  cases hm with
  | stopEmpty c hc hh =>
      cases hst with
      | fresh _ inner => rw [show w.task.inner.val = _ from inner] at hf; exact absurd hf (by simp)
      | running inner => rw [show w.task.inner.val = _ from inner] at hh; exact absurd hh (by simp)
      | stopped _ _ _ _ took => exact List.any_eq_true.mp took
  | stopJoin c handle l res hc hl hres =>
      obtain ⟨hlt, _⟩ := List.getElem?_eq_some_iff.mp hc
      exact ⟨_, List.mem_set hlt _, rfl⟩
  | loop i a l l' es hl hs =>
      obtain ⟨e, _, heq⟩ := List.mem_map.mp hret
      exact absurd heq (by simp)
  | _ => exact absurd hret (by simp)

/--
**`stop` is a barrier when the call that took the handle has joined.**
-/
theorem stop_barrier (interval : Nat) (initialDelay : Option Nat) (taskFn : TaskFunction) :
    StopIsBarrier Settled interval initialDelay taskFn := by
  intro as w₀ t₀ w₁ t₁ bs w₂ t₂ a w₃ t₃ h₀ hstart h₁ h₂ h₃ hret hsettled
  have hr₀ : (system interval initialDelay taskFn).Reachable w₀ := ⟨as, t₀, h₀⟩
  have hr₁ := hr₀.step h₁
  have hr₂ := hr₁.exec h₂
  have hr₃ := hr₂.step h₃
  -- the function was gone before the call began, and stays gone
  have hf₀ := taskFn_of_started h₀ hstart
  have hf₁ := taskFn_run hr₀ (Lts.exec_one h₁) hf₀
  have hf₂ := taskFn_run hr₁ h₂ hf₁
  have hf₃ := taskFn_run hr₂ (Lts.exec_one h₃) hf₂
  -- whoever took the handle is settled, so it has joined
  obtain ⟨x, hx, htook⟩ := took_of_stopRet hr₂ h₃ hf₂ hret
  have hun := hsettled x hx
  have hover : LoopsOver w₃ := by
    cases x with
    | joined r => exact (calls_reachable hr₃).joins r hx
    | waiting handle => exact absurd hun (by simp [StopCall.unsettled])
    | dropped handle =>
        cases handle with
        | none => exact absurd htook (by simp [StopCall.took])
        | some handle => exact absurd hun (by simp [StopCall.unsettled])
    | called => exact absurd htook (by simp [StopCall.took])
    | returned r => exact absurd htook (by simp [StopCall.took])
  exact Ended.silent hr₃ ⟨hf₃, hover⟩

end

/-- The function is called at once; the call ends, the loop sees the token, and `stop` joins it. -/
theorem stop_barrier_joined :
    ∃ w t, (system 100 (some 0) ⟨"tick"⟩).exec (system 100 (some 0) ⟨"tick"⟩).init
        [.start, .loop 0 .resume, .stopCall, .stopLock 0, .loop 0 (.callDone true),
          .loop 0 .resume, .stopJoin 0] = some (w, t)
      ∧ Silent 100 (some 0) ⟨"tick"⟩ w := by
  refine ⟨_, _, rfl, ?_⟩
  refine stop_barrier 100 (some 0) ⟨"tick"⟩ [.start, .loop 0 .resume] _ _ _ _
    [.stopLock 0, .loop 0 (.callDone true), .loop 0 .resume] _ _ (.stopJoin 0) _ _
    rfl (by decide) rfl rfl rfl (by decide) ?_
  intro x hx
  rw [List.mem_singleton.mp hx]
  rfl

/-- Without the condition it is not: the second `stop` returns during the call. -/
theorem stop_barrier_unsettled : ¬ StopIsBarrier (fun _ => True) 100 (some 0) ⟨"tick"⟩ := by
  intro h
  have hsilent := h [.start, .loop 0 .resume, .stopCall, .stopLock 0] _ _ _ _ [] _ _ (.stopLock 1)
    _ _ rfl (by decide) rfl rfl rfl (by decide) trivial
  exact hsilent.1 _ List.mem_cons_self rfl

end RsRun.Proof
