import RsRun.GlobalSystem

/-!
# Whole calls

`Statics.call` runs a call in one go. What it computes is what the steps of the call
come to when no other thread gets between them, so a history of whole calls is one of
the runs of the system.
-/

namespace RsRun.Proof

open Global Sync

/-! ## The steps of a call -/

/-- The world with its newest call, which has not returned yet. -/
def pending (s : Statics) (calls : List Call) (op : Op) : World :=
  { statics := s, calls := calls ++ [{ op := op, answer := none }] }

/-- The world with its newest call, which has returned. -/
def answered (s : Statics) (calls : List Call) (op : Op) (answer : Answer) : World :=
  { statics := s, calls := calls ++ [{ op := op, answer := some answer }] }

theorem pending_get (s : Statics) (calls : List Call) (op : Op) :
    (pending s calls op).calls[calls.length]? = some { op := op, answer := none } := by
  unfold pending
  rw [List.getElem?_append_right (Nat.le_refl _), Nat.sub_self]
  rfl

theorem pending_answer (s : Statics) (calls : List Call) (op : Op) (answer : Answer) :
    (pending s calls op).answer calls.length op answer
      = (answered s calls op answer, [.answered calls.length answer]) := by
  unfold World.answer pending answered
  rw [List.set_append_right _ _ (Nat.le_refl _), Nat.sub_self]
  rfl

theorem locked_with_start {α : Type} (s : Statics) (start : OneShot Unit)
    (closure : ConfigRuntimes → Nat → ConfigRuntimes × Made × Option α) :
    ({ s with start := start } : Statics).locked closure
      = ({ (s.locked closure).1 with start := start }, (s.locked closure).2) := by
  unfold Statics.locked
  dsimp only
  split <;> rfl

theorem locked_with_global {α : Type} (s : Statics) (global : OneShot GlobalRuntimes)
    (closure : ConfigRuntimes → Nat → ConfigRuntimes × Made × Option α) :
    ({ s with global := global } : Statics).locked closure
      = ({ (s.locked closure).1 with global := global }, (s.locked closure).2) := by
  unfold Statics.locked
  dsimp only
  split <;> rfl

section
variable (s : Statics) (calls : List Call)

/-! A step of the newest call, as a function of what its static does. -/

theorem step_enter_init (options : RuntimeOptions) :
    system.step (pending s calls (.init options)) (.enter calls.length)
      = match s.start.enter calls.length with
        | none => none
        | some (start, none) => some (pending { s with start := start } calls (.init options), [])
        | some (_, some res) => some (answered s calls (.init options) (initAnswer res),
            [.answered calls.length (initAnswer res)]) := by
  unfold system Global.step
  dsimp only
  rw [pending_get]
  dsimp only
  split
  · rename_i h; rw [show s.start.enter calls.length = none from h]
  · rename_i start h; rw [show s.start.enter calls.length = some (start, none) from h]; rfl
  · rename_i start res h
    rw [show s.start.enter calls.length = some (start, some res) from h, pending_answer]

theorem step_enter_use (kind : Kind) :
    system.step (pending s calls (.use kind)) (.enter calls.length)
      = match s.global.enter calls.length with
        | none => none
        | some (global, none) => some (pending { s with global := global } calls (.use kind), [])
        | some (_, some res) => some (answered s calls (.use kind) (useAnswer kind res),
            [.answered calls.length (useAnswer kind res)]) := by
  unfold system Global.step
  dsimp only
  rw [pending_get]
  dsimp only
  split
  · rename_i h; rw [show s.global.enter calls.length = none from h]
  · rename_i global h; rw [show s.global.enter calls.length = some (global, none) from h]; rfl
  · rename_i global res h
    rw [show s.global.enter calls.length = some (global, some res) from h, pending_answer]

theorem step_run_init (options : RuntimeOptions) (outcome : Kind → BuildOutcome) :
    system.step
        (pending { s with start := .running calls.length none } calls (.init options))
        (.run calls.length outcome)
      = some (pending { (s.runInit options outcome).1 with
          start := .running calls.length (some (s.runInit options outcome).2.2) } calls (.init options),
        createdBy calls.length (s.runInit options outcome).2.1) := by
  unfold system Global.step
  dsimp only
  rw [pending_get]
  dsimp only
  have hrun : ({ s with start := .running calls.length none } : Statics).runInit options outcome
      = _ := locked_with_start s _ _
  rw [show (pending { s with start := .running calls.length none } calls (.init options)).statics
    = { s with start := .running calls.length none } from rfl, hrun, OneShot.close_running]
  rfl

theorem step_run_use (kind : Kind) (outcome : Kind → BuildOutcome) :
    system.step
        (pending { s with global := .running calls.length none } calls (.use kind))
        (.run calls.length outcome)
      = some (pending { (s.runGlobal outcome).1 with
          global := .running calls.length (some (s.runGlobal outcome).2.2) } calls (.use kind),
        createdBy calls.length (s.runGlobal outcome).2.1) := by
  unfold system Global.step
  dsimp only
  rw [pending_get]
  dsimp only
  have hrun : ({ s with global := .running calls.length none } : Statics).runGlobal outcome
      = _ := locked_with_global s _ _
  rw [show (pending { s with global := .running calls.length none } calls (.use kind)).statics
    = { s with global := .running calls.length none } from rfl, hrun, OneShot.close_running]
  rfl

theorem step_leave_init (options : RuntimeOptions) {res : Option Unit}
    (hs : s.start = .running calls.length (some res)) :
    system.step (pending s calls (.init options)) (.leave calls.length)
      = some (answered { s with start := OneShot.publish res } calls (.init options)
          (initAnswer res), [.answered calls.length (initAnswer res)]) := by
  unfold system Global.step
  dsimp only
  rw [pending_get]
  dsimp only
  rw [show (pending s calls (.init options)).statics = s from rfl, hs, OneShot.leave_running]
  dsimp only
  exact congrArg some (pending_answer { s with start := OneShot.publish res } calls _ _)

theorem step_leave_use (kind : Kind) {res : Option GlobalRuntimes}
    (hs : s.global = .running calls.length (some res)) :
    system.step (pending s calls (.use kind)) (.leave calls.length)
      = some (answered { s with global := OneShot.publish res } calls (.use kind)
          (useAnswer kind res), [.answered calls.length (useAnswer kind res)]) := by
  unfold system Global.step
  dsimp only
  rw [pending_get]
  dsimp only
  rw [show (pending s calls (.use kind)).statics = s from rfl, hs, OneShot.leave_running]
  dsimp only
  exact congrArg some (pending_answer { s with global := OneShot.publish res } calls _ _)

end

/--
**A whole call is a run.** What `Statics.call` computes is what the steps of the call
do when no other thread gets between them.
-/
theorem call_exec {s s' : Statics} {op : Op} {outcome : Kind → BuildOutcome} {answer : Answer}
    (h : s.call op outcome = some (s', answer)) (calls : List Call) :
    ∃ as t, system.exec (pending s calls op) as = some (answered s' calls op answer, t) := by
  cases op with
  | init options =>
      unfold Statics.call at h
      dsimp only at h
      split at h
      · rename_i hs
        injection h with h; injection h with h1 h2
        subst h1; subst h2
        refine ⟨[.enter calls.length], [.answered calls.length (.ok none)], Lts.exec_one ?_⟩
        rw [step_enter_init, hs]
        rfl
      · rename_i hs
        injection h with h; injection h with h1 h2
        subst h1; subst h2
        refine ⟨[.enter calls.length], [.answered calls.length .panicked], Lts.exec_one ?_⟩
        rw [step_enter_init, hs]
        rfl
      · exact absurd h (by simp)
      · rename_i hs
        injection h with h; injection h with h1 h2
        subst h1; subst h2
        have henter : system.step (pending s calls (.init options)) (.enter calls.length)
            = some (pending { s with start := .running calls.length none } calls (.init options),
              []) := by
          rw [step_enter_init, hs]
          rfl
        have hleave := step_leave_init { (s.runInit options outcome).1 with
          start := .running calls.length (some (s.runInit options outcome).2.2) } calls options rfl
        exact ⟨_, _, Lts.exec_cons.mpr ⟨_, _, _, henter, Lts.exec_cons.mpr
          ⟨_, _, _, step_run_init s calls options outcome, Lts.exec_one hleave, rfl⟩, rfl⟩⟩
  | use kind =>
      unfold Statics.call at h
      dsimp only at h
      split at h
      · rename_i g hs
        injection h with h; injection h with h1 h2
        subst h1; subst h2
        refine ⟨[.enter calls.length], [.answered calls.length (useAnswer kind (some g))],
          Lts.exec_one ?_⟩
        rw [step_enter_use, hs]
        rfl
      · rename_i hs
        injection h with h; injection h with h1 h2
        subst h1; subst h2
        refine ⟨[.enter calls.length], [.answered calls.length (useAnswer kind none)],
          Lts.exec_one ?_⟩
        rw [step_enter_use, hs]
        rfl
      · exact absurd h (by simp)
      · rename_i hs
        injection h with h; injection h with h1 h2
        subst h1; subst h2
        have henter : system.step (pending s calls (.use kind)) (.enter calls.length)
            = some (pending { s with global := .running calls.length none } calls (.use kind),
              []) := by
          rw [step_enter_use, hs]
          rfl
        have hleave := step_leave_use { (s.runGlobal outcome).1 with
          global := .running calls.length (some (s.runGlobal outcome).2.2) } calls kind rfl
        exact ⟨_, _, Lts.exec_cons.mpr ⟨_, _, _, henter, Lts.exec_cons.mpr
          ⟨_, _, _, step_run_use s calls kind outcome, Lts.exec_one hleave, rfl⟩, rfl⟩⟩

/-- **A history of whole calls is a run.** -/
theorem replay_reachable {s s' : Statics} {calls : List Call} {ops : List Op}
    (h : s.replay ops = some s') (hr : system.Reachable { statics := s, calls := calls }) :
    ∃ calls', system.Reachable { statics := s', calls := calls' } := by
  induction ops generalizing s calls with
  | nil =>
      injection h with h
      subst h
      exact ⟨calls, hr⟩
  | cons op ops ih =>
      rw [Statics.replay] at h
      split at h
      · exact absurd h (by simp)
      · rename_i s₁ answer hcall
        obtain ⟨as, t, hexec⟩ := call_exec hcall calls
        have hpending : system.Reachable (pending s calls op) :=
          hr.step (a := .call op) (t := []) rfl
        exact ih h (hpending.exec hexec)

end RsRun.Proof
