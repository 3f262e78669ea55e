import RsRun.Proof.Configure

/-!
# A failed initialisation

When a creation panics inside `init_global_runtimes`, the guard poisons the mutex. From
then on no closure runs under it any more: the `Once` is poisoned too, and the global
runtimes cannot be made. What the call had configured is never served, and neither are
the built-in runtimes. Nobody blocks for that: whoever runs a closure comes to its end, and
those who wait for him have their panic after that.
-/

namespace RsRun.Proof

open Global Sync

/-- The lock is poisoned, and neither static has a value or will get one. -/
structure Broken (s : Statics) : Prop where
  start : s.start.decided ≠ some (some ())
  config : s.config.poisoned = true
  global : ∀ g, s.global.decided ≠ some (some g)

/-- What a broken static is told to say. -/
theorem told_broken {s : Statics} (h : Broken s) {op : Op} {a : Answer} (ht : Told s op a) :
    a = .panicked := by
  cases op with
  | init options =>
      obtain ⟨res, hres, ha⟩ := ht
      cases res with
      | none => exact ha
      | some u => exact absurd hres h.start
  | use kind =>
      obtain ⟨res, hres, ha⟩ := ht
      cases res with
      | none => exact ha
      | some g => exact absurd hres (h.global g)

/-- **Broken statics stay broken**, and whoever returns has panicked. -/
theorem broken_step {w w' : World} {t : List Event} (h : Broken w.statics) (hs : Steps w w' t) :
    Broken w'.statics ∧ ∀ c a, Event.answered c a ∈ t → a = .panicked := by
  have hcreated : ∀ c (m : Made), ∀ d a, Event.answered d a ∈ createdBy c m → a = .panicked := by
    intro c m d a hmem
    obtain ⟨x, _, heq⟩ := List.mem_map.mp hmem
    exact absurd heq (by simp)
  cases hs with
  | quiet _ _ start config global _ _ _ answers =>
      refine ⟨⟨?_, ?_, ?_⟩, ?_⟩
      · rw [start]; exact h.start
      · rw [config]; exact h.config
      · rw [global]; exact h.global
      · intro c a hmem
        obtain ⟨op, _, htold⟩ := answers c a hmem
        exact told_broken h htold
  | runInit c options outcome start call before after =>
      -- `lock().unwrap()` panics before the closure does anything
      have hrun : w.statics.runInit options outcome = _ := locked_poisoned h.config _
      rw [hrun] at after ⊢
      exact ⟨⟨by rw [after]; simp, h.config, h.global⟩, hcreated c _⟩
  | runGlobal c kind outcome global call before after =>
      have hrun : w.statics.runGlobal outcome = _ := locked_poisoned h.config _
      rw [hrun] at after ⊢
      refine ⟨⟨h.start, h.config, ?_⟩, hcreated c _⟩
      intro g hg
      rw [show global.decided = _ from after] at hg
      exact absurd hg (by simp)

theorem broken_run {w w' : World} {as : List Action} {t : List Event} (h : Broken w.statics)
    (hr : system.exec w as = some (w', t)) :
    Broken w'.statics ∧ ∀ c a, Event.answered c a ∈ t → a = .panicked := by
  have hrun := Lts.exec_events (I := fun v => Broken v.statics)
    (Q := fun e => ∀ c a, e = .answered c a → a = .panicked) ?_ h hr
  · exact ⟨hrun.1, fun c a hmem => hrun.2 _ hmem c a rfl⟩
  · intro v a v' t' hv hs
    obtain ⟨hv', ht'⟩ := broken_step hv (step_steps hs)
    refine ⟨hv', ?_⟩
    intro e he c answer heq
    subst heq
    exact ht' c answer he

/-! ## Who runs the closures -/

/-- Whoever runs a closure is a call of its static that has not returned yet. -/
structure Manned (w : World) : Prop where
  start : ∀ c res, w.statics.start = .running c res →
    ∃ options, w.calls[c]? = some { op := .init options, answer := none }
  global : ∀ c res, w.statics.global = .running c res →
    ∃ kind, w.calls[c]? = some { op := .use kind, answer := none }

theorem answer_other {w : World} {c d : Nat} {op op' : Op} {answer : Answer}
    (hc : w.calls[c]? = some { op := op, answer := none })
    (hd : w.calls[d]? = some { op := op', answer := none }) (hne : op ≠ op') :
    (w.answer c op answer).1.calls[d]? = some { op := op', answer := none } := by
  have hcd : c ≠ d := by
    intro heq
    subst heq
    rw [hc] at hd
    injection hd with hd
    injection hd with hd _
    exact hne hd
  rw [World.answer]
  dsimp only
  rw [List.getElem?_set_ne hcd]
  exact hd

theorem manned_step {w w' : World} {a : Action} {t : List Event} (h : Manned w)
    (hs : system.step w a = some (w', t)) : Manned w' := by
  change Global.step w a = some (w', t) at hs
  cases a with
  | call op =>
      rw [Global.step] at hs
      injection hs with hs; injection hs with h1 _
      subst h1
      refine ⟨fun c res hrun => ?_, fun c res hrun => ?_⟩
      · obtain ⟨options, hc⟩ := h.start c res hrun
        exact ⟨options, Lists.getElem?_append_some hc _⟩
      · obtain ⟨kind, hc⟩ := h.global c res hrun
        exact ⟨kind, Lists.getElem?_append_some hc _⟩
  | enter c =>
      rw [Global.step] at hs
      split at hs
      · rename_i options hc
        split at hs
        · exact absurd hs (by simp)
        · rename_i start henter
          injection hs with hs; injection hs with h1 _
          subst h1
          refine ⟨fun d res hrun => ?_, h.global⟩
          rw [show start = .running d res from hrun] at henter
          rw [OneShot.enter_was_running henter]
          exact ⟨options, hc⟩
        · rename_i start res henter
          injection hs with hs; injection hs with h1 _
          subst h1
          refine ⟨fun d res' hrun => ?_, fun d res' hrun => ?_⟩
          · rw [show w.statics.start = .running d res' from hrun] at henter
            exact absurd henter (by simp [OneShot.enter])
          · obtain ⟨kind, hd⟩ := h.global d res' hrun
            exact ⟨kind, answer_other hc hd (by simp)⟩
      · rename_i kind hc
        split at hs
        · exact absurd hs (by simp)
        · rename_i global henter
          injection hs with hs; injection hs with h1 _
          subst h1
          refine ⟨h.start, fun d res hrun => ?_⟩
          rw [show global = .running d res from hrun] at henter
          rw [OneShot.enter_was_running henter]
          exact ⟨kind, hc⟩
        · rename_i global res henter
          injection hs with hs; injection hs with h1 _
          subst h1
          refine ⟨fun d res' hrun => ?_, fun d res' hrun => ?_⟩
          · obtain ⟨options, hd⟩ := h.start d res' hrun
            exact ⟨options, answer_other hc hd (by simp)⟩
          · rw [show w.statics.global = .running d res' from hrun] at henter
            exact absurd henter (by simp [OneShot.enter])
      · exact absurd hs (by simp)
  | run c outcome =>
      rw [Global.step] at hs
      split at hs
      · rename_i options hc
        split at hs
        rename_i statics made res hrun
        split at hs
        · exact absurd hs (by simp)
        · rename_i start hclose
          injection hs with hs; injection hs with h1 _
          subst h1
          have hglobal : statics.global = w.statics.global := by
            have hsame : (w.statics.runInit options outcome).1.global = w.statics.global :=
              locked_global w.statics _
            rw [hrun] at hsame
            exact hsame
          refine ⟨fun d res' hd => ?_, fun d res' hd => ?_⟩
          · rw [show start = .running d res' from hd] at hclose
            exact h.start d none (OneShot.close_was_running hclose)
          · exact h.global d res' (hglobal.symm.trans hd)
      · rename_i kind hc
        split at hs
        rename_i statics made res hrun
        split at hs
        · exact absurd hs (by simp)
        · rename_i global hclose
          injection hs with hs; injection hs with h1 _
          subst h1
          have hstart : statics.start = w.statics.start := by
            have hsame : (w.statics.runGlobal outcome).1.start = w.statics.start :=
              locked_start w.statics _
            rw [hrun] at hsame
            exact hsame
          refine ⟨fun d res' hd => ?_, fun d res' hd => ?_⟩
          · exact h.start d res' (hstart.symm.trans hd)
          · rw [show global = .running d res' from hd] at hclose
            exact h.global d none (OneShot.close_was_running hclose)
      · exact absurd hs (by simp)
  | leave c =>
      rw [Global.step] at hs
      split at hs
      · rename_i options hc
        split at hs
        · exact absurd hs (by simp)
        · rename_i start res hleave
          injection hs with hs; injection hs with h1 _
          subst h1
          refine ⟨fun d res' hrun => ?_, fun d res' hrun => ?_⟩
          · exact absurd hrun (OneShot.leave_over hleave d res')
          · obtain ⟨kind, hd⟩ := h.global d res' hrun
            exact ⟨kind, answer_other (w := w) hc hd (by simp)⟩
      · rename_i kind hc
        split at hs
        · exact absurd hs (by simp)
        · rename_i global res hleave
          injection hs with hs; injection hs with h1 _
          subst h1
          refine ⟨fun d res' hrun => ?_, fun d res' hrun => ?_⟩
          · obtain ⟨options, hd⟩ := h.start d res' hrun
            exact ⟨options, answer_other (w := w) hc hd (by simp)⟩
          · exact absurd hrun (OneShot.leave_over hleave d res')
      · exact absurd hs (by simp)

theorem manned_reachable {w : World} (h : system.Reachable w) : Manned w := by
  refine Lts.Reachable.inv (M := system) (P := Manned) ⟨?_, ?_⟩
    (fun _ _ _ _ _ hp hs => manned_step hp hs) h
  · exact fun c res hrun => absurd hrun (by simp [system, Statics.init])
  · exact fun c res hrun => absurd hrun (by simp [system, Statics.init])

/-! ## Every call comes to its end -/

/-- How far the static of a call is, whatever its value. -/
def stage (s : Statics) : Op → OneShot Unit
  | .init _ => s.start.forget
  | .use _ => s.global.forget

/-- A broken static has no value. -/
theorem Broken.stage_cases {s : Statics} (h : Broken s) (op : Op) :
    stage s op = .incomplete ∨ (∃ c, stage s op = .running c none)
      ∨ (∃ c, stage s op = .running c (some none)) ∨ stage s op = .poisoned := by
  have hcases : ∀ {α : Type} (o : OneShot α), (∀ val, o.decided ≠ some (some val)) →
      o.forget = .incomplete ∨ (∃ c, o.forget = .running c none)
        ∨ (∃ c, o.forget = .running c (some none)) ∨ o.forget = .poisoned := by
    intro α o hno
    cases o with
    | incomplete => exact .inl rfl
    | poisoned => exact .inr (.inr (.inr rfl))
    | ready val => exact absurd rfl (hno val)
    | running c res =>
        cases res with
        | none => exact .inr (.inl ⟨c, rfl⟩)
        | some res =>
            cases res with
            | none => exact .inr (.inr (.inl ⟨c, rfl⟩))
            | some val => exact absurd rfl (hno val)
  cases op with
  | init options => exact hcases s.start (fun _ => h.start)
  | use kind => exact hcases s.global h.global

/-- Whoever runs the closure that a call waits for is a call of the same static. -/
theorem Manned.runner {w : World} (h : Manned w) {op : Op} {c : Nat} {res : Option (Option Unit)}
    (hrun : stage w.statics op = .running c res) :
    ∃ op', w.calls[c]? = some { op := op', answer := none } ∧ ∀ s, stage s op' = stage s op := by
  cases op with
  | init options =>
      obtain ⟨res', hrun, _⟩ := OneShot.forget_running hrun
      obtain ⟨options', hc⟩ := h.start c res' hrun
      exact ⟨_, hc, fun _ => rfl⟩
  | use kind =>
      obtain ⟨res', hrun, _⟩ := OneShot.forget_running hrun
      obtain ⟨kind', hc⟩ := h.global c res' hrun
      exact ⟨_, hc, fun _ => rfl⟩

section
variable {w : World} {c : Nat} {op : Op}

/-- The first call of a static begins to run its closure. -/
theorem step_enter_first (hc : w.calls[c]? = some { op := op, answer := none })
    (h : stage w.statics op = .incomplete) :
    ∃ w', system.step w (.enter c) = some (w', []) ∧ stage w'.statics op = .running c none
      ∧ w'.calls = w.calls := by
  cases op with
  | init options =>
      have hstart : w.statics.start = .incomplete := OneShot.forget_incomplete h
      refine ⟨{ w with statics := { w.statics with start := .running c none } }, ?_, rfl, rfl⟩
      change Global.step w (.enter c) = _
      rw [Global.step, hc]
      dsimp only
      rw [hstart]
      rfl
  | use kind =>
      have hglobal : w.statics.global = .incomplete := OneShot.forget_incomplete h
      refine ⟨{ w with statics := { w.statics with global := .running c none } }, ?_, rfl, rfl⟩
      change Global.step w (.enter c) = _
      rw [Global.step, hc]
      dsimp only
      rw [hglobal]
      rfl

/-- Under the poisoned lock its closure panics. -/
theorem step_run_poisoned (hc : w.calls[c]? = some { op := op, answer := none })
    (hp : w.statics.config.poisoned = true) (h : stage w.statics op = .running c none) :
    ∃ w', system.step w (.run c granted) = some (w', [])
      ∧ stage w'.statics op = .running c (some none) ∧ w'.calls = w.calls := by
  cases op with
  | init options =>
      have hstart : w.statics.start = .running c none := OneShot.forget_running_none h
      have hrun : w.statics.runInit options granted = _ := locked_poisoned hp _
      refine ⟨{ w with statics := { w.statics with start := .running c (some none) } }, ?_, rfl, rfl⟩
      change Global.step w (.run c granted) = _
      rw [Global.step, hc]
      dsimp only
      rw [hrun, hstart, OneShot.close_running]
      rfl
  | use kind =>
      have hglobal : w.statics.global = .running c none := OneShot.forget_running_none h
      have hrun : w.statics.runGlobal granted = _ := locked_poisoned hp _
      refine ⟨{ w with statics := { w.statics with global := .running c (some none) } }, ?_, rfl, rfl⟩
      change Global.step w (.run c granted) = _
      rw [Global.step, hc]
      dsimp only
      rw [hrun, hglobal, OneShot.close_running]
      rfl

/-- It poisons its static, and panics. -/
theorem step_leave_panicked (hc : w.calls[c]? = some { op := op, answer := none })
    (h : stage w.statics op = .running c (some none)) :
    ∃ w', system.step w (.leave c) = some (w', [.answered c .panicked])
      ∧ stage w'.statics op = .poisoned ∧ ∀ d, d ≠ c → w'.calls[d]? = w.calls[d]? := by
  cases op with
  | init options =>
      have hstart : w.statics.start = .running c (some none) := OneShot.forget_running_panicked h
      refine ⟨({ w with statics := { w.statics with start := .poisoned } }.answer c (.init options)
        .panicked).1, ?_, rfl, fun d hd => List.getElem?_set_ne hd.symm⟩
      change Global.step w (.leave c) = _
      rw [Global.step, hc]
      dsimp only
      rw [hstart, OneShot.leave_running]
      rfl
  | use kind =>
      have hglobal : w.statics.global = .running c (some none) :=
        OneShot.forget_running_panicked h
      refine ⟨({ w with statics := { w.statics with global := .poisoned } }.answer c (.use kind)
        .panicked).1, ?_, rfl, fun d hd => List.getElem?_set_ne hd.symm⟩
      change Global.step w (.leave c) = _
      rw [Global.step, hc]
      dsimp only
      rw [hglobal, OneShot.leave_running]
      rfl

/-- Whoever comes to a poisoned static panics there. -/
theorem step_enter_poisoned (hc : w.calls[c]? = some { op := op, answer := none })
    (h : stage w.statics op = .poisoned) :
    ∃ w', system.step w (.enter c) = some (w', [.answered c .panicked]) := by
  cases op with
  | init options =>
      have hstart : w.statics.start = .poisoned := OneShot.forget_poisoned h
      refine ⟨(w.answer c (.init options) .panicked).1, ?_⟩
      change Global.step w (.enter c) = _
      rw [Global.step, hc]
      dsimp only
      rw [hstart]
      rfl
  | use kind =>
      have hglobal : w.statics.global = .poisoned := OneShot.forget_poisoned h
      refine ⟨(w.answer c (.use kind) .panicked).1, ?_⟩
      change Global.step w (.enter c) = _
      rw [Global.step, hc]
      dsimp only
      rw [hglobal]
      rfl

/-- Call `c` can be run to its end, where it panics. -/
def Panics (w : World) (c : Nat) : Prop :=
  ∃ bs w' u, system.exec w bs = some (w', u) ∧ Event.answered c .panicked ∈ u

theorem panics_later {a : Action} {w₁ : World} {u : List Event}
    (hs : system.step w a = some (w₁, u)) (h : Panics w₁ c) : Panics w c := by
  obtain ⟨bs, w₂, v, hrun, hmem⟩ := h
  exact ⟨a :: bs, w₂, u ++ v, Lts.exec_cons.mpr ⟨w₁, u, v, hs, hrun, rfl⟩,
    List.mem_append_right _ hmem⟩

/-- The closure has panicked: its call leaves, and then those come that wait for it. -/
theorem panics_closed (hm : Manned w) (hc : w.calls[c]? = some { op := op, answer := none })
    {d : Nat} (h : stage w.statics op = .running d (some none)) : Panics w c := by
  obtain ⟨op', hd, hsame⟩ := hm.runner h
  obtain ⟨w₁, hs, hstage, hothers⟩ := step_leave_panicked hd ((hsame _).trans h)
  by_cases hcd : c = d
  · subst hcd
    exact ⟨[.leave c], w₁, _, Lts.exec_one hs, List.mem_singleton_self _⟩
  · obtain ⟨w₂, hs₂⟩ := step_enter_poisoned ((hothers c hcd).trans hc) ((hsame _).symm.trans hstage)
    exact panics_later hs ⟨[.enter c], w₂, _, Lts.exec_one hs₂, List.mem_singleton_self _⟩

/-- The closure is running, and is about to panic at the lock. -/
theorem panics_running (hb : Broken w.statics) (hm : Manned w)
    (hc : w.calls[c]? = some { op := op, answer := none }) {d : Nat}
    (h : stage w.statics op = .running d none) : Panics w c := by
  obtain ⟨op', hd, hsame⟩ := hm.runner h
  obtain ⟨w₁, hs, hstage, hcalls⟩ := step_run_poisoned hd hb.config ((hsame _).trans h)
  have hm₁ := manned_step hm hs
  refine panics_later hs (panics_closed hm₁ ?_ ((hsame _).symm.trans hstage))
  rw [hcalls]
  exact hc

/-- **With broken statics every call can be run to its end.** -/
theorem broken_panics (hb : Broken w.statics) (hm : Manned w)
    (hc : w.calls[c]? = some { op := op, answer := none }) : Panics w c := by
  rcases hb.stage_cases op with h | ⟨d, h⟩ | ⟨d, h⟩ | h
  · obtain ⟨w₁, hs, hstage, hcalls⟩ := step_enter_first hc h
    have hb₁ := (broken_step hb (step_steps hs)).1
    refine panics_later hs (panics_running hb₁ (manned_step hm hs) ?_ hstage)
    rw [hcalls]
    exact hc
  · exact panics_running hb hm hc h
  · exact panics_closed hm hc h
  · obtain ⟨w₁, hs⟩ := step_enter_poisoned hc h
    exact ⟨[.enter c], w₁, _, Lts.exec_one hs, List.mem_singleton_self _⟩

end

/-- A call that has the statics to itself panics, unless someone is still at its closure. -/
theorem broken_call {s : Statics} (h : Broken s) (op : Op) (outcome : Kind → BuildOutcome)
    (hfree : ∀ c res, stage s op ≠ .running c res) : ∃ s', s.call op outcome = some (s', .panicked) := by
  cases op with
  | init options =>
      have hrun : s.runInit options outcome = _ := locked_poisoned h.config _
      rcases h.stage_cases (.init options) with hs | ⟨c, hs⟩ | ⟨c, hs⟩ | hs
      · rw [Statics.call, OneShot.forget_incomplete hs, hrun]
        exact ⟨_, rfl⟩
      · exact absurd hs (hfree c none)
      · exact absurd hs (hfree c (some none))
      · rw [Statics.call, OneShot.forget_poisoned hs]
        exact ⟨_, rfl⟩
  | use kind =>
      have hrun : s.runGlobal outcome = _ := locked_poisoned h.config _
      rcases h.stage_cases (.use kind) with hs | ⟨c, hs⟩ | ⟨c, hs⟩ | hs
      · rw [Statics.call, OneShot.forget_incomplete hs, hrun]
        exact ⟨_, rfl⟩
      · exact absurd hs (hfree c none)
      · exact absurd hs (hfree c (some none))
      · rw [Statics.call, OneShot.forget_poisoned hs]
        exact ⟨_, rfl⟩

/-- What holds for good once an initialisation has failed, in a state that a run ends in. -/
structure Final (w : World) (t : List Event) : Prop where
  /-- The configuration lock is poisoned. -/
  poisoned : w.statics.config.poisoned = true
  /-- Whatever call returned on the way returned by panicking. -/
  panicked : ∀ c answer, Event.answered c answer ∈ t → answer = .panicked
  /-- Every call that has not returned yet can be run to its end, and panics. -/
  answered : ∀ c op, w.calls[c]? = some { op := op, answer := none } → Panics w c
  /-- A whole call panics, where nobody is at the closure of its static. -/
  called : ∀ op outcome, (∀ c res, stage w.statics op ≠ .running c res) →
    ∃ s, w.statics.call op outcome = some (s, .panicked)

/--
**A failed initialisation is final.**

If the closure of a call of `init_global_runtimes` panics while no global runtime has
been used, then the lock of the configuration stays poisoned from there on, in every run.
Every call returns by panicking, and nothing keeps it from returning: the call itself,
every other call of `init_global_runtimes`, and every use of a global runtime.
-/
theorem failed_init_final {w w' : World} {c : Nat} {options : RuntimeOptions}
    {outcome : Kind → BuildOutcome} {t : List Event} (hw : system.Reachable w)
    (hcall : w.calls[c]? = some { op := .init options, answer := none })
    (hunused : w.statics.global.decided = none)
    (hfailed : (w.statics.runInit options outcome).2.2 = none)
    (hs : system.step w (.run c outcome) = some (w', t)) :
    ∀ as w'' u, system.exec w' as = some (w'', u) → Final w'' u := by
  have hpoisoned := locked_failed hfailed
  have hglobal : (w.statics.runInit options outcome).1.global = w.statics.global :=
    locked_global w.statics _
  have hbroken : Broken w'.statics := by
    have hs' := hs
    change Global.step w (.run c outcome) = some (w', t) at hs'
    rw [Global.step, hcall] at hs'
    dsimp only at hs'
    split at hs'
    · exact absurd hs' (by simp)
    · rename_i start hclose
      obtain ⟨_, hafter⟩ := OneShot.close_decided hclose
      injection hs' with hs'; injection hs' with h1 _
      subst h1
      refine ⟨?_, hpoisoned, ?_⟩
      · rw [show start.decided = _ from hafter, hfailed]
        simp
      · intro g hg
        change (w.statics.runInit options outcome).1.global.decided = some (some g) at hg
        rw [hglobal, hunused] at hg
        exact absurd hg (by simp)
  intro as w'' u hr
  obtain ⟨hbroken', hpanicked⟩ := broken_run hbroken hr
  have hm : Manned w'' := manned_reachable ((hw.step hs).exec hr)
  exact
    { poisoned := hbroken'.config
      panicked := hpanicked
      answered := fun d op hd => broken_panics hbroken' hm hd
      called := broken_call hbroken' }

/-- The world in which one thread calls `init_global_runtimes` with no read workers. -/
def noReaders : World :=
  { statics := { Statics.init with start := .running 0 none }
    calls := [{ op := .init { readRtSize := 0, writeRtSize := 4, bgRtSize := 4 }, answer := none }] }

theorem failed_init_final_noReaders :
    system.Reachable noReaders
      ∧ ∃ w' t, system.step noReaders (.run 0 granted) = some (w', t)
        ∧ ∀ as w'' u, system.exec w' as = some (w'', u) → Final w'' u := by
  have hreach : system.Reachable noReaders :=
    ⟨[.call (.init { readRtSize := 0, writeRtSize := 4, bgRtSize := 4 }), .enter 0], _, rfl⟩
  refine ⟨hreach, _, _, rfl, ?_⟩
  exact @failed_init_final noReaders _ 0 _ granted _ hreach rfl rfl rfl rfl

/--
A failed call of `init_global_runtimes` leaves the program as it was: a global runtime
can be used, and is a built-in one, and another call of `init_global_runtimes` takes
effect.
-/
def FailureLeavesUsable (options : RuntimeOptions) (outcome : Kind → BuildOutcome) : Prop :=
  ∀ s, Statics.init.call (.init options) outcome = some (s, .panicked) →
    (∀ kind, ∃ s' id, s.call (.use kind) granted = some (s', .ok (some (builtin id kind))))
      ∧ ∀ options', Valid options' →
          ∃ s', s.call (.init options') granted = some (s', .ok none)
            ∧ ∀ kind, ∃ s'' id,
                s'.call (.use kind) granted = some (s'', .ok (some (configured options' id kind)))

/-- After a call with no read workers, the read runtime cannot be used. -/
theorem failure_not_usable :
    ¬ FailureLeavesUsable { readRtSize := 0, writeRtSize := 4, bgRtSize := 4 } granted := by
  intro h
  obtain ⟨huse, _⟩ := h _ rfl
  obtain ⟨s', id, hread⟩ := huse .read
  injection hread with hread
  injection hread with _ hanswer
  exact absurd hanswer (by simp [useAnswer])

end RsRun.Proof
