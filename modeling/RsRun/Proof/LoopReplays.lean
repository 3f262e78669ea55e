import RsRun.Proof.LoopWakes

/-!
# A runtime can poll the loop from await to await

The other way round: whatever the loop does between two awaits, there is a poll in which it
does so. A loop that sleeps is in nobody's hands, and is put into the run queue by its timer
or by its token; one that calls is still being polled. Only a runtime that drops a loop cannot
do so wherever the loop at its awaits could be dropped, since it finishes a poll first.
-/

namespace RsRun.Proof

open PollSystem
open TaskSystem (StopCall Event)

/-! ## Polls of one loop -/

/-- What the inversion lemma of a poll tells apart is what it can do. -/
theorem poll_step_of {cancelled : Bool} {now : Nat} {t t' : LoopTask} {a : PollStep}
    {es : List LoopEvent} (h : PollMoves cancelled now t a t' es) :
    t.step cancelled now a = some (t', es) := by
  cases h with
  | begin hlive hq => simp [LoopTask.step, hlive, hq]
  | headSleep hl hp hs =>
      unfold sleepTime at hs
      simp [LoopTask.step, LoopTask.head, hl, hp, hs, sleepTime]
  | headCall hl hp hs =>
      unfold sleepTime at hs
      simp [LoopTask.step, LoopTask.head, LoopTask.toCall, hl, hp, hs]
  | sleepReady hl hp hslept hfirst hnow => simp [LoopTask.step, hl, hp, hslept, hfirst, hnow]
  | sleepPending hl hp hslept hfired => simp [LoopTask.step, hl, hp, hslept, hfired]
  | sleepSpent hl hp hslept => simp [LoopTask.step, hl, hp, hslept]
  | tokenSeen hl hp hlistened hc => simp [LoopTask.step, hl, hp, hlistened, hc]
  | tokenQuiet hl hp hlistened hc => simp [LoopTask.step, hl, hp, hlistened, hc]
  | giveBack hl hp hslept hlistened => simp [LoopTask.step, hl, hp, hslept, hlistened]
  | callPending hl hp => simp [LoopTask.step, hl, hp]
  | callDone ok hl hp => simp [LoopTask.step, hl, hp]

/-- The polls of a loop that began as `t₀`, at time `now`. -/
def polledAlone (cancelled : Bool) (now : Nat) (t₀ : LoopTask) :
    Lts LoopTask PollStep LoopEvent :=
  { init := t₀, step := fun t a => t.step cancelled now a }

/-- What a loop does on its own it does among all others. -/
theorem polledAlone_exec {M : Lts World Action Event} {w : World} {i : Nat} {t₀ : LoopTask}
    (hM : ∀ v b, M.step v (.poll i b) = PollSystem.step v (.poll i b))
    (hi : i < w.loops.length) {as : List PollStep} :
    ∀ {t t' : LoopTask} {es : List LoopEvent},
      (polledAlone w.task.cancelToken w.now t₀).exec t as = some (t', es) →
      M.exec (w.put i t) (as.map (.poll i)) = some (w.put i t', es.map (.loop i)) := by
  induction as with
  | nil =>
      intro t t' es h
      injection h with h; injection h with h1 h2
      subst h1; subst h2
      rfl
  | cons a as ih =>
      intro t t' es h
      obtain ⟨t₁, es₁, es₂, hs, hr, rfl⟩ := Lts.exec_cons.mp h
      have hs : t.step w.task.cancelToken w.now a = some (t₁, es₁) := hs
      rw [List.map_append]
      refine Lts.exec_cons.mpr ⟨w.put i t₁, es₁.map (.loop i), es₂.map (.loop i), ?_, ih hr, rfl⟩
      rw [hM]
      simp [PollSystem.step, World.put, hi, hs]

section
variable {c : Bool} {now : Nat} {t t₀ : LoopTask}

theorem alone_nil : (polledAlone c now t₀).exec t [] = some (t, []) := rfl

theorem alone_cons {t₁ t' : LoopTask} {a : PollStep} {as : List PollStep}
    {es es' : List LoopEvent} (hm : PollMoves c now t a t₁ es)
    (hr : (polledAlone c now t₀).exec t₁ as = some (t', es')) :
    (polledAlone c now t₀).exec t (a :: as) = some (t', es ++ es') :=
  Lts.exec_cons.mpr ⟨t₁, es, es', poll_step_of hm, hr, rfl⟩

theorem begun_top (c : Bool) (now : Nat) (t₀ : LoopTask) (hl : t.loop.phase = .top)
    (hidle : t.run ≠ .idle) :
    ∃ as t', (polledAlone c now t₀).exec t as = some (t', []) ∧ t'.loop = t.loop
      ∧ t'.run.polling = true := by
  cases hr : t.run with
  | idle => exact absurd hr hidle
  | queued =>
      refine ⟨_, _, alone_cons (.begin (by rw [hl]; rfl) hr) alone_nil, ?_, ?_⟩
      · rfl
      · rfl
  | running => exact ⟨[], t, rfl, rfl, by rw [hr]; rfl⟩
  | notified => exact ⟨[], t, rfl, rfl, by rw [hr]; rfl⟩

/-- A polled loop that can do what the loop at its awaits does next. -/
structure Paused (t : LoopTask) (l : Loop) : Prop where
  loop : t.loop = l
  top : l.phase = .top → t.run ≠ .idle
  sleeping : ∀ till, l.phase = .sleeping till → t.run.polling = false
  calling : l.phase = .calling → t.run.polling = true

theorem paused_over {l : Loop} (hloop : t.loop = l) (hl : l.phase.joined ≠ none) :
    Paused t l := by
  refine ⟨hloop, fun h => ?_, fun till h => ?_, fun h => ?_⟩ <;>
  · rw [h] at hl
    exact absurd rfl hl

theorem paused_sleeping {l : Loop} {till : Nat} (hloop : t.loop = l) (hl : l.phase = .sleeping till)
    (hp : t.run.polling = false) : Paused t l := by
  refine ⟨hloop, fun h => ?_, fun _ _ => hp, fun h => ?_⟩
  · rw [hl] at h; exact absurd h (by simp)
  · rw [hl] at h; exact absurd h (by simp)

theorem paused_polling {l : Loop} (hloop : t.loop = l) (hl : ∀ till, l.phase ≠ .sleeping till)
    (hp : t.run.polling = true) : Paused t l :=
  ⟨hloop, fun _ => ne_idle_of_polling hp, fun till h => absurd h (hl till), fun _ => hp⟩

/-- From the head of the loop, it comes to its next await, or to its end. -/
theorem resumes (t₀ : LoopTask) {l' : Loop} {es : List LoopEvent} (hl : t.loop.phase = .top)
    (hidle : t.run ≠ .idle) (hs : t.loop.step c now .resume = some (l', es)) :
    ∃ as t', (polledAlone c now t₀).exec t as = some (t', es) ∧ Paused t' l' := by
  obtain ⟨as, u, hbegun, hloop, hp⟩ := begun_top c now t₀ hl hidle
  rw [← hloop] at hl hs
  -- from here on, it is polled
  have hrest : ∃ bs t', (polledAlone c now t₀).exec u bs = some (t', es) ∧ Paused t' l' := by
    cases loop_step_moves hs with
    | giveUp _ hsleep hc =>
        refine ⟨_, _, alone_cons (.headSleep hl hp hsleep)
          (alone_cons (.tokenSeen rfl ?_ rfl hc) alone_nil), ?_⟩
        · exact hp
        · exact paused_over rfl (by simp [Phase.joined])
    | sleep _ hsleep hc =>
        refine ⟨_, _, alone_cons (.headSleep hl hp hsleep)
          (alone_cons (.sleepPending rfl ?_ rfl rfl) (alone_cons (.tokenQuiet rfl ?_ rfl hc)
            (alone_cons (.giveBack rfl ?_ rfl rfl) alone_nil))), ?_⟩
        · exact hp
        · exact hp
        · exact hp
        · exact paused_sleeping rfl rfl (Sched.Run.polling_park _)
    | callAtOnce _ hsleep =>
        refine ⟨_, _, alone_cons (.headCall hl hp hsleep) alone_nil, ?_⟩
        exact paused_polling rfl (by simp) hp
  obtain ⟨bs, t', hrun, hpaused⟩ := hrest
  exact ⟨as ++ bs, t', Lts.exec_append.mpr ⟨u, [], es, hbegun, hrun, rfl⟩, hpaused⟩

/-- Once it has been woken, a loop that sleeps calls, or sees that it is cancelled. -/
theorem wakes (t₀ : LoopTask) {l' : Loop} {es : List LoopEvent} {b : LoopStep} {till : Nat}
    (hl : t.loop.phase = .sleeping till) (hq : t.run = .queued)
    (hs : t.loop.step c now b = some (l', es)) :
    ∃ as t', (polledAlone c now t₀).exec t as = some (t', es) ∧ Paused t' l' := by
  have hlive : t.loop.phase.joined = none := by rw [hl]; rfl
  cases loop_step_moves hs with
  | sleepDone till' hl' hnow =>
      refine ⟨_, _, alone_cons (.begin hlive hq)
        (alone_cons (.sleepReady ?_ rfl rfl rfl hnow) alone_nil), ?_⟩
      · exact hl'
      · exact paused_polling rfl (by simp) rfl
  | cancelSeen till' hl' hc =>
      refine ⟨_, _, alone_cons (.begin hlive hq)
        (alone_cons (@PollMoves.tokenSeen _ _ _ till' ?_ rfl rfl hc) alone_nil), ?_⟩
      · exact hl'
      · exact paused_over rfl (by simp [Phase.joined])
  | giveUp h => rw [hl] at h; exact absurd h (by simp)
  | sleep h => rw [hl] at h; exact absurd h (by simp)
  | callAtOnce h => rw [hl] at h; exact absurd h (by simp)
  | callDone ok h => rw [hl] at h; exact absurd h (by simp)

end

/-! ## The whole -/

theorem paused_wake {t : LoopTask} {l : Loop} (h : Paused t l) : Paused t.wake l where
  loop := h.loop
  top _ := Sched.Run.wake_ne_idle _
  sleeping till hl := (Sched.Run.polling_wake _).trans (h.sleeping till hl)
  calling hl := (Sched.Run.polling_wake _).trans (h.calling hl)

theorem paused_setTask {w : World} {ls : List Loop} (h : List.Forall₂ Paused w.loops ls)
    (task : RepeatedTask) : List.Forall₂ Paused (w.setTask task).loops ls := by
  unfold World.setTask
  dsimp only
  split
  · refine List.forall₂_map_left_iff.mpr (h.imp fun t l hp => ?_)
    unfold LoopTask.cancelled
    split
    · exact paused_wake hp
    · exact hp
  · exact h

theorem paused_spawned {spawned : Option Loop} (h : ∀ l, spawned = some l → l.phase = .top) :
    List.Forall₂ Paused (spawned.map LoopTask.new).toList spawned.toList := by
  cases spawned with
  | none => exact .nil
  | some l =>
      have hl := h l rfl
      refine .cons ⟨rfl, fun _ => by simp [LoopTask.new], fun _ _ => rfl, fun hc => ?_⟩ .nil
      rw [hl] at hc
      exact absurd hc (by simp)

theorem spawned_top {task : RepeatedTask} {handle : JoinHandle} {l : Loop}
    (h : (task.start handle).2.2 = some l) : l.phase = .top := by
  unfold RepeatedTask.start at h
  split at h
  · exact absurd h (by simp)
  · split at h
    · exact absurd h (by simp)
    · split at h
      · exact absurd h (by simp)
      · injection h with h
        exact h ▸ rfl

/-- A world whose loops run from await to await, and one in which they are polled so. -/
def Replays (v : TaskSystem.World) (w : World) : Prop :=
  ∃ ls, v = atRest w ls ∧ List.Forall₂ Paused w.loops ls

section
variable {interval : Nat} {initialDelay : Option Nat} {taskFn : TaskFunction}

/-- The polled system, as long as the runtime drops nothing. -/
def undropped (interval : Nat) (initialDelay : Option Nat) (taskFn : TaskFunction) :
    Lts World Action Event :=
  (PollSystem.system interval initialDelay taskFn).only (fun a => !aborts a)

/-- From `w` on there are polls that show `t`, and end like `v`. -/
def Replayed (M : Lts World Action Event) (w : World) (t : List Event) (v : TaskSystem.World) :
    Prop :=
  ∃ bs w' u, M.exec w bs = some (w', u) ∧ u.flatMap (fun e => [e]) = t.flatMap (fun e => [e])
    ∧ Replays v w'

theorem replay_one {w : World} {t : List Event} (a : Action) (x : World) {m : List Loop}
    (hs : PollSystem.step w a = some (x, t)) (ha : aborts a = false)
    (hrel : List.Forall₂ Paused x.loops m) :
    Replayed (undropped interval initialDelay taskFn) w t (atRest x m) := by
  refine Lts.exec_match (N := undropped interval initialDelay taskFn) (b := a) ?_ rfl
    ⟨m, rfl, hrel⟩
  exact Lts.only_step.mpr ⟨hs, by rw [ha]; rfl⟩

theorem replay_poll {w : World} {i : Nat} {u t' : LoopTask} {l' : Loop} {es : List LoopEvent}
    {as : List PollStep} {ls : List Loop} (hu : w.loops[i]? = some u)
    (hloops : List.Forall₂ Paused w.loops ls)
    (hrun : (polledAlone w.task.cancelToken w.now u).exec u as = some (t', es))
    (hp : Paused t' l') :
    Replayed (undropped interval initialDelay taskFn) w (es.map (.loop i))
      { atRest w ls with loops := ls.set i l' } := by
  obtain ⟨hi, hget⟩ := List.getElem?_eq_some_iff.mp hu
  have hself : w.put i u = w := by
    unfold World.put
    rw [← hget, List.set_getElem_self]
  have hall := polledAlone_exec (M := undropped interval initialDelay taskFn)
    (fun v b => rfl) hi hrun
  rw [hself] at hall
  exact ⟨_, _, _, hall, rfl, ls.set i l', rfl, Lists.forall₂_set hloops hp i⟩

/-- A sleeping loop whose timer has elapsed can be woken by it, and go on. -/
theorem replay_fired {w : World} {i till : Nat} {u : LoopTask} {l' : Loop} {b : LoopStep}
    {es : List LoopEvent} {ls : List Loop} (hwatch : Watched w.task.cancelToken u)
    (hloops : List.Forall₂ Paused w.loops ls) (hu : w.loops[i]? = some u)
    (hl : ls[i]? = some u.loop) (hph : u.loop.phase = .sleeping till) (hidle : u.run = .idle)
    (hnow : till ≤ w.now) (hs : u.loop.step w.task.cancelToken w.now b = some (l', es)) :
    Replayed (undropped interval initialDelay taskFn) w (es.map (.loop i))
      { atRest w ls with loops := ls.set i l' } := by
  obtain ⟨⟨harmed, hfired⟩, _⟩ := hwatch.asleep till hph hidle
  obtain ⟨hi, _⟩ := List.getElem?_eq_some_iff.mp hu
  obtain ⟨v, hfire, hloop, hq⟩ : ∃ v, (undropped interval initialDelay taskFn).step w (.fire i)
      = some (w.put i v, []) ∧ v.loop = u.loop ∧ v.run = .queued := by
    refine ⟨{ u with select := { u.select with fired := true } }.wake,
      Lts.only_step.mpr ⟨?_, rfl⟩, ?_, ?_⟩
    · simp [PollSystem.system, PollSystem.step, hu, hph, harmed, hfired, hnow]
    · rfl
    · simp [LoopTask.wake, hidle, Sched.Run.wake]
  have hput : (w.put i v).loops[i]? = some v := List.getElem?_set_self hi
  have hrel : List.Forall₂ Paused (w.put i v).loops ls :=
    Lists.forall₂_set_left hloops hl (paused_sleeping hloop hph (by rw [hq]; rfl))
  rw [← hloop] at hph hs
  obtain ⟨as, t', hrun, hp⟩ := wakes v hph hq hs
  obtain ⟨bs, w', x, hexec, hsee, hend⟩ := replay_poll hput hrel hrun hp
  exact ⟨.fire i :: bs, w', x, Lts.exec_cons.mpr ⟨_, [], x, hfire, hexec, rfl⟩, hsee, hend⟩

/-- **Whatever a loop does between two awaits, there are polls in which it does so.** -/
theorem replay_loop {w : World} {i : Nat} {l l' : Loop} {b : LoopStep} {es : List LoopEvent}
    {ls : List Loop} (hwatched : AllWatched w) (hloops : List.Forall₂ Paused w.loops ls)
    (hl : ls[i]? = some l) (hs : l.step w.task.cancelToken w.now b = some (l', es)) :
    Replayed (undropped interval initialDelay taskFn) w (es.map (.loop i))
      { atRest w ls with loops := ls.set i l' } := by
  obtain ⟨u, hu, hp⟩ := Lists.forall₂_partner hloops.flip hl
  obtain ⟨rfl, htop, hsleeping, hcalling⟩ := hp
  have hwatch := hwatched u (List.mem_of_getElem? hu)
  have head : u.loop.phase = .top → b = .resume →
      Replayed (undropped interval initialDelay taskFn) w (es.map (.loop i))
        { atRest w ls with loops := ls.set i l' } := by
    intro hph hb
    subst hb
    obtain ⟨as, t', hrun, hpaused⟩ := resumes u hph (htop hph) hs
    exact replay_poll hu hloops hrun hpaused
  have asleep : ∀ till, u.loop.phase = .sleeping till → (u.run = .idle → till ≤ w.now) →
      Replayed (undropped interval initialDelay taskFn) w (es.map (.loop i))
        { atRest w ls with loops := ls.set i l' } := by
    intro till hph hnow
    have hout := hsleeping till hph
    cases hr : u.run with
    | queued =>
        obtain ⟨as, t', hrun, hpaused⟩ := wakes u hph hr hs
        exact replay_poll hu hloops hrun hpaused
    | idle => exact replay_fired hwatch hloops hu hl hph hr (hnow hr) hs
    | running => rw [hr] at hout; exact absurd hout (by simp [Sched.Run.polling])
    | notified => rw [hr] at hout; exact absurd hout (by simp [Sched.Run.polling])
  cases loop_step_moves hs with
  | giveUp hph => exact head hph rfl
  | sleep hph => exact head hph rfl
  | callAtOnce hph => exact head hph rfl
  | sleepDone till hph hnow => exact asleep till hph (fun _ => hnow)
  | cancelSeen till hph hc =>
      -- the token has put it into the run queue
      refine asleep till hph fun hidle => ?_
      rw [(hwatch.asleep till hph hidle).2.2] at hc
      exact absurd hc (by simp)
  | callDone ok hph =>
      refine replay_poll hu hloops (alone_cons (.callDone ok hph (hcalling hph)) alone_nil) ?_
      exact paused_polling rfl (by simp) (hcalling hph)

/-- Every step of the loop at its awaits, and of its callers, can be replayed. -/
theorem replay_step {w : World} {v' : TaskSystem.World} {b : TaskSystem.Action} {t : List Event}
    {ls : List Loop} (hwatched : AllWatched w) (hloops : List.Forall₂ Paused w.loops ls)
    (hs : TaskSystem.step (atRest w ls) b = some (v', t)) (hb : aborts' b = false) :
    Replayed (undropped interval initialDelay taskFn) w t v' := by
  have hlen : (atRest w ls).loops.length = w.loops.length := hloops.length_eq.symm
  cases b with
  | start =>
      rw [TaskSystem.step, hlen] at hs
      split at hs
      · exact absurd hs (by simp)
      · rename_i hd
        have hd : w.dropped = false := Bool.eq_false_iff.mpr hd
        injection hs with hs; injection hs with h1 h2
        subst h1; subst h2
        refine replay_one .start { w with
          task := (w.task.start w.loops.length).1
          loops := w.loops ++ ((w.task.start w.loops.length).2.2.map LoopTask.new).toList }
          ?_ rfl (List.rel_append hloops (paused_spawned fun l hl => spawned_top hl))
        rw [PollSystem.step, hd, if_neg (by simp)]
        rfl
  | started =>
      rw [TaskSystem.step] at hs
      split at hs
      · exact absurd hs (by simp)
      · rename_i hd
        have hd : w.dropped = false := Bool.eq_false_iff.mpr hd
        injection hs with hs; injection hs with h1 h2
        subst h1; subst h2
        refine replay_one .started w ?_ rfl hloops
        simp [PollSystem.step, hd, atRest]
  | stopCall =>
      rw [TaskSystem.step] at hs
      split at hs
      · exact absurd hs (by simp)
      · rename_i hd
        have hd : w.dropped = false := Bool.eq_false_iff.mpr hd
        injection hs with hs; injection hs with h1 h2
        subst h1; subst h2
        refine replay_one .stopCall { w with stops := w.stops ++ [.called] } ?_ rfl hloops
        simp [PollSystem.step, hd, atRest]
  | stopLock c =>
      rw [TaskSystem.step] at hs
      split at hs
      · rename_i hc
        have hc : w.stops[c]? = some .called := hc
        split at hs
        · rename_i task r hstop
          have hstop : w.task.stopSection = (task, .done r) := hstop
          injection hs with hs; injection hs with h1 h2
          subst h1; subst h2
          refine replay_one (.stopLock c)
            { w.setTask task with stops := w.stops.set c (.returned r) } ?_ rfl
            (paused_setTask hloops task)
          simp [PollSystem.step, hc, hstop]
        · rename_i task handle hstop
          have hstop : w.task.stopSection = (task, .await handle) := hstop
          injection hs with hs; injection hs with h1 h2
          subst h1; subst h2
          refine replay_one (.stopLock c)
            { w.setTask task with stops := w.stops.set c (.waiting handle) } ?_ rfl
            (paused_setTask hloops task)
          simp [PollSystem.step, hc, hstop]
      · exact absurd hs (by simp)
  | stopJoin c =>
      rw [TaskSystem.step] at hs
      split at hs
      · rename_i handle hc
        have hc : w.stops[c]? = some (.waiting handle) := hc
        split at hs
        · rename_i res hres
          obtain ⟨l, hl, hj⟩ := Option.bind_eq_some_iff.mp hres
          obtain ⟨u, hu, hp⟩ := Lists.forall₂_partner hloops.flip hl
          obtain ⟨rfl, _⟩ := hp
          injection hs with hs; injection hs with h1 h2
          subst h1; subst h2
          refine replay_one (.stopJoin c)
            { w with stops := w.stops.set c (.joined (w.task.stopJoined res)) } ?_ rfl hloops
          simp [PollSystem.step, hc, hu, hj, atRest]
        · exact absurd hs (by simp)
      · exact absurd hs (by simp)
  | stopDrop c =>
      rw [TaskSystem.step] at hs
      split at hs
      · rename_i hc
        have hc : w.stops[c]? = some .called := hc
        injection hs with hs; injection hs with h1 h2
        subst h1; subst h2
        refine replay_one (.stopDrop c) { w with stops := w.stops.set c (.dropped none) } ?_ rfl
          hloops
        simp [PollSystem.step, hc]
      · rename_i handle hc
        have hc : w.stops[c]? = some (.waiting handle) := hc
        injection hs with hs; injection hs with h1 h2
        subst h1; subst h2
        refine replay_one (.stopDrop c)
          { w with stops := w.stops.set c (.dropped (some handle)) } ?_ rfl hloops
        simp [PollSystem.step, hc]
      · exact absurd hs (by simp)
  | drop =>
      rw [TaskSystem.step] at hs
      split at hs
      · exact absurd hs (by simp)
      · rename_i hd
        have hd : (w.dropped || w.stops.any StopCall.inFlight) = false := Bool.eq_false_iff.mpr hd
        injection hs with hs; injection hs with h1 h2
        subst h1; subst h2
        refine replay_one .drop { w.setTask w.task.drop with dropped := true } ?_ rfl
          (paused_setTask hloops _)
        simp only [PollSystem.step, hd]
        rfl
  | loop i b =>
      rw [TaskSystem.step] at hs
      split at hs
      · exact absurd hs (by simp)
      · rename_i l hl
        split at hs
        · exact absurd hs (by simp)
        · rename_i l' es hstep
          injection hs with hs; injection hs with h1 h2
          subst h1; subst h2
          exact replay_loop hwatched hloops hl hstep
  | loopPanics i =>
      rw [TaskSystem.step] at hs
      split at hs
      · exact absurd hs (by simp)
      · rename_i l hl
        split at hs
        · rename_i hcall
          obtain ⟨u, hu, hp⟩ := Lists.forall₂_partner hloops.flip hl
          have hpoll := hp.calling hcall
          obtain ⟨rfl, _⟩ := hp
          injection hs with hs; injection hs with h1 h2
          subst h1; subst h2
          refine replay_one (.panic i) (w.put i (u.ended .panicked)) ?_ rfl
            (Lists.forall₂_set hloops
              (paused_over rfl (by simp [LoopTask.ended, Phase.joined])) i)
          simp [PollSystem.step, hu, hcall, hpoll]
        · exact absurd hs (by simp)
  | loopAborts i => exact absurd hb (by simp [aborts'])
  | tick n =>
      rw [TaskSystem.step] at hs
      injection hs with hs; injection hs with h1 h2
      subst h1; subst h2
      exact replay_one (.tick n) { w with now := w.now + n } rfl rfl hloops

end

/--
**Polled or not, the loop does the same**, as long as the runtime drops nothing: with polls,
wakers and timers, and without them, exactly the same can be seen of a task, its callers and its
loop.
-/
theorem polled_same_runs (interval : Nat) (initialDelay : Option Nat) (taskFn : TaskFunction)
    (t : List Event) :
    (∃ as w, (PollSystem.system interval initialDelay taskFn).exec
        (PollSystem.system interval initialDelay taskFn).init as = some (w, t)
      ∧ ∀ a ∈ as, aborts a = false)
      ↔ ∃ bs v, (TaskSystem.system interval initialDelay taskFn).exec
          (TaskSystem.system interval initialDelay taskFn).init bs = some (v, t)
        ∧ ∀ b ∈ bs, aborts' b = false := by
  have there : Lts.Simulation (undropped interval initialDelay taskFn)
      ((TaskSystem.system interval initialDelay taskFn).only (fun b => !aborts' b))
      (fun e => [e]) (fun e => [e]) Abstracts := by
    refine ⟨⟨[], rfl, .nil⟩, ?_⟩
    intro w v a w' u _ _ hrel hs
    obtain ⟨hs, ha⟩ := Lts.only_step.mp hs
    cases polled_step hrel hs with
    | nothing hu hrel' => exact Lts.exec_stutter (by rw [hu]; rfl) hrel'
    | step hs' hrel' hab =>
        exact Lts.exec_match (Lts.only_step.mpr ⟨hs', by rw [hab]; exact ha⟩) rfl hrel'
  have back : Lts.Simulation
      ((TaskSystem.system interval initialDelay taskFn).only (fun b => !aborts' b))
      (undropped interval initialDelay taskFn) (fun e => [e]) (fun e => [e]) Replays := by
    refine ⟨⟨[], rfl, .nil⟩, ?_⟩
    rintro v w b v' u _ hw ⟨ls, rfl, hloops⟩ hs
    obtain ⟨hs, hb⟩ := Lts.only_step.mp hs
    exact replay_step (allWatched_reachable (Lts.only_reachable hw)) hloops hs (by simpa using hb)
  constructor
  · rintro ⟨as, w, hrun, has⟩
    obtain ⟨bs, v, u, hrun', hsee, _⟩ := there.run (Lts.only_exec.mpr ⟨hrun, by simpa using has⟩)
    rw [List.flatMap_singleton', List.flatMap_singleton'] at hsee
    subst hsee
    obtain ⟨hrun', hbs⟩ := Lts.only_exec.mp hrun'
    exact ⟨bs, v, hrun', by simpa using hbs⟩
  · rintro ⟨bs, v, hrun, hbs⟩
    obtain ⟨as, w, u, hrun', hsee, _⟩ := back.run (Lts.only_exec.mpr ⟨hrun, by simpa using hbs⟩)
    rw [List.flatMap_singleton', List.flatMap_singleton'] at hsee
    subst hsee
    obtain ⟨hrun', has⟩ := Lts.only_exec.mp hrun'
    exact ⟨as, w, hrun', by simpa using has⟩

end RsRun.Proof
