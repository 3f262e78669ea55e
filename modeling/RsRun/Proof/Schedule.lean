import RsRun.Lib.Pacing
import RsRun.Proof.Lifecycle
import RsRun.Proof.Loop

/-!
# When the calls begin

The loop sleeps its initial delay, if it has one, and from then on its interval, each
time counted from the end of the call before. The sleep is a lower bound, so the calls
are paced: one after the other, an interval apart, however long they take.
-/

namespace RsRun.Proof

open TaskSystem Pacing

/-- A step of a run, on record. -/
abbrev Entry := Lts.Recorded World Action Event

/-- The moments at which calls began, among what was seen at `now`. -/
def beginsIn (now : Nat) (t : List Event) : List Nat :=
  t.filterMap (fun e => match e with
    | .loop _ .callBegin => some now
    | _ => none)

/-- The call a step begins, by its moment. -/
def beginsAt (r : Entry) : List Nat := beginsIn r.before.now r.events

/-- The call a step sees the end of, by its moment. -/
def endsAt (r : Entry) : List Nat :=
  r.events.filterMap (fun e => match e with
    | .loop _ (.callEnd _) => some r.before.now
    | _ => none)

/-- The moment at which a step runs a loop from its head. -/
def resumesAt (r : Entry) : List Nat :=
  match r.action with
  | .loop _ .resume => [r.before.now]
  | _ => []

section
variable (rs : List Entry)

/-- The moments at which calls began. -/
def callsBegun : List Nat := rs.flatMap beginsAt

/-- The moments at which calls returned. -/
def callsEnded : List Nat := rs.flatMap endsAt

/-- The moment at which the loop began. -/
def loopBegan : Option Nat := (rs.flatMap resumesAt).head?

end

section
variable {rs : List Entry} {r : Entry}

theorem callsBegun_snoc : callsBegun (rs ++ [r]) = callsBegun rs ++ beginsAt r :=
  Lists.flatMap_snoc _ rs r

theorem callsEnded_snoc : callsEnded (rs ++ [r]) = callsEnded rs ++ endsAt r :=
  Lists.flatMap_snoc _ rs r

theorem loopBegan_snoc : loopBegan (rs ++ [r]) = (loopBegan rs).or (resumesAt r).head? := by
  unfold loopBegan
  rw [Lists.flatMap_snoc, List.head?_append]

end

/-! ## What a run keeps -/

/-- How many calls are going on, and when the next one is due, by the phase of the loop. -/
def PhaseOk (first interval now : Nat) (bs es : List Nat) : Phase → Prop
  | .top => bs.length = es.length ∧ first + bs.length * interval + busy bs es ≤ now + interval
  | .sleeping till => bs.length = es.length ∧ first + bs.length * interval + busy bs es ≤ till
  | .calling => bs.length = es.length + 1
  | .returned => bs.length = es.length
  | .panicked => bs.length = es.length + 1
  | .aborted => es.length ≤ bs.length ∧ bs.length ≤ es.length + 1

theorem PhaseOk.length {first interval now : Nat} {bs es : List Nat} {phase : Phase}
    (h : PhaseOk first interval now bs es phase) :
    es.length ≤ bs.length ∧ bs.length ≤ es.length + 1 := by
  cases phase with
  | top => have := h.1; omega
  | sleeping till => have := h.1; omega
  | calling => have hlen : bs.length = es.length + 1 := h; omega
  | returned => have hlen : bs.length = es.length := h; omega
  | panicked => have hlen : bs.length = es.length + 1 := h; omega
  | aborted => exact h

theorem PhaseOk.mono {first interval now now' : Nat} {bs es : List Nat} {phase : Phase}
    (h : PhaseOk first interval now bs es phase) (hle : now ≤ now') :
    PhaseOk first interval now' bs es phase := by
  cases phase with
  | top => exact ⟨h.1, by have := h.2; omega⟩
  | _ => exact h

/-- The calls of a task are paced, whatever else is done with it. -/
inductive OnTime (interval : Nat) (initialDelay : Option Nat) (w : World) (rs : List Entry) :
    Prop where
  /-- The task was not started yet. -/
  | idle (hl : w.loops = []) (hd : w.task.initialDelay = initialDelay)
      (hi : w.task.interval = interval) (h0 : loopBegan rs = none) (hb : callsBegun rs = [])
      (he : callsEnded rs = [])
  /-- The loop was spawned, and has not run yet. -/
  | spawned (l : Loop) (hl : w.loops = [l]) (hphase : l.phase = .top ∨ l.phase = .aborted)
      (hd : l.initialDelay = initialDelay) (hi : l.interval = interval)
      (h0 : loopBegan rs = none) (hb : callsBegun rs = []) (he : callsEnded rs = [])
  /-- The loop has begun, at `t₀`. -/
  | begun (l : Loop) (t₀ : Nat) (hl : w.loops = [l]) (hd : l.initialDelay = none)
      (hi : l.interval = interval) (h0 : loopBegan rs = some t₀)
      (hh : History (t₀ + initialDelay.getD interval) interval w.now (callsBegun rs)
        (callsEnded rs))
      (hphase : PhaseOk (t₀ + initialDelay.getD interval) interval w.now (callsBegun rs)
        (callsEnded rs) l.phase)

section
variable {interval : Nat} {initialDelay : Option Nat} {taskFn : TaskFunction} {w w' : World}
  {rs : List Entry} {r : Entry}

theorem onTime_init :
    OnTime interval initialDelay (system interval initialDelay taskFn).init [] :=
  .idle rfl rfl rfl rfl rfl rfl

/-- A step that runs no loop keeps the schedule. -/
theorem OnTime.frame (h : OnTime interval initialDelay w rs) (hloops : w'.loops = w.loops)
    (hdelay : w'.task.initialDelay = w.task.initialDelay)
    (hinterval : w'.task.interval = w.task.interval) (hnow : w.now ≤ w'.now)
    (hr : resumesAt r = []) (hb : beginsAt r = []) (he : endsAt r = []) :
    OnTime interval initialDelay w' (rs ++ [r]) := by
  have hbegun : callsBegun (rs ++ [r]) = callsBegun rs := by
    rw [callsBegun_snoc, hb, List.append_nil]
  have hended : callsEnded (rs ++ [r]) = callsEnded rs := by
    rw [callsEnded_snoc, he, List.append_nil]
  have hbegan : loopBegan (rs ++ [r]) = loopBegan rs := by
    rw [loopBegan_snoc, hr]
    exact Option.or_none
  cases h with
  | idle hl hd hi h0 hb he =>
      exact .idle (hloops.trans hl) (hdelay.trans hd) (hinterval.trans hi) (hbegan.trans h0)
        (hbegun.trans hb) (hended.trans he)
  | spawned l hl hphase hd hi h0 hb he =>
      exact .spawned l (hloops.trans hl) hphase hd hi (hbegan.trans h0) (hbegun.trans hb)
        (hended.trans he)
  | begun l t₀ hl hd hi h0 hh hphase =>
      refine .begun l t₀ (hloops.trans hl) hd hi (hbegan.trans h0) ?_ ?_
      · rw [hbegun, hended]
        exact hh.mono hnow
      · rw [hbegun, hended]
        exact hphase.mono hnow

theorem set_only {l₀ l : Loop} (l' : Loop) {i : Nat} (hl : w.loops = [l₀])
    (hi : w.loops[i]? = some l) : l = l₀ ∧ w.loops.set i l' = [l'] := by
  rw [hl] at hi ⊢
  obtain ⟨hlt, heq⟩ := List.getElem?_eq_some_iff.mp hi
  have hzero : i = 0 := by rw [List.length_singleton] at hlt; omega
  subst hzero
  exact ⟨heq.symm, rfl⟩

/-- The schedule after a step of a loop that has begun. -/
theorem OnTime.ran {l' : Loop} {t₀ : Nat} {bs es : List Nat} (hloops : w'.loops = [l'])
    (hd : l'.initialDelay = none) (hi : l'.interval = interval)
    (h0 : loopBegan (rs ++ [r]) = some t₀) (hb : callsBegun rs ++ beginsAt r = bs)
    (he : callsEnded rs ++ endsAt r = es)
    (hh : History (t₀ + initialDelay.getD interval) interval w'.now bs es)
    (hphase : PhaseOk (t₀ + initialDelay.getD interval) interval w'.now bs es l'.phase) :
    OnTime interval initialDelay w' (rs ++ [r]) := by
  rw [← callsBegun_snoc] at hb
  rw [← callsEnded_snoc] at he
  subst hb; subst he
  exact .begun l' t₀ hloops hd hi h0 hh hphase

/--
From the head of the loop: a sleep, a call or the end. What is due is due after the
sleep, be it the initial delay or the interval.
-/
theorem onTime_resume {l l' : Loop} {i t₀ : Nat} {ls : List LoopEvent}
    (hm : LoopMoves w.task.cancelToken w.now l .resume l' ls) (hi : l.interval = interval)
    (hloops : w.loops.set i l' = [l'])
    (h0 : loopBegan (rs ++ [⟨w, .loop i .resume, ls.map (.loop i)⟩]) = some t₀)
    (hh : History (t₀ + initialDelay.getD interval) interval w.now (callsBegun rs)
      (callsEnded rs))
    (hlen : (callsBegun rs).length = (callsEnded rs).length)
    (hdue : t₀ + initialDelay.getD interval + (callsBegun rs).length * interval
      + busy (callsBegun rs) (callsEnded rs) ≤ w.now + sleepTime l) :
    OnTime interval initialDelay { w with loops := w.loops.set i l' }
      (rs ++ [⟨w, .loop i .resume, ls.map (.loop i)⟩]) := by
  cases hm with
  | giveUp hl hsleep hc =>
      exact .ran hloops rfl hi h0 (List.append_nil _) (List.append_nil _) hh hlen
  | sleep hl hsleep hc =>
      exact .ran hloops rfl hi h0 (List.append_nil _) (List.append_nil _) hh ⟨hlen, hdue⟩
  | callAtOnce hl hsleep =>
      rw [hsleep, Nat.add_zero] at hdue
      refine .ran hloops rfl hi h0 rfl (List.append_nil _) (hh.begin hlen hdue) ?_
      change (callsBegun rs ++ [w.now]).length = (callsEnded rs).length + 1
      rw [List.length_append, List.length_singleton, hlen]

theorem onTime_loop {l l' : Loop} {i : Nat} {a : LoopStep} {ls : List LoopEvent}
    (h : OnTime interval initialDelay w rs) (hl : w.loops[i]? = some l)
    (hm : LoopMoves w.task.cancelToken w.now l a l' ls) :
    OnTime interval initialDelay { w with loops := w.loops.set i l' }
      (rs ++ [⟨w, .loop i a, ls.map (.loop i)⟩]) := by
  cases h with
  | idle hnone => rw [hnone] at hl; exact absurd hl (by simp)
  | spawned l₀ hone hphase hd hi h0 hb he =>
      obtain ⟨rfl, hset⟩ := set_only l' hone hl
      have hfresh : ∀ phase, l.phase = phase → phase ≠ .top → phase ≠ .aborted → False := by
        rintro phase rfl htop haborted
        exact hphase.elim htop haborted
      cases a with
      | resume =>
          have hsleep : sleepTime l = initialDelay.getD interval := by
            unfold sleepTime
            rw [hd, hi]
          have hbegan : loopBegan (rs ++ [⟨w, .loop i .resume, ls.map (.loop i)⟩])
              = some w.now := by
            rw [loopBegan_snoc, h0]
            rfl
          refine onTime_resume hm hi hset hbegan ?_ ?_ ?_
          · rw [hb, he]
            exact history_nil
          · rw [hb, he]
          · rw [hb, he, hsleep, List.length_nil, Nat.zero_mul]
            exact Nat.le_refl _
      | sleepDone => cases hm with
        | sleepDone till hl => exact (hfresh _ hl (by simp) (by simp)).elim
      | cancelSeen => cases hm with
        | cancelSeen till hl => exact (hfresh _ hl (by simp) (by simp)).elim
      | callDone ok => cases hm with
        | callDone _ hl => exact (hfresh _ hl (by simp) (by simp)).elim
  | begun l₀ t₀ hone hd hi h0 hh hphase =>
      obtain ⟨rfl, hset⟩ := set_only l' hone hl
      have hbegan : ∀ ls, loopBegan (rs ++ [⟨w, .loop i a, ls⟩]) = some t₀ := by
        intro ls
        rw [loopBegan_snoc, h0]
        rfl
      cases a with
      | resume =>
          have hsleep : sleepTime l = interval := by
            unfold sleepTime
            rw [hd, hi]
            rfl
          have htop : l.phase = .top := by
            cases hm <;> assumption
          rw [htop] at hphase
          refine onTime_resume hm hi hset (hbegan _) hh hphase.1 ?_
          rw [hsleep]
          exact hphase.2
      | sleepDone => cases hm with
        | sleepDone till hl hnow =>
            rw [hl] at hphase
            obtain ⟨hlen, hdue⟩ := hphase
            refine .ran hset hd hi (hbegan _) rfl (List.append_nil _)
              (hh.begin hlen (Nat.le_trans hdue hnow)) ?_
            change (callsBegun rs ++ [w.now]).length = (callsEnded rs).length + 1
            rw [List.length_append, List.length_singleton, hlen]
      | cancelSeen => cases hm with
        | cancelSeen till hl hc =>
            rw [hl] at hphase
            exact .ran hset hd hi (hbegan _) (List.append_nil _) (List.append_nil _) hh hphase.1
      | callDone ok => cases hm with
        | callDone _ hl =>
            rw [hl] at hphase
            -- from here on the next call is due an interval later
            refine .ran hset hd hi (hbegan _) (List.append_nil _) rfl (hh.finish hphase) ?_
            refine ⟨?_, hh.due hphase⟩
            change (callsBegun rs).length = (callsEnded rs ++ [w.now]).length
            rw [List.length_append, List.length_singleton]
            exact hphase

theorem onTime_died {l : Loop} {i : Nat} {phase : Phase} {a : Action}
    (h : OnTime interval initialDelay w rs) (hl : w.loops[i]? = some l)
    (ha : resumesAt ⟨w, a, [.loopDied i]⟩ = [])
    (hphase' : phase = .aborted ∨ (phase = .panicked ∧ l.phase = .calling)) :
    OnTime interval initialDelay (w.setPhase i l phase) (rs ++ [⟨w, a, [.loopDied i]⟩]) := by
  have hbegan : loopBegan (rs ++ [⟨w, a, [.loopDied i]⟩]) = loopBegan rs := by
    rw [loopBegan_snoc, ha]
    exact Option.or_none
  cases h with
  | idle hnone => rw [hnone] at hl; exact absurd hl (by simp)
  | spawned l₀ hone hphase hd hi h0 hb he =>
      obtain ⟨rfl, hset⟩ := set_only { l with phase := phase } hone hl
      refine .spawned _ hset ?_ hd hi (hbegan.trans h0) ?_ ?_
      · rcases hphase' with haborted | ⟨_, hcalling⟩
        · exact .inr haborted
        · rw [hcalling] at hphase
          exact absurd hphase (by simp)
      · rw [callsBegun_snoc, hb]
        rfl
      · rw [callsEnded_snoc, he]
        rfl
  | begun l₀ t₀ hone hd hi h0 hh hphase =>
      obtain ⟨rfl, hset⟩ := set_only { l with phase := phase } hone hl
      refine .ran hset hd hi (hbegan.trans h0) (List.append_nil _) (List.append_nil _) hh ?_
      dsimp only
      rcases hphase' with rfl | ⟨rfl, hcalling⟩
      · exact hphase.length
      · rw [hcalling] at hphase
        exact hphase

theorem onTime_step {a : Action} {t : List Event}
    (hw : (system interval initialDelay taskFn).Reachable w)
    (h : OnTime interval initialDelay w rs) (hm : Moves w a w' t) :
    OnTime interval initialDelay w' (rs ++ [⟨w, a, t⟩]) := by
  cases hm with
  | startFresh taskFn hf =>
      -- the function is still there, so no loop was spawned yet
      obtain ⟨s, hst, _⟩ := reachable_stage hw
      have hnone : w.loops = [] := by
        cases hst with
        | fresh _ _ _ loops => exact loops
        | running inner => rw [inner] at hf; exact absurd hf (by simp)
        | stopped inner => rw [inner] at hf; exact absurd hf (by simp)
      cases h with
      | idle _ hd hi h0 hb he =>
          refine .spawned
            { taskFn := taskFn
              interval := w.task.interval
              initialDelay := w.task.initialDelay
              phase := .top } ?_ (.inl rfl) hd hi ?_ ?_ ?_
          · dsimp only
            rw [hnone]
            rfl
          · rw [loopBegan_snoc, h0]
            rfl
          · rw [callsBegun_snoc, hb]
            rfl
          · rw [callsEnded_snoc, he]
            rfl
      | spawned l hl => rw [hnone] at hl; exact absurd hl (by simp)
      | begun l t₀ hl => rw [hnone] at hl; exact absurd hl (by simp)
  | loop i a l l' es hl hs => exact onTime_loop h hl (loop_step_moves hs)
  | loopPanics i l hl hcall => exact onTime_died h hl rfl (.inr ⟨rfl, hcall⟩)
  | loopAborts i l hl hlive => exact onTime_died h hl rfl (.inl rfl)
  | tick n => exact h.frame rfl rfl rfl (Nat.le_add_right _ _) rfl rfl rfl
  | startUsed hf => exact h.frame rfl rfl rfl (Nat.le_refl _) rfl rfl rfl
  | started => exact h.frame rfl rfl rfl (Nat.le_refl _) rfl rfl rfl
  | stopCall => exact h.frame rfl rfl rfl (Nat.le_refl _) rfl rfl rfl
  | stopEmpty c hc hh => exact h.frame rfl rfl rfl (Nat.le_refl _) rfl rfl rfl
  | stopTakes c handle hc hh => exact h.frame rfl rfl rfl (Nat.le_refl _) rfl rfl rfl
  | stopJoin c handle l res hc hl hres => exact h.frame rfl rfl rfl (Nat.le_refl _) rfl rfl rfl
  | stopDropCalled c hc => exact h.frame rfl rfl rfl (Nat.le_refl _) rfl rfl rfl
  | stopDropWaiting c handle hc => exact h.frame rfl rfl rfl (Nat.le_refl _) rfl rfl rfl
  | drop => exact h.frame rfl rfl rfl (Nat.le_refl _) rfl rfl rfl

theorem onTime_exec {as : List Action}
    (h : (system interval initialDelay taskFn).recorded.exec
      (system interval initialDelay taskFn).init as = some (w, rs)) :
    OnTime interval initialDelay w rs :=
  Lts.recorded_log onTime_init
    (fun _ _ _ _ _ hr hp hs => onTime_step hr hp (reachable_moves hr hs)) h

/-! ## The schedule -/

/-- When the calls of a task begin, in a run up to `w`. -/
structure OnSchedule (interval : Nat) (initialDelay : Option Nat) (w : World) (rs : List Entry) :
    Prop where
  /-- At any moment at most one call is going on. -/
  single : (callsEnded rs).length ≤ (callsBegun rs).length
    ∧ (callsBegun rs).length ≤ (callsEnded rs).length + 1
  /-- A call returns after it began, and the next one begins after that. -/
  ended : ∀ (k b e : Nat), (callsBegun rs)[k]? = some b → (callsEnded rs)[k]? = some e → b ≤ e
  apart : ∀ (k e b : Nat), (callsEnded rs)[k]? = some e → (callsBegun rs)[k + 1]? = some b → e ≤ b
  /-- No call begins before the loop does. -/
  begun : callsBegun rs ≠ [] → ∃ t₀, loopBegan rs = some t₀
  /-- The calls are paced: the delay first, and an interval after every call. -/
  paced : ∀ t₀, loopBegan rs = some t₀ →
    Paced (t₀ + initialDelay.getD interval) interval (callsBegun rs) (callsEnded rs)
  /-- Before the loop begins it is to sleep the delay, and from then on the interval. -/
  delayOnce : ∀ l ∈ w.loops, (loopBegan rs = none → sleepTime l = initialDelay.getD interval)
    ∧ ∀ t₀, loopBegan rs = some t₀ → sleepTime l = interval

/-- As long as nothing has begun, there is only the delay to keep to. -/
theorem onSchedule_unbegun (h0 : loopBegan rs = none) (hb : callsBegun rs = [])
    (he : callsEnded rs = []) (hdelay : ∀ l ∈ w.loops, sleepTime l = initialDelay.getD interval) :
    OnSchedule interval initialDelay w rs := by
  refine ⟨?_, ?_, ?_, ?_, ?_, ?_⟩
  · rw [hb, he]
    exact ⟨Nat.le_refl _, Nat.le_succ _⟩
  · intro k b e hk
    rw [hb] at hk
    exact absurd hk (by simp)
  · intro k e b hk
    rw [he] at hk
    exact absurd hk (by simp)
  · exact fun hne => absurd hb hne
  · intro t₀ h
    rw [h0] at h
    exact absurd h (by simp)
  · intro l hmem
    refine ⟨fun _ => hdelay l hmem, ?_⟩
    intro t₀ h
    rw [h0] at h
    exact absurd h (by simp)

theorem OnTime.onSchedule (h : OnTime interval initialDelay w rs) :
    OnSchedule interval initialDelay w rs := by
  cases h with
  | idle hl hd hi h0 hb he =>
      refine onSchedule_unbegun h0 hb he ?_
      intro l hmem
      rw [hl] at hmem
      exact absurd hmem List.not_mem_nil
  | spawned l hl hphase hd hi h0 hb he =>
      refine onSchedule_unbegun h0 hb he ?_
      intro l' hmem
      rw [hl, List.mem_singleton] at hmem
      subst hmem
      unfold sleepTime
      rw [hd, hi]
  | begun l t₀ hl hd hi h0 hh hphase =>
      refine ⟨hphase.length, hh.ended, hh.apart, fun _ => ⟨t₀, h0⟩, ?_, ?_⟩
      · intro t h
        rw [h0] at h
        injection h with h
        subst h
        exact hh.paced
      · intro l' hmem
        rw [hl, List.mem_singleton] at hmem
        subst hmem
        refine ⟨?_, fun _ _ => by unfold sleepTime; rw [hd, hi]; rfl⟩
        intro h
        rw [h0] at h
        exact absurd h (by simp)

end

/-! ## The results of the calls -/

/-- An action, up to the result of a call. -/
def heedless : Action → Action
  | .loop i (.callDone _) => .loop i (.callDone true)
  | a => a

/-- What a step leads to, and the calls that begin in it. -/
def courseOf (w : World) (a : Action) : Option (World × List Nat) :=
  (step w a).map (fun r => (r.1, beginsIn w.now r.2))

/-- The loop does not look at the result of a call. -/
theorem courseOf_heedless (w : World) (a : Action) : courseOf w a = courseOf w (heedless a) := by
  cases a with
  | loop i s =>
      cases s with
      | callDone ok =>
          change courseOf w (.loop i (.callDone ok)) = courseOf w (.loop i (.callDone true))
          unfold courseOf step
          dsimp only
          cases w.loops[i]? with
          | none => rfl
          | some l =>
              unfold Loop.step
              dsimp only
              cases l.phase <;> rfl
      | _ => rfl
  | _ => rfl

section
variable {interval : Nat} {initialDelay : Option Nat} {taskFn : TaskFunction} {w w' : World}
  {rs : List Entry}

/-- So neither does a run. -/
theorem heedless_run {as : List Action} : ∀ {as' : List Action} {w w' : World} {rs : List Entry},
    as.map heedless = as'.map heedless →
    (system interval initialDelay taskFn).recorded.exec w as = some (w', rs) →
    ∃ rs', (system interval initialDelay taskFn).recorded.exec w as' = some (w', rs')
      ∧ callsBegun rs' = callsBegun rs := by
  induction as with
  | nil =>
      intro as' w w' rs hsame h
      rw [List.map_nil] at hsame
      rw [List.map_eq_nil_iff.mp hsame.symm]
      exact ⟨rs, h, rfl⟩
  | cons a as ih =>
      intro as' w w' rs hsame h
      cases as' with
      | nil => exact absurd hsame (by simp)
      | cons a' as' =>
          rw [List.map_cons, List.map_cons] at hsame
          injection hsame with hhead htail
          obtain ⟨w₁, r₁, rs₂, hs, hr, rfl⟩ := Lts.exec_cons.mp h
          obtain ⟨t, hst, rfl⟩ := Lts.recorded_step.mp hs
          -- the two steps may show different events, but lead to one world
          have hcourse : courseOf w a' = some (w₁, beginsIn w.now t) := by
            rw [courseOf_heedless w a', ← hhead, ← courseOf_heedless w a]
            change (step w a).map _ = _
            rw [show step w a = some (w₁, t) from hst]
            rfl
          unfold courseOf at hcourse
          obtain ⟨⟨w₂, t'⟩, hst', heq⟩ := Option.map_eq_some_iff.mp hcourse
          injection heq with h1 hbegins
          dsimp only at h1 hbegins
          subst h1
          obtain ⟨rs', hr', hbegun⟩ := ih htail hr
          refine ⟨⟨w, a', t'⟩ :: rs', Lts.exec_cons.mpr ⟨_, _, _,
            Lts.recorded_step.mpr ⟨t', hst', rfl⟩, hr', rfl⟩, ?_⟩
          unfold callsBegun at hbegun ⊢
          rw [List.flatMap_cons, List.flatMap_append, List.flatMap_singleton, hbegun]
          change beginsIn w.now t' ++ _ = beginsIn w.now t ++ _
          rw [hbegins]

/--
**The schedule of the repeated task.**

In every run the calls are paced, and a run that differs only in the results of the
calls is one with the same course, whose calls begin at the same moments.
-/
theorem schedule (interval : Nat) (initialDelay : Option Nat) (taskFn : TaskFunction) :
    (∀ as w rs, (system interval initialDelay taskFn).recorded.exec
        (system interval initialDelay taskFn).init as = some (w, rs) →
        OnSchedule interval initialDelay w rs)
      ∧ ∀ as as' w rs, as.map heedless = as'.map heedless →
        (system interval initialDelay taskFn).recorded.exec
          (system interval initialDelay taskFn).init as = some (w, rs) →
        ∃ rs', (system interval initialDelay taskFn).recorded.exec
            (system interval initialDelay taskFn).init as' = some (w, rs')
          ∧ callsBegun rs' = callsBegun rs := by
  refine ⟨?_, ?_⟩
  · intro as w rs h
    exact (onTime_exec h).onSchedule
  · intro as as' w rs hsame h
    exact heedless_run hsame h

end

end RsRun.Proof
