import RsRun.RepeatedTask

/-!
# The background loop

What one step of the loop does, and how much a loop can still do once its token is
cancelled. The loop looks at the token only inside the `select!`, and it comes there
only with a positive sleep time; with a positive interval that is before every call
but the first, whatever the initial delay was.
-/

namespace RsRun.Proof

/-! ## One step -/

/-- How long the loop sleeps before its next call. -/
def sleepTime (l : Loop) : Nat := l.initialDelay.getD l.interval

/-- What a step does to the loop, one constructor for each way. -/
inductive LoopMoves (cancelled : Bool) (now : Nat) (l : Loop) :
    LoopStep → Loop → List LoopEvent → Prop where
  | giveUp (hl : l.phase = .top) (hsleep : 0 < sleepTime l) (hc : cancelled = true) :
      LoopMoves cancelled now l .resume { l with initialDelay := none, phase := .returned }
        [.loopReturned]
  | sleep (hl : l.phase = .top) (hsleep : 0 < sleepTime l) (hc : cancelled = false) :
      LoopMoves cancelled now l .resume
        { l with initialDelay := none, phase := .sleeping (now + sleepTime l) } []
  | callAtOnce (hl : l.phase = .top) (hsleep : sleepTime l = 0) :
      LoopMoves cancelled now l .resume { l with initialDelay := none, phase := .calling }
        [.callBegin]
  | sleepDone (till : Nat) (hl : l.phase = .sleeping till) (hnow : till ≤ now) :
      LoopMoves cancelled now l .sleepDone { l with phase := .calling } [.callBegin]
  | cancelSeen (till : Nat) (hl : l.phase = .sleeping till) (hc : cancelled = true) :
      LoopMoves cancelled now l .cancelSeen { l with phase := .returned } [.loopReturned]
  | callDone (ok : Bool) (hl : l.phase = .calling) :
      LoopMoves cancelled now l (.callDone ok) { l with phase := .top } [.callEnd ok]

/-- **The inversion lemma.** -/
theorem loop_step_moves {cancelled : Bool} {now : Nat} {l l' : Loop} {a : LoopStep}
    {es : List LoopEvent} (h : l.step cancelled now a = some (l', es)) :
    LoopMoves cancelled now l a l' es := by
  cases a with
  | resume =>
      rw [Loop.step] at h
      split at h
      · rename_i hl
        dsimp only at h
        split at h
        · rename_i hsleep
          split at h
          · rename_i hc
            injection h with h; injection h with h1 h2
            subst h1; subst h2
            exact .giveUp hl hsleep hc
          · rename_i hc
            injection h with h; injection h with h1 h2
            subst h1; subst h2
            exact .sleep hl hsleep (Bool.eq_false_iff.mpr hc)
        · rename_i hsleep
          injection h with h; injection h with h1 h2
          subst h1; subst h2
          exact .callAtOnce hl (Nat.eq_zero_of_not_pos hsleep)
      · exact absurd h (by simp)
  | sleepDone =>
      rw [Loop.step] at h
      split at h
      · rename_i till hl
        split at h
        · rename_i hnow
          injection h with h; injection h with h1 h2
          subst h1; subst h2
          exact .sleepDone till hl hnow
        · exact absurd h (by simp)
      · exact absurd h (by simp)
  | cancelSeen =>
      rw [Loop.step] at h
      split at h
      · rename_i till hl
        split at h
        · rename_i hc
          injection h with h; injection h with h1 h2
          subst h1; subst h2
          exact .cancelSeen till hl hc
        · exact absurd h (by simp)
      · exact absurd h (by simp)
  | callDone ok =>
      rw [Loop.step] at h
      split at h
      · rename_i hl
        injection h with h; injection h with h1 h2
        subst h1; subst h2
        exact .callDone ok hl
      · exact absurd h (by simp)

theorem loop_step_live {cancelled : Bool} {now : Nat} {l l' : Loop} {a : LoopStep}
    {es : List LoopEvent} (h : l.step cancelled now a = some (l', es)) :
    l.phase.joined = none := by
  cases loop_step_moves h with
  | giveUp hl => rw [hl]; rfl
  | sleep hl => rw [hl]; rfl
  | callAtOnce hl => rw [hl]; rfl
  | sleepDone till hl => rw [hl]; rfl
  | cancelSeen till hl => rw [hl]; rfl
  | callDone ok hl => rw [hl]; rfl

/-- The loop runs with the interval it was given, and its initial delay serves once. -/
structure LoopOk (interval : Nat) (l : Loop) : Prop where
  interval : l.interval = interval
  delay : l.initialDelay = none ∨ l.phase = .top ∨ l.phase = .aborted

theorem loopOk_step {interval now : Nat} {cancelled : Bool} {l l' : Loop} {a : LoopStep}
    {es : List LoopEvent} (hok : LoopOk interval l)
    (h : l.step cancelled now a = some (l', es)) : LoopOk interval l' := by
  obtain ⟨hint, hdelay⟩ := hok
  cases loop_step_moves h with
  | giveUp hl => exact ⟨hint, Or.inl rfl⟩
  | sleep hl => exact ⟨hint, Or.inl rfl⟩
  | callAtOnce hl => exact ⟨hint, Or.inl rfl⟩
  | callDone ok hl => exact ⟨hint, Or.inr (Or.inl rfl)⟩
  | sleepDone till hl =>
      rw [hl] at hdelay
      exact ⟨hint, Or.inl (hdelay.resolve_right (by simp))⟩
  | cancelSeen till hl =>
      rw [hl] at hdelay
      exact ⟨hint, Or.inl (hdelay.resolve_right (by simp))⟩

theorem loopOk_panicked {interval : Nat} {l : Loop} (hok : LoopOk interval l)
    (hcall : l.phase = .calling) : LoopOk interval { l with phase := .panicked } := by
  obtain ⟨hint, hdelay⟩ := hok
  rw [hcall] at hdelay
  exact ⟨hint, Or.inl (hdelay.resolve_right (by simp))⟩

theorem loopOk_aborted {interval : Nat} {l : Loop} (hok : LoopOk interval l) :
    LoopOk interval { l with phase := .aborted } :=
  ⟨hok.interval, Or.inr (Or.inr rfl)⟩

/-! ## After the cancellation -/

/--
The loop comes to `select!` again before it can call its function twice: its interval is
positive, or it is over, or its first sleep is still to come.
-/
def LooksAgain (l : Loop) : Prop :=
  0 < l.interval ∨ l.phase.joined ≠ none ∨ (l.phase = .top ∧ 0 < sleepTime l)

/-- How often a call begins. -/
def begins (es : List LoopEvent) : Nat := es.count .callBegin

/-- How many calls a cancelled loop can still begin. -/
def callsLeft (l : Loop) : Nat :=
  match l.phase with
  | .top => if l.initialDelay = some 0 then 1 else 0
  | .sleeping _ => 1
  | _ => 0

/-- How many steps a cancelled loop can still take. -/
def stepsLeft (l : Loop) : Nat :=
  match l.phase with
  | .top => if l.initialDelay = some 0 then 3 else 1
  | .sleeping _ => 3
  | .calling => 2
  | _ => 0

theorem callsLeft_le (l : Loop) : callsLeft l ≤ 1 := by
  unfold callsLeft
  split
  · split <;> omega
  · omega
  · omega

theorem stepsLeft_le (l : Loop) : stepsLeft l ≤ 3 := by
  unfold stepsLeft
  split
  · split <;> omega
  · omega
  · omega
  · omega

/-- With a positive interval, only an initial delay of zero makes the loop call at once. -/
theorem sleepTime_eq_zero {l : Loop} (hpos : 0 < l.interval) (h : sleepTime l = 0) :
    l.initialDelay = some 0 := by
  unfold sleepTime at h
  cases hd : l.initialDelay with
  | none => rw [hd, Option.getD_none] at h; omega
  | some d => rw [hd, Option.getD_some] at h; rw [h]

/-- A cancelled loop without an interval that looks again has nothing left but to return. -/
theorem looksAgain_step {now : Nat} {l l' : Loop} {a : LoopStep} {es : List LoopEvent}
    (hlooks : LooksAgain l) (hzero : l.interval = 0) (h : l.step true now a = some (l', es)) :
    l' = { l with initialDelay := none, phase := .returned } ∧ es = [.loopReturned]
      ∧ l.phase = .top := by
  have hlive := loop_step_live h
  rcases hlooks with hpos | hover | ⟨htop, hsleep⟩
  · omega
  · exact absurd hlive hover
  · cases loop_step_moves h with
    | giveUp hl => exact ⟨rfl, rfl, hl⟩
    | sleep hl _ hc => exact absurd hc (by simp)
    | callAtOnce _ hnow => omega
    | sleepDone till hl => rw [htop] at hl; exact absurd hl (by simp)
    | cancelSeen till hl => rw [htop] at hl; exact absurd hl (by simp)
    | callDone ok hl => rw [htop] at hl; exact absurd hl (by simp)

/--
**A cancelled loop winds down.**

As long as it looks at the token again, a step of a cancelled loop pays for the call it
begins and for itself.
-/
theorem cancelled_loop_step {interval now : Nat} {l l' : Loop} {a : LoopStep}
    {es : List LoopEvent} (hlooks : LooksAgain l) (hok : LoopOk interval l)
    (h : l.step true now a = some (l', es)) :
    LooksAgain l' ∧ begins es + callsLeft l' ≤ callsLeft l ∧ 1 + stepsLeft l' ≤ stepsLeft l := by
  rcases Nat.eq_zero_or_pos l.interval with hzero | hpos
  · obtain ⟨hl', hes, htop⟩ := looksAgain_step hlooks hzero h
    subst hl'; subst hes
    refine ⟨.inr (.inl (by simp [Phase.joined])), Nat.zero_le _, ?_⟩
    unfold stepsLeft
    rw [htop]
    dsimp only
    split <;> omega
  · have hint := (loopOk_step hok h).interval
    have hpos' : 0 < l'.interval := by
      rw [hint, ← hok.interval]
      exact hpos
    obtain ⟨_, hdelay⟩ := hok
    refine ⟨.inl hpos', ?_⟩
    cases loop_step_moves h with
    | giveUp hl =>
        refine ⟨Nat.zero_le _, ?_⟩
        unfold stepsLeft
        rw [hl]
        dsimp only
        split <;> omega
    | sleep hl hsleep hc => exact absurd hc (by simp)
    | callAtOnce hl hsleep =>
        -- the one call that an initial delay of zero lets through
        have hzero := sleepTime_eq_zero hpos hsleep
        unfold callsLeft stepsLeft
        rw [hl, hzero]
        exact ⟨Nat.le_refl _, Nat.le_refl _⟩
    | sleepDone till hl =>
        unfold callsLeft stepsLeft
        rw [hl]
        exact ⟨Nat.le_refl _, Nat.le_refl _⟩
    | cancelSeen till hl =>
        unfold callsLeft stepsLeft
        rw [hl]
        exact ⟨Nat.zero_le _, by dsimp only; omega⟩
    | callDone ok hl =>
        have hnone : l.initialDelay = none := by
          rw [hl] at hdelay
          exact hdelay.resolve_right (by simp)
        unfold callsLeft stepsLeft
        rw [hl, hnone]
        exact ⟨Nat.le_refl _, Nat.le_refl _⟩

/-- A cancelled loop that is not over can go on. -/
theorem cancelled_loop_enabled (now : Nat) {l : Loop} (h : l.phase.joined = none) :
    ∃ a, (l.step true now a).isSome = true := by
  cases hl : l.phase with
  | top =>
      refine ⟨.resume, ?_⟩
      unfold Loop.step
      rw [hl]
      dsimp only
      split <;> rfl
  | sleeping till =>
      refine ⟨.cancelSeen, ?_⟩
      unfold Loop.step
      rw [hl]
      rfl
  | calling =>
      refine ⟨.callDone true, ?_⟩
      unfold Loop.step
      rw [hl]
      rfl
  | returned => rw [hl] at h; exact absurd h (by simp [Phase.joined])
  | panicked => rw [hl] at h; exact absurd h (by simp [Phase.joined])
  | aborted => rw [hl] at h; exact absurd h (by simp [Phase.joined])

end RsRun.Proof
