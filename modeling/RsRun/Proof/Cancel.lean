import RsRun.Proof.Lifecycle

/-!
# Cancellation

With a positive interval, a task whose token is cancelled begins at most one more
call, and its loop is over after at most three more steps of its own, none of which
has to wait for anything but the end of a call. With an interval of zero that holds only
of a loop that is cancelled before its first poll and has an initial delay to sleep for:
any other calls its function for ever.
-/

namespace RsRun.Proof

open TaskSystem RepeatedTask

variable {interval : Nat} {initialDelay : Option Nat} {taskFn : TaskFunction}

/-! ## What the loops keep -/

/-- Every loop runs with the interval of its task. -/
structure LoopsOk (interval : Nat) (w : World) : Prop where
  task : w.task.interval = interval
  loops : ∀ l ∈ w.loops, LoopOk interval l

theorem loopsOk_init : LoopsOk interval (system interval initialDelay taskFn).init where
  task := rfl
  loops := by intro l hl; simp [system, World.new] at hl

theorem loopsOk_step {w w' : World} {a : Action} {t : List Event} (h : LoopsOk interval w)
    (hm : Moves w a w' t) : LoopsOk interval w' := by
  have hset : ∀ i (l l' : Loop), LoopOk interval l' →
      ∀ x ∈ w.loops.set i l', LoopOk interval x := by
    intro i l l' hok x hx
    rcases List.mem_or_eq_of_mem_set hx with hmem | heq
    · exact h.loops x hmem
    · rw [heq]; exact hok
  cases hm with
  | startFresh taskFn hf =>
      refine ⟨h.task, ?_⟩
      intro l hl
      rcases List.mem_append.mp hl with hmem | hmem
      · exact h.loops l hmem
      · rw [List.mem_singleton] at hmem
        rw [hmem]
        exact ⟨h.task, Or.inr (Or.inl rfl)⟩
  | loop i a l l' es hl hs =>
      have hok := h.loops l (List.mem_of_getElem? hl)
      exact ⟨h.task, hset i l l' (loopOk_step hok hs)⟩
  | loopPanics i l hl hcall =>
      have hok := h.loops l (List.mem_of_getElem? hl)
      exact ⟨h.task, hset i l _ (loopOk_panicked hok hcall)⟩
  | loopAborts i l hl hlive =>
      have hok := h.loops l (List.mem_of_getElem? hl)
      exact ⟨h.task, hset i l _ (loopOk_aborted hok)⟩
  | _ => exact ⟨h.task, h.loops⟩

theorem loopsOk_reachable {w : World} (h : (system interval initialDelay taskFn).Reachable w) :
    LoopsOk interval w :=
  h.inv loopsOk_init (fun _ _ _ _ hr hp hs => loopsOk_step hp (reachable_moves hr hs))

theorem token_step {w w' : World} {a : Action} {t : List Event} (hm : Moves w a w' t)
    (h : w.task.cancelToken = true) : w'.task.cancelToken = true := by
  cases hm with
  | stopTakes c handle hc hh => rfl
  | drop => show (w.task.cancelToken || _) = true; rw [h]; rfl
  | _ => exact h

/-- Only a task that was started is ever cancelled. -/
theorem taskFn_of_cancelled {w : World} (hw : (system interval initialDelay taskFn).Reachable w)
    (h : w.task.cancelToken = true) : w.task.inner.val.taskFn = none ∧ w.loops.length = 1 := by
  obtain ⟨s, hst, _⟩ := reachable_stage hw
  cases hst with
  | fresh _ _ _ _ token => rw [token] at h; exact absurd h (by simp)
  | running inner _ loops => exact ⟨by rw [inner], loops⟩
  | stopped inner _ loops => exact ⟨by rw [inner], loops⟩

/-! ## Calls and steps that are left -/

/-- How many calls begin in the log. -/
def callBegins (t : List Event) : Nat :=
  t.countP (fun e => match e with
    | .loop _ .callBegin => true
    | _ => false)

/-- How many actions of a run are steps of a loop. -/
def loopSteps (as : List Action) : Nat :=
  (as.map (fun a => match a with
    | .loop _ _ => 1
    | _ => 0)).sum

theorem callBegins_append (t u : List Event) :
    callBegins (t ++ u) = callBegins t + callBegins u :=
  List.countP_append

theorem callBegins_loop (i : Nat) (es : List LoopEvent) :
    callBegins (es.map (.loop i)) = begins es := by
  unfold callBegins begins List.count
  rw [List.countP_map]
  refine List.countP_congr ?_
  intro e _
  cases e <;> simp

/-- Rewriting one element exchanges its share of a sum. -/
theorem sum_map_set {α : Type} {xs : List α} {i : Nat} {x : α} (f : α → Nat) (y : α)
    (h : xs[i]? = some x) : ((xs.set i y).map f).sum + f x = (xs.map f).sum + f y := by
  induction xs generalizing i with
  | nil => exact absurd h (by simp)
  | cons z zs ih =>
      cases i with
      | zero =>
          injection h with h
          subst h
          rw [List.set_cons_zero, List.map_cons, List.map_cons, List.sum_cons, List.sum_cons]
          omega
      | succ i =>
          have hrest := ih h
          rw [List.set_cons_succ, List.map_cons, List.map_cons, List.sum_cons, List.sum_cons]
          omega

theorem sum_map_one {w : World} (f : Loop → Nat) {k : Nat} (hf : ∀ l, f l ≤ k)
    (hlen : w.loops.length = 1) : (w.loops.map f).sum ≤ k := by
  obtain ⟨l, hl⟩ := List.length_eq_one_iff.mp hlen
  rw [hl, List.map_singleton, List.sum_singleton]
  exact hf l

/-- What a world keeps once its token is cancelled and its loop looks at it again. -/
structure Cancelled (interval : Nat) (initialDelay : Option Nat) (taskFn : TaskFunction)
    (w : World) : Prop where
  reachable : (system interval initialDelay taskFn).Reachable w
  token : w.task.cancelToken = true
  looks : ∀ l ∈ w.loops, LooksAgain l

/-- **One step of a cancelled task pays for the call it begins and for itself.** -/
theorem left_step {w w' : World} {a : Action} {t : List Event}
    (h : Cancelled interval initialDelay taskFn w)
    (hs : (system interval initialDelay taskFn).step w a = some (w', t)) :
    Cancelled interval initialDelay taskFn w'
      ∧ callBegins t + (w'.loops.map callsLeft).sum ≤ (w.loops.map callsLeft).sum
      ∧ loopSteps [a] + (w'.loops.map stepsLeft).sum ≤ (w.loops.map stepsLeft).sum := by
  have hok := loopsOk_reachable h.reachable
  obtain ⟨hf, _⟩ := taskFn_of_cancelled h.reachable h.token
  have hreach := h.reachable.step hs
  have htoken := token_step (reachable_moves h.reachable hs) h.token
  have hset : ∀ i (l' : Loop), LooksAgain l' → ∀ x ∈ w.loops.set i l', LooksAgain x := by
    intro i l' hlooks x hx
    rcases List.mem_or_eq_of_mem_set hx with hmem | heq
    · exact h.looks x hmem
    · rw [heq]
      exact hlooks
  -- a loop that dies leaves nothing to pay for
  have hover : ∀ i (l : Loop) (phase : Phase), w.loops[i]? = some l →
      callsLeft { l with phase := phase } = 0 → stepsLeft { l with phase := phase } = 0 →
      0 + ((w.loops.set i { l with phase := phase }).map callsLeft).sum
          ≤ (w.loops.map callsLeft).sum
        ∧ 0 + ((w.loops.set i { l with phase := phase }).map stepsLeft).sum
          ≤ (w.loops.map stepsLeft).sum := by
    intro i l phase hl h1 h2
    have hcalls := sum_map_set callsLeft { l with phase := phase } hl
    have hsteps := sum_map_set stepsLeft { l with phase := phase } hl
    omega
  cases reachable_moves h.reachable hs with
  | startFresh taskFn hsome => rw [hf] at hsome; exact absurd hsome (by simp)
  | loop i a l l' es hl hstep =>
      rw [h.token] at hstep
      have hmem := List.mem_of_getElem? hl
      obtain ⟨hlooks, hcall, hstep'⟩ :=
        cancelled_loop_step (h.looks l hmem) (hok.loops l hmem) hstep
      have hcalls := sum_map_set callsLeft l' hl
      have hsteps := sum_map_set stepsLeft l' hl
      rw [callBegins_loop]
      refine ⟨⟨hreach, htoken, hset i l' hlooks⟩, ?_, ?_⟩
      · dsimp only; omega
      · show 1 + ((w.loops.set i l').map stepsLeft).sum ≤ (w.loops.map stepsLeft).sum
        omega
  | loopPanics i l hl hcall =>
      exact ⟨⟨hreach, htoken, hset i _ (.inr (.inl (by simp [Phase.joined])))⟩,
        hover i l .panicked hl rfl rfl⟩
  | loopAborts i l hl hlive =>
      exact ⟨⟨hreach, htoken, hset i _ (.inr (.inl (by simp [Phase.joined])))⟩,
        hover i l .aborted hl rfl rfl⟩
  | _ =>
      exact ⟨⟨hreach, htoken, h.looks⟩, Nat.le_of_eq (Nat.zero_add _),
        Nat.le_of_eq (Nat.zero_add _)⟩

/-- How long a run a cancelled task has left. -/
theorem left_run {w w' : World} {as : List Action} {t : List Event}
    (h : Cancelled interval initialDelay taskFn w)
    (hr : (system interval initialDelay taskFn).exec w as = some (w', t)) :
    callBegins t ≤ 1 ∧ loopSteps as ≤ 3 := by
  obtain ⟨_, hlen⟩ := taskFn_of_cancelled h.reachable h.token
  have hcalls : Cancelled interval initialDelay taskFn w'
      ∧ callBegins ([] ++ t) + (w'.loops.map callsLeft).sum ≤ (w.loops.map callsLeft).sum := by
    refine Lts.exec_log (P := fun v u => Cancelled interval initialDelay taskFn v
      ∧ callBegins u + (v.loops.map callsLeft).sum ≤ (w.loops.map callsLeft).sum) ?_ ?_ hr
    · intro v a v' u t' hp hs
      obtain ⟨hv, hu⟩ := hp
      obtain ⟨hv', hstep, _⟩ := left_step hv hs
      refine ⟨hv', ?_⟩
      rw [callBegins_append]
      omega
    · exact ⟨h, Nat.le_of_eq (Nat.zero_add _)⟩
  have hsteps : loopSteps as + (w'.loops.map stepsLeft).sum ≤ (w.loops.map stepsLeft).sum := by
    refine Lts.exec_cost (P := Cancelled interval initialDelay taskFn)
      (μ := fun v => (v.loops.map stepsLeft).sum) ?_ ?_ h hr
    · intro v a v' t' hv hs
      exact (left_step hv hs).1
    · intro v a v' t' hv hs
      exact (left_step hv hs).2.2
  have hcallsLe := sum_map_one callsLeft callsLeft_le hlen
  have hstepsLe := sum_map_one stepsLeft stepsLeft_le hlen
  refine ⟨?_, ?_⟩
  · have := hcalls.2
    rw [List.nil_append] at this
    omega
  · omega

/-! ## Exactly when cancellation stops the loop -/

/--
From `w` on at most one call begins, the loop takes at most three more steps, and while it
is not over it can take one, so that it returns.
-/
def StopsFrom (interval : Nat) (initialDelay : Option Nat) (taskFn : TaskFunction) (w : World) :
    Prop :=
  (∀ as w' t, (system interval initialDelay taskFn).exec w as = some (w', t) →
      callBegins t ≤ 1 ∧ loopSteps as ≤ 3)
    ∧ ∀ i l, w.loops[i]? = some l → l.phase.joined = none →
        ∃ a, ((system interval initialDelay taskFn).step w (.loop i a)).isSome = true

/-- Cancellation stops the loop, whenever the token is cancelled. -/
def CancelStops (interval : Nat) (initialDelay : Option Nat) (taskFn : TaskFunction) : Prop :=
  ∀ w, (system interval initialDelay taskFn).Reachable w → w.task.cancelToken = true →
    StopsFrom interval initialDelay taskFn w

theorem step_loop {w : World} {i : Nat} {a : LoopStep} {l l' : Loop} {es : List LoopEvent}
    (hl : w.loops[i]? = some l) (hs : l.step w.task.cancelToken w.now a = some (l', es)) :
    step w (.loop i a) = some ({ w with loops := w.loops.set i l' }, es.map (.loop i)) := by
  rw [step, hl]
  dsimp only
  rw [hs]

theorem cancelled_enabled {w : World} (h : w.task.cancelToken = true) {i : Nat} {l : Loop}
    (hl : w.loops[i]? = some l) (hlive : l.phase.joined = none) :
    ∃ a, (step w (.loop i a)).isSome = true := by
  obtain ⟨a, ha⟩ := cancelled_loop_enabled w.now hlive
  refine ⟨a, ?_⟩
  obtain ⟨⟨l', es⟩, hs⟩ := Option.isSome_iff_exists.mp ha
  rw [step_loop hl (by rw [h]; exact hs)]
  rfl

/-! ### Without an interval -/

section
variable {w : World} {i : Nat} {l : Loop}

theorem getElem?_set_loop (hl : w.loops[i]? = some l) (l' : Loop) :
    (w.loops.set i l')[i]? = some l' := by
  obtain ⟨hlt, _⟩ := List.getElem?_eq_some_iff.mp hl
  exact List.getElem?_set_self hlt

/-- A loop at its head that has nothing to sleep for calls its function. -/
theorem zero_calls (hl : w.loops[i]? = some l) (htop : l.phase = .top) (hsleep : sleepTime l = 0) :
    ∃ w', step w (.loop i .resume) = some (w', [.loop i .callBegin])
      ∧ w'.loops[i]? = some { l with initialDelay := none, phase := .calling } := by
  have hcall : l.step w.task.cancelToken w.now .resume
      = some ({ l with initialDelay := none, phase := .calling }, [.callBegin]) := by
    have hno : ¬ 0 < l.initialDelay.getD l.interval := by
      unfold sleepTime at hsleep
      omega
    rw [Loop.step, htop]
    exact if_neg hno
  exact ⟨_, step_loop hl hcall, getElem?_set_loop hl _⟩

/-- However often it has been called, the function is called again. -/
theorem zero_again (interval : Nat) (initialDelay : Option Nat) (taskFn : TaskFunction)
    (hl : w.loops[i]? = some l) (hcalling : l.phase = .calling)
    (hzero : l.interval = 0) (hdelay : l.initialDelay = none) :
    ∃ w' t, (system interval initialDelay taskFn).exec w
        [.loop i (.callDone true), .loop i .resume] = some (w', t)
      ∧ callBegins t = 1 ∧ w'.loops[i]? = some l := by
  have hdone : l.step w.task.cancelToken w.now (.callDone true)
      = some ({ l with phase := .top }, [.callEnd true]) := by
    rw [Loop.step, hcalling]
  have hsleep : sleepTime { l with phase := .top } = 0 := by
    unfold sleepTime
    rw [hdelay, hzero]
    rfl
  have hfirst := step_loop hl hdone
  obtain ⟨w', hs, hl'⟩ := zero_calls
    (w := { w with loops := w.loops.set i { l with phase := .top } })
    (getElem?_set_loop hl _) rfl hsleep
  have hsame : ({ l with initialDelay := none, phase := .calling } : Loop) = l := by
    rw [← hdelay, ← hcalling]
  refine ⟨w', _, Lts.exec_cons.mpr ⟨_, _, _, hfirst, Lts.exec_one hs, rfl⟩, rfl, ?_⟩
  rw [hl']
  exact congrArg some hsame

/-- **Without an interval, a loop that does not look at the token again calls for ever.** -/
theorem not_stopsFrom (hl : w.loops[i]? = some l) (hok : LoopOk 0 l) (hno : ¬ LooksAgain l) :
    ¬ StopsFrom 0 initialDelay taskFn w := by
  intro h
  have hzero := hok.interval
  -- from a call on there is one more for every turn of the loop
  have hcalls : ∀ {v : World} {l' : Loop} {bs : List Action} {u : List Event},
      (system 0 initialDelay taskFn).exec w bs = some (v, u) → v.loops[i]? = some l' →
      l'.phase = .calling → l'.interval = 0 → l'.initialDelay = none → False := by
    intro v l' bs u hrun hv hc hz hd
    obtain ⟨v₁, t₁, h₁, hone₁, hv₁⟩ := zero_again 0 initialDelay taskFn hv hc hz hd
    obtain ⟨v₂, t₂, h₂, hone₂, _⟩ := zero_again 0 initialDelay taskFn hv₁ hc hz hd
    have hall := Lts.exec_append.mpr ⟨_, _, _, hrun, Lts.exec_append.mpr ⟨_, _, _, h₁, h₂, rfl⟩, rfl⟩
    have hle := (h.1 _ _ _ hall).1
    rw [callBegins_append, callBegins_append] at hle
    omega
  have hlive : l.phase.joined = none := by
    by_contra hover
    exact hno (.inr (.inl hover))
  cases hphase : l.phase with
  | top =>
      have hsleep : sleepTime l = 0 := by
        by_contra hne
        exact hno (.inr (.inr ⟨hphase, Nat.pos_of_ne_zero hne⟩))
      obtain ⟨w', hs, hl'⟩ := zero_calls hl hphase hsleep
      have hcall : (system 0 initialDelay taskFn).step w (.loop i .resume)
          = some (w', [.loop i .callBegin]) := hs
      exact hcalls (Lts.exec_one hcall) hl' rfl hzero rfl
  | sleeping till =>
      have hdelay := hok.delay.resolve_right (by rw [hphase]; simp)
      have htick : (system 0 initialDelay taskFn).step w (.tick till)
          = some ({ w with now := w.now + till }, []) := rfl
      have hwake : l.step w.task.cancelToken (w.now + till) .sleepDone
          = some ({ l with phase := .calling }, [.callBegin]) := by
        rw [Loop.step, hphase]
        exact if_pos (Nat.le_add_left _ _)
      obtain ⟨w', hs, hl'⟩ : ∃ w', (system 0 initialDelay taskFn).step
          { w with now := w.now + till } (.loop i .sleepDone) = some (w', [.loop i .callBegin])
          ∧ w'.loops[i]? = some { l with phase := .calling } :=
        ⟨_, step_loop (w := { w with now := w.now + till }) hl hwake, getElem?_set_loop hl _⟩
      have hrun := Lts.exec_cons.mpr ⟨_, _, _, htick, Lts.exec_one hs, rfl⟩
      exact hcalls hrun hl' rfl hzero hdelay
  | calling =>
      have hdelay := hok.delay.resolve_right (by rw [hphase]; simp)
      have hnil : (system 0 initialDelay taskFn).exec w [] = some (w, []) := rfl
      exact hcalls hnil hl hphase hzero hdelay
  | returned => rw [hphase] at hlive; exact absurd hlive (by simp [Phase.joined])
  | panicked => rw [hphase] at hlive; exact absurd hlive (by simp [Phase.joined])
  | aborted => rw [hphase] at hlive; exact absurd hlive (by simp [Phase.joined])

end

/-- Whatever the initial delay is, such a loop can be cancelled too late. -/
theorem not_cancelStops_zero (initialDelay : Option Nat) (taskFn : TaskFunction) :
    ¬ CancelStops 0 initialDelay taskFn := by
  intro h
  have hfails : ∀ w l, (system 0 initialDelay taskFn).Reachable w →
      w.task.cancelToken = true → w.loops = [l] → ¬ LooksAgain l → False := by
    intro w l hw htoken hloops hno
    have hl : w.loops[0]? = some l := by rw [hloops]; rfl
    have hok := (loopsOk_reachable hw).loops l (List.mem_of_getElem? hl)
    exact not_stopsFrom hl hok hno (h w hw htoken)
  have hearly : sleepTime
      { taskFn := taskFn, interval := 0, initialDelay := initialDelay, phase := .top } = 0 →
      False := by
    intro hsleep
    refine hfails _ _ ⟨[.start, .stopCall, .stopLock 0], _, rfl⟩ rfl rfl ?_
    rintro (hpos | hover | ⟨_, hsome⟩)
    · exact absurd hpos (Nat.lt_irrefl 0)
    · exact hover rfl
    · exact absurd hsleep (Nat.ne_of_gt hsome)
  cases initialDelay with
  | none => exact hearly rfl
  | some d =>
      cases d with
      | zero => exact hearly rfl
      | succ d =>
          -- the loop sleeps already when the token is cancelled
          refine hfails _ _ ⟨[.start, .loop 0 .resume, .stopCall, .stopLock 0], _, rfl⟩ rfl rfl ?_
          rintro (hpos | hover | ⟨htop, _⟩)
          · exact absurd hpos (Nat.lt_irrefl 0)
          · exact hover rfl
          · exact absurd htop (by simp)

/--
**Cancellation stops the loop exactly when the interval is positive.**

With an interval of zero it still does where it comes before the first poll of a loop
that has an initial delay to sleep for, and nowhere else.
-/
theorem cancel_stops_iff (interval : Nat) (initialDelay : Option Nat) (taskFn : TaskFunction) :
    (CancelStops interval initialDelay taskFn ↔ 0 < interval)
      ∧ ∀ w, (system interval initialDelay taskFn).Reachable w → w.task.cancelToken = true →
        (StopsFrom interval initialDelay taskFn w ↔ 0 < interval ∨ ∀ l ∈ w.loops,
          l.phase.joined ≠ none ∨ (l.phase = .top ∧ 0 < l.initialDelay.getD 0)) := by
  have hlooks : ∀ w, (system interval initialDelay taskFn).Reachable w →
      w.task.cancelToken = true → (∀ l ∈ w.loops, LooksAgain l) →
      StopsFrom interval initialDelay taskFn w := by
    intro w hw htoken hall
    refine ⟨?_, ?_⟩
    · intro as w' t hr
      exact left_run ⟨hw, htoken, hall⟩ hr
    · intro i l hl hlive
      exact cancelled_enabled htoken hl hlive
  have hpositive : ∀ w, (system interval initialDelay taskFn).Reachable w → 0 < interval →
      ∀ l ∈ w.loops, LooksAgain l := by
    intro w hw hpos l hl
    have hint := ((loopsOk_reachable hw).loops l hl).interval
    exact .inl (by omega)
  refine ⟨⟨?_, ?_⟩, ?_⟩
  · intro h
    by_contra hzero
    have hz : interval = 0 := by omega
    subst hz
    exact not_cancelStops_zero initialDelay taskFn h
  · intro hpos w hw htoken
    exact hlooks w hw htoken (hpositive w hw hpos)
  · intro w hw htoken
    rcases Nat.eq_zero_or_pos interval with hzero | hpos
    · subst hzero
      have hok := (loopsOk_reachable hw).loops
      have hsame : ∀ l ∈ w.loops, LooksAgain l
          ↔ l.phase.joined ≠ none ∨ (l.phase = .top ∧ 0 < l.initialDelay.getD 0) := by
        intro l hl
        unfold LooksAgain sleepTime
        rw [(hok l hl).interval]
        simp
      constructor
      · intro hstops
        refine .inr fun l hl => (hsame l hl).mp ?_
        obtain ⟨i, hi⟩ := List.mem_iff_getElem?.mp hl
        by_contra hno
        exact not_stopsFrom hi (hok l hl) hno hstops
      · rintro (hpos | hall)
        · exact absurd hpos (Nat.lt_irrefl 0)
        · exact hlooks w hw htoken fun l hl => (hsame l hl).mpr (hall l hl)
    · exact ⟨fun _ => .inl hpos, fun _ => hlooks w hw htoken (hpositive w hw hpos)⟩

/-- A task without an interval cannot be stopped. -/
theorem cancel_stops_zero : ¬ CancelStops 0 none ⟨"tick"⟩ :=
  not_cancelStops_zero none ⟨"tick"⟩

end RsRun.Proof
