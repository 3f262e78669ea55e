import Mathlib.Algebra.BigOperators.Ring.List
import RsRun.Proof.Cancel
import RsRun.Proof.PolledLoops

/-!
# The polled loop is woken, and gives its thread back

A loop that nobody polls waits for its timer and its token, and both know whom to wake, or
for a call that knows. So no cancellation is slept through, and a loop whose token is
cancelled goes back to sleep at most once more, namely if it was about to. How long one poll
of it may last is a matter of the interval: with an interval of zero, for ever.
-/

namespace RsRun.Proof

open PollSystem
open TaskSystem (StopCall Event)

/-! ## Who wakes it -/

/-- What wakes the task of a loop, as long as nobody has. -/
structure Watched (cancelled : Bool) (t : LoopTask) : Prop where
  /-- At the head of the loop, it is polled or about to be. -/
  top : t.loop.phase = .top → t.run ≠ .idle
  /-- In `select!`, what this poll has polled will wake it, and has had no reason to so far. -/
  polled : ∀ till, t.loop.phase = .sleeping till → t.run = .running →
    (t.select.slept = true → t.select.armed = true ∧ t.select.fired = false)
      ∧ (t.select.listened = true → t.select.listening = true ∧ cancelled = false)
  /-- Asleep, both will. -/
  asleep : ∀ till, t.loop.phase = .sleeping till → t.run = .idle →
    (t.select.armed = true ∧ t.select.fired = false)
      ∧ t.select.listening = true ∧ cancelled = false
  /-- In a call, that will. -/
  calling : t.loop.phase = .calling → t.run = .idle → t.kept = true

/-- A task that is about to be polled again need not be watched. -/
theorem watched_awake {c : Bool} {t : LoopTask} (hidle : t.run ≠ .idle)
    (hrunning : t.run ≠ .running) : Watched c t where
  top _ := hidle
  polled _ _ hr := absurd hr hrunning
  asleep _ _ hr := absurd hr hidle
  calling _ hr := absurd hr hidle

theorem watched_wake (c : Bool) (t : LoopTask) : Watched c t.wake :=
  watched_awake (Sched.Run.wake_ne_idle _) (Sched.Run.wake_ne_running _)

theorem watched_ended {c : Bool} {t : LoopTask} {phase : Phase} (h : phase.joined ≠ none) :
    Watched c (t.ended phase) where
  top hl := by
    have hl : phase = .top := hl
    rw [hl] at h
    exact absurd rfl h
  polled _ _ hr := absurd hr (by simp [LoopTask.ended])
  asleep till hl _ := by
    have hl : phase = .sleeping till := hl
    rw [hl] at h
    exact absurd rfl h
  calling hl _ := by
    have hl : phase = .calling := hl
    rw [hl] at h
    exact absurd rfl h

/-- Whoever waits for the token hears of the cancellation. -/
theorem watched_cancelled {c : Bool} {t : LoopTask} (h : Watched c t) :
    Watched true t.cancelled := by
  unfold LoopTask.cancelled
  split
  · exact watched_wake _ _
  · rename_i hdeaf
    refine ⟨h.top, ?_, ?_, h.calling⟩
    · intro till hl hr
      obtain ⟨hslept, hlistened⟩ := h.polled till hl hr
      exact ⟨hslept, fun hs => absurd (hlistened hs).1 hdeaf⟩
    · intro till hl hr
      exact absurd (h.asleep till hl hr).2.1 hdeaf

theorem ne_idle_of_polling {r : Sched.Run} (h : r.polling = true) : r ≠ .idle := by
  rintro rfl
  exact absurd h (by simp [Sched.Run.polling])

/-- **Every action of a poll leaves the task watched.** -/
theorem watched_poll {c : Bool} {now : Nat} {t t' : LoopTask} {a : PollStep}
    {es : List LoopEvent} (h : Watched c t) (hs : t.step c now a = some (t', es)) :
    Watched c t' := by
  cases poll_moves hs with
  | begin hlive hq =>
      refine ⟨fun _ => by simp, ?_, fun _ _ hr => absurd hr (by simp),
        fun _ hr => absurd hr (by simp)⟩
      -- nothing has been polled yet
      exact fun _ _ _ => ⟨fun hs => absurd hs (by simp [Select.again]),
        fun hs => absurd hs (by simp [Select.again])⟩
  | headSleep hl hp hpos =>
      refine ⟨fun hl' => absurd hl' (by simp), ?_,
        fun _ _ hr => absurd hr (ne_idle_of_polling hp), fun hl' => absurd hl' (by simp)⟩
      exact fun _ _ _ => ⟨fun hs => absurd hs (by simp [Select.new]),
        fun hs => absurd hs (by simp [Select.new])⟩
  | headCall hl hp hzero =>
      exact ⟨fun hl' => absurd hl' (by simp), fun _ hl' => absurd hl' (by simp),
        fun _ hl' => absurd hl' (by simp), fun _ hr => absurd hr (ne_idle_of_polling hp)⟩
  | sleepReady hl hp hslept hfirst hnow =>
      exact ⟨fun hl' => absurd hl' (by simp [LoopTask.toCall]),
        fun _ hl' => absurd hl' (by simp [LoopTask.toCall]),
        fun _ hl' => absurd hl' (by simp [LoopTask.toCall]),
        fun _ hr => absurd hr (ne_idle_of_polling hp)⟩
  | @sleepPending till hl hp hslept hfired =>
      refine ⟨fun hl' => absurd (hl.symm.trans hl') (by simp), ?_,
        fun _ _ hr => absurd hr (ne_idle_of_polling hp),
        fun hl' => absurd (hl.symm.trans hl') (by simp)⟩
      exact fun till hl hr => ⟨fun _ => ⟨rfl, hfired⟩, (h.polled till hl hr).2⟩
  | sleepSpent hl hp hslept => exact watched_wake _ _
  | tokenSeen hl hp hlistened hc => exact watched_ended (by simp [Phase.joined])
  | @tokenQuiet till hl hp hlistened hc =>
      refine ⟨fun hl' => absurd (hl.symm.trans hl') (by simp), ?_,
        fun _ _ hr => absurd hr (ne_idle_of_polling hp),
        fun hl' => absurd (hl.symm.trans hl') (by simp)⟩
      exact fun till hl hr => ⟨(h.polled till hl hr).1, fun _ => ⟨rfl, hc⟩⟩
  | @giveBack till hl hp hslept hlistened =>
      refine ⟨fun hl' => absurd (hl.symm.trans hl') (by simp), ?_, ?_,
        fun hl' => absurd (hl.symm.trans hl') (by simp)⟩
      · intro _ _ hr
        have hr : t.run.park = .running := hr
        have hpark := Sched.Run.polling_park t.run
        rw [hr] at hpark
        exact absurd hpark (by simp [Sched.Run.polling])
      · intro till hl hr
        obtain ⟨harmed, hlistening⟩ := h.polled till hl (Sched.Run.running_of_park hp hr)
        exact ⟨harmed hslept, hlistening hlistened⟩
  | callPending hl hp =>
      exact ⟨fun hl' => absurd (hl.symm.trans hl') (by simp),
        fun _ hl' => absurd (hl.symm.trans hl') (by simp),
        fun _ hl' => absurd (hl.symm.trans hl') (by simp), fun _ _ => rfl⟩
  | callDone ok hl hp =>
      exact ⟨fun _ => ne_idle_of_polling hp, fun _ hl' => absurd hl' (by simp),
        fun _ hl' => absurd hl' (by simp), fun hl' => absurd hl' (by simp)⟩

/-- All loops are watched. -/
def AllWatched (w : World) : Prop := ∀ t ∈ w.loops, Watched w.task.cancelToken t

theorem allWatched_setTask {w : World} {task : RepeatedTask} (h : AllWatched w)
    (htoken : w.task.cancelToken = true → task.cancelToken = true) :
    ∀ t ∈ (w.setTask task).loops, Watched task.cancelToken t := by
  intro t ht
  unfold World.setTask at ht
  dsimp only at ht
  split at ht
  · rename_i hnow
    rw [(Bool.and_eq_true_iff.mp hnow).1]
    obtain ⟨u, hu, rfl⟩ := List.mem_map.mp ht
    exact watched_cancelled (h u hu)
  · rename_i hno
    have hsame : w.task.cancelToken = task.cancelToken := by
      cases hw : w.task.cancelToken with
      | true => exact (htoken hw).symm
      | false =>
          rw [hw] at hno
          cases htask : task.cancelToken with
          | true => rw [htask] at hno; exact absurd rfl hno
          | false => rfl
    exact hsame ▸ h t ht

theorem allWatched_put {w : World} {i : Nat} {t : LoopTask} (h : AllWatched w)
    (ht : Watched w.task.cancelToken t) : AllWatched (w.put i t) := by
  intro u hu
  rcases List.mem_or_eq_of_mem_set hu with hmem | heq
  · exact h u hmem
  · exact heq ▸ ht

theorem allWatched_step {w w' : World} {a : Action} {t : List Event} (h : AllWatched w)
    (hm : WorldMoves w a w' t) : AllWatched w' := by
  cases hm with
  | start hd =>
      intro u hu
      have hu : Watched w.task.cancelToken u := by
        rcases List.mem_append.mp hu with hmem | hmem
        · exact h u hmem
        · obtain ⟨l, _, rfl⟩ := Option.map_eq_some_iff.mp (Option.mem_toList.mp hmem)
          exact watched_awake (by simp [LoopTask.new]) (by simp [LoopTask.new])
      dsimp only
      rw [token_start]
      exact hu
  | stopDone hc hs =>
      refine allWatched_setTask h fun ht => ?_
      have hkeep := token_stopSection ht
      rwa [hs] at hkeep
  | stopTakes hc hs =>
      refine allWatched_setTask h fun ht => ?_
      have hkeep := token_stopSection ht
      rwa [hs] at hkeep
  | drop hd hf => exact allWatched_setTask h token_drop
  | polled ht hs => exact allWatched_put h (watched_poll (h _ (List.mem_of_getElem? ht)) hs)
  | panicked ht hl hp => exact allWatched_put h (watched_ended (by simp [Phase.joined]))
  | aborted ht hlive hp => exact allWatched_put h (watched_ended (by simp [Phase.joined]))
  | fired ht hl harmed hfired hnow => exact allWatched_put h (watched_wake _ _)
  | woken ht => exact allWatched_put h (watched_wake _ _)
  | _ => exact h

section
variable {interval : Nat} {initialDelay : Option Nat} {taskFn : TaskFunction}

theorem allWatched_reachable {w : World}
    (h : (PollSystem.system interval initialDelay taskFn).Reachable w) : AllWatched w := by
  refine h.inv (P := AllWatched) (fun t ht => ?_)
    (fun _ _ _ _ _ hp hs => allWatched_step hp (world_moves hs))
  exact absurd ht (by simp [PollSystem.system, PollSystem.World.new])

/--
**No cancellation is slept through.**

A loop that is not over, and that nobody polls or is about to poll, waits in its `select!` for
an armed timer and for a token that is not cancelled, and both hold its waker; or it waits for
a call that holds its waker.
-/
theorem loops_watched {w : World}
    (hreach : (PollSystem.system interval initialDelay taskFn).Reachable w) {i : Nat}
    {t : LoopTask} (ht : w.loops[i]? = some t) (hlive : t.loop.phase.joined = none)
    (hidle : t.run = .idle) :
    (∃ till, t.loop.phase = .sleeping till ∧ t.select.armed = true ∧ t.select.fired = false
        ∧ t.select.listening = true ∧ w.task.cancelToken = false)
      ∨ (t.loop.phase = .calling ∧ t.kept = true) := by
  have h := allWatched_reachable hreach t (List.mem_of_getElem? ht)
  cases hl : t.loop.phase with
  | top => exact absurd hidle (h.top hl)
  | sleeping till =>
      obtain ⟨⟨harmed, hfired⟩, hlistening, hquiet⟩ := h.asleep till hl hidle
      exact .inl ⟨till, rfl, harmed, hfired, hlistening, hquiet⟩
  | calling => exact .inr ⟨rfl, h.calling hl hidle⟩
  | returned => rw [hl] at hlive; exact absurd hlive (by simp [Phase.joined])
  | panicked => rw [hl] at hlive; exact absurd hlive (by simp [Phase.joined])
  | aborted => rw [hl] at hlive; exact absurd hlive (by simp [Phase.joined])

/-- A task whose loop has gone to sleep. -/
def asleepOnce : List Action :=
  [.start, .poll 0 .begin, .poll 0 .head, .poll 0 .token, .poll 0 (.sleep .pending),
    .poll 0 .giveBack]

theorem loops_watched_asleep :
    ∃ w t u, (PollSystem.system 5 none ⟨"gc"⟩).exec (PollSystem.system 5 none ⟨"gc"⟩).init
        asleepOnce = some (w, u)
      ∧ w.loops[0]? = some t ∧ t.run = .idle
      ∧ ((∃ till, t.loop.phase = .sleeping till ∧ t.select.armed = true ∧ t.select.fired = false
            ∧ t.select.listening = true ∧ w.task.cancelToken = false)
          ∨ (t.loop.phase = .calling ∧ t.kept = true)) := by
  have hwatched := @loops_watched 5 none ⟨"gc"⟩ _ ⟨asleepOnce, _, rfl⟩ 0 _ rfl rfl rfl
  exact ⟨_, _, _, rfl, rfl, rfl, hwatched⟩

end

/-! ## What polls cost -/

/-- What an action costs loop `i`, where an action of a poll costs `cost`. -/
def charge (cost : PollStep → Nat) (i : Nat) : Action → Nat
  | .poll j a => if j = i then cost a else 0
  | _ => 0

theorem charge_zero (i : Nat) (a : Action) : charge (fun _ => 0) i a = 0 := by
  cases a with
  | poll j b => exact ite_self 0
  | _ => rfl

theorem charge_mul (k : Nat) (cost : PollStep → Nat) (i : Nat) (a : Action) :
    charge (fun b => k * cost b) i a = k * charge cost i a := by
  cases a with
  | poll j b =>
      unfold charge
      dsimp only
      split <;> rfl
  | _ => rfl

/-- A measure of loop `i`. -/
def ofLoop (f : LoopTask → Nat) (i : Nat) (w : World) : Nat := (w.loops[i]?.map f).getD 0

theorem ofLoop_put {f : LoopTask → Nat} {i j : Nat} {w : World} {t t' : LoopTask}
    (ht : w.loops[j]? = some t) :
    ofLoop f i (w.put j t') = if j = i then f t' else ofLoop f i w := by
  unfold ofLoop World.put
  dsimp only
  split
  · rename_i hij
    subst hij
    rw [List.getElem?_set_self (List.getElem?_eq_some_iff.mp ht).1]
    rfl
  · rename_i hij
    rw [List.getElem?_set_ne hij]

/-- What a measure has to do with the runtime. -/
structure Measures (f : LoopTask → Nat) : Prop where
  new : ∀ l, f (LoopTask.new l) = 0
  ended : ∀ (t : LoopTask) (phase : Phase), f (t.ended phase) = 0
  wake : ∀ t : LoopTask, f t.wake = f t
  fired : ∀ t : LoopTask, f { t with select := { t.select with fired := true } } = f t

theorem ofLoop_setTask {f : LoopTask → Nat} (hf : Measures f) (i : Nat) (w : World)
    (task : RepeatedTask) : ofLoop f i (w.setTask task) = ofLoop f i w := by
  unfold ofLoop World.setTask
  dsimp only
  split
  · have hsame : ∀ t, f t.cancelled = f t := by
      intro t
      unfold LoopTask.cancelled
      split
      · exact hf.wake t
      · rfl
    rw [List.getElem?_map, Option.map_map, show f ∘ LoopTask.cancelled = f from funext hsame]
  · rfl

/-- **What pays for every action of a poll pays for every step.** -/
theorem ofLoop_step {f : LoopTask → Nat} (hf : Measures f) (cost earn : PollStep → Nat) (i : Nat)
    {w w' : World} {a : Action} {t : List Event} (hm : WorldMoves w a w' t)
    (hpoll : ∀ u u' b es, u ∈ w.loops → u.step w.task.cancelToken w.now b = some (u', es) →
      cost b + f u' ≤ f u + earn b) :
    charge cost i a + ofLoop f i w' ≤ ofLoop f i w + charge earn i a := by
  -- a step that is no action of a poll costs and earns nothing
  have keep : ∀ {v : World}, ofLoop f i v ≤ ofLoop f i w → 0 + ofLoop f i v ≤ ofLoop f i w + 0 := by
    intro v h
    omega
  have put : ∀ {j : Nat} {u u' : LoopTask}, w.loops[j]? = some u → f u' ≤ f u →
      ofLoop f i (w.put j u') ≤ ofLoop f i w := by
    intro j u u' hu hle
    rw [ofLoop_put hu]
    split
    · rename_i hij
      subst hij
      have hold : ofLoop f j w = f u := by rw [ofLoop, hu]; rfl
      exact hold ▸ hle
    · exact Nat.le_refl _
  cases hm with
  | start hd =>
      refine keep ?_
      unfold ofLoop
      dsimp only
      rcases Nat.lt_or_ge i w.loops.length with hlt | hge
      · rw [List.getElem?_append_left hlt]
      · rw [List.getElem?_append_right hge]
        cases (w.task.start w.loops.length).2.2 with
        | none => exact Nat.zero_le _
        | some l =>
            cases i - w.loops.length with
            | zero => exact Nat.le_trans (Nat.le_of_eq (hf.new l)) (Nat.zero_le _)
            | succ n => exact Nat.zero_le _
  | stopDone hc hs => exact keep (Nat.le_of_eq (ofLoop_setTask hf i w _))
  | stopTakes hc hs => exact keep (Nat.le_of_eq (ofLoop_setTask hf i w _))
  | drop hd hn => exact keep (Nat.le_of_eq (ofLoop_setTask hf i w _))
  | @polled j b u u' es hu hs =>
      rw [ofLoop_put hu]
      unfold charge
      dsimp only
      split
      · rename_i hij
        subst hij
        have hold : ofLoop f j w = f u := by rw [ofLoop, hu]; rfl
        rw [hold]
        exact hpoll u u' b es (List.mem_of_getElem? hu) hs
      · exact keep (Nat.le_refl _)
  | panicked hu hl hp =>
      exact keep (put hu (Nat.le_trans (Nat.le_of_eq (hf.ended _ _)) (Nat.zero_le _)))
  | aborted hu hlive hp =>
      exact keep (put hu (Nat.le_trans (Nat.le_of_eq (hf.ended _ _)) (Nat.zero_le _)))
  | fired hu hl harmed hfired hnow =>
      exact keep (put hu (Nat.le_of_eq ((hf.wake _).trans (hf.fired _))))
  | woken hu => exact keep (put hu (Nat.le_of_eq (hf.wake _)))
  | _ => exact keep (Nat.le_refl _)

/-! ## How it ends -/

/-- How often loop `i` gives its thread back because both futures of `select!` are pending. -/
def givesBack (i : Nat) (as : List Action) : Nat :=
  (as.map (charge (fun a => if a = .giveBack then 1 else 0) i)).sum

/-- A poll that has looked at the token, in vain, may still give the thread back. -/
def mayGiveBack (t : LoopTask) : Nat := if t.run.polling && t.select.listened then 1 else 0

theorem mayGiveBack_measures : Measures mayGiveBack := by
  refine ⟨fun l => rfl, fun t phase => ?_, fun t => ?_, fun t => rfl⟩
  · simp [mayGiveBack, LoopTask.ended, Sched.Run.polling]
  · simp [mayGiveBack, LoopTask.wake]

theorem mayGiveBack_poll {now : Nat} {t t' : LoopTask} {a : PollStep} {es : List LoopEvent}
    (hs : t.step true now a = some (t', es)) :
    (if a = .giveBack then 1 else 0) + mayGiveBack t' ≤ mayGiveBack t + 0 := by
  cases poll_moves hs with
  | begin hlive hq => simp [mayGiveBack, Select.again]
  | headSleep hl hp hpos => simp [mayGiveBack, Select.new]
  | headCall hl hp hzero => simp [mayGiveBack, Select.new]
  | sleepReady hl hp hslept hfirst hnow => simp [mayGiveBack, LoopTask.toCall, Select.new]
  | sleepPending hl hp hslept hfired => simp [mayGiveBack]
  | sleepSpent hl hp hslept => simp [mayGiveBack, LoopTask.wake]
  | tokenSeen hl hp hlistened hc => simp [mayGiveBack_measures.ended]
  | tokenQuiet hl hp hlistened hc => exact absurd hc (by simp)
  | giveBack hl hp hslept hlistened => simp [mayGiveBack, hp, hlistened]
  | callPending hl hp => simp [mayGiveBack]
  | callDone ok hl hp => simp [mayGiveBack]

theorem mayGiveBack_step {i : Nat} {w w' : World} {a : Action} {t : List Event}
    (h : w.task.cancelToken = true) (hm : WorldMoves w a w' t) :
    charge (fun a => if a = .giveBack then 1 else 0) i a + ofLoop mayGiveBack i w'
      ≤ ofLoop mayGiveBack i w := by
  have hstep := ofLoop_step mayGiveBack_measures (fun a => if a = .giveBack then 1 else 0)
    (fun _ => 0) i hm (fun u u' b es _ hb => mayGiveBack_poll (h ▸ hb))
  rwa [charge_zero] at hstep

section
variable {interval : Nat} {initialDelay : Option Nat} {taskFn : TaskFunction}

theorem polled_token_step {w w' : World} {a : Action} {t : List Event}
    (hm : WorldMoves w a w' t) (h : w.task.cancelToken = true) : w'.task.cancelToken = true := by
  cases hm with
  | start hd => exact (token_start _ _).trans h
  | stopDone hc hs =>
      have hkeep := token_stopSection h
      rwa [hs] at hkeep
  | stopTakes hc hs =>
      have hkeep := token_stopSection h
      rwa [hs] at hkeep
  | drop hd hf => exact token_drop h
  | _ => exact h

/-- Only a poll at work that has looked at the token gives anything back. -/
theorem ofLoop_mayGiveBack {i : Nat} {w : World} (h : 0 < ofLoop mayGiveBack i w) :
    ofLoop mayGiveBack i w = 1
      ∧ ∃ u, w.loops[i]? = some u ∧ u.run.polling = true ∧ u.select.listened = true := by
  unfold ofLoop mayGiveBack at h ⊢
  cases hu : w.loops[i]? with
  | none => rw [hu] at h; exact absurd h (by simp)
  | some u =>
      rw [hu] at h
      simp only [Option.map_some, Option.getD_some] at h ⊢
      split at h
      · rename_i hboth
        rw [Bool.and_eq_true] at hboth
        refine ⟨?_, u, rfl, hboth⟩
        rw [if_pos (by rw [Bool.and_eq_true]; exact hboth)]
      · exact absurd h (Nat.lt_irrefl 0)

/--
**A cancelled loop goes back to sleep at most once.**

Once the token is cancelled, at most one more poll of the loop, the one that is at work and has
looked at the token by then, gives its thread back in `select!`; and whenever nobody polls the
loop or is about to, it waits for a call, which holds its waker.
-/
theorem cancelled_sleeps_once {w w' : World} {as : List Action} {t : List Event}
    (hreach : (PollSystem.system interval initialDelay taskFn).Reachable w)
    (hcancel : w.task.cancelToken = true)
    (hrun : (PollSystem.system interval initialDelay taskFn).exec w as = some (w', t)) (i : Nat) :
    (givesBack i as ≤ 1 ∧ (0 < givesBack i as →
        ∃ u, w.loops[i]? = some u ∧ u.run.polling = true ∧ u.select.listened = true))
      ∧ ∀ u, w'.loops[i]? = some u → u.loop.phase.joined = none → u.run = .idle →
        u.loop.phase = .calling ∧ u.kept = true := by
  constructor
  · have hpay : givesBack i as + ofLoop mayGiveBack i w' ≤ ofLoop mayGiveBack i w :=
      Lts.exec_cost (P := fun w : World => w.task.cancelToken = true)
        (fun _ _ _ _ hp hs => polled_token_step (world_moves hs) hp)
        (fun _ _ _ _ hp hs => mayGiveBack_step hp (world_moves hs)) hcancel hrun
    refine ⟨?_, fun hpos => (ofLoop_mayGiveBack (by omega)).2⟩
    rcases Nat.eq_zero_or_pos (ofLoop mayGiveBack i w) with hzero | hpos
    · omega
    · have hone := (ofLoop_mayGiveBack hpos).1
      omega
  · intro u hu hlive hidle
    have hcancel' : w'.task.cancelToken = true :=
      Lts.exec_inv (P := fun w : World => w.task.cancelToken = true)
        (fun _ _ _ _ hp hs => polled_token_step (world_moves hs) hp) hcancel hrun
    have h := allWatched_reachable (hreach.exec hrun) u (List.mem_of_getElem? hu)
    cases hl : u.loop.phase with
    | top => exact absurd hidle (h.top hl)
    | sleeping till =>
        -- asleep in `select!` with a cancelled token, it would have been woken
        have hquiet := (h.asleep till hl hidle).2.2
        rw [hcancel'] at hquiet
        exact absurd hquiet (by simp)
    | calling => exact ⟨rfl, h.calling hl hidle⟩
    | returned => rw [hl] at hlive; exact absurd hlive (by simp [Phase.joined])
    | panicked => rw [hl] at hlive; exact absurd hlive (by simp [Phase.joined])
    | aborted => rw [hl] at hlive; exact absurd hlive (by simp [Phase.joined])

/-- A loop that is cancelled after it has looked at its token. -/
def cancelledLate : List Action :=
  [.start, .poll 0 .begin, .poll 0 .head, .poll 0 .token, .stopCall, .stopLock 0]

/-- It gives its thread back, is polled again at once, and returns. -/
def sleepsOnce : List Action :=
  [.poll 0 (.sleep .pending), .poll 0 .giveBack, .poll 0 .begin, .poll 0 .token]

theorem cancelled_sleeps_once_late :
    ∃ w w' t u, (PollSystem.system 5 none ⟨"gc"⟩).exec (PollSystem.system 5 none ⟨"gc"⟩).init
        cancelledLate = some (w, t)
      ∧ (PollSystem.system 5 none ⟨"gc"⟩).exec w sleepsOnce = some (w', u)
      ∧ u = [.loop 0 .loopReturned] ∧ givesBack 0 sleepsOnce = 1
      ∧ (givesBack 0 sleepsOnce ≤ 1 ∧ (0 < givesBack 0 sleepsOnce →
        ∃ l, w.loops[0]? = some l ∧ l.run.polling = true ∧ l.select.listened = true))
      ∧ ∀ l, w'.loops[0]? = some l → l.loop.phase.joined = none → l.run = .idle →
        l.loop.phase = .calling ∧ l.kept = true := by
  have honce := @cancelled_sleeps_once 5 none ⟨"gc"⟩ _ _ sleepsOnce _ ⟨cancelledLate, _, rfl⟩
    rfl rfl 0
  exact ⟨_, _, _, _, rfl, rfl, rfl, rfl, honce⟩

end

/-! ## How long a poll lasts -/

/-- How often loop `i` is polled. -/
def polls (i : Nat) (as : List Action) : Nat :=
  (as.map (charge (fun a => if a = .begin then 1 else 0) i)).sum

/-- How many actions the polls of loop `i` come to. -/
def pollSteps (i : Nat) (as : List Action) : Nat := (as.map (charge (fun _ => 1) i)).sum

/-- How many actions a poll has left in `select!`, and after it if the sleep is ready. -/
def selectSteps (s : Select) : Nat :=
  if s.slept then
    if s.listened then 1 else 2
  else if s.first then
    if s.listened then 2 else 3
  else if s.listened then 6 else 7

/-- How many actions a poll has left, where the loop sleeps between two calls. -/
def stepsInPoll (t : LoopTask) : Nat :=
  if t.run.polling then
    match t.loop.phase with
    | .top => if 0 < sleepTime t.loop then 4 else 6
    | .sleeping _ => selectSteps t.select
    | .calling => 5
    | _ => 0
  else 0

theorem selectSteps_le (s : Select) : selectSteps s ≤ 7 := by
  unfold selectSteps
  repeat' split
  all_goals omega

theorem stepsInPoll_le (t : LoopTask) : stepsInPoll t ≤ 7 := by
  have hselect := selectSteps_le t.select
  unfold stepsInPoll
  split
  · split
    · split <;> omega
    · exact hselect
    · omega
    · omega
  · omega

theorem stepsInPoll_select {t : LoopTask} {till : Nat} (hl : t.loop.phase = .sleeping till)
    (hp : t.run.polling = true) (s : Select) :
    stepsInPoll { t with select := s } = selectSteps s := by
  unfold stepsInPoll
  rw [hp, if_pos rfl, hl]

theorem stepsInPoll_sleeping {t : LoopTask} {till : Nat} (hl : t.loop.phase = .sleeping till)
    (hp : t.run.polling = true) : stepsInPoll t = selectSteps t.select :=
  stepsInPoll_select hl hp t.select

theorem stepsInPoll_calling {t : LoopTask} (hl : t.loop.phase = .calling)
    (hp : t.run.polling = true) : stepsInPoll t = 5 := by
  unfold stepsInPoll
  rw [hp, if_pos rfl, hl]

theorem stepsInPoll_over {t : LoopTask} (hp : t.run.polling = false) : stepsInPoll t = 0 := by
  unfold stepsInPoll
  rw [hp, if_neg (by simp)]

theorem stepsInPoll_measures : Measures stepsInPoll := by
  refine ⟨fun l => rfl, fun t phase => stepsInPoll_over rfl, fun t => ?_, fun t => rfl⟩
  unfold stepsInPoll LoopTask.wake
  dsimp only
  rw [Sched.Run.polling_wake]

/-- Whoever finds a future of `select!` pending has one less to look at. -/
theorem selectSteps_slept {s : Select} (h : s.slept = false) :
    1 + selectSteps { s with slept := true, armed := true } ≤ selectSteps s
      ∧ 1 + selectSteps { s with slept := true } ≤ selectSteps s := by
  unfold selectSteps
  dsimp only
  rw [h]
  cases s.first <;> cases s.listened <;> simp

theorem selectSteps_listened {s : Select} (h : s.listened = false) :
    1 + selectSteps { s with listened := true, listening := true } ≤ selectSteps s := by
  unfold selectSteps
  dsimp only
  rw [h]
  cases s.first <;> cases s.slept <;> simp

/-- **An action of a poll leaves one less**, and a poll that begins has seven to come. -/
theorem stepsInPoll_poll {interval now : Nat} {c : Bool} {t t' : LoopTask} {a : PollStep}
    {es : List LoopEvent} (hpos : 0 < interval) (hok : LoopOk interval t.loop)
    (hs : t.step c now a = some (t', es)) :
    1 + stepsInPoll t' ≤ stepsInPoll t + 8 * (if a = .begin then 1 else 0) := by
  cases poll_moves hs with
  | begin hlive hq =>
      rw [if_pos rfl]
      have hle := stepsInPoll_le { t with run := .running, select := t.select.again }
      omega
  | headSleep hl hp hsl =>
      simp [stepsInPoll, hl, hp, hsl, selectSteps, Select.new]
  | headCall hl hp hzero =>
      simp [stepsInPoll, hl, hp, hzero]
  | sleepReady hl hp hslept hfirst hnow =>
      have hcall : stepsInPoll t.toCall = 5 := stepsInPoll_calling rfl hp
      rw [hcall, stepsInPoll_sleeping hl hp, selectSteps, hslept, hfirst]
      cases t.select.listened <;> simp
  | sleepPending hl hp hslept hfired =>
      rw [stepsInPoll_select hl hp, stepsInPoll_sleeping hl hp]
      exact (selectSteps_slept hslept).1
  | @sleepSpent till hl hp hslept =>
      rw [stepsInPoll_measures.wake, stepsInPoll_select hl hp, stepsInPoll_sleeping hl hp]
      exact (selectSteps_slept hslept).2
  | tokenSeen hl hp hlistened hc =>
      rw [stepsInPoll_measures.ended, stepsInPoll_sleeping hl hp, selectSteps, hlistened]
      cases t.select.slept <;> cases t.select.first <;> simp
  | tokenQuiet hl hp hlistened hc =>
      rw [stepsInPoll_select hl hp, stepsInPoll_sleeping hl hp]
      exact selectSteps_listened hlistened
  | giveBack hl hp hslept hlistened =>
      rw [stepsInPoll_over (Sched.Run.polling_park _), stepsInPoll_sleeping hl hp, selectSteps,
        hslept, hlistened]
      simp
  | callPending hl hp =>
      rw [stepsInPoll_over (Sched.Run.polling_park _), stepsInPoll_calling hl hp]
      simp
  | callDone ok hl hp =>
      -- the initial delay is over, so the interval is next
      have hnone : t.loop.initialDelay = none := by
        rcases hok.delay with h | h | h
        · exact h
        · rw [hl] at h; exact absurd h (by simp)
        · rw [hl] at h; exact absurd h (by simp)
      have hsleep : 0 < sleepTime { t.loop with phase := .top } := by
        unfold sleepTime
        dsimp only
        rw [hnone, Option.getD_none, hok.interval]
        exact hpos
      rw [stepsInPoll_calling hl hp]
      simp [stepsInPoll, hp, hsleep]

section
variable {interval : Nat} {initialDelay : Option Nat} {taskFn : TaskFunction}

/-- What every loop of `TaskSystem` keeps, every polled loop keeps. -/
theorem polled_loopOk {w : World}
    (h : (PollSystem.system interval initialDelay taskFn).Reachable w) :
    ∀ t ∈ w.loops, LoopOk interval t.loop := by
  obtain ⟨as, u, hrun⟩ := h
  obtain ⟨bs, v, u, hrun', _, ls, rfl, hloops⟩ :=
    (polled_refines interval initialDelay taskFn).run hrun
  intro t ht
  obtain ⟨i, hi⟩ := List.mem_iff_getElem?.mp ht
  obtain ⟨l, hl, hr⟩ := Lists.forall₂_partner hloops hi
  have hok := (loopsOk_reachable ⟨bs, u, hrun'⟩).loops l (List.mem_of_getElem? hl)
  rcases hr with rfl | hd
  · exact hok
  · rw [hd.loop]
    exact ⟨hok.interval, .inl rfl⟩

/-- With a positive interval, eight actions are enough for every poll. -/
theorem polls_end (hpos : 0 < interval) {as : List Action} {w : World} {t : List Event}
    (hrun : (PollSystem.system interval initialDelay taskFn).exec
      (PollSystem.system interval initialDelay taskFn).init as = some (w, t)) (i : Nat) :
    pollSteps i as ≤ 8 * polls i as := by
  have hpay := Lts.exec_credit
    (P := (PollSystem.system interval initialDelay taskFn).Reachable)
    (charge (fun _ => 1) i) (charge (fun a => 8 * if a = .begin then 1 else 0) i)
    (ofLoop stepsInPoll i) (fun _ _ _ _ hp hs => hp.step hs)
    (fun _ _ _ _ hp hs => ofLoop_step stepsInPoll_measures _ _ i (world_moves hs)
      (fun u u' b es hu hb => stepsInPoll_poll hpos (polled_loopOk hp u hu) hb))
    Lts.reachable_init hrun
  have hearn : as.map (charge (fun a => 8 * if a = .begin then 1 else 0) i)
      = as.map (fun a => 8 * charge (fun a => if a = .begin then 1 else 0) i a) :=
    List.map_congr_left (fun a _ => charge_mul _ _ i a)
  rw [hearn, List.sum_map_mul_left] at hpay
  have hnone : ofLoop stepsInPoll i (PollSystem.system interval initialDelay taskFn).init = 0 := rfl
  unfold pollSteps polls
  omega

end

/-- A task without an interval whose loop is in the middle of a call. -/
def callingWorld (initialDelay : Option Nat) (taskFn : TaskFunction) (now : Nat) : World :=
  { task := (((RepeatedTask.new 0 taskFn).withInitialDelay initialDelay).start 0).1
    dropped := false
    loops := [{ loop := { taskFn := taskFn, interval := 0, initialDelay := none, phase := .calling }
                select := .new
                kept := false
                run := .running }]
    stops := []
    now := now }

/-- A task without an interval that has slept for its initial delay. -/
def delayedWorld (d : Nat) (taskFn : TaskFunction) : World :=
  { task := (((RepeatedTask.new 0 taskFn).withInitialDelay (some d)).start 0).1
    dropped := false
    loops := [{ loop := { taskFn := taskFn, interval := 0
                          initialDelay := none, phase := .sleeping d }
                select := { first := true, slept := true, listened := true
                            armed := true, fired := false, listening := true }
                kept := false
                run := .idle }]
    stops := []
    now := d }

/-- The first call begins, after two polls at most. -/
theorem calling_reached (initialDelay : Option Nat) (taskFn : TaskFunction) :
    ∃ as now t, (PollSystem.system 0 initialDelay taskFn).exec
        (PollSystem.system 0 initialDelay taskFn).init as
          = some (callingWorld initialDelay taskFn now, t)
      ∧ polls 0 as ≤ 2 := by
  match initialDelay with
  | none => exact ⟨[.start, .poll 0 .begin, .poll 0 .head], 0, _, rfl, by decide⟩
  | some 0 => exact ⟨[.start, .poll 0 .begin, .poll 0 .head], 0, _, rfl, by decide⟩
  | some (d + 1) =>
      have hslept : (PollSystem.system 0 (some (d + 1)) taskFn).exec
          (PollSystem.system 0 (some (d + 1)) taskFn).init
          [.start, .poll 0 .begin, .poll 0 .head, .poll 0 (.sleep .pending), .poll 0 .token,
            .poll 0 .giveBack, .tick (d + 1)]
          = some (delayedWorld (d + 1) taskFn, [.startRet (.ok ())]) := by
        simp [Lts.exec, PollSystem.system, PollSystem.step, PollSystem.World.new, delayedWorld,
          RepeatedTask.start, RepeatedTask.new, RepeatedTask.withInitialDelay, Sync.Mutex.new,
          LoopTask.step, LoopTask.new, LoopTask.head, Select.new, Select.again, World.put,
          Sched.Run.park, Sched.Run.polling, Phase.joined]
      have hcall : (PollSystem.system 0 (some (d + 1)) taskFn).exec (delayedWorld (d + 1) taskFn)
          [.fire 0, .poll 0 .begin, .poll 0 (.sleep .ready)]
          = some (callingWorld (some (d + 1)) taskFn (d + 1), [.loop 0 .callBegin]) := by
        simp [Lts.exec, PollSystem.system, PollSystem.step, delayedWorld, callingWorld,
          LoopTask.step, World.put, LoopTask.wake, Sched.Run.wake, Sched.Run.polling, Phase.joined,
          Select.again, LoopTask.toCall, Select.new]
      refine ⟨_, d + 1, _, Lts.exec_append.mpr ⟨_, _, _, hslept, hcall, rfl⟩, ?_⟩
      exact Nat.le_refl 2

/-- A call that ends when it is first polled, and the head of the loop. -/
def callAtOnce : List Action := [.poll 0 (.call (.done true)), .poll 0 .head]

/-- The call ends at once, the next one begins, and so on. -/
theorem calling_again (initialDelay : Option Nat) (taskFn : TaskFunction) (now n : Nat) :
    ∃ t, (PollSystem.system 0 initialDelay taskFn).exec (callingWorld initialDelay taskFn now)
        (List.replicate n callAtOnce).flatten = some (callingWorld initialDelay taskFn now, t) := by
  induction n with
  | zero => exact ⟨[], rfl⟩
  | succ n ih =>
      obtain ⟨t, ht⟩ := ih
      rw [List.replicate_succ, List.flatten_cons]
      exact ⟨_, Lts.exec_append.mpr ⟨_, _, t, rfl, ht, rfl⟩⟩

theorem charge_callAtOnce (cost : PollStep → Nat) (n : Nat) :
    ((List.replicate n callAtOnce).flatten.map (charge cost 0)).sum
      = n * (cost (.call (.done true)) + cost .head) := by
  induction n with
  | zero => exact (Nat.zero_mul _).symm
  | succ n ih =>
      rw [List.replicate_succ, List.flatten_cons, List.map_append, List.sum_append, ih,
        Nat.succ_mul, Nat.add_comm]
      rfl

/-- Without an interval, no bound does. -/
theorem polls_unbounded (initialDelay : Option Nat) (taskFn : TaskFunction) (k : Nat) :
    ¬ ∀ as w t i, (PollSystem.system 0 initialDelay taskFn).exec
        (PollSystem.system 0 initialDelay taskFn).init as = some (w, t) →
        pollSteps i as ≤ k * polls i as := by
  intro hk
  obtain ⟨as, now, t, hrun, htwo⟩ := calling_reached initialDelay taskFn
  obtain ⟨u, hagain⟩ := calling_again initialDelay taskFn now (k + 1)
  have hle := hk _ _ _ 0 (Lts.exec_append.mpr ⟨_, t, u, hrun, hagain, rfl⟩)
  unfold pollSteps polls at hle
  rw [List.map_append, List.map_append, List.sum_append, List.sum_append, charge_callAtOnce,
    charge_callAtOnce] at hle
  -- two polls at most, and two actions for each of the calls
  have hpolls : k * (as.map (charge (fun a => if a = .begin then 1 else 0) 0)).sum ≤ k * 2 :=
    Nat.mul_le_mul_left k htwo
  have hnone : (k + 1) * ((if PollStep.call (.done true) = .begin then 1 else 0)
      + (if PollStep.head = .begin then 1 else 0)) = 0 := rfl
  simp only [hnone, Nat.add_zero] at hle
  omega

/--
**A poll of the loop comes to an end, if the interval is positive.**

In that case the actions of its polls number at most eight for each of its polls, whatever the
initial delay is and however the calls answer. With an interval of zero no bound does: a poll
lasts as long as the calls end when they are first polled, and holds its thread all the time.
-/
theorem polls_end_iff (interval : Nat) (initialDelay : Option Nat) (taskFn : TaskFunction) :
    ((∀ as w t i, (PollSystem.system interval initialDelay taskFn).exec
          (PollSystem.system interval initialDelay taskFn).init as = some (w, t) →
          pollSteps i as ≤ 8 * polls i as)
        ↔ 0 < interval)
      ∧ ((∃ k, ∀ as w t i, (PollSystem.system interval initialDelay taskFn).exec
          (PollSystem.system interval initialDelay taskFn).init as = some (w, t) →
          pollSteps i as ≤ k * polls i as)
        ↔ 0 < interval) := by
  have hbound : 0 < interval → ∀ as w t i, (PollSystem.system interval initialDelay taskFn).exec
      (PollSystem.system interval initialDelay taskFn).init as = some (w, t) →
      pollSteps i as ≤ 8 * polls i as :=
    fun hpos as w t i hrun => polls_end hpos hrun i
  have hnone : ∀ k, (∀ as w t i, (PollSystem.system interval initialDelay taskFn).exec
      (PollSystem.system interval initialDelay taskFn).init as = some (w, t) →
      pollSteps i as ≤ k * polls i as) → 0 < interval := by
    intro k hk
    by_contra hzero
    have hz : interval = 0 := by omega
    subst hz
    exact polls_unbounded initialDelay taskFn k hk
  exact ⟨⟨hnone 8, hbound⟩, fun ⟨k, hk⟩ => hnone k hk, fun hpos => ⟨8, hbound hpos⟩⟩

end RsRun.Proof
