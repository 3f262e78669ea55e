import Mathlib.Data.List.Forall2
import RsRun.Lib.Lists
import RsRun.PollSystem
import RsRun.Proof.Loop

/-!
# The polled loop runs from await to await

Whatever the runtime does between the actions of a poll: a task whose loop is polled shows
nothing that the task of `TaskSystem` does not, whose loop takes each stretch between two
awaits at once. A loop that has looked at its token sleeps, in both. One that has not, and
that was cancelled before it came to its `select!`, is bound to return, and until then is
still at the head of its loop.
-/

namespace RsRun.Proof

open PollSystem
open TaskSystem (StopCall Event)

/-! ## One action of a poll -/

/-- What a poll does with the task, one constructor for each way. -/
inductive PollMoves (cancelled : Bool) (now : Nat) (t : LoopTask) :
    PollStep → LoopTask → List LoopEvent → Prop where
  | begin (hlive : t.loop.phase.joined = none) (hq : t.run = .queued) :
      PollMoves cancelled now t .begin { t with run := .running, select := t.select.again } []
  | headSleep (hl : t.loop.phase = .top) (hp : t.run.polling = true) (hs : 0 < sleepTime t.loop) :
      PollMoves cancelled now t .head
        { t with
          loop := { t.loop with
            initialDelay := none, phase := .sleeping (now + sleepTime t.loop) }
          select := .new } []
  | headCall (hl : t.loop.phase = .top) (hp : t.run.polling = true) (hs : sleepTime t.loop = 0) :
      PollMoves cancelled now t .head
        { t with
          loop := { t.loop with initialDelay := none, phase := .calling }
          select := .new
          kept := false } [.callBegin]
  | sleepReady {till : Nat} (hl : t.loop.phase = .sleeping till) (hp : t.run.polling = true)
      (hslept : t.select.slept = false) (hfirst : t.select.first = false) (hnow : till ≤ now) :
      PollMoves cancelled now t (.sleep .ready) t.toCall [.callBegin]
  | sleepPending {till : Nat} (hl : t.loop.phase = .sleeping till) (hp : t.run.polling = true)
      (hslept : t.select.slept = false) (hfired : t.select.fired = false) :
      PollMoves cancelled now t (.sleep .pending)
        { t with select := { t.select with slept := true, armed := true } } []
  | sleepSpent {till : Nat} (hl : t.loop.phase = .sleeping till) (hp : t.run.polling = true)
      (hslept : t.select.slept = false) :
      PollMoves cancelled now t (.sleep .spent)
        { t with select := { t.select with slept := true } }.wake []
  | tokenSeen {till : Nat} (hl : t.loop.phase = .sleeping till) (hp : t.run.polling = true)
      (hlistened : t.select.listened = false) (hc : cancelled = true) :
      PollMoves cancelled now t .token (t.ended .returned) [.loopReturned]
  | tokenQuiet {till : Nat} (hl : t.loop.phase = .sleeping till) (hp : t.run.polling = true)
      (hlistened : t.select.listened = false) (hc : cancelled = false) :
      PollMoves cancelled now t .token
        { t with select := { t.select with listened := true, listening := true } } []
  | giveBack {till : Nat} (hl : t.loop.phase = .sleeping till) (hp : t.run.polling = true)
      (hslept : t.select.slept = true) (hlistened : t.select.listened = true) :
      PollMoves cancelled now t .giveBack { t with run := t.run.park } []
  | callPending (hl : t.loop.phase = .calling) (hp : t.run.polling = true) :
      PollMoves cancelled now t (.call .pending) { t with kept := true, run := t.run.park } []
  | callDone (ok : Bool) (hl : t.loop.phase = .calling) (hp : t.run.polling = true) :
      PollMoves cancelled now t (.call (.done ok)) { t with loop := { t.loop with phase := .top } }
        [.callEnd ok]

/-- **The inversion lemma** of a poll. -/
theorem poll_moves {cancelled : Bool} {now : Nat} {t t' : LoopTask} {a : PollStep}
    {es : List LoopEvent} (h : t.step cancelled now a = some (t', es)) :
    PollMoves cancelled now t a t' es := by
  cases a with
  | begin =>
      rw [LoopTask.step] at h
      split at h
      · rename_i hlive hq
        injection h with h; injection h with h1 h2
        subst h1; subst h2
        exact .begin hlive hq
      · exact absurd h (by simp)
  | head =>
      rw [LoopTask.step] at h
      split at h
      · rename_i hl
        split at h
        · rename_i hp
          unfold LoopTask.head at h
          dsimp only at h
          split at h
          · rename_i hs
            injection h with h; injection h with h1 h2
            subst h1; subst h2
            exact .headSleep hl hp hs
          · rename_i hs
            injection h with h; injection h with h1 h2
            subst h1; subst h2
            exact .headCall hl hp (Nat.eq_zero_of_not_pos hs)
        · exact absurd h (by simp)
      · exact absurd h (by simp)
  | sleep answer =>
      rw [LoopTask.step] at h
      split at h
      · rename_i till hl
        split at h
        · rename_i hp
          obtain ⟨hp, hslept⟩ : t.run.polling = true ∧ t.select.slept = false := by simpa using hp
          cases answer with
          | ready =>
              dsimp only at h
              split at h
              · rename_i hr
                obtain ⟨hfirst, hnow⟩ : t.select.first = false ∧ till ≤ now := by simpa using hr
                injection h with h; injection h with h1 h2
                subst h1; subst h2
                exact .sleepReady hl hp hslept hfirst hnow
              · exact absurd h (by simp)
          | pending =>
              dsimp only at h
              split at h
              · exact absurd h (by simp)
              · rename_i hfired
                injection h with h; injection h with h1 h2
                subst h1; subst h2
                exact .sleepPending hl hp hslept (Bool.eq_false_iff.mpr hfired)
          | spent =>
              injection h with h; injection h with h1 h2
              subst h1; subst h2
              exact .sleepSpent hl hp hslept
        · exact absurd h (by simp)
      · exact absurd h (by simp)
  | token =>
      rw [LoopTask.step] at h
      split at h
      · rename_i till hl
        split at h
        · rename_i hp
          obtain ⟨hp, hlistened⟩ : t.run.polling = true ∧ t.select.listened = false := by
            simpa using hp
          split at h
          · rename_i hc
            injection h with h; injection h with h1 h2
            subst h1; subst h2
            exact .tokenSeen hl hp hlistened hc
          · rename_i hc
            injection h with h; injection h with h1 h2
            subst h1; subst h2
            exact .tokenQuiet hl hp hlistened (Bool.eq_false_iff.mpr hc)
        · exact absurd h (by simp)
      · exact absurd h (by simp)
  | giveBack =>
      rw [LoopTask.step] at h
      split at h
      · rename_i till hl
        split at h
        · rename_i hp
          obtain ⟨⟨hp, hslept⟩, hlistened⟩ : (t.run.polling = true ∧ t.select.slept = true)
              ∧ t.select.listened = true := by simpa using hp
          injection h with h; injection h with h1 h2
          subst h1; subst h2
          exact .giveBack hl hp hslept hlistened
        · exact absurd h (by simp)
      · exact absurd h (by simp)
  | call answer =>
      cases answer with
      | pending =>
          rw [LoopTask.step] at h
          split at h
          · rename_i hl
            split at h
            · rename_i hp
              injection h with h; injection h with h1 h2
              subst h1; subst h2
              exact .callPending hl hp
            · exact absurd h (by simp)
          · exact absurd h (by simp)
      | done ok =>
          rw [LoopTask.step] at h
          split at h
          · rename_i hl
            split at h
            · rename_i hp
              injection h with h; injection h with h1 h2
              subst h1; subst h2
              exact .callDone ok hl hp
            · exact absurd h (by simp)
          · exact absurd h (by simp)

/-- What the inversion lemma of the loop tells apart is what it can do. -/
theorem loop_step_of {cancelled : Bool} {now : Nat} {l l' : Loop} {a : LoopStep}
    {es : List LoopEvent} (h : LoopMoves cancelled now l a l' es) :
    l.step cancelled now a = some (l', es) := by
  cases h with
  | giveUp hl hsleep hc =>
      unfold sleepTime at hsleep
      simp [Loop.step, hl, hsleep, hc]
  | sleep hl hsleep hc =>
      unfold sleepTime at hsleep
      simp [Loop.step, hl, hsleep, hc, sleepTime]
  | callAtOnce hl hsleep =>
      unfold sleepTime at hsleep
      simp [Loop.step, hl, hsleep]
  | sleepDone till hl hnow => simp [Loop.step, hl, hnow]
  | cancelSeen till hl hc => simp [Loop.step, hl, hc]
  | callDone ok hl => simp [Loop.step, hl]

/-! ## Between two awaits -/

/-- A loop that was cancelled before its `select!`, and has not looked at the token yet. -/
structure Doomed (cancelled : Bool) (t : LoopTask) (l : Loop) : Prop where
  token : cancelled = true
  polling : t.run.polling = true
  first : t.select.first = true
  deaf : t.select.listened = false
  sleeping : ∃ till, t.loop.phase = .sleeping till
  top : l.phase = .top
  sleeps : 0 < sleepTime l
  loop : t.loop = { l with initialDelay := none, phase := t.loop.phase }

/-- What a polled loop is between two awaits. -/
def Rests (cancelled : Bool) (t : LoopTask) (l : Loop) : Prop := l = t.loop ∨ Doomed cancelled t l

theorem Rests.mono {c c' : Bool} {t : LoopTask} {l : Loop} (h : Rests c t l)
    (hc : c = true → c' = true) : Rests c' t l := by
  rcases h with h | h
  · exact .inl h
  · exact .inr { h with token := hc h.token }

/-- What does not touch the loop, and takes no future of a `select!` further. -/
theorem Rests.touch {c : Bool} {t t' : LoopTask} {l : Loop} (h : Rests c t l)
    (hloop : t'.loop = t.loop) (hp : t'.run.polling = t.run.polling)
    (hfirst : t'.select.first = t.select.first) (hdeaf : t'.select.listened = t.select.listened) :
    Rests c t' l := by
  rcases h with h | h
  · exact .inl (h.trans hloop.symm)
  · refine .inr ⟨h.token, hp.trans h.polling, hfirst.trans h.first, hdeaf.trans h.deaf, ?_, h.top,
      h.sleeps, ?_⟩
    · rw [hloop]; exact h.sleeping
    · rw [hloop]; exact h.loop

/-- A loop that is nowhere near a `select!` it has not looked around in. -/
theorem Rests.same {c : Bool} {t : LoopTask} {l : Loop} (h : Rests c t l)
    (hno : ¬ Doomed c t l) : l = t.loop := h.resolve_right hno

theorem Rests.wake {c : Bool} {t : LoopTask} {l : Loop} (h : Rests c t l) : Rests c t.wake l :=
  h.touch rfl (Sched.Run.polling_wake _) rfl rfl

theorem Rests.cancelled {c : Bool} {t : LoopTask} {l : Loop} (h : Rests c t l) :
    Rests c t.cancelled l := by
  unfold LoopTask.cancelled
  split
  · exact h.wake
  · exact h

theorem Rests.joined {c : Bool} {t : LoopTask} {l : Loop} (h : Rests c t l) :
    l.phase.joined = t.loop.phase.joined := by
  rcases h with rfl | h
  · rfl
  · obtain ⟨till, hl⟩ := h.sleeping
    rw [h.top, hl]
    rfl

/-- **An action of a poll is a stretch between two awaits, or it shows nothing.** -/
theorem rests_step {c : Bool} {now : Nat} {t t' : LoopTask} {l : Loop} {a : PollStep}
    {es : List LoopEvent} (h : Rests c t l) (hs : t.step c now a = some (t', es)) :
    (es = [] ∧ Rests c t' l)
      ∨ ∃ b l', l.step c now b = some (l', es) ∧ Rests c t' l' := by
  have hno : ∀ phase, t.loop.phase = phase → (∀ till, phase ≠ .sleeping till) →
      l = t.loop := by
    intro phase hl hne
    refine h.same fun hd => ?_
    obtain ⟨till, hl'⟩ := hd.sleeping
    exact hne till (hl.symm.trans hl')
  cases poll_moves hs with
  | begin hlive hq =>
      have hl := h.same fun hd => by
        have hp := hd.polling
        rw [hq] at hp
        exact absurd hp (by simp [Sched.Run.polling])
      exact .inl ⟨rfl, .inl hl⟩
  | headSleep hl hp hpos =>
      have hsame := hno _ hl (by simp)
      subst hsame
      cases c with
      | true => exact .inl ⟨rfl, .inr ⟨rfl, hp, rfl, rfl, ⟨_, rfl⟩, hl, hpos, rfl⟩⟩
      | false => exact .inr ⟨_, _, loop_step_of (.sleep hl hpos rfl), .inl rfl⟩
  | headCall hl hp hzero =>
      have hsame := hno _ hl (by simp)
      subst hsame
      exact .inr ⟨_, _, loop_step_of (.callAtOnce hl hzero), .inl rfl⟩
  | sleepReady hl hp hslept hfirst hnow =>
      have hsame := h.same fun hd => by
        have hf := hd.first
        rw [hfirst] at hf
        exact absurd hf (by simp)
      subst hsame
      exact .inr ⟨_, _, loop_step_of (.sleepDone _ hl hnow), .inl rfl⟩
  | sleepPending hl hp hslept hfired => exact .inl ⟨rfl, h.touch rfl rfl rfl rfl⟩
  | sleepSpent hl hp hslept =>
      exact .inl ⟨rfl, h.touch rfl (Sched.Run.polling_wake _) rfl rfl⟩
  | tokenSeen hl hp hlistened hc =>
      rcases h with rfl | h
      · exact .inr ⟨_, _, loop_step_of (.cancelSeen _ hl hc), .inl rfl⟩
      · -- it was cancelled before it came here, and sees it now
        refine .inr ⟨_, _, loop_step_of (.giveUp h.top h.sleeps hc), .inl ?_⟩
        unfold LoopTask.ended
        dsimp only
        rw [h.loop]
  | tokenQuiet hl hp hlistened hc =>
      have hsame := h.same fun hd => by
        rw [hd.token] at hc
        exact absurd hc (by simp)
      exact .inl ⟨rfl, .inl hsame⟩
  | giveBack hl hp hslept hlistened =>
      have hsame := h.same fun hd => by
        have hd := hd.deaf
        rw [hlistened] at hd
        exact absurd hd (by simp)
      exact .inl ⟨rfl, .inl hsame⟩
  | callPending hl hp => exact .inl ⟨rfl, .inl (hno _ hl (by simp))⟩
  | callDone ok hl hp =>
      have hsame := hno _ hl (by simp)
      subst hsame
      exact .inr ⟨_, _, loop_step_of (.callDone ok hl), .inl rfl⟩

/-! ## One step of the whole -/

/-- What an action does, one constructor for each way. -/
inductive WorldMoves (w : World) : Action → World → List Event → Prop where
  | start (hd : w.dropped = false) :
      WorldMoves w .start
        { w with
          task := (w.task.start w.loops.length).1
          loops := w.loops
            ++ ((w.task.start w.loops.length).2.2.map LoopTask.new).toList }
        [.startRet (w.task.start w.loops.length).2.1]
  | started (hd : w.dropped = false) : WorldMoves w .started w [.startedIs w.task.started]
  | stopCall (hd : w.dropped = false) :
      WorldMoves w .stopCall { w with stops := w.stops ++ [.called] } [.stopCalled w.stops.length]
  | stopDone {c : Nat} {task : RepeatedTask} {r : Ret Unit} (hc : w.stops[c]? = some .called)
      (hs : w.task.stopSection = (task, .done r)) :
      WorldMoves w (.stopLock c) { w.setTask task with stops := w.stops.set c (.returned r) }
        [.stopRet c r]
  | stopTakes {c : Nat} {task : RepeatedTask} {handle : JoinHandle}
      (hc : w.stops[c]? = some .called) (hs : w.task.stopSection = (task, .await handle)) :
      WorldMoves w (.stopLock c) { w.setTask task with stops := w.stops.set c (.waiting handle) }
        []
  | stopJoin {c : Nat} {handle : JoinHandle} {t : LoopTask} {res : Except JoinError Unit}
      (hc : w.stops[c]? = some (.waiting handle)) (ht : w.loops[handle]? = some t)
      (hres : t.loop.phase.joined = some res) :
      WorldMoves w (.stopJoin c)
        { w with stops := w.stops.set c (.joined (w.task.stopJoined res)) }
        [.stopRet c (w.task.stopJoined res)]
  | stopDropCalled {c : Nat} (hc : w.stops[c]? = some .called) :
      WorldMoves w (.stopDrop c) { w with stops := w.stops.set c (.dropped none) } []
  | stopDropWaiting {c : Nat} {handle : JoinHandle} (hc : w.stops[c]? = some (.waiting handle)) :
      WorldMoves w (.stopDrop c) { w with stops := w.stops.set c (.dropped (some handle)) } []
  | drop (hd : w.dropped = false) (hf : w.stops.any StopCall.inFlight = false) :
      WorldMoves w .drop { w.setTask w.task.drop with dropped := true } []
  | polled {i : Nat} {a : PollStep} {t t' : LoopTask} {es : List LoopEvent}
      (ht : w.loops[i]? = some t) (hs : t.step w.task.cancelToken w.now a = some (t', es)) :
      WorldMoves w (.poll i a) (w.put i t') (es.map (.loop i))
  | panicked {i : Nat} {t : LoopTask} (ht : w.loops[i]? = some t) (hl : t.loop.phase = .calling)
      (hp : t.run.polling = true) :
      WorldMoves w (.panic i) (w.put i (t.ended .panicked)) [.loopDied i]
  | aborted {i : Nat} {t : LoopTask} (ht : w.loops[i]? = some t)
      (hlive : t.loop.phase.joined = none) (hp : t.run.polling = false) :
      WorldMoves w (.abort i) (w.put i (t.ended .aborted)) [.loopDied i]
  | fired {i till : Nat} {t : LoopTask} (ht : w.loops[i]? = some t)
      (hl : t.loop.phase = .sleeping till) (harmed : t.select.armed = true)
      (hfired : t.select.fired = false) (hnow : till ≤ w.now) :
      WorldMoves w (.fire i)
        (w.put i { t with select := { t.select with fired := true } }.wake) []
  | woken {i : Nat} {t : LoopTask} (ht : w.loops[i]? = some t) :
      WorldMoves w (.wake i) (w.put i t.wake) []
  | tick (n : Nat) : WorldMoves w (.tick n) { w with now := w.now + n } []

/-- **The inversion lemma** of the whole. -/
theorem world_moves {w w' : World} {a : Action} {t : List Event}
    (h : PollSystem.step w a = some (w', t)) : WorldMoves w a w' t := by
  cases a with
  | start =>
      rw [PollSystem.step] at h
      split at h
      · exact absurd h (by simp)
      · rename_i hd
        injection h with h; injection h with h1 h2
        subst h1; subst h2
        exact .start (Bool.eq_false_iff.mpr hd)
  | started =>
      rw [PollSystem.step] at h
      split at h
      · exact absurd h (by simp)
      · rename_i hd
        injection h with h; injection h with h1 h2
        subst h1; subst h2
        exact .started (Bool.eq_false_iff.mpr hd)
  | stopCall =>
      rw [PollSystem.step] at h
      split at h
      · exact absurd h (by simp)
      · rename_i hd
        injection h with h; injection h with h1 h2
        subst h1; subst h2
        exact .stopCall (Bool.eq_false_iff.mpr hd)
  | stopLock c =>
      rw [PollSystem.step] at h
      split at h
      · rename_i hc
        split at h
        · rename_i task r hs
          injection h with h; injection h with h1 h2
          subst h1; subst h2
          exact .stopDone hc hs
        · rename_i task handle hs
          injection h with h; injection h with h1 h2
          subst h1; subst h2
          exact .stopTakes hc hs
      · exact absurd h (by simp)
  | stopJoin c =>
      rw [PollSystem.step] at h
      split at h
      · rename_i handle hc
        split at h
        · rename_i res hres
          obtain ⟨t, ht, hj⟩ := Option.bind_eq_some_iff.mp hres
          injection h with h; injection h with h1 h2
          subst h1; subst h2
          exact .stopJoin hc ht hj
        · exact absurd h (by simp)
      · exact absurd h (by simp)
  | stopDrop c =>
      rw [PollSystem.step] at h
      split at h
      · rename_i hc
        injection h with h; injection h with h1 h2
        subst h1; subst h2
        exact .stopDropCalled hc
      · rename_i handle hc
        injection h with h; injection h with h1 h2
        subst h1; subst h2
        exact .stopDropWaiting hc
      · exact absurd h (by simp)
  | drop =>
      rw [PollSystem.step] at h
      split at h
      · exact absurd h (by simp)
      · rename_i hd
        obtain ⟨hd, hf⟩ : w.dropped = false ∧ w.stops.any StopCall.inFlight = false :=
          Bool.or_eq_false_iff.mp (Bool.eq_false_iff.mpr hd)
        injection h with h; injection h with h1 h2
        subst h1; subst h2
        exact .drop hd hf
  | poll i a =>
      rw [PollSystem.step] at h
      split at h
      · exact absurd h (by simp)
      · rename_i t ht
        split at h
        · exact absurd h (by simp)
        · rename_i t' es hs
          injection h with h; injection h with h1 h2
          subst h1; subst h2
          exact .polled ht hs
  | panic i =>
      rw [PollSystem.step] at h
      split at h
      · exact absurd h (by simp)
      · rename_i t ht
        split at h
        · rename_i hl
          injection h with h; injection h with h1 h2
          subst h1; subst h2
          exact .panicked ht hl.1 hl.2
        · exact absurd h (by simp)
  | abort i =>
      rw [PollSystem.step] at h
      split at h
      · exact absurd h (by simp)
      · rename_i t ht
        split at h
        · rename_i hl
          injection h with h; injection h with h1 h2
          subst h1; subst h2
          exact .aborted ht hl.1 hl.2
        · exact absurd h (by simp)
  | fire i =>
      rw [PollSystem.step] at h
      split at h
      · exact absurd h (by simp)
      · rename_i t ht
        split at h
        · rename_i till hl
          split at h
          · rename_i hf
            injection h with h; injection h with h1 h2
            subst h1; subst h2
            exact .fired ht hl hf.1 hf.2.1 hf.2.2
          · exact absurd h (by simp)
        · exact absurd h (by simp)
  | wake i =>
      rw [PollSystem.step] at h
      split at h
      · exact absurd h (by simp)
      · rename_i t ht
        injection h with h; injection h with h1 h2
        subst h1; subst h2
        exact .woken ht
  | tick n =>
      rw [PollSystem.step] at h
      injection h with h; injection h with h1 h2
      subst h1; subst h2
      exact .tick n

/-! ## The token -/

theorem token_start (task : RepeatedTask) (handle : JoinHandle) :
    (task.start handle).1.cancelToken = task.cancelToken := by
  unfold RepeatedTask.start
  split
  · rfl
  · split
    · rfl
    · split <;> rfl

theorem token_stopSection {task : RepeatedTask} (h : task.cancelToken = true) :
    task.stopSection.1.cancelToken = true := by
  unfold RepeatedTask.stopSection
  split
  · exact h
  · split
    · exact h
    · dsimp only
      split <;> rfl

theorem token_drop {task : RepeatedTask} (h : task.cancelToken = true) :
    task.drop.cancelToken = true := by
  unfold RepeatedTask.drop
  split
  · exact h
  · split
    · rfl
    · exact h

/-! ## The simulation -/

/-- The world of `TaskSystem` that differs in its loops only. -/
def atRest (w : World) (ls : List Loop) : TaskSystem.World :=
  { task := w.task, dropped := w.dropped, loops := ls, stops := w.stops, now := w.now }

/-- A world with polled loops, and one whose loops run from await to await. -/
def Abstracts (w : World) (v : TaskSystem.World) : Prop :=
  ∃ ls, v = atRest w ls ∧ List.Forall₂ (Rests w.task.cancelToken) w.loops ls

/-- What the loops are between two awaits does not change when the token is cancelled. -/
theorem rests_setTask {w : World} {task : RepeatedTask} {ls : List Loop}
    (h : List.Forall₂ (Rests w.task.cancelToken) w.loops ls)
    (htoken : w.task.cancelToken = true → task.cancelToken = true) :
    List.Forall₂ (Rests task.cancelToken) (w.setTask task).loops ls := by
  unfold World.setTask
  dsimp only
  split
  · exact List.forall₂_map_left_iff.mpr (h.imp fun _ _ hr => (hr.mono htoken).cancelled)
  · exact h.imp fun _ _ hr => hr.mono htoken

theorem rests_spawned (c : Bool) (spawned : Option Loop) :
    List.Forall₂ (Rests c) (spawned.map LoopTask.new).toList spawned.toList := by
  cases spawned with
  | none => exact .nil
  | some l => exact .cons (.inl rfl) .nil

/-- Does the runtime drop a loop? -/
def aborts : Action → Bool
  | .abort _ => true
  | _ => false

/-- Does the runtime drop a loop? -/
def aborts' : TaskSystem.Action → Bool
  | .loopAborts _ => true
  | _ => false

/-- How a step is matched: by one step that shows the same, or by none, and it shows nothing. -/
inductive Matched (w' : World) (v : TaskSystem.World) (t : List Event) (ab : Bool) : Prop where
  | nothing (ht : t = []) (hrel : Abstracts w' v)
  | step {b : TaskSystem.Action} {v' : TaskSystem.World}
      (hs : TaskSystem.step v b = some (v', t)) (hrel : Abstracts w' v') (hab : aborts' b = ab)

/-- What one step of the other system matches. -/
theorem match_step {w w' : World} {t : List Event} {ls : List Loop} {ab : Bool}
    (b : TaskSystem.Action) (m : List Loop)
    (hs : TaskSystem.step (atRest w ls) b = some (atRest w' m, t))
    (hrel : List.Forall₂ (Rests w'.task.cancelToken) w'.loops m) (hab : aborts' b = ab) :
    Matched w' (atRest w ls) t ab :=
  .step hs ⟨m, rfl, hrel⟩ hab

/-- What the runtime does between two actions of a poll need not be matched. -/
theorem match_nothing {w w' : World} {ls : List Loop} {ab : Bool}
    (hw : atRest w' ls = atRest w ls)
    (hrel : List.Forall₂ (Rests w'.task.cancelToken) w'.loops ls) :
    Matched w' (atRest w ls) [] ab :=
  .nothing rfl ⟨ls, hw.symm, hrel⟩

/-- **Every step of the polled loop and its callers is matched.** -/
theorem polled_step {w w' : World} {v : TaskSystem.World} {a : Action} {t : List Event}
    (hrel : Abstracts w v) (hs : PollSystem.step w a = some (w', t)) :
    Matched w' v t (aborts a) := by
  obtain ⟨ls, rfl, hloops⟩ := hrel
  have hlen : w.loops.length = ls.length := hloops.length_eq
  cases world_moves hs with
  | start hd =>
      refine match_step .start (ls ++ (w.task.start w.loops.length).2.2.toList) ?_ ?_ rfl
      · simp [TaskSystem.step, atRest, hd, hlen]
      · dsimp only
        rw [token_start]
        exact List.rel_append hloops (rests_spawned _ _)
  | started hd =>
      refine match_step .started ls ?_ hloops rfl
      simp [TaskSystem.step, atRest, hd]
  | stopCall hd =>
      refine match_step .stopCall ls ?_ hloops rfl
      simp [TaskSystem.step, atRest, hd]
  | @stopDone c task r hc hstop =>
      refine match_step (.stopLock c) ls ?_ (rests_setTask hloops fun h => ?_) rfl
      · simp [TaskSystem.step, atRest, hc, hstop, World.setTask]
      · have hkeep := token_stopSection h
        rwa [hstop] at hkeep
  | @stopTakes c task handle hc hstop =>
      refine match_step (.stopLock c) ls ?_ (rests_setTask hloops fun h => ?_) rfl
      · simp [TaskSystem.step, atRest, hc, hstop, World.setTask]
      · have hkeep := token_stopSection h
        rwa [hstop] at hkeep
  | @stopJoin c handle t res hc ht hres =>
      obtain ⟨l, hl, hr⟩ := Lists.forall₂_partner hloops ht
      refine match_step (.stopJoin c) ls ?_ hloops rfl
      simp [TaskSystem.step, atRest, hc, hl, hr.joined, hres]
  | @stopDropCalled c hc =>
      refine match_step (.stopDrop c) ls ?_ hloops rfl
      simp [TaskSystem.step, atRest, hc]
  | @stopDropWaiting c handle hc =>
      refine match_step (.stopDrop c) ls ?_ hloops rfl
      simp [TaskSystem.step, atRest, hc]
  | drop hd hf =>
      refine match_step .drop ls ?_ (rests_setTask hloops token_drop) rfl
      simp [TaskSystem.step, atRest, hd, hf, World.setTask]
  | @polled i a t t' es ht hpoll =>
      obtain ⟨l, hl, hr⟩ := Lists.forall₂_partner hloops ht
      rcases rests_step hr hpoll with ⟨rfl, hr'⟩ | ⟨b, l', hstep, hr'⟩
      · exact match_nothing rfl (Lists.forall₂_set_left hloops hl hr')
      · refine match_step (.loop i b) (ls.set i l') ?_ (Lists.forall₂_set hloops hr' i) rfl
        simp [TaskSystem.step, atRest, hl, hstep, World.put]
  | @panicked i t ht hl hp =>
      obtain ⟨l, hl', hr⟩ := Lists.forall₂_partner hloops ht
      have hsame := hr.same fun hd => by
        obtain ⟨till, hs⟩ := hd.sleeping
        rw [hl] at hs
        exact absurd hs (by simp)
      subst hsame
      refine match_step (.loopPanics i) (ls.set i { t.loop with phase := .panicked })
        ?_ (Lists.forall₂_set hloops (.inl rfl) i) rfl
      simp [TaskSystem.step, atRest, hl', hl, World.put, TaskSystem.World.setPhase]
  | @aborted i t ht hlive hp =>
      obtain ⟨l, hl', hr⟩ := Lists.forall₂_partner hloops ht
      have hsame := hr.same fun hd => by
        have hpoll := hd.polling
        rw [hp] at hpoll
        exact absurd hpoll (by simp)
      subst hsame
      refine match_step (.loopAborts i) (ls.set i { t.loop with phase := .aborted })
        ?_ (Lists.forall₂_set hloops (.inl rfl) i) rfl
      simp [TaskSystem.step, atRest, hl', hlive, World.put, TaskSystem.World.setPhase]
  | @fired i till t ht hl harmed hfired hnow =>
      obtain ⟨l, hl', hr⟩ := Lists.forall₂_partner hloops ht
      exact match_nothing rfl (Lists.forall₂_set_left hloops hl' (hr.wake.touch rfl rfl rfl rfl))
  | @woken i t ht =>
      obtain ⟨l, hl', hr⟩ := Lists.forall₂_partner hloops ht
      exact match_nothing rfl (Lists.forall₂_set_left hloops hl' hr.wake)
  | tick n =>
      refine match_step (.tick n) ls ?_ hloops rfl
      simp [TaskSystem.step, atRest]

/-- The polled loop simulates the loop at its awaits. -/
theorem polled_refines (interval : Nat) (initialDelay : Option Nat) (taskFn : TaskFunction) :
    Lts.Simulation (PollSystem.system interval initialDelay taskFn)
      (TaskSystem.system interval initialDelay taskFn) (fun e => [e]) (fun e => [e])
      Abstracts := by
  refine ⟨⟨[], rfl, .nil⟩, ?_⟩
  intro w v a w' t _ _ hrel hs
  cases polled_step hrel hs with
  | nothing ht hrel' => exact Lts.exec_stutter (by rw [ht]; rfl) hrel'
  | step hs' hrel' _ => exact Lts.exec_match hs' rfl hrel'

/--
**The polled loop does nothing that the loop at its awaits does not.**

Every run of one task whose loop is polled by a runtime shows exactly what some run of
`TaskSystem` shows, and ends with the same task, the same calls of `stop` and the same loops,
but for a loop that is being polled and has yet to look at its token.
-/
theorem polled_loops_refine (interval : Nat) (initialDelay : Option Nat) (taskFn : TaskFunction)
    {as : List Action} {w : World} {t : List Event}
    (hrun : (PollSystem.system interval initialDelay taskFn).exec
      (PollSystem.system interval initialDelay taskFn).init as = some (w, t)) :
    ∃ bs v, (TaskSystem.system interval initialDelay taskFn).exec
        (TaskSystem.system interval initialDelay taskFn).init bs = some (v, t)
      ∧ Abstracts w v := by
  obtain ⟨bs, v, u, hrun', hsee, hrel⟩ := (polled_refines interval initialDelay taskFn).run hrun
  rw [List.flatMap_singleton', List.flatMap_singleton'] at hsee
  subst hsee
  exact ⟨bs, v, hrun', hrel⟩

/-- A task that is stopped before its loop is polled for the first time. -/
def stoppedAtOnce : List Action :=
  [.start, .stopCall, .stopLock 0, .poll 0 .begin, .poll 0 .head, .poll 0 (.sleep .pending),
    .poll 0 .token, .stopJoin 0]

theorem polled_loops_refine_stopped :
    ∃ w t, (PollSystem.system 5 none ⟨"gc"⟩).exec (PollSystem.system 5 none ⟨"gc"⟩).init
        stoppedAtOnce = some (w, t)
      ∧ t = [.startRet (.ok ()), .stopCalled 0, .loop 0 .loopReturned, .stopRet 0 (.ok ())]
      ∧ ∃ bs v, (TaskSystem.system 5 none ⟨"gc"⟩).exec (TaskSystem.system 5 none ⟨"gc"⟩).init bs
          = some (v, t)
        ∧ Abstracts w v := by
  have hrefine := @polled_loops_refine 5 none ⟨"gc"⟩ stoppedAtOnce _ _ rfl
  exact ⟨_, _, rfl, rfl, hrefine⟩

end RsRun.Proof
