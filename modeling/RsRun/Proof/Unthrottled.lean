import RsRun.Proof.Conservation
import RsRun.Proof.CountMoves
import RsRun.Proof.Throttled

/-!
# `VeryHigh` stays unthrottled

The handle says so, and the state has to stay `Common` for it: no back-off is ever
inserted, and every poll that returns passes straight through. What is left to go wrong
is arithmetic, which for `mode_time` is the sum of the times of the pending polls, here
never paid off.
-/

namespace RsRun.Proof

open Async

section
variable {φ ω ν L : Type*} {pollF : φ → Cx ω → φ × Poll ν} {chk : Bool}

theorem stored_eq_none {state : State} (h : state.stored = none) : state = .common := by
  cases state with
  | common => rfl
  | backoff sleep => exact absurd h (by simp [State.stored])

/-! ## `mode_count` -/

/-- A `mode_count` wrapper that is not to be throttled, and is not. -/
def CountFree (this : ModeCount.PendingFuture φ) : Prop :=
  this.handle.priority = .veryHigh ∧ this.state = .common

/-- Unthrottled, a `mode_count` poll overflows its counter or comes straight to the inner future. -/
theorem modeCount_free {this : ModeCount.PendingFuture φ} (h : CountFree this)
    (env : ModeCount.Env ω) :
    ((∀ why, (ModeCount.poll chk pollF this env).res ≠ .panicked why) →
      PassThrough pollF env.cx this.future (ModeCount.poll chk pollF this env))
    ∧ CountFree (ModeCount.poll chk pollF this env).next := by
  obtain ⟨hp, hs⟩ := h
  -- the wrapper as it is once `begin_time` has been set
  let this' : ModeCount.PendingFuture φ :=
    { this with state := .common, beginTime := some (this.beginTime.getD env.beginNow) }
  have hpoll : ModeCount.poll chk pollF this env = ModeCount.throttle chk pollF this' env := by
    rw [ModeCount.poll]; dsimp only; rw [hs, pollBackoff]
  have hinner := modeCount_pollInner chk pollF this' env rfl rfl
  have hfree : CountFree (ModeCount.pollInner chk pollF this' env).next :=
    ⟨by rw [pollInner_handle]; exact hp, stored_eq_none hinner.stored⟩
  have hperiod : this'.handle.priority.fixedIntervalCount = none := by
    show this.handle.priority.fixedIntervalCount = none
    rw [hp]; rfl
  rw [hpoll, ModeCount.throttle]
  split
  · exact ⟨fun hret => absurd rfl (hret .overflow), hp, rfl⟩
  · rw [hperiod]
    dsimp only
    rw [ite_self]
    exact ⟨hinner.passThrough, hfree⟩

/-! ## `mode_time` -/

/-- A `mode_time` wrapper that is not to be throttled, and is not. -/
def TimeFree (this : ModeTime.PendingFuture φ) : Prop :=
  this.handle.priority = .veryHigh ∧ this.state = .common

theorem modeTime_free_poll {this : ModeTime.PendingFuture φ} (h : TimeFree this)
    (env : ModeTime.Env ω) :
    ModeTime.poll chk pollF this env
      = ModeTime.pollInner chk pollF { this with state := .common } env := by
  obtain ⟨hp, hs⟩ := h
  rw [ModeTime.poll, hs, pollBackoff, ModeTime.throttle]
  dsimp only
  rw [hp]
  rfl

/-- Unthrottled, a `mode_time` poll comes straight to the inner future. -/
theorem modeTime_free {this : ModeTime.PendingFuture φ} (h : TimeFree this)
    (env : ModeTime.Env ω) :
    ((∀ why, (ModeTime.poll chk pollF this env).res ≠ .panicked why) →
      PassThrough pollF env.cx this.future (ModeTime.poll chk pollF this env))
    ∧ TimeFree (ModeTime.poll chk pollF this env).next := by
  have hinner := modeTime_pollInner chk pollF { this with state := .common } env rfl
  rw [modeTime_free_poll h]
  exact ⟨hinner.passThrough, by rw [timeInner_handle]; exact h.1,
    stored_eq_none hinner.stored⟩

/-- In a build that checks, it returns as long as the time it adds fits. -/
theorem modeTime_free_returns {this : ModeTime.PendingFuture φ} (h : TimeFree this)
    (env : ModeTime.Env ω) :
    (∀ why, (ModeTime.poll true pollF this env).res ≠ .panicked why)
      ↔ ((pollF this.future env.cx).2 = .pending → this.addingUpTime + elapsedTime env < 2 ^ 64) := by
  rw [modeTime_free_poll h, ModeTime.pollInner]
  dsimp only
  cases (pollF this.future env.cx).2 with
  | ready v => exact ⟨fun _ hp => absurd hp (by simp), fun _ why => by simp⟩
  | pending =>
      by_cases hlt : this.addingUpTime + elapsedTime env < 2 ^ 64
      · have hsum : Word.add true 64 this.addingUpTime (elapsedMicros env.beginNow env.polledNow)
            = some (this.addingUpTime + elapsedTime env) := Word.fit_of_lt hlt
        rw [hsum]
        exact ⟨fun _ _ => hlt, fun _ why => by simp⟩
      · have hsum : Word.add true 64 this.addingUpTime (elapsedMicros env.beginNow env.polledNow)
            = none := Word.add_eq_none.mpr ⟨rfl, Nat.le_of_not_lt hlt⟩
        rw [hsum]
        exact ⟨fun hret => absurd rfl (hret .overflow), fun hle => absurd (hle rfl) hlt⟩

/-! ## `mode_ratelimiter` -/

/-- A `mode_ratelimiter` wrapper that has no limiter, and is not waiting. -/
def LimiterFree (this : ModeRatelimiter.PendingFuture φ) : Prop :=
  this.handle.ratelimiter = none ∧ this.state = .common

theorem modeRatelimiter_pollInner_handle (sh : Shared L)
    (this : ModeRatelimiter.PendingFuture φ) (env : ModeRatelimiter.Env ω) :
    (ModeRatelimiter.pollInner chk pollF sh this env).next.2.handle = this.handle := by
  rw [ModeRatelimiter.pollInner]
  dsimp only
  split
  · rfl
  · split <;> rfl

/-- Unthrottled, a `mode_ratelimiter` poll comes straight to the inner future. -/
theorem modeRatelimiter_free {this : ModeRatelimiter.PendingFuture φ} (h : LimiterFree this)
    (tryWait : ModeRatelimiter.Limiter L) (seen : Shared L × ModeRatelimiter.Env ω) :
    ((∀ why, (ModeRatelimiter.pollAlone chk pollF tryWait this seen).res ≠ .panicked why) →
      PassThrough pollF seen.2.cx this.future
        (ModeRatelimiter.pollAlone chk pollF tryWait this seen))
    ∧ LimiterFree (ModeRatelimiter.pollAlone chk pollF tryWait this seen).next := by
  obtain ⟨hp, hs⟩ := h
  have hpoll : ModeRatelimiter.poll chk pollF tryWait seen.1 this seen.2
      = ModeRatelimiter.pollInner chk pollF seen.1 { this with state := .common } seen.2 := by
    rw [ModeRatelimiter.poll, hs, pollBackoff, ModeRatelimiter.throttle]
    dsimp only
    rw [hp]; rfl
  have hinner := modeRatelimiter_pollInner chk pollF seen.1 { this with state := .common }
    seen.2 rfl rfl
  rw [ModeRatelimiter.pollAlone, hpoll]
  refine ⟨fun hret => ?_, by rw [Polled.map_next, modeRatelimiter_pollInner_handle]; exact hp,
    stored_eq_none hinner.stored⟩
  have hpass := hinner.passThrough hret
  exact ⟨hpass.polled, hpass.answer, hpass.noSleep⟩

end

/-! ## The times of `mode_time` over a run -/

section
variable {φ ω ν : Type*} {pollF : φ → Cx ω → φ × Poll ν} {future : φ}

open ModeTime Meter

/-- Never paid off, the accumulated time is all that was charged. -/
theorem timeFree_exact {envs : List (Env ω)} {s : Polling (PendingFuture φ)}
    {ts : List (Turn (PendingFuture φ) (Env ω) ω ν Nat)}
    (h : (timePolls true pollF .veryHigh future).exec (timePolls true pollF .veryHigh future).init
      envs = some (s, ts)) :
    TimeFree s.wrapper ∧ s.wrapper.addingUpTime = (feeds (marks ts)).sum := by
  have hrun := polls_log (P := fun w ts => TimeFree w ∧ w.addingUpTime < 2 ^ 64
    ∧ w.addingUpTime = (feeds (marks ts)).sum) ⟨⟨rfl, rfl⟩, Nat.two_pow_pos 64, rfl⟩ ?_ h
  · exact ⟨hrun.1, hrun.2.2⟩
  · intro w env us hw hret
    obtain ⟨hfree, hlt, htime⟩ := hw
    have hnext : TimeFree (poll true pollF w env).next := (modeTime_free hfree env).2
    have hpolled := ((modeTime_free hfree env).1 hret).polled
    have hfits := (modeTime_free_returns hfree env).mp hret
    rw [marks_snoc, feeds_append, List.sum_append, ← htime]
    cases modeTime_moves w env hlt hret with
    | waiting _ hwait _ _ _ _ _ => exact absurd hfree.2 hwait
    | backoff pendPeriod _ hperiod _ _ _ _ =>
        rw [hfree.1] at hperiod
        exact absurd hperiod (by simp [Priority.fixedIntervalTimeMs])
    | pending _ _ hn hs =>
        have hanswer : (pollF w.future env.cx).2 = .pending := by
          rw [hs.innerPolls] at hpolled
          exact (congrArg Prod.snd (List.singleton_inj.mp hpolled)).symm
        have hlt' := hfits hanswer
        have hfed : feeds (marksOf (Turn.mk w env (poll true pollF w env))) = [elapsedTime env] := by
          unfold marksOf
          rw [hs.owns, hs.pendings]
          rfl
        have hadded : (poll true pollF w env).next.addingUpTime
            = w.addingUpTime + elapsedTime env := by
          rw [hn]
          exact Nat.mod_eq_of_lt hlt'
        rw [hadded, hfed]
        exact ⟨hnext, hlt', rfl⟩
    | ready v _ _ hn hs =>
        have hfed : feeds (marksOf (Turn.mk w env (poll true pollF w env))) = [] := by
          unfold marksOf
          rw [hs.owns, hs.pendings]
          rfl
        have hsame : (poll true pollF w env).next.addingUpTime = w.addingUpTime := by rw [hn]
        rw [hsame, hfed]
        exact ⟨hnext, hlt, rfl⟩

/-- No time is charged that does not fit. -/
def TimesBelow (pollF : φ → Cx ω → φ × Poll ν) (future : φ) (envs : List (Env ω)) : Prop :=
  EachPoll (poll true pollF) (PendingFuture.new ⟨.veryHigh⟩ future) envs
    (fun w env ts => (pollF w.future env.cx).2 = .pending →
      (feeds (marks ts)).sum + elapsedTime env < 2 ^ 64)

/-- In a build that checks, this is when every poll returns. -/
theorem timesBelow_iff_returns {envs : List (Env ω)} :
    TimesBelow pollF future envs
      ↔ EachPoll (poll true pollF) (PendingFuture.new ⟨.veryHigh⟩ future) envs
        (fun w env _ => ∀ why, (poll true pollF w env).res ≠ .panicked why) := by
  refine EachPoll.congr fun envs' env w ts hrun => ?_
  obtain ⟨hfree, htime⟩ := timeFree_exact hrun
  dsimp only at hfree htime
  rw [← htime]
  exact (modeTime_free_returns hfree env).symm

end

end RsRun.Proof
