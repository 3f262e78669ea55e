import RsRun.Lib.PoolReplays
import RsRun.PendingFuture.SpawnSystem
import RsRun.Proof.CountMoves
import RsRun.Proof.Held
import RsRun.Proof.TimeMoves

/-!
# Throttled futures run as the futures inside them

A runtime that polls what was woken cannot tell a program of throttled futures from the
same program without the wrappers, except by the clock: whatever the wrapped futures do,
the bare ones can do as well, poll by poll and wake-up by wake-up. Without overflow checks
the converse holds too in `mode_count` and `mode_time`, because their wrappers let the future
through after at most two sleeps. (In `mode_ratelimiter` it is up to the other futures of the
handle how long that takes.)
-/

namespace RsRun.Proof

open Async SpawnSystem

variable {φ ω ν L : Type*}

/-! ## Nothing is added -/

section
variable (chk : Bool) (pollF : φ → Cx ω → φ × Poll ν)

theorem count_refines : Lts.Simulation (countRuntime chk pollF)
    (bareRuntime ModeCount.OneFutureRecord pollF) PoolEvent.seen PoolEvent.seen
    (PoolsMatch ModeCount.PendingFuture.future Task.crashed) :=
  held_refines (modeCount_held chk pollF) (fun _ => rfl) (fun _ => rfl)

theorem time_refines : Lts.Simulation (timeRuntime chk pollF) (bareRuntime Nat pollF)
    PoolEvent.seen PoolEvent.seen (PoolsMatch ModeTime.PendingFuture.future Task.crashed) :=
  held_refines (modeTime_held chk pollF) (fun _ => rfl) (fun _ => rfl)

theorem limited_refines (tryWait : ModeRatelimiter.Limiter L) :
    Lts.Simulation (limitedRuntime chk pollF tryWait)
      (bareRuntime ModeRatelimiter.TryWait pollF) PoolEvent.seen PoolEvent.seen
      (PoolsMatch ModeRatelimiter.PendingFuture.future Task.crashed) :=
  held_refines (modeRatelimiter_alone_held chk pollF tryWait) (fun _ => rfl) (fun _ => rfl)

end

/--
**Throttling adds no behaviour.** Whatever is spawned, whatever the futures inside do and
however their wake-ups, the sleeps, the limiter and aborts interleave, in all three modes.
-/
theorem spawned_runs_as_bare (chk : Bool) (pollF : φ → Cx ω → φ × Poll ν)
    (tryWait : ModeRatelimiter.Limiter L) :
    RunsAsBare (countRuntime chk pollF) pollF ModeCount.PendingFuture.future
      ∧ RunsAsBare (timeRuntime chk pollF) pollF ModeTime.PendingFuture.future
      ∧ RunsAsBare (limitedRuntime chk pollF tryWait) pollF
          ModeRatelimiter.PendingFuture.future := by
  refine ⟨?_, ?_, ?_⟩
  · exact fun _ _ _ h => (count_refines chk pollF).run h
  · exact fun _ _ _ h => (time_refines chk pollF).run h
  · exact fun _ _ _ h => (limited_refines chk pollF tryWait).run h

/-! ## Nothing is taken away -/

/-- Once the stored sleep has elapsed, what is left of the poll is what it comes to. -/
theorem pollBackoff_past {σ χ : Type*} (state : State) (put : State → σ) (w : Waker)
    (rest : Bool → Polled σ ω ν χ) :
    ∃ b pre, pollBackoff state put w (.ready ()) rest = (rest b).after pre := by
  rcases pollBackoff_cases state put w (.ready ()) rest with
    ⟨_, h⟩ | ⟨_, _, _, h⟩ | ⟨_, _, hready, _⟩
  · exact ⟨false, [], h⟩
  · exact ⟨true, _, h⟩
  · exact absurd hready (by simp)

/-- What comes later in a poll is not undone by what came first. -/
theorem after_ne {σ χ : Type*} (pre : List (Act ω ν χ)) (o : Polled σ ω ν χ) :
    (innerPolls o.acts ≠ [] → innerPolls (o.after pre).acts ≠ [])
      ∧ (insertions o.acts ≠ [] → insertions (o.after pre).acts ≠ []) := by
  refine ⟨fun h => ?_, fun h => ?_⟩
  · rw [Polled.after_acts, innerPolls_append]
    exact List.append_ne_nil_of_right_ne_nil _ h
  · rw [Polled.after_acts, insertions_append]
    exact List.append_ne_nil_of_right_ne_nil _ h

/-- A poll that comes straight to the future inside polls it. -/
theorem innerPolled_ne {σ χ : Type*} {pollF : φ → Cx ω → φ × Poll ν} {inner : σ → φ}
    {stored : σ → Option Sleep} {chk : Bool} {cx : Cx ω} {f : φ} {o : Polled σ ω ν χ}
    (h : InnerPolled pollF inner stored chk cx f o) : innerPolls o.acts ≠ [] := by
  obtain ⟨ys, ha, _⟩ := h.acts
  rw [ha, innerPolls_innerPolled]
  simp

section
variable {pollF : φ → Cx ω → φ × Poll ν}

/-- A `mode_count` poll in context `c` for which every sleep but a new one has elapsed. -/
def countInput (c : Cx ω) : ModeCount.Env ω :=
  { cx := c
    stored := .ready ()
    inserted := .pending
    jitter := Fin.last 9
    bfPoll := 0
    beginNow := 0
    polledNow := 0
    endNow := 0 }

theorem count_throttle_inner (this : ModeCount.PendingFuture φ) (env : ModeCount.Env ω)
    (h : this.handle.priority.fixedIntervalCount = none
      ∨ nextCount this.pendCnt % ModeCount.inter ≠ 0) :
    ModeCount.throttle false pollF this env = ModeCount.pollInner false pollF this env := by
  unfold ModeCount.throttle
  rw [Word.add_unchecked]
  change (if nextCount this.pendCnt % ModeCount.inter = 0 then _ else _) = _
  rcases h with hnone | hne
  · split
    · rw [hnone]
    · rfl
  · rw [if_neg hne]

theorem count_throttle_backoff (this : ModeCount.PendingFuture φ) (env : ModeCount.Env ω)
    {pendPeriod : Nat} (hp : this.handle.priority.fixedIntervalCount = some pendPeriod)
    (hdue : nextCount this.pendCnt % ModeCount.inter = 0) (hins : env.inserted = .pending) :
    ∃ d sleep, ModeCount.throttle false pollF this env
      = ⟨{ this with pendCnt := nextCount this.pendCnt, state := .backoff sleep }, .pending,
          [.sleepInserted d, .sleepPolled env.cx.waker .pending]⟩ := by
  unfold ModeCount.throttle
  rw [Word.add_unchecked]
  change ∃ d sleep, (if nextCount this.pendCnt % ModeCount.inter = 0 then _ else _) = _
  rw [if_pos hdue, hp, hins]
  exact ⟨_, _, rfl⟩

theorem count_past (this : ModeCount.PendingFuture φ) (c : Cx ω) :
    ∃ pre, ModeCount.poll false pollF this (countInput c)
      = (ModeCount.throttle false pollF { begun this (countInput c) with state := .common }
          (countInput c)).after pre := by
  obtain ⟨_, pre, hpast⟩ := pollBackoff_past this.state
    (fun state => { begun this (countInput c) with state := state }) c.waker
    (fun _ => ModeCount.throttle false pollF { begun this (countInput c) with state := .common }
      (countInput c))
  exact ⟨pre, hpast⟩

theorem count_now (this : ModeCount.PendingFuture φ) (c : Cx ω)
    (h : this.handle.priority.fixedIntervalCount = none
      ∨ nextCount this.pendCnt % ModeCount.inter ≠ 0) :
    Gets ModeCount.Env.cx (ModeCount.poll false pollF) countStored c this := by
  refine .now (countInput c) rfl ?_
  obtain ⟨pre, hpast⟩ := count_past this c
  rw [hpast, count_throttle_inner { begun this (countInput c) with state := .common }
    (countInput c) h]
  exact (after_ne pre _).1 (innerPolled_ne (modeCount_pollInner false pollF _ _ rfl rfl))

theorem count_later (this : ModeCount.PendingFuture φ) (c : Cx ω) {pendPeriod : Nat}
    (hp : this.handle.priority.fixedIntervalCount = some pendPeriod)
    (hdue : nextCount this.pendCnt % ModeCount.inter = 0)
    (hnext : ∀ w : ModeCount.PendingFuture φ, w.handle = this.handle →
      w.pendCnt = nextCount this.pendCnt →
      Gets ModeCount.Env.cx (ModeCount.poll false pollF) countStored c w) :
    Gets ModeCount.Env.cx (ModeCount.poll false pollF) countStored c this := by
  obtain ⟨pre, hpoll⟩ := count_past this c
  obtain ⟨d, sleep, hthrottle⟩ := count_throttle_backoff
    { begun this (countInput c) with state := .common } (countInput c) hp hdue rfl
  rw [hthrottle] at hpoll
  refine .later (countInput c) rfl ?_ ?_ (hnext _ ?_ ?_)
  · rw [hpoll]
    exact (after_ne pre _).2 (by simp [insertions])
  · rw [hpoll]
    rfl
  · rw [hpoll]
    rfl
  · rw [hpoll]
    rfl

/-- Two back-offs are due in a row where the counter wraps, and a third one is not. -/
theorem nextCount_due {n : Nat} (hdue : nextCount n % ModeCount.inter = 0)
    (hdue' : nextCount (nextCount n) % ModeCount.inter = 0) :
    nextCount (nextCount (nextCount n)) % ModeCount.inter ≠ 0 := by
  have hlt : nextCount n < 2 ^ 32 := Nat.mod_lt _ (by decide)
  generalize nextCount n = a at *
  have hwrap : nextCount a = 0 := by
    by_cases hmax : a + 1 < 2 ^ 32
    · have hnext : nextCount a = a + 1 := Nat.mod_eq_of_lt hmax
      unfold ModeCount.inter at hdue hdue'
      omega
    · have ha : a = 2 ^ 32 - 1 := by omega
      rw [ha]
      rfl
  rw [hwrap]
  decide

/-- A `mode_count` wrapper lets its future through after at most two sleeps. -/
theorem count_gets (this : ModeCount.PendingFuture φ) (c : Cx ω) :
    Gets ModeCount.Env.cx (ModeCount.poll false pollF) countStored c this := by
  cases hp : this.handle.priority.fixedIntervalCount with
  | none => exact count_now this c (.inl hp)
  | some pendPeriod =>
      by_cases hdue : nextCount this.pendCnt % ModeCount.inter = 0
      · refine count_later this c hp hdue ?_
        intro w hw hcnt
        rw [← hw] at hp
        by_cases hdue' : nextCount w.pendCnt % ModeCount.inter = 0
        · refine count_later w c hp hdue' ?_
          intro w' _ hcnt'
          refine count_now w' c (.inr ?_)
          rw [hcnt', hcnt]
          rw [hcnt] at hdue'
          exact nextCount_due hdue hdue'
        · exact count_now w c (.inr hdue')
      · exact count_now this c (.inr hdue)

/-! ### `mode_time` -/

/-- A `mode_time` poll in context `c` for which every sleep but a new one has elapsed. -/
def timeInput (c : Cx ω) : ModeTime.Env ω :=
  { cx := c
    stored := .ready ()
    inserted := .pending
    beginNow := 0
    polledNow := 0 }

theorem time_throttle_inner (this : ModeTime.PendingFuture φ) (env : ModeTime.Env ω)
    (h : this.handle.priority.fixedIntervalTimeMs = none
      ∨ this.addingUpTime ≤ ModeTime.inter) :
    ModeTime.throttle false pollF this env = ModeTime.pollInner false pollF this env := by
  unfold ModeTime.throttle
  rcases h with hnone | hle
  · rw [hnone]
  · split
    · rfl
    · rw [if_neg (Nat.not_lt.mpr hle)]

theorem time_throttle_backoff (this : ModeTime.PendingFuture φ) (env : ModeTime.Env ω)
    {pendPeriod : Nat} (hp : this.handle.priority.fixedIntervalTimeMs = some pendPeriod)
    (hdue : ModeTime.inter < this.addingUpTime) (hlt : this.addingUpTime < 2 ^ 64)
    (hins : env.inserted = .pending) :
    ∃ d sleep, ModeTime.throttle false pollF this env
      = ⟨{ this with
            addingUpTime := this.addingUpTime % ModeTime.inter
            insertedPendCnt := Word.fetchAdd 32 this.insertedPendCnt 1
            state := .backoff sleep }, .pending,
          [.own (this.addingUpTime / ModeTime.inter), .sleepInserted d,
            .sleepPolled env.cx.waker .pending]⟩ := by
  unfold ModeTime.throttle
  rw [hp]
  dsimp only
  rw [if_pos hdue, payOff_eq false hlt]
  dsimp only
  rw [sleepMillis_eq false (period_le hp) hlt, hins]
  exact ⟨_, _, rfl⟩

theorem time_past (this : ModeTime.PendingFuture φ) (c : Cx ω) :
    ∃ pre, ModeTime.poll false pollF this (timeInput c)
      = (ModeTime.throttle false pollF { this with state := .common } (timeInput c)).after pre := by
  obtain ⟨_, pre, hpast⟩ := pollBackoff_past this.state
    (fun state => { this with state := state }) c.waker
    (fun _ => ModeTime.throttle false pollF { this with state := .common } (timeInput c))
  exact ⟨pre, hpast⟩

theorem time_now (this : ModeTime.PendingFuture φ) (c : Cx ω)
    (h : this.handle.priority.fixedIntervalTimeMs = none
      ∨ this.addingUpTime ≤ ModeTime.inter) :
    Gets ModeTime.Env.cx (ModeTime.poll false pollF) timeStored c this := by
  refine .now (timeInput c) rfl ?_
  obtain ⟨pre, hpast⟩ := time_past this c
  rw [hpast, time_throttle_inner { this with state := .common } (timeInput c) h]
  exact (after_ne pre _).1 (innerPolled_ne (modeTime_pollInner false pollF _ _ rfl))

/-- A `mode_time` wrapper lets its future through after at most one sleep. -/
theorem time_gets (this : ModeTime.PendingFuture φ) (hlt : this.addingUpTime < 2 ^ 64)
    (c : Cx ω) : Gets ModeTime.Env.cx (ModeTime.poll false pollF) timeStored c this := by
  cases hp : this.handle.priority.fixedIntervalTimeMs with
  | none => exact time_now this c (.inl hp)
  | some pendPeriod =>
      by_cases hdue : ModeTime.inter < this.addingUpTime
      · obtain ⟨pre, hpoll⟩ := time_past this c
        obtain ⟨d, sleep, hthrottle⟩ := time_throttle_backoff
          { this with state := .common } (timeInput c) hp hdue hlt rfl
        rw [hthrottle] at hpoll
        -- less than ten microseconds are left to pay for
        have hleft : this.addingUpTime % ModeTime.inter ≤ ModeTime.inter :=
          (Nat.mod_lt _ (by decide)).le
        refine .later (timeInput c) rfl ?_ ?_ ?_
        · rw [hpoll]
          exact (after_ne pre _).2 (by simp [insertions])
        · rw [hpoll]
          rfl
        · rw [hpoll]
          exact time_now _ c (.inr hleft)
      · exact time_now this c (.inr (Nat.le_of_not_lt hdue))

/-- What has not been paid for stays below `2 ^ 64`. -/
theorem time_poll_lt (this : ModeTime.PendingFuture φ) (env : ModeTime.Env ω)
    (hlt : this.addingUpTime < 2 ^ 64) :
    (ModeTime.poll false pollF this env).next.addingUpTime < 2 ^ 64 := by
  have hret : ∀ why, (ModeTime.poll false pollF this env).res ≠ .panicked why := by
    intro why hr
    exact absurd ((modeTime_held false pollF this env).panic hr) (by simp)
  cases modeTime_moves this env hlt hret with
  | waiting state hw ha hstate hr hn hs => rw [hn]; exact hlt
  | backoff pendPeriod state hp hdue hr hn hs =>
      rw [hn]
      exact (Nat.mod_le _ _).trans_lt hlt
  | pending hdue hr hn hs =>
      rw [hn]
      exact Nat.mod_lt _ (by decide)
  | ready v hdue hr hn hs => rw [hn]; exact hlt

/-! ### Both -/

section
variable {σ ι χ : Type*} {M : Lts (Pool σ ν) (PoolAction (Job φ) ι) (PoolEvent (Job φ) σ ι ω ν χ)}

/-- A runtime that simulates the bare one, and is simulated by it, has the same runs. -/
theorem sameRuns_of {R : Pool σ ν → Pool φ ν → Prop} {R' : Pool φ ν → Pool σ ν → Prop}
    (h : Lts.Simulation M (bareRuntime χ pollF) PoolEvent.seen PoolEvent.seen R)
    (h' : Lts.Simulation (bareRuntime χ pollF) M PoolEvent.seen PoolEvent.seen R') :
    SameRuns M pollF := by
  intro seen
  constructor
  · rintro ⟨as, p, es, hrun, hseen⟩
    obtain ⟨bs, q, vs, hrun', hsame, _⟩ := h.run hrun
    exact ⟨bs, q, vs, hrun', hsame.trans hseen⟩
  · rintro ⟨bs, q, vs, hrun, hseen⟩
    obtain ⟨as, p, es, hrun', hsame, _⟩ := h'.run hrun
    exact ⟨as, p, es, hrun', hsame.trans hseen⟩

end

/--
**Throttling takes nothing away** in a build without overflow checks: with the wrappers of
`mode_count` or `mode_time` and without them, exactly the same can be seen.
-/
theorem spawned_same_runs (pollF : φ → Cx ω → φ × Poll ν) :
    SameRuns (countRuntime false pollF) pollF ∧ SameRuns (timeRuntime false pollF) pollF := by
  refine ⟨?_, ?_⟩
  · refine sameRuns_of (count_refines false pollF) (held_replays (I := fun _ => True) ?_ ?_ ?_
      (modeCount_held false pollF) ?_ ?_)
    · exact fun _ => trivial
    · exact fun _ _ _ => trivial
    · exact fun this c _ => count_gets this c
    · exact fun _ => rfl
    · exact fun _ => rfl
  · refine sameRuns_of (time_refines false pollF) (held_replays
      (I := fun this => this.addingUpTime < 2 ^ 64) ?_ ?_ ?_ (modeTime_held false pollF) ?_ ?_)
    · exact fun _ => Nat.two_pow_pos 64
    · exact fun this env hlt => time_poll_lt this env hlt
    · exact fun this c hlt => time_gets this hlt c
    · exact fun _ => rfl
    · exact fun _ => rfl

end

end RsRun.Proof
