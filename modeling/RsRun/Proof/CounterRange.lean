import RsRun.Proof.CountRange
import RsRun.Proof.LimiterRange

/-!
# The pending counters and the end of their range

Both counters are plain `u32`s that are only ever added to, where `mode_time` has atomics,
which wrap. At the end of the range a build that checks for overflow panics. One that does
not goes on at zero, which is a multiple of five as `2 ^ 32 - 1` is: `mode_count` inserts a
back-off at both, one right after the other.
-/

namespace RsRun.Proof

open Async ModeCount

variable {φ ω ν L : Type*}

/--
**The counters stay in range, if and only if not too much was counted before.**

For `mode_count` and `mode_ratelimiter`, in both kinds of build, and runs of any length.
-/
theorem counters_in_range_iff (chk : Bool) (pollF : φ → Cx ω → φ × Poll ν)
    (tryWait : ModeRatelimiter.Limiter L) (p : Priority) (future : φ) (envs : List (Env ω))
    (seens : List (Shared L × ModeRatelimiter.Env ω)) :
    (CountsInRange chk pollF p future envs ↔ CountsBelow chk pollF p future envs)
      ∧ (AddsInRange chk pollF tryWait p future seens
        ↔ AddsBelow chk pollF tryWait p future seens) :=
  ⟨⟨fun h => h.below, fun h => h.inRange⟩, fun h => h.below, fun h => h.inRange⟩

/-! ## A run to the end of the range -/

/-- A future that is never ready, after `n` counts, with the clock at zero throughout. -/
def countingAt (p : Priority) (n : Nat) (beginTime : Option Nat) : PendingFuture Unit where
  future := ()
  handle := ⟨p⟩
  pendCnt := n
  state := .common
  beginTime := beginTime
  pollTime := 0

/-- One poll; a back-off, if there is one, is over at once. -/
def tick : Env Unit := countEnv .pending (.ready ()) (Fin.last 9)

theorem countingAt_inner (chk : Bool) (p : Priority) {n m : Nat}
    (hcnt : Word.add chk 32 n 1 = some m) (b : Option Nat) :
    pollInner chk stuck (countingAt p n b) tick
      = ⟨countingAt p m b, .pending, [.innerPolled ⟨0, ()⟩ .pending]⟩ := by
  have htime : Word.add chk 64 0 (elapsedMicros 0 0) = some 0 := Word.fit_of_lt (by decide)
  unfold pollInner
  dsimp only [countingAt, tick, countEnv, stuck]
  rw [htime, hcnt]

/-- A back-off is inserted, and counted. -/
theorem countingAt_backoff (chk : Bool) {p : Priority} {pendPeriod : Nat}
    (hp : p.fixedIntervalCount = some pendPeriod) {n m : Nat}
    (hcnt : Word.add chk 32 n 1 = some m) (hdue : m % inter = 0) (b : Option Nat) :
    poll chk stuck (countingAt p n b) tick
      = ⟨countingAt p m (some (b.getD 0)), .pending,
          [.sleepInserted (fromMillis (pendPeriod + 9)), .sleepPolled 0 (.ready ()), .woke 0]⟩ := by
  unfold poll
  dsimp only [countingAt, tick, countEnv, pollBackoff]
  unfold throttle
  dsimp only
  rw [hcnt]
  dsimp only
  rw [if_pos hdue, hp]
  rfl

/-- Below the end of the range, every poll is counted. -/
theorem countingAt_poll (chk : Bool) (p : Priority) {n : Nat} (hlt : n + 1 < 2 ^ 32)
    (b : Option Nat) :
    ∃ acts, poll chk stuck (countingAt p n b) tick
      = ⟨countingAt p (n + 1) (some (b.getD 0)), .pending, acts⟩ := by
  have hcnt : Word.add chk 32 n 1 = some (n + 1) := Word.fit_of_lt hlt
  have hinner := countingAt_inner chk p hcnt (some (b.getD 0))
  have hpolled : poll chk stuck (countingAt p n b) tick
      = throttle chk stuck (countingAt p n (some (b.getD 0))) tick := rfl
  by_cases hdue : (n + 1) % inter = 0
  · cases hp : p.fixedIntervalCount with
    | some pendPeriod => exact ⟨_, countingAt_backoff chk hp hcnt hdue b⟩
    | none =>
        refine ⟨_, hpolled.trans (Eq.trans ?_ hinner)⟩
        unfold throttle
        dsimp only [countingAt]
        rw [hcnt]
        dsimp only
        rw [if_pos hdue, hp]
  · refine ⟨_, hpolled.trans (Eq.trans ?_ hinner)⟩
    unfold throttle
    dsimp only [countingAt]
    rw [hcnt]
    dsimp only
    rw [if_neg hdue]

/-- Any number of counts below the end of the range. -/
theorem countingAt_run (chk : Bool) (p : Priority) {n : Nat} (hlt : n < 2 ^ 32) :
    ∃ b ts, (countPolls chk stuck p ()).exec (countPolls chk stuck p ()).init
        (List.replicate n tick) = some (⟨countingAt p n b, false⟩, ts) := by
  induction n with
  | zero => exact ⟨none, [], rfl⟩
  | succ n ih =>
      obtain ⟨b, ts, hrun⟩ := ih (by omega)
      obtain ⟨acts, hpoll⟩ := countingAt_poll chk p hlt b
      have hstep := polls_pending (s := PendingFuture.new ⟨p⟩ ()) hpoll
      rw [List.replicate_succ']
      exact ⟨_, _, Lts.exec_append.mpr ⟨_, ts, _, hrun, Lts.exec_one hstep, rfl⟩⟩

/--
A build that checks panics in the poll after `2 ^ 32 - 1` `Pending` answers, without a
back-off at `VeryHigh`; one that does not inserts two back-offs in a row at `Low`.
-/
theorem not_counters_in_range :
    (¬ ∀ p (envs : List (Env Unit)), CountsInRange true stuck p () envs)
      ∧ ¬ ∀ p (envs : List (Env Unit)), CountsInRange false stuck p () envs := by
  refine ⟨?_, ?_⟩
  · intro h
    have hlast : 2 ^ 32 - 1 < 2 ^ 32 := by decide
    obtain ⟨b, ts, hrun⟩ := countingAt_run true .veryHigh hlast
    have hret := (h .veryHigh (List.replicate (2 ^ 32 - 1) tick ++ [tick])).returns rfl _ tick _ ts
      List.prefix_rfl hrun
    exact hret .overflow rfl
  · intro h
    have hlast : 2 ^ 32 - 2 < 2 ^ 32 := by decide
    obtain ⟨b, ts, hrun⟩ := countingAt_run false .low hlast
    -- the last count in range is a multiple of five, and so is the zero that follows it
    have hfirst := countingAt_backoff false (p := .low) rfl (n := 2 ^ 32 - 2) (m := 2 ^ 32 - 1)
      (by decide) (by decide) b
    have hsecond := countingAt_backoff false (p := .low) rfl (n := 2 ^ 32 - 1) (m := 0)
      (by decide) (by decide) (some (b.getD 0))
    have hstep₁ := polls_pending (s := PendingFuture.new ⟨.low⟩ ()) hfirst
    have hstep₂ := polls_pending (s := PendingFuture.new ⟨.low⟩ ()) hsecond
    have hrow := Lts.exec_cons.mpr ⟨_, _, _, hstep₁, Lts.exec_one hstep₂, rfl⟩
    have hall := Lts.exec_append.mpr ⟨_, ts, _, hrun, hrow, rfl⟩
    have hapart := (h .low (List.replicate (2 ^ 32 - 2) tick ++ [tick, tick])).apart rfl _ _ _
      List.prefix_rfl hall
    refine hapart (runActs ts) (fromMillis 29) [.sleepPolled 0 (.ready ()), .woke 0] (fromMillis 29)
      [.sleepPolled 0 (.ready ()), .woke 0] ?_ rfl
    unfold runActs
    rw [List.flatMap_append]
    rfl

end RsRun.Proof
