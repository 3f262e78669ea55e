import RsRun.Lib.Slept
import RsRun.PendingFuture.SpawnSystem
import RsRun.Proof.Conservation
import RsRun.Proof.Held

/-!
# What part of the time `mode_time` lets a future run

Ten microseconds of polling cost half a period of milliseconds. On a runtime that keeps
time this is a share of it: in any stretch of time, what a throttled future ran is paid for
by the time it slept, but for ten microseconds and the last poll, which have not been paid
off yet.
-/

namespace RsRun.Proof

open Async ModeTime SpawnSystem Meter

variable {φ ω ν : Type*}

section
variable {chk : Bool} {pollF : φ → Cx ω → φ × Poll ν}

/-! ## When a poll returns -/

theorem timeInner_returns {this : PendingFuture φ} {env : Env ω} (hle : this.addingUpTime ≤ inter)
    (hshort : inter + elapsedTime env < 2 ^ 64) (why : Panic) :
    (pollInner chk pollF this env).res ≠ .panicked why := by
  have hadd : Word.add chk 64 this.addingUpTime (elapsedMicros env.beginNow env.polledNow)
      = some (this.addingUpTime + elapsedTime env) := by
    refine Word.fit_of_lt ?_
    change this.addingUpTime + elapsedTime env < 2 ^ 64
    omega
  unfold pollInner
  dsimp only
  rw [hadd]
  cases (pollF this.future env.cx).2 with
  | ready v => simp
  | pending => simp

theorem timeThrottle_returns {this : PendingFuture φ} {env : Env ω} {pendPeriod : Nat}
    (hp : this.handle.priority.fixedIntervalTimeMs = some pendPeriod)
    (hlt : this.addingUpTime < 2 ^ 64) (hshort : inter + elapsedTime env < 2 ^ 64) (why : Panic) :
    (throttle chk pollF this env).res ≠ .panicked why := by
  unfold throttle
  rw [hp]
  dsimp only
  by_cases hdue : inter < this.addingUpTime
  · rw [if_pos hdue, payOff_eq chk hlt]
    dsimp only
    rw [sleepMillis_eq chk (period_le hp) hlt]
    dsimp only
    rcases insertBackoff_cases (ω := ω) (ν := ν) (χ := Nat)
      (fun state => { this with
        state := state
        addingUpTime := this.addingUpTime % inter
        insertedPendCnt := Word.fetchAdd 32 this.insertedPendCnt 1 })
      (fromMillis (backoffMillis pendPeriod (this.addingUpTime / inter))) env.cx.waker
      env.inserted with ⟨_, h⟩ | ⟨_, h⟩
    · rw [h]
      simp [Polled.after]
    · rw [h]
      simp [Polled.after]
  · rw [if_neg hdue]
    exact timeInner_returns (Nat.le_of_not_lt hdue) hshort why

/-- A throttled poll returns unless its time is next to `2 ^ 64` microseconds. -/
theorem time_returns {this : PendingFuture φ} {env : Env ω} {pendPeriod : Nat}
    (hp : this.handle.priority.fixedIntervalTimeMs = some pendPeriod)
    (hlt : this.addingUpTime < 2 ^ 64) (hshort : inter + elapsedTime env < 2 ^ 64) (why : Panic) :
    (poll chk pollF this env).res ≠ .panicked why := by
  have hthrottle := @timeThrottle_returns φ ω ν chk pollF { this with state := .common } env
    pendPeriod hp hlt hshort why
  unfold poll
  rcases pollBackoff_cases this.state (fun state => { this with state := state }) env.cx.waker
    env.stored (fun _ => throttle chk pollF { this with state := .common } env) with
    ⟨_, h⟩ | ⟨_, _, _, h⟩ | ⟨_, _, _, h⟩
  · rw [h]
    exact hthrottle
  · rw [h]
    exact hthrottle
  · rw [h]
    simp

/-! ## What is charged and what is slept -/

/-- Since some moment: what was charged has been paid for with sleeps, or is still carried. -/
structure PaidTime (h : CommonRuntimeHandle) (pendPeriod : Nat) (w : PendingFuture φ)
    (ts : List (Turn (PendingFuture φ) (Env ω) ω ν Nat)) : Prop where
  handle : w.handle = h
  lt : w.addingUpTime < 2 ^ 64
  charged : (feeds (marks ts)).sum ≤ inter * (owns (runActs ts)).sum + w.addingUpTime
  /-- Only the last poll that left the future pending can have gone beyond `inter`. -/
  carried : ∀ last, (feeds (marks ts)).getLast? = some last → w.addingUpTime ≤ inter + last
  slept : insertions (runActs ts)
    = (owns (runActs ts)).map (fun time => fromMillis (backoffMillis pendPeriod time))

/-- No poll takes as long as `2 ^ 64` microseconds. -/
def Short (ts : List (Turn (PendingFuture φ) (Env ω) ω ν Nat)) : Prop :=
  ∀ turn ∈ ts, inter + elapsedTime turn.input < 2 ^ 64

section
variable {h : CommonRuntimeHandle} {pendPeriod : Nat} {w w' : PendingFuture φ} {env : Env ω}
  {ts : List (Turn (PendingFuture φ) (Env ω) ω ν Nat)}
  {t : Turn (PendingFuture φ) (Env ω) ω ν Nat}

theorem feeds_snoc : feeds (marks (ts ++ [t])) = feeds (marks ts)
    ++ if pendings t.out.acts = 0 then [] else [elapsedTime t.input] := by
  rw [marks_snoc, feeds_append, marksOf, feeds_append, feeds_map_paid, List.nil_append]
  split
  · rfl
  · rfl

theorem PaidTime.quiet (hpaid : PaidTime h pendPeriod w ts) {ps : List (Cx ω × Poll ν)}
    (hs : Shows t.out.acts [] [] ps []) (hhandle : w'.handle = w.handle)
    (htime : w'.addingUpTime = w.addingUpTime) : PaidTime h pendPeriod w' (ts ++ [t]) := by
  have hfeeds : feeds (marks (ts ++ [t])) = feeds (marks ts) := by
    rw [feeds_snoc, hs.pendings]
    exact List.append_nil _
  refine ⟨hhandle.trans hpaid.handle, htime ▸ hpaid.lt, ?_, ?_, ?_⟩
  · rw [hfeeds, runActs_snoc, owns_append, hs.owns, htime, List.append_nil]
    exact hpaid.charged
  · rw [hfeeds, htime]
    exact hpaid.carried
  · rw [runActs_snoc, owns_append, insertions_append, hs.owns, hs.insertions, List.append_nil,
      List.append_nil]
    exact hpaid.slept

/-- **What one poll that returns keeps.** -/
theorem paidTime_step (hp : h.priority.fixedIntervalTimeMs = some pendPeriod)
    (hpaid : PaidTime h pendPeriod w ts) (hshort : inter + elapsedTime env < 2 ^ 64)
    (hret : ∀ why, (poll chk pollF w env).res ≠ .panicked why) :
    PaidTime h pendPeriod (poll chk pollF w env).next
      (ts ++ [⟨w, env, poll chk pollF w env⟩]) := by
  cases modeTime_moves w env hpaid.lt hret with
  | waiting state _ _ _ _ hn hs => exact hpaid.quiet hs (by rw [hn]) (by rw [hn])
  | ready v _ _ hn hs => exact hpaid.quiet hs (by rw [hn]) (by rw [hn])
  | backoff period state hperiod hdue _ hn hs =>
      rw [hpaid.handle, hp] at hperiod
      injection hperiod with hperiod
      subst hperiod
      have hfeeds : feeds (marks (ts ++ [⟨w, env, poll chk pollF w env⟩])) = feeds (marks ts) := by
        rw [feeds_snoc, hs.pendings]
        exact List.append_nil _
      have hmod : w.addingUpTime % inter < inter := Nat.mod_lt _ (by decide)
      rw [hn]
      refine ⟨hpaid.handle, (Nat.mod_le _ _).trans_lt hpaid.lt, ?_, ?_, ?_⟩
      · rw [hfeeds, runActs_snoc, owns_append, hs.owns, List.sum_append, List.sum_singleton,
          Nat.mul_add]
        change (feeds (marks ts)).sum ≤ _ + w.addingUpTime % inter
        have hcharged := hpaid.charged
        have hdiv := Nat.div_add_mod w.addingUpTime inter
        omega
      · intro last _
        change w.addingUpTime % inter ≤ inter + last
        omega
      · rw [runActs_snoc, owns_append, insertions_append, hs.owns, hs.insertions, hpaid.slept,
          List.map_append]
        rfl
  | pending hdue _ hn hs =>
      have hle : w.addingUpTime ≤ inter := by
        rcases hdue with hnone | hle
        · rw [hpaid.handle, hp] at hnone
          exact absurd hnone (by simp)
        · exact hle
      have hfits : (w.addingUpTime + elapsedTime env) % 2 ^ 64 = w.addingUpTime + elapsedTime env :=
        Nat.mod_eq_of_lt (by omega)
      have hfeeds : feeds (marks (ts ++ [⟨w, env, poll chk pollF w env⟩]))
          = feeds (marks ts) ++ [elapsedTime env] := by
        rw [feeds_snoc, hs.pendings]
        rfl
      rw [hn]
      refine ⟨hpaid.handle, Nat.mod_lt _ (by decide), ?_, ?_, ?_⟩
      · rw [hfeeds, List.sum_append, List.sum_singleton, runActs_snoc, owns_append, hs.owns,
          List.append_nil, hfits]
        change (feeds (marks ts)).sum + elapsedTime env
          ≤ inter * (owns (runActs ts)).sum + (w.addingUpTime + elapsedTime env)
        have hcharged := hpaid.charged
        omega
      · intro last hlast
        rw [hfeeds, List.getLast?_concat] at hlast
        injection hlast with hlast
        change (w.addingUpTime + elapsedTime env) % 2 ^ 64 ≤ inter + last
        rw [hfits]
        omega
      · rw [runActs_snoc, owns_append, insertions_append, hs.owns, hs.insertions, List.append_nil,
          List.append_nil]
        exact hpaid.slept

/-- Over a run of the wrapper on its own. -/
theorem paidTime_exec (hp : w.handle.priority.fixedIntervalTimeMs = some pendPeriod)
    (hlt : w.addingUpTime < 2 ^ 64) {is : List (Env ω)} {q : Polling (PendingFuture φ)}
    (hrun : (polls (poll chk pollF) w).exec (polls (poll chk pollF) w).init is = some (q, ts))
    (hshort : Short ts) : PaidTime w.handle pendPeriod q.wrapper ts := by
  refine polls_log (P := fun v us => Short us → PaidTime w.handle pendPeriod v us) ?_ ?_ hrun hshort
  · exact fun _ => ⟨rfl, hlt, Nat.zero_le _, fun _ hlast => absurd hlast (by simp [marks, feeds]), rfl⟩
  · intro v env us hpaid hret hshort
    refine paidTime_step hp (hpaid ?_) ?_ hret
    · exact fun turn hturn => hshort turn (List.mem_append_left _ hturn)
    · exact hshort _ (List.mem_append_right _ (List.mem_singleton.mpr rfl))

end

/-- The whole milliseconds of some durations are no more than those of their sum. -/
theorem millis_le_sum (ds : List Nat) : millis ds ≤ ds.sum / 1000000 := by
  induction ds with
  | nil => exact Nat.zero_le _
  | cons d ds ih =>
      unfold millis at ih ⊢
      rw [List.map_cons, List.sum_cons, List.sum_cons]
      omega

/-! ## On a runtime that keeps time -/

section
variable {p p' : Pool (PendingFuture φ) ν} {as : List (PoolAction (Job φ) (Env ω))}
  {es : List (PoolEvent (Job φ) (PendingFuture φ) (Env ω) ω ν Nat)} {k : Nat}

theorem addingUpTime_lt (hreach : (timeRuntime chk pollF).Reachable p)
    {t : Task (PendingFuture φ) ν} (ht : p.tasks[k]? = some t) (hlive : t.fate = .live) :
    t.wrapper.addingUpTime < 2 ^ 64 := by
  obtain ⟨as, es, hrun⟩ := hreach
  obtain ⟨job, _, hran⟩ :=
    (held_ran_init (modeTime_held chk pollF) (fun _ => rfl) hrun).tasks k t ht
  cases hran with
  | panicked is v i us why hrun hts hr hw hdead =>
      rw [hlive] at hdead
      exact absurd hdead (by simp)
  | returned is q hrun hw hdone =>
      rw [hw]
      refine polls_log (P := fun v _ => v.addingUpTime < 2 ^ 64) (Nat.two_pow_pos 64) ?_ hrun
      intro v env us hlt hret
      cases modeTime_moves v env hlt hret with
      | waiting state _ _ _ _ hn hs => rw [hn]; exact hlt
      | ready v _ _ hn hs => rw [hn]; exact hlt
      | backoff _ state _ _ _ hn hs => rw [hn]; exact (Nat.mod_le _ _).trans_lt hlt
      | pending _ _ hn hs => rw [hn]; exact Nat.mod_lt _ (by decide)

/-- A throttled task, from some moment of a run on. -/
theorem paidTime_task (hreach : (timeRuntime chk pollF).Reachable p)
    (hrun : (timeRuntime chk pollF).exec p as = some (p', es)) {t : Task (PendingFuture φ) ν}
    (ht : p'.tasks[k]? = some t) {pendPeriod : Nat}
    (hp : t.wrapper.handle.priority.fixedIntervalTimeMs = some pendPeriod)
    (hshort : Short (turns (history k es))) (hne : turns (history k es) ≠ []) :
    PaidTime t.wrapper.handle pendPeriod t.wrapper (turns (history k es)) := by
  rcases held_ran (modeTime_held chk pollF) (fun _ => rfl) hreach hrun ht with
    ⟨_, hnil⟩ | ⟨w, hstart, hran⟩
  · exact absurd hnil hne
  · have hlt : w.addingUpTime < 2 ^ 64 := by
      rcases hstart with ⟨t₀, ht₀, hlive, rfl⟩ | ⟨job, rfl⟩
      · exact addingUpTime_lt hreach ht₀ hlive
      · exact Nat.two_pow_pos 64
    have hhandle : ∀ {is : List (Env ω)} {q us}, (polls (poll chk pollF) w).exec
        (polls (poll chk pollF) w).init is = some (q, us) → q.wrapper.handle = w.handle := by
      intro is q us hrun
      refine polls_log (P := fun v _ => v.handle = w.handle) rfl ?_ hrun
      exact fun v env _ hv _ => (time_poll_handle v env).trans hv
    cases hran with
    | returned is q hrun hw _ =>
        rw [hw, hhandle hrun] at hp ⊢
        exact paidTime_exec hp hlt hrun hshort
    | panicked is v i us why hrun hts hr hw _ =>
        -- it has no reason to
        rw [hw, time_poll_handle, hhandle hrun] at hp
        rw [hts] at hshort
        have hpaid := paidTime_exec hp hlt hrun
          (fun turn hturn => hshort turn (List.mem_append_left _ hturn))
        have hlast := hshort _ (List.mem_append_right _ (List.mem_singleton.mpr rfl))
        have hperiod : v.handle.priority.fixedIntervalTimeMs = some pendPeriod :=
          (congrArg (fun h => h.priority.fixedIntervalTimeMs) hpaid.handle).trans hp
        exact absurd hr (time_returns hperiod hpaid.lt hlast why)

end

end

/--
**The share of a throttled future.**

In any stretch of any run, the microseconds that its pending polls took, times its period,
come to no more than twenty times the milliseconds that passed (and what is left of its
sleep), but for ten microseconds and those of the last of these polls.
-/
theorem time_share (chk : Bool) (pollF : φ → Cx ω → φ × Poll ν)
    {p p' : Pool (PendingFuture φ) ν} {as : List (PoolAction (Job φ) (Env ω))}
    {es : List (PoolEvent (Job φ) (PendingFuture φ) (Env ω) ω ν Nat)}
    (hreach : (timeRuntime chk pollF).Reachable p)
    (hrun : (timeRuntime chk pollF).exec p as = some (p', es))
    {k : Nat} {t : Task (PendingFuture φ) ν} (ht : p'.tasks[k]? = some t) {pendPeriod : Nat}
    (hp : t.wrapper.handle.priority.fixedIntervalTimeMs = some pendPeriod)
    (hshort : Short (turns (history k es))) :
    pendPeriod * (feeds (marks (turns (history k es)))).sum
      ≤ 20 * ((p'.now - p.now + t.rest p'.now) / 1000000)
        + pendPeriod * (10 + (feeds (marks (turns (history k es)))).getLastD 0) := by
  cases hlast : (feeds (marks (turns (history k es)))).getLast? with
  | none =>
      rw [List.getLast?_eq_none_iff.mp hlast]
      exact Nat.zero_le _
  | some last =>
      have hne : turns (history k es) ≠ [] := by
        intro hnil
        rw [hnil] at hlast
        exact absurd hlast (by simp [marks, feeds])
      obtain ⟨_, _, hcharged, hcarried, hslept⟩ := paidTime_task hreach hrun ht hp hshort hne
      have hcarried := hcarried last hlast
      have hfit := (held_slept (modeTime_held chk pollF) (fun _ => rfl) hreach hrun ht).total
      have hbounds := (millis_bounds_time pendPeriod (owns (deeds (history k es)))).1
      have hpaid : insertions (deeds (history k es)) = (owns (deeds (history k es))).map
        (fun time => fromMillis (backoffMillis pendPeriod time)) := hslept
      rw [← hpaid] at hbounds
      have hmillis : millis (insertions (deeds (history k es)))
          ≤ (p'.now - p.now + t.rest p'.now) / 1000000 :=
        (millis_le_sum _).trans (Nat.div_le_div_right (by omega))
      rw [List.getLastD_eq_getLast?, hlast, Option.getD_some]
      calc pendPeriod * (feeds (marks (turns (history k es)))).sum
          ≤ pendPeriod * (inter * (owns (deeds (history k es))).sum + t.wrapper.addingUpTime) :=
            Nat.mul_le_mul_left _ hcharged
        _ ≤ pendPeriod * (inter * (owns (deeds (history k es))).sum + (inter + last)) :=
            Nat.mul_le_mul_left _ (Nat.add_le_add_left hcarried _)
        _ = 10 * (pendPeriod * (owns (deeds (history k es))).sum) + pendPeriod * (10 + last) := by
            unfold inter
            ring
        _ ≤ 20 * ((p'.now - p.now + t.rest p'.now) / 1000000) + pendPeriod * (10 + last) := by
            omega

/-- Thirty-four microseconds, a sleep of twelve milliseconds, and five microseconds. -/
def ranAndSlept : List (PoolAction (Job Unit) (Env Unit)) :=
  [.poll 0 (timeEnv .pending .pending 34) 34000, .wake 0,
    .poll 0 (timeEnv .pending .pending 0) 0, .tick 12000000, .fire 0,
    .poll 0 (timeEnv (.ready ()) .pending 5) 5000]

/-- At `Low`, in the thirteenth millisecond. -/
theorem time_share_low :
    ∃ p p' t es, (timeRuntime true stuck).Reachable p
      ∧ (timeRuntime true stuck).exec p ranAndSlept = some (p', es) ∧ p'.tasks[0]? = some t
      ∧ t.wrapper.handle.priority.fixedIntervalTimeMs = some 7 ∧ t.rest p'.now = 0
      ∧ feeds (marks (turns (history 0 es))) = [34, 5]
      ∧ 7 * (feeds (marks (turns (history 0 es)))).sum
        ≤ 20 * ((p'.now - p.now + t.rest p'.now) / 1000000)
          + 7 * (10 + (feeds (marks (turns (history 0 es)))).getLastD 0) := by
  have hshare := @time_share Unit Unit Unit true stuck _ _ ranAndSlept _
    ⟨[.spawn ⟨.low, ()⟩], _, rfl⟩ rfl 0 _ rfl 7 rfl (by unfold Short; decide)
  exact ⟨_, _, _, _, ⟨[.spawn ⟨.low, ()⟩], _, rfl⟩, rfl, rfl, rfl, rfl, rfl, hshare⟩

end RsRun.Proof
