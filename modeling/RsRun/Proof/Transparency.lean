import RsRun.Proof.CounterRange
import RsRun.Proof.Unthrottled

/-!
# Throttling is transparent

Whatever the three wrappers do about back-offs, the future inside sees nothing of
it: it is polled at most once a turn, its answer is the wrapper's answer, and over
a run it gives the answers it would have given if it had been polled directly. With
priority `VeryHigh` there is not even a delay.

What can come in between is arithmetic, in a build that checks for overflow: a poll
that panics passes nothing on. At a throttled priority that matters only where the
inner future has just answered `ready`; at `VeryHigh`, where every poll is to pass
through, it matters everywhere.
-/

namespace RsRun.Proof

open Async

/-- What transparency asks of a wrapper of priority `p` that is polled with `is` from `s` on. -/
structure Transparent {σ ι φ ω ν χ : Type*} (p : Priority) (pollF : φ → Cx ω → φ × Poll ν)
    (inner : σ → φ) (cx : ι → Cx ω) (poll : σ → ι → Polled σ ω ν χ) (s : σ) (is : List ι) :
    Prop where
  /-- The run is transparent. -/
  run : TransparentRun pollF inner s (drive poll s is)
  /-- At the highest priority every poll passes straight through. -/
  veryHigh : p = .veryHigh → ∀ t ∈ drive poll s is,
    PassThrough pollF (cx t.input) (inner t.before) t.out

section
variable {σ ι φ ω ν χ : Type*} {chk : Bool} {p : Priority} {pollF : φ → Cx ω → φ × Poll ν}
  {inner : σ → φ} {stored : σ → Option Sleep} {cx : ι → Cx ω} {poll : σ → ι → Polled σ ω ν χ}

/--
A throttling wrapper that an invariant lets through at `VeryHigh` is transparent when its
polls deliver what the inner future answers, and at `VeryHigh` all return.
-/
theorem transparent_iff
    (h : ∀ s i, Throttled pollF inner stored chk (cx i) (inner s) (poll s i))
    {I : σ → Prop} {s : σ} (h0 : p = .veryHigh → I s)
    (hI : ∀ s i, I s → ((∀ why, (poll s i).res ≠ .panicked why) →
      PassThrough pollF (cx i) (inner s) (poll s i)) ∧ I (poll s i).next) (is : List ι) :
    Transparent p pollF inner cx poll s is
      ↔ EachPoll poll s is (fun w i _ => Delivers (poll w i))
        ∧ (p = .veryHigh → EachPoll poll s is
          (fun w i _ => ∀ why, (poll w i).res ≠ .panicked why)) := by
  have hrun : TransparentRun pollF inner s (drive poll s is)
      ↔ EachPoll poll s is (fun w i _ => Delivers (poll w i)) := by
    have hturns : TransparentRun pollF inner s (drive poll s is)
        ↔ ∀ t ∈ drive poll s is, TransparentPoll pollF inner (inner t.before) t.out :=
      ⟨fun hr => hr.turns, transparent_drive⟩
    rw [hturns, drive_each]
    exact EachPoll.congr fun _ i w _ _ => (h w i).transparent_iff
  have hpass : p = .veryHigh →
      ((∀ t ∈ drive poll s is, PassThrough pollF (cx t.input) (inner t.before) t.out)
        ↔ EachPoll poll s is (fun w i _ => ∀ why, (poll w i).res ≠ .panicked why)) := by
    intro hp
    rw [drive_each]
    refine EachPoll.congr fun is' i w ts hexec => ⟨fun hpt => hpt.returns, ?_⟩
    have hinv : I w := polls_log (P := fun w _ => I w) (h0 hp) (fun w i _ hw _ => (hI w i hw).2) hexec
    exact (hI w i hinv).1
  constructor
  · intro ht
    exact ⟨hrun.mp ht.run, fun hp => (hpass hp).mp (ht.veryHigh hp)⟩
  · rintro ⟨hd, hret⟩
    exact ⟨hrun.mpr hd, fun hp => (hpass hp).mpr (hret hp)⟩

/-- Without overflow checks nothing panics, and nothing comes in between. -/
theorem unchecked_transparent
    (h : ∀ s i, Throttled pollF inner stored false (cx i) (inner s) (poll s i))
    {I : σ → Prop} {s : σ} (h0 : p = .veryHigh → I s)
    (hI : ∀ s i, I s → ((∀ why, (poll s i).res ≠ .panicked why) →
      PassThrough pollF (cx i) (inner s) (poll s i)) ∧ I (poll s i).next) (is : List ι) :
    Transparent p pollF inner cx poll s is := by
  have hret : ∀ s i why, (poll s i).res ≠ .panicked why :=
    fun s i why hp => absurd ((h s i).panic hp).2 (by simp)
  refine (transparent_iff h h0 hI is).mpr ⟨?_, ?_⟩
  · exact fun _ i w _ _ _ => (h w i).delivers (hret w i)
  · exact fun _ _ i w _ _ _ => hret w i

end

/-! ## What a poll delivers -/

section
variable {σ φ ω ν χ L : Type*} {pollF : φ → Cx ω → φ × Poll ν}

theorem pollBackoff_delivers {put : State → σ} {rest : Bool → Polled σ ω ν χ}
    (hrest : ∀ b, Delivers (rest b)) (state : State) (w : Waker) (answer : Poll Unit) :
    Delivers (pollBackoff state put w answer rest) := by
  rcases pollBackoff_cases state put w answer rest with ⟨_, h⟩ | ⟨_, _, _, h⟩ | ⟨_, _, _, h⟩
  · rw [h]; exact hrest false
  · rw [h]; exact (hrest true).after rfl
  · rw [h]; exact delivers_of_unpolled rfl

theorem insertBackoff_delivers (put : State → σ) (d : Nat) (w : Waker) (answer : Poll Unit) :
    Delivers (insertBackoff (ω := ω) (ν := ν) (χ := χ) put d w answer) := by
  rcases insertBackoff_cases (ω := ω) (ν := ν) (χ := χ) put d w answer with ⟨_, h⟩ | ⟨_, h⟩
  · rw [h]; exact delivers_of_unpolled rfl
  · rw [h]; exact delivers_of_unpolled rfl

/-- `mode_count` adds up the time of the poll before it looks at the answer. -/
theorem modeCount_delivers {this : ModeCount.PendingFuture φ} {env : ModeCount.Env ω} :
    Delivers (ModeCount.poll true pollF this env)
      ↔ (ComesToInner this env → this.pendCnt + 1 < 2 ^ 32 →
        (pollF this.future env.cx).2 ≠ .pending → this.pollTime + charged env < 2 ^ 64) := by
  have hthrottled := modeCount_throttled true pollF this env
  constructor
  · intro hd hcomes hin hne
    rcases modeCount_polled pollF this env with ⟨_, _, hacts⟩ | ⟨hnot, _⟩
    · cases hres : (pollF this.future env.cx).2 with
      | pending => exact absurd hres hne
      | ready v =>
          have hready := hd env.cx v (by rw [hacts, hres]; exact List.mem_cons_self)
          exact (modeCount_returns.mp (by rw [hready]; simp)).2 hcomes
    · exact absurd ⟨hcomes, hin⟩ hnot
  · intro hfits c v hm
    rcases modeCount_polled pollF this env with ⟨hcomes, hin, hacts⟩ | ⟨_, hacts⟩
    · have hres : (pollF this.future env.cx).2 = .ready v := by
        rw [hacts] at hm
        exact (congrArg Prod.snd (List.mem_singleton.mp hm)).symm
      have hret : ∀ why, (ModeCount.poll true pollF this env).res ≠ .panicked why :=
        modeCount_returns.mpr ⟨fun _ => hin, fun _ => hfits hcomes hin (by rw [hres]; simp)⟩
      exact hthrottled.delivers hret c v hm
    · rw [hacts] at hm
      exact absurd hm List.not_mem_nil

/-- `mode_time` adds up the times of pending polls only. -/
theorem modeTime_delivers (chk : Bool) (this : ModeTime.PendingFuture φ) (env : ModeTime.Env ω) :
    Delivers (ModeTime.poll chk pollF this env) := by
  have hinner : ∀ this : ModeTime.PendingFuture φ,
      Delivers (ModeTime.pollInner chk pollF this env) := by
    intro this
    unfold ModeTime.pollInner
    dsimp only
    cases (pollF this.future env.cx).2 with
    | ready r => exact delivers_of_ready rfl rfl
    | pending =>
        dsimp only
        split
        · exact delivers_of_pending rfl
        · exact delivers_of_pending rfl
  rw [ModeTime.poll]
  refine pollBackoff_delivers (fun _ => ?_) _ _ _
  rw [ModeTime.throttle]
  split
  · exact hinner _
  · split
    · dsimp only
      split
      · exact delivers_of_unpolled rfl
      · split
        · exact delivers_of_unpolled rfl
        · exact (insertBackoff_delivers _ _ _ _).after rfl
    · exact hinner _

/-- `mode_ratelimiter` counts pending polls only. -/
theorem modeRatelimiter_delivers (chk : Bool) (tryWait : ModeRatelimiter.Limiter L)
    (this : ModeRatelimiter.PendingFuture φ) (seen : Shared L × ModeRatelimiter.Env ω) :
    Delivers (ModeRatelimiter.pollAlone chk pollF tryWait this seen) := by
  change Delivers (ModeRatelimiter.poll chk pollF tryWait seen.1 this seen.2)
  cases limiter_moves chk pollF tryWait seen.1 this seen.2 with
  | waiting _ _ _ _ hs => exact delivers_of_unpolled hs.innerPolls
  | refused _ _ _ _ _ _ _ _ _ hs => exact delivers_of_unpolled hs.innerPolls
  | pending _ _ _ _ _ _ _ _ _ _ hs => exact delivers_of_pending hs.innerPolls
  | ready _ _ _ _ _ _ _ hr _ hs => exact delivers_of_ready hs.innerPolls hr
  | askPanics _ _ _ _ _ _ hs => exact delivers_of_unpolled hs.innerPolls
  | answerPanics _ _ _ _ _ _ _ _ _ _ hs => exact delivers_of_pending hs.innerPolls

end

/-! ## What the sums of a run must keep to -/

section
variable {φ ω ν L : Type*} (pollF : φ → Cx ω → φ × Poll ν) (p : Priority) (future : φ)

/-- What a run of `mode_count` must keep to in a build that checks. -/
structure CountFits (envs : List (ModeCount.Env ω)) : Prop where
  /-- Where the inner future is polled and answers `ready`, the time of the poll is added. -/
  answers : EachPoll (ModeCount.poll true pollF) (ModeCount.PendingFuture.new ⟨p⟩ future) envs
    (fun w env ts => ComesToInner w env →
      pendings (runActs ts) + (insertions (runActs ts)).length + 1 < 2 ^ 32 →
      (pollF w.future env.cx).2 ≠ .pending → chargedMicros ts + charged env < 2 ^ 64)
  /-- At the highest priority everything is to be counted and added. -/
  veryHigh : p = .veryHigh → CountsBelow true pollF p future envs

/-- What a run of `mode_time` must keep to in a build that checks. -/
def TimeFits (envs : List (ModeTime.Env ω)) : Prop :=
  p = .veryHigh → TimesBelow pollF future envs

/-- What a run of `mode_ratelimiter` must keep to in a build that checks. -/
def LimiterFits (tryWait : ModeRatelimiter.Limiter L)
    (seens : List (Shared L × ModeRatelimiter.Env ω)) : Prop :=
  p = .veryHigh → AddsBelow true pollF tryWait p future seens

variable {pollF p future}

theorem count_transparent (chk : Bool) {envs : List (ModeCount.Env ω)} :
    Transparent p pollF ModeCount.PendingFuture.future ModeCount.Env.cx
        (ModeCount.poll chk pollF) (ModeCount.PendingFuture.new ⟨p⟩ future) envs
      ↔ (chk = true → CountFits pollF p future envs) := by
  have h0 : p = .veryHigh → CountFree (ModeCount.PendingFuture.new ⟨p⟩ future) :=
    fun hp => ⟨hp, rfl⟩
  cases chk with
  | false =>
      have hall := unchecked_transparent (modeCount_throttled false pollF) h0
        (fun s env h => modeCount_free h env) envs
      exact ⟨fun _ hchk => absurd hchk (by simp), fun _ => hall⟩
  | true =>
      have hiff := transparent_iff (modeCount_throttled true pollF) h0
        (fun s env h => modeCount_free h env) envs
      have hdelivers : EachPoll (ModeCount.poll true pollF)
            (ModeCount.PendingFuture.new ⟨p⟩ future) envs
            (fun w env _ => Delivers (ModeCount.poll true pollF w env))
          ↔ EachPoll (ModeCount.poll true pollF) (ModeCount.PendingFuture.new ⟨p⟩ future) envs
            (fun w env ts => ComesToInner w env →
              pendings (runActs ts) + (insertions (runActs ts)).length + 1 < 2 ^ 32 →
              (pollF w.future env.cx).2 ≠ .pending →
              chargedMicros ts + charged env < 2 ^ 64) := by
        refine EachPoll.congr fun envs' env w ts hrun => ?_
        obtain ⟨hcnt, htime⟩ := checked_exact hrun
        dsimp only at hcnt htime
        rw [← hcnt, ← htime]
        exact modeCount_delivers
      rw [hiff, hdelivers, ← countsBelow_iff_returns]
      exact ⟨fun h _ => ⟨h.1, h.2⟩, fun h => ⟨(h rfl).answers, (h rfl).veryHigh⟩⟩

theorem time_transparent (chk : Bool) {envs : List (ModeTime.Env ω)} :
    Transparent p pollF ModeTime.PendingFuture.future ModeTime.Env.cx
        (ModeTime.poll chk pollF) (ModeTime.PendingFuture.new ⟨p⟩ future) envs
      ↔ (chk = true → TimeFits pollF p future envs) := by
  have h0 : p = .veryHigh → TimeFree (ModeTime.PendingFuture.new ⟨p⟩ future) :=
    fun hp => ⟨hp, rfl⟩
  cases chk with
  | false =>
      have hall := unchecked_transparent (modeTime_throttled false pollF) h0
        (fun s env h => modeTime_free h env) envs
      exact ⟨fun _ hchk => absurd hchk (by simp), fun _ => hall⟩
  | true =>
      rw [transparent_iff (modeTime_throttled true pollF) h0 (fun s env h => modeTime_free h env)
        envs]
      constructor
      · rintro ⟨_, hret⟩ _ hp
        subst hp
        exact timesBelow_iff_returns.mpr (hret rfl)
      · intro h
        refine ⟨fun _ env w _ _ _ => modeTime_delivers true w env, fun hp => ?_⟩
        subst hp
        exact timesBelow_iff_returns.mp (h rfl rfl)

theorem limiter_transparent (chk : Bool) (tryWait : ModeRatelimiter.Limiter L)
    {seens : List (Shared L × ModeRatelimiter.Env ω)} :
    Transparent p pollF ModeRatelimiter.PendingFuture.future
        (fun seen : Shared L × ModeRatelimiter.Env ω => seen.2.cx)
        (ModeRatelimiter.pollAlone chk pollF tryWait)
        (ModeRatelimiter.PendingFuture.new (RateLimiterRuntimeHandle.new p) future) seens
      ↔ (chk = true → LimiterFits pollF p future tryWait seens) := by
  have h0 : p = .veryHigh → LimiterFree
      (ModeRatelimiter.PendingFuture.new (RateLimiterRuntimeHandle.new p) future) :=
    fun hp => ⟨by rw [hp]; rfl, rfl⟩
  cases chk with
  | false =>
      have hall := unchecked_transparent (modeRatelimiter_alone_throttled false pollF tryWait) h0
        (fun s seen h => modeRatelimiter_free h tryWait seen) seens
      exact ⟨fun _ hchk => absurd hchk (by simp), fun _ => hall⟩
  | true =>
      rw [transparent_iff (modeRatelimiter_alone_throttled true pollF tryWait) h0
        (fun s seen h => modeRatelimiter_free h tryWait seen) seens]
      constructor
      · rintro ⟨_, hret⟩ _ hp
        exact addsBelow_iff_returns.mpr (hret hp)
      · intro h
        refine ⟨fun _ seen w _ _ _ => modeRatelimiter_delivers true tryWait w seen, fun hp => ?_⟩
        exact addsBelow_iff_returns.mp (h rfl hp)

/-! ## The result -/

/--
**Throttling is transparent, if and only if no sum comes in between.**

In all three modes, at every priority, for every inner future, every limiter, every
schedule of polls and every answer of the outside. Without overflow checks that is
every run.
-/
theorem throttling_transparent_iff (chk : Bool) (p : Priority) (pollF : φ → Cx ω → φ × Poll ν)
    (tryWait : ModeRatelimiter.Limiter L) (future : φ) (envs : List (ModeCount.Env ω))
    (envs' : List (ModeTime.Env ω)) (seens : List (Shared L × ModeRatelimiter.Env ω)) :
    (Transparent p pollF ModeCount.PendingFuture.future ModeCount.Env.cx
          (ModeCount.poll chk pollF) (ModeCount.PendingFuture.new ⟨p⟩ future) envs
        ↔ (chk = true → CountFits pollF p future envs))
      ∧ (Transparent p pollF ModeTime.PendingFuture.future ModeTime.Env.cx
          (ModeTime.poll chk pollF) (ModeTime.PendingFuture.new ⟨p⟩ future) envs'
        ↔ (chk = true → TimeFits pollF p future envs'))
      ∧ (Transparent p pollF ModeRatelimiter.PendingFuture.future
          (fun seen : Shared L × ModeRatelimiter.Env ω => seen.2.cx)
          (ModeRatelimiter.pollAlone chk pollF tryWait)
          (ModeRatelimiter.PendingFuture.new (RateLimiterRuntimeHandle.new p) future) seens
        ↔ (chk = true → LimiterFits pollF p future tryWait seens)) :=
  ⟨count_transparent chk, time_transparent chk, limiter_transparent chk tryWait⟩

end

/-- One poll of this many microseconds. -/
def longEnv (micros : Nat) : ModeCount.Env Unit :=
  { countEnv .pending .pending (Fin.last 9) with polledNow := micros * 1000 }

/--
In a build that checks, the poll after `2 ^ 32 - 1` `Pending` answers at `VeryHigh` panics
before it comes to the inner future; and at `Low` a poll of one microsecond after one of
`2 ^ 64 - 1` panics with the answer of the inner future in its hands.
-/
theorem not_throttling_transparent :
    (¬ ∀ envs : List (ModeCount.Env Unit),
        Transparent .veryHigh stuck ModeCount.PendingFuture.future ModeCount.Env.cx
          (ModeCount.poll true stuck) (ModeCount.PendingFuture.new ⟨.veryHigh⟩ ()) envs)
      ∧ ¬ ∀ envs : List (ModeCount.Env Unit),
        Transparent .low countdown ModeCount.PendingFuture.future ModeCount.Env.cx
          (ModeCount.poll true countdown) (ModeCount.PendingFuture.new ⟨.low⟩ 1) envs := by
  refine ⟨fun h => ?_, fun h => ?_⟩
  · have hlast : 2 ^ 32 - 1 < 2 ^ 32 := by decide
    obtain ⟨b, ts, hrun⟩ := countingAt_run true .veryHigh hlast
    have hpass := (h (List.replicate (2 ^ 32 - 1) tick ++ [tick])).veryHigh rfl
    exact (drive_each.mp hpass _ tick _ ts List.prefix_rfl hrun).returns .overflow rfl
  · have hturns := (h [longEnv (2 ^ 64 - 1), longEnv 1]).run.turns
    have hlast := drive_each.mp hturns [longEnv (2 ^ 64 - 1)] (longEnv 1) _ _ List.prefix_rfl rfl
    have hready := (hlast.ready ()).mpr ⟨⟨0, ()⟩, List.mem_cons_self⟩
    exact absurd hready (by decide)

end RsRun.Proof
