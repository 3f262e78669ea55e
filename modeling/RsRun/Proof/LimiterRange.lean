import RsRun.Proof.PendingCount

/-!
# How far the counter of `mode_ratelimiter` goes

A poll adds one before it asks the limiter, and one more when the inner future is pending.
The counter is never reset here either, so the sums fit exactly as long as what was counted
so far, and what this poll is about to count, is below `2 ^ 32`.
-/

namespace RsRun.Proof

open Async ModeRatelimiter

variable {φ ω ν L : Type*}

/-- The poll adds one to the counter for the `k`-th time. -/
inductive Adds (pollF : φ → Cx ω → φ × Poll ν) (tryWait : Limiter L) (this : PendingFuture φ)
    (seen : Shared L × Env ω) : Nat → Prop where
  /-- Before the limiter is asked. -/
  | ask (hpast : PastBackoff this.state seen.2.stored)
      (hask : asked tryWait seen.1 this seen.2 ≠ none) : Adds pollF tryWait this seen 1
  /-- After a `Pending` answer, without a limiter. -/
  | free (hpast : PastBackoff this.state seen.2.stored)
      (hask : asked tryWait seen.1 this seen.2 = none)
      (hres : (pollF this.future seen.2.cx).2 = .pending) : Adds pollF tryWait this seen 1
  /-- After a `Pending` answer, once the limiter granted the poll. -/
  | granted (hgranted : Granted tryWait this seen)
      (hres : (pollF this.future seen.2.cx).2 = .pending) : Adds pollF tryWait this seen 2

/-! ## One poll -/

section
variable {chk : Bool} {pollF : φ → Cx ω → φ × Poll ν} {tryWait : Limiter L} {this : PendingFuture φ}
  {seen : Shared L × Env ω}

/-- A `Pending` answer is counted after what the limiter said. -/
theorem LetThrough.adds {before : Nat} {limiter : L} {said : List TryWait}
    (h : LetThrough chk tryWait seen.1 this seen.2 before limiter said)
    (hpast : PastBackoff this.state seen.2.stored)
    (hres : (pollF this.future seen.2.cx).2 = .pending) :
    Adds pollF tryWait this seen (1 + said.length) := by
  cases h with
  | free hask => exact .free hpast hask hres
  | granted _ limiter hask _ => exact .granted ⟨hpast, limiter, hask⟩ hres

/-- **A poll whose sums all fit returns.** -/
theorem limiter_returns (hfit : ∀ k, Adds pollF tryWait this seen k → this.pendCnt + k < 2 ^ 32) :
    ∀ why, (pollAlone true pollF tryWait this seen).res ≠ .panicked why := by
  intro why hr
  change (poll true pollF tryWait seen.1 this seen.2).res = .panicked why at hr
  cases limiter_moves true pollF tryWait seen.1 this seen.2 with
  | waiting _ _ hr' _ _ => exact absurd (hr'.symm.trans hr) (by simp)
  | refused _ _ _ _ _ _ _ hr' _ _ => exact absurd (hr'.symm.trans hr) (by simp)
  | pending _ _ _ _ _ _ _ _ hr' _ _ => exact absurd (hr'.symm.trans hr) (by simp)
  | ready _ _ _ _ _ _ _ hr' _ _ => exact absurd (hr'.symm.trans hr) (by simp)
  | askPanics _ hpast hask hcnt _ _ _ =>
      have hlt := hfit 1 (.ask hpast hask)
      have hle := (Word.add_eq_none.mp hcnt).2
      omega
  | answerPanics _ before limiter said hpast hlet hres hcnt _ _ _ =>
      have hlt := hfit _ (hlet.adds hpast hres)
      have hle := (Word.add_eq_none.mp hcnt).2
      have hbefore := hlet.counted (by omega)
      rw [Nat.mod_eq_of_lt (by omega)] at hbefore
      omega

/-- In a build that checks, a poll that is let through has counted it within the range. -/
theorem LetThrough.checked {before : Nat} {limiter : L} {said : List TryWait}
    (h : LetThrough true tryWait seen.1 this seen.2 before limiter said)
    (hlt : this.pendCnt < 2 ^ 32) : before = this.pendCnt + said.length ∧ before < 2 ^ 32 := by
  cases h with
  | free _ => exact ⟨rfl, hlt⟩
  | granted _ _ _ hcnt =>
      obtain ⟨hfit, heq⟩ := Word.add_checked hcnt
      exact ⟨heq, by omega⟩

theorem LetThrough.said_of_asked {before : Nat} {limiter : L} {said : List TryWait}
    (h : LetThrough chk tryWait seen.1 this seen.2 before limiter said)
    (hask : asked tryWait seen.1 this seen.2 ≠ none) : said.length = 1 := by
  cases h with
  | free hnone => exact absurd hnone hask
  | granted _ _ _ _ => rfl

/-- **In a build that checks for overflow, a poll returns only if its sums all fit.** -/
theorem fits_of_returns (hlt : this.pendCnt < 2 ^ 32)
    (hret : ∀ why, (pollAlone true pollF tryWait this seen).res ≠ .panicked why) {k : Nat}
    (hadds : Adds pollF tryWait this seen k) : this.pendCnt + k < 2 ^ 32 := by
  have hret' : ∀ why, (poll true pollF tryWait seen.1 this seen.2).res ≠ .panicked why := hret
  have hgrant : Granted tryWait this seen → asked tryWait seen.1 this seen.2 ≠ none := by
    rintro ⟨_, limiter, hask⟩
    rw [hask]
    simp
  cases limiter_moves true pollF tryWait seen.1 this seen.2 with
  | waiting _ hstay _ _ _ =>
      cases hadds with
      | ask hpast _ => exact absurd hpast hstay
      | free hpast _ _ => exact absurd hpast hstay
      | granted hgranted _ => exact absurd hgranted.1 hstay
  | refused _ _ _ _ _ hask hcnt _ _ _ =>
      cases hadds with
      | ask _ _ => exact (Word.add_checked hcnt).1
      | free _ hnone _ => exact absurd (hnone.symm.trans hask) (by simp)
      | granted hgranted _ =>
          obtain ⟨_, limiter, hsome⟩ := hgranted
          exact absurd (hsome.symm.trans hask) (by simp)
  | pending before _ _ said _ hlet _ hcnt _ _ _ =>
      obtain ⟨hbefore, _⟩ := hlet.checked hlt
      have hfit := (Word.add_checked hcnt).1
      cases hadds with
      | ask _ _ => omega
      | free _ _ _ => omega
      | granted hgranted _ =>
          have hone := hlet.said_of_asked (hgrant hgranted)
          omega
  | ready _ pendCnt _ said _ hlet hready _ _ _ =>
      obtain ⟨hcnt, hfit⟩ := hlet.checked hlt
      cases hadds with
      | ask _ hask =>
          have hone := hlet.said_of_asked hask
          omega
      | free _ _ hres => exact absurd (hready.symm.trans hres) (by simp)
      | granted _ hres => exact absurd (hready.symm.trans hres) (by simp)
  | askPanics why _ _ _ hr _ _ => exact absurd hr (hret' why)
  | answerPanics why _ _ _ _ _ _ _ hr _ _ => exact absurd hr (hret' why)

/-- So the sums are what such a build checks. -/
theorem limiter_returns_iff (hlt : this.pendCnt < 2 ^ 32) :
    (∀ why, (pollAlone true pollF tryWait this seen).res ≠ .panicked why)
      ↔ ∀ k, Adds pollF tryWait this seen k → this.pendCnt + k < 2 ^ 32 :=
  ⟨fun hret _ hadds => fits_of_returns hlt hret hadds, limiter_returns⟩

/-- What a poll that returns has counted it has added, one by one. -/
theorem counted_adds
    (hret : ∀ why, (pollAlone chk pollF tryWait this seen).res ≠ .panicked why) :
    pendings (pollAlone chk pollF tryWait this seen).acts
          + (owns (pollAlone chk pollF tryWait this seen).acts).length = 0
      ∨ Adds pollF tryWait this seen (pendings (pollAlone chk pollF tryWait this seen).acts
          + (owns (pollAlone chk pollF tryWait this seen).acts).length) := by
  have hret' : ∀ why, (poll chk pollF tryWait seen.1 this seen.2).res ≠ .panicked why := hret
  change pendings (poll chk pollF tryWait seen.1 this seen.2).acts
        + (owns (poll chk pollF tryWait seen.1 this seen.2).acts).length = 0
    ∨ Adds pollF tryWait this seen (pendings (poll chk pollF tryWait seen.1 this seen.2).acts
        + (owns (poll chk pollF tryWait seen.1 this seen.2).acts).length)
  cases limiter_moves chk pollF tryWait seen.1 this seen.2 with
  | waiting _ _ _ _ hs =>
      rw [hs.pendings, hs.owns]
      exact .inl rfl
  | refused _ _ _ _ hpast hask _ _ _ hs =>
      rw [hs.pendings, hs.owns]
      exact .inr (.ask hpast (by rw [hask]; simp))
  | pending _ _ _ said hpast hlet hres _ _ _ hs =>
      rw [hs.pendings, hs.owns]
      exact .inr (hlet.adds hpast hres)
  | ready _ _ _ said hpast hlet _ _ _ hs =>
      rw [hs.pendings, hs.owns]
      cases hlet with
      | free _ => exact .inl rfl
      | granted _ _ hask _ => exact .inr (.ask hpast (by rw [hask]; simp))
  | askPanics why _ _ _ hr _ _ => exact absurd hr (hret' why)
  | answerPanics why _ _ _ _ _ _ _ hr _ _ => exact absurd hr (hret' why)

end

/-! ## What the property says, and when it holds -/

section
variable (chk : Bool) (pollF : φ → Cx ω → φ × Poll ν) (tryWait : Limiter L) (p : Priority)
  (future : φ) (seens : List (Shared L × Env ω))

/-- No sum of the counter exceeds its range in a run, and no poll panics for it. -/
structure AddsInRange : Prop where
  sums : EachPoll (pollAlone chk pollF tryWait)
    (PendingFuture.new (RateLimiterRuntimeHandle.new p) future) seens
    (fun w seen _ => ∀ k, Adds pollF tryWait w seen k → w.pendCnt + k < 2 ^ 32)
  returns : chk = true → EachPoll (pollAlone chk pollF tryWait)
    (PendingFuture.new (RateLimiterRuntimeHandle.new p) future) seens
    (fun w seen _ => ∀ why, (pollAlone chk pollF tryWait w seen).res ≠ .panicked why)

/--
What was counted so far, `Pending` answers and answers of the limiter, leaves room for
what the poll counts.
-/
def AddsBelow : Prop :=
  EachPoll (pollAlone chk pollF tryWait)
    (PendingFuture.new (RateLimiterRuntimeHandle.new p) future) seens
    (fun w seen ts => ∀ k, Adds pollF tryWait w seen k →
      pendings (runActs ts) + (owns (runActs ts)).length + k < 2 ^ 32)

variable {chk pollF tryWait p future seens}

/-- A counter whose sums all fit is what was counted. -/
theorem pendCnt_eq_counted {s : Polling (PendingFuture φ)}
    {ts : List (Turn (PendingFuture φ) (Shared L × Env ω) ω ν TryWait)}
    (hsums : EachPoll (pollAlone chk pollF tryWait)
      (PendingFuture.new (RateLimiterRuntimeHandle.new p) future) seens
      (fun w seen _ => ∀ k, Adds pollF tryWait w seen k → w.pendCnt + k < 2 ^ 32))
    (h : (limiterPolls chk pollF tryWait p future).exec
      (limiterPolls chk pollF tryWait p future).init seens = some (s, ts)) :
    s.wrapper.pendCnt = pendings (runActs ts) + (owns (runActs ts)).length
      ∧ s.wrapper.pendCnt < 2 ^ 32 := by
  refine polls_guarded (P := fun w ts => w.pendCnt
    = pendings (runActs ts) + (owns (runActs ts)).length ∧ w.pendCnt < 2 ^ 32)
    ⟨rfl, Nat.two_pow_pos 32⟩ ?_ hsums h
  intro w seen us hold hfit hret
  obtain ⟨heq, hlt⟩ := hold
  have hcount := (limiter_counts hret).count hlt
  have hroom : w.pendCnt + (pendings (pollAlone chk pollF tryWait w seen).acts
      + (owns (pollAlone chk pollF tryWait w seen).acts).length) < 2 ^ 32 := by
    rcases counted_adds hret with hzero | hadds
    · rw [hzero]
      exact hlt
    · exact hfit _ hadds
  rw [Nat.mod_eq_of_lt hroom] at hcount
  rw [runActs_snoc, pendings_append, owns_append, List.length_append, hcount, heq]
  rw [heq] at hroom
  dsimp only
  omega

theorem limiterCount_lt {s : Polling (PendingFuture φ)}
    {ts : List (Turn (PendingFuture φ) (Shared L × Env ω) ω ν TryWait)}
    (h : (limiterPolls chk pollF tryWait p future).exec
      (limiterPolls chk pollF tryWait p future).init seens = some (s, ts)) :
    s.wrapper.pendCnt < 2 ^ 32 := by
  rw [(limiterRun_exec h).count]
  exact Nat.mod_lt _ (by decide)

theorem AddsInRange.below (h : AddsInRange chk pollF tryWait p future seens) :
    AddsBelow chk pollF tryWait p future seens := by
  intro seens' seen w ts hpre hrun k hadds
  have hinit : seens' <+: seens := (List.prefix_append seens' [seen]).trans hpre
  obtain ⟨hexact, _⟩ := pendCnt_eq_counted (h.sums.initial hinit) hrun
  have hfit := h.sums seens' seen w ts hpre hrun k hadds
  dsimp only at hexact
  rw [hexact] at hfit
  exact hfit

theorem AddsBelow.inRange (h : AddsBelow chk pollF tryWait p future seens) :
    AddsInRange chk pollF tryWait p future seens := by
  have hsums : EachPoll (pollAlone chk pollF tryWait)
      (PendingFuture.new (RateLimiterRuntimeHandle.new p) future) seens
      (fun w seen _ => ∀ k, Adds pollF tryWait w seen k → w.pendCnt + k < 2 ^ 32) := by
    intro seens' seen w ts hpre hrun k hadds
    have hroom := h seens' seen w ts hpre hrun k hadds
    have hcount := (limiterRun_exec hrun).count
    dsimp only at hcount
    rw [hcount, Nat.mod_eq_of_lt (by omega)]
    exact hroom
  refine ⟨hsums, ?_⟩
  intro hchk seens' seen w ts hpre hrun
  have hfit := hsums seens' seen w ts hpre hrun
  subst hchk
  exact (limiter_returns_iff (limiterCount_lt hrun)).mpr hfit

/-- In a build that checks, this is when every poll returns. -/
theorem addsBelow_iff_returns :
    AddsBelow true pollF tryWait p future seens
      ↔ EachPoll (pollAlone true pollF tryWait)
        (PendingFuture.new (RateLimiterRuntimeHandle.new p) future) seens
        (fun w seen _ => ∀ why, (pollAlone true pollF tryWait w seen).res ≠ .panicked why) := by
  refine ⟨fun h => h.inRange.returns rfl, fun h => AddsInRange.below ⟨?_, fun _ => h⟩⟩
  intro seens' seen w ts hpre hrun
  exact (limiter_returns_iff (limiterCount_lt hrun)).mp (h seens' seen w ts hpre hrun)

end

end RsRun.Proof
