import RsRun.PendingFuture.LimiterSystem
import RsRun.PendingFuture.Samples
import RsRun.Proof.LimiterMoves

/-!
# One token for every poll

All futures sharing a rate limiter together poll their inner futures exactly as
often as tokens are removed from the bucket, poll by poll. So the system refines
the token bucket, and inherits its bound.

The step lemma says what one action does to the bucket, as a sequence of bucket
operations; the run lemma strings these sequences together.
-/

namespace RsRun.Proof

open Async LimiterSystem

variable {F V : Nat → Type} {φ ν ω : Type}

/-! ## One poll -/

/-- A token is taken exactly where the limiter grants. -/
theorem tryWait_cases (ratelimiter : Ratelimiter) (available wait : Nat) :
    (∃ left, tryWait ratelimiter available wait = (.granted, left) ∧ left + 1 = available)
      ∨ tryWait ratelimiter available wait = (.refused wait, available) := by
  by_cases hpos : 0 < available
  · refine .inl ⟨available - 1, ?_, by omega⟩
    rw [tryWait, TokenBucket.step, if_pos hpos]
  · refine .inr ?_
    rw [tryWait, TokenBucket.step, if_neg hpos]

section
variable {ratelimiter : Ratelimiter} {sh : Shared Nat} {this : ModeRatelimiter.PendingFuture φ}
  {env : ModeRatelimiter.Env ω}

theorem LetThrough.paid {chk : Bool} (hrl : this.handle.ratelimiter = some ratelimiter)
    {before limiter : Nat} {said : List ModeRatelimiter.TryWait}
    (h : LetThrough chk tryWait sh this env before limiter said) : limiter + 1 = sh.limiter := by
  have hask : asked tryWait sh this env = some (tryWait ratelimiter sh.limiter env.wait) := by
    rw [asked, hrl]; rfl
  cases h with
  | free h => rw [hask] at h; exact absurd h (by simp)
  | granted pendCnt limiter h hcnt =>
      rw [hask] at h
      injection h with h
      rcases tryWait_cases ratelimiter sh.limiter env.wait with ⟨left, htry, hleft⟩ | htry
      · rw [htry] at h
        injection h with _ h
        rw [← h]
        exact hleft
      · rw [htry] at h
        exact absurd h (by simp)

theorem refused_kept (hrl : this.handle.ratelimiter = some ratelimiter) {wait limiter : Nat}
    (h : asked tryWait sh this env = some (.refused wait, limiter)) : limiter = sh.limiter := by
  rw [asked, hrl] at h
  injection h with h
  rcases tryWait_cases ratelimiter sh.limiter env.wait with ⟨left, htry, _⟩ | htry
  · dsimp only at h
    rw [htry] at h
    exact absurd h (by simp)
  · dsimp only at h
    rw [htry] at h
    injection h with _ h
    exact h.symm

/-- What a poll takes from the bucket is what it polls, and the handle stays. -/
def Paid (sh : Shared Nat) (handle : RateLimiterRuntimeHandle)
    (o : Polled (Shared Nat × ModeRatelimiter.PendingFuture φ) ω ν ModeRatelimiter.TryWait) :
    Prop :=
  o.next.1.limiter + (innerPolls o.acts).length = sh.limiter ∧ o.next.2.handle = handle

/-- **No token without an inner poll, and no inner poll without a token.** -/
theorem poll_paid (chk : Bool) (pollF : φ → Cx ω → φ × Poll ν)
    (hrl : this.handle.ratelimiter = some ratelimiter) :
    Paid sh this.handle (ModeRatelimiter.poll chk pollF tryWait sh this env) := by
  unfold Paid
  cases limiter_moves chk pollF tryWait sh this env with
  | waiting state _ _ hn hs => rw [hn, hs.innerPolls]; exact ⟨rfl, rfl⟩
  | refused wait pendCnt limiter state _ hask _ _ hn hs =>
      rw [hn, hs.innerPolls]
      exact ⟨refused_kept hrl hask, rfl⟩
  | pending before pendCnt limiter said _ hlet _ _ _ hn hs =>
      rw [hn, hs.innerPolls]
      exact ⟨hlet.paid hrl, rfl⟩
  | ready v pendCnt limiter said _ hlet _ _ hn hs =>
      rw [hn, hs.innerPolls]
      exact ⟨hlet.paid hrl, rfl⟩
  | askPanics _ _ _ _ _ hn hs =>
      rw [hn, hs.innerPolls]
      exact ⟨settle_limiter _ sh, rfl⟩
  | answerPanics _ before limiter said _ hlet _ _ _ hn hs =>
      rw [hn, hs.innerPolls]
      exact ⟨hlet.paid hrl, rfl⟩

end

/-! ## One step of the system -/

/-- The bucket operations an observer reads off the events. -/
def bucketOps (t : List Event) : List TokenBucket.Op :=
  t.filterMap (fun e => match e with
    | .innerPoll _ => none
    | .token _ => some .take
    | .refill => some .refill)

theorem bucketOps_append (t u : List Event) : bucketOps (t ++ u) = bucketOps t ++ bucketOps u :=
  List.filterMap_append

theorem bucketOps_counts (t : List Event) :
    (bucketOps t).count .take = tokenCount t ∧ (bucketOps t).count .refill = refillCount t := by
  induction t with
  | nil => exact ⟨rfl, rfl⟩
  | cons e t ih =>
      cases e <;> simp_all [bucketOps, tokenCount, refillCount]

theorem innerCount_append (t u : List Event) : innerCount (t ++ u) = innerCount t + innerCount u :=
  List.countP_append

theorem tokenCount_append (t u : List Event) : tokenCount (t ++ u) = tokenCount t + tokenCount u :=
  List.countP_append

/-- What one poll shows an observer, if `k` inner polls were made and `m` tokens removed. -/
theorem poll_events {α : Type*} (i k m : Nat) (l : List α) (hl : l.length = k) :
    innerCount (l.map (fun _ => Event.innerPoll i) ++ List.replicate m (.token i)) = k
      ∧ tokenCount (l.map (fun _ => Event.innerPoll i) ++ List.replicate m (.token i)) = m
      ∧ bucketOps (l.map (fun _ => Event.innerPoll i) ++ List.replicate m (.token i))
          = List.replicate m .take := by
  subst hl
  refine ⟨?_, ?_, ?_⟩
  · simp [innerCount, List.countP_replicate]
  · simp [tokenCount, List.countP_replicate]
  · simp [bucketOps]

/-- Every future was given a clone of the one handle. -/
def SameHandle (handle : RateLimiterRuntimeHandle) (w : World F) : Prop :=
  ∀ i this, w.futures i = some this → this.handle = handle

theorem SameHandle.set {handle : RateLimiterRuntimeHandle} {w : World F}
    (h : SameHandle handle w) {i : Nat} {f : Option (ModeRatelimiter.PendingFuture (F i))}
    (hf : ∀ this, f = some this → this.handle = handle) : SameHandle handle (w.set i f) := by
  intro j this hj
  by_cases hij : j = i
  · subst hij
    rw [World.set] at hj
    simp only [Function.update_self] at hj
    exact hf this hj
  · rw [World.set] at hj
    simp only [Function.update_of_ne hij] at hj
    exact h j this hj

/--
**The step lemma.** A step keeps the handles, polls as often as it takes tokens,
and acts on the bucket as its events say.
-/
theorem step_bucket {chk : Bool} {pollF : ∀ i, F i → Cx ω → F i × Poll (V i)} {ratelimiter : Ratelimiter}
    {handle : RateLimiterRuntimeHandle} (hrl : handle.ratelimiter = some ratelimiter)
    {w w' : World F} {a : Action F ω} {t : List Event} (hw : SameHandle handle w)
    (h : step chk pollF handle w a = some (w', t)) :
    SameHandle handle w' ∧ innerCount t = tokenCount t
      ∧ TokenBucket.run ratelimiter.refillAmount ratelimiter.maxTokens w.shared.limiter
          (bucketOps t) = some w'.shared.limiter := by
  cases a with
  | new i future =>
      rw [step] at h
      split at h
      · exact absurd h (by simp)
      · injection h with h; injection h with h1 h2
        subst h1; subst h2
        exact ⟨hw.set (by rintro this ⟨⟩; rfl), rfl, rfl⟩
  | poll i env =>
      rw [step] at h
      split at h
      · exact absurd h (by simp)
      · rename_i this hthis
        injection h with h; injection h with h1 h2
        subst h1; subst h2
        -- the tokens gone from the bucket are those this poll took
        have hh : this.handle = handle := hw i this hthis
        have hpaid : Paid w.shared this.handle
            (ModeRatelimiter.poll chk (pollF i) tryWait w.shared this env) :=
          poll_paid chk (pollF i) (by rw [hh]; exact hrl)
        obtain ⟨hp1, hp2⟩ := hpaid
        have hm := poll_events i _
          (w.shared.limiter
            - (ModeRatelimiter.poll chk (pollF i) tryWait w.shared this env).next.1.limiter)
          (innerPolls (ModeRatelimiter.poll chk (pollF i) tryWait w.shared this env).acts) rfl
        refine ⟨?_, ?_, ?_⟩
        · intro j that hj
          exact hw.set (by rintro _ ⟨⟩; rw [hp2]; exact hh) j that hj
        · rw [hm.1, hm.2.1]; omega
        · rw [hm.2.2]
          have hk := TokenBucket.run_takes ratelimiter.refillAmount ratelimiter.maxTokens
            (w.shared.limiter
              - (ModeRatelimiter.poll chk (pollF i) tryWait w.shared this env).next.1.limiter)
            (ModeRatelimiter.poll chk (pollF i) tryWait w.shared this env).next.1.limiter
          rwa [Nat.add_sub_cancel' (by omega)] at hk
  | refill =>
      rw [step, hrl] at h
      injection h with h; injection h with h1 h2
      subst h1; subst h2
      exact ⟨hw, rfl, rfl⟩
  | drop i =>
      rw [step] at h
      split at h
      · exact absurd h (by simp)
      · injection h with h; injection h with h1 h2
        subst h1; subst h2
        exact ⟨hw.set (by rintro this ⟨⟩), rfl, rfl⟩

/-! ## Every run -/

/-- **The run lemma.** The system refines the bucket. -/
theorem exec_bucket {chk : Bool} {pollF : ∀ i, F i → Cx ω → F i × Poll (V i)} {p : Priority}
    {ratelimiter : Ratelimiter}
    (hrl : (RateLimiterRuntimeHandle.new p).ratelimiter = some ratelimiter)
    {w w' : World F} {as : List (Action F ω)} {t : List Event}
    (hw : SameHandle (RateLimiterRuntimeHandle.new p) w)
    (h : (system chk pollF p).exec w as = some (w', t)) :
    SameHandle (RateLimiterRuntimeHandle.new p) w' ∧ innerCount t = tokenCount t
      ∧ TokenBucket.run ratelimiter.refillAmount ratelimiter.maxTokens w.shared.limiter
          (bucketOps t) = some w'.shared.limiter := by
  have hstep : ∀ v a v' u t', (SameHandle (RateLimiterRuntimeHandle.new p) v
        ∧ innerCount u = tokenCount u
        ∧ TokenBucket.run ratelimiter.refillAmount ratelimiter.maxTokens w.shared.limiter
            (bucketOps u) = some v.shared.limiter) →
      (system chk pollF p).step v a = some (v', t') →
      SameHandle (RateLimiterRuntimeHandle.new p) v'
        ∧ innerCount (u ++ t') = tokenCount (u ++ t')
        ∧ TokenBucket.run ratelimiter.refillAmount ratelimiter.maxTokens w.shared.limiter
            (bucketOps (u ++ t')) = some v'.shared.limiter := by
    rintro v a v' u t' ⟨h1, h2, h3⟩ hs
    obtain ⟨g1, g2, g3⟩ := step_bucket hrl h1 hs
    refine ⟨g1, ?_, ?_⟩
    · rw [innerCount_append, tokenCount_append, h2, g2]
    · rw [bucketOps_append, TokenBucket.run_append, h3]; exact g3
  have := Lts.exec_log hstep (u := []) ⟨hw, rfl, rfl⟩ h
  rwa [List.nil_append] at this

/--
**The rate bound.**

For every throttled priority: every step of every run polls inner futures as often
as it removes tokens, so every run does; and from any moment of a run on, at most a
full bucket and what the refills add is polled.
-/
theorem rate_bounded (chk : Bool) (pollF : ∀ i, F i → Cx ω → F i × Poll (V i)) {p : Priority}
    (hp : p ≠ .veryHigh) :
    ∃ ratelimiter, (RateLimiterRuntimeHandle.new p).ratelimiter = some ratelimiter
      ∧ (∀ w a w' t, (system chk pollF p).Reachable w →
          (system chk pollF p).step w a = some (w', t) → innerCount t = tokenCount t)
      ∧ (∀ as w t, (system chk pollF p).exec (system chk pollF p).init as = some (w, t) →
          innerCount t = tokenCount t)
      ∧ ∀ w as w' t, (system chk pollF p).Reachable w →
          (system chk pollF p).exec w as = some (w', t) →
          innerCount t ≤ 2000 + refillCount t * ratelimiter.refillAmount := by
  obtain ⟨ratelimiter, hrl, hcap⟩ := new_ratelimiter hp
  have h0 : SameHandle (RateLimiterRuntimeHandle.new p) (system chk pollF p).init := by
    intro i this hi; exact absurd hi (by simp [system])
  have hsame : ∀ w, (system chk pollF p).Reachable w →
      SameHandle (RateLimiterRuntimeHandle.new p) w ∧ w.shared.limiter ≤ 2000 := by
    rintro w ⟨as, t, h⟩
    obtain ⟨g1, _, g3⟩ := exec_bucket hrl h0 h
    exact ⟨g1, by rw [← hcap]; exact (TokenBucket.run_le _ (Nat.zero_le _) g3).2⟩
  refine ⟨ratelimiter, hrl, ?_, ?_, ?_⟩
  · intro w a w' t hr hs
    exact (step_bucket hrl (hsame w hr).1 hs).2.1
  · intro as w t h
    exact (exec_bucket hrl h0 h).2.1
  · intro w as w' t hr h
    -- what is in the bucket now is at most the cap, and the rest comes from refills
    obtain ⟨g1, g2⟩ := hsame w hr
    obtain ⟨_, h2, h3⟩ := exec_bucket hrl g1 h
    have hle := TokenBucket.takes_le (by rw [hcap]; exact g2) h3
    rw [(bucketOps_counts t).1, (bucketOps_counts t).2, hcap] at hle
    rw [h2]; exact hle

/-- A refill, and a future that is polled twice. -/
def twicePolled : List (Action (fun _ => Nat) Unit) :=
  [.refill, .new 0 1, .poll 0 (limiterEnv .pending .pending 0),
    .poll 0 (limiterEnv .pending .pending 0)]

/-- At priority `High`, where a refill adds 1700 tokens, the two polls take two of them. -/
theorem rate_bounded_high :
    ∃ w t, (system true (fun _ => countdown) .high).exec
        (system true (fun _ => countdown) .high).init twicePolled = some (w, t)
      ∧ t = [.refill, .innerPoll 0, .token 0, .innerPoll 0, .token 0]
      ∧ innerCount t = tokenCount t ∧ innerCount t ≤ 2000 + refillCount t * 1700 := by
  obtain ⟨ratelimiter, hrl, _, hpaid, hbound⟩ :=
    rate_bounded true (fun _ => countdown) (p := .high) (by decide)
  have hamount : ratelimiter.refillAmount = 1700 := by
    injection hrl with hrl
    rw [← hrl]
  obtain ⟨w, hrun⟩ : ∃ w, (system true (fun _ => countdown) .high).exec
      (system true (fun _ => countdown) .high).init twicePolled
        = some (w, [.refill, .innerPoll 0, .token 0, .innerPoll 0, .token 0]) := ⟨_, rfl⟩
  have hle := hbound _ _ _ _ Lts.reachable_init hrun
  rw [hamount] at hle
  exact ⟨w, _, hrun, rfl, hpaid _ _ _ hrun, hle⟩

end RsRun.Proof
