import RsRun.Proof.CountCadence
import RsRun.Proof.LimiterMoves
import RsRun.Proof.Throttled

/-!
# How far the counter of `mode_count` goes

A poll that gets past the back-off adds one to the counter to see whether a back-off is
due; the insertion and the `Pending` arm add one to the same value. The counter is never
reset, so these sums fit exactly as long as fewer than `2 ^ 32 - 1` `Pending` answers and
back-offs were counted. What else can panic is the sum of the times spent polling.
-/

namespace RsRun.Proof

open Async ModeCount

variable {φ ω ν : Type*}

/-- The poll comes to the inner future. -/
def ComesToInner (this : PendingFuture φ) (env : Env ω) : Prop :=
  PastBackoff this.state env.stored
    ∧ (this.handle.priority.fixedIntervalCount = none ∨ (this.pendCnt + 1) % inter ≠ 0)

/-! ## When a poll returns -/

section
variable {pollF : φ → Cx ω → φ × Poll ν} {this : PendingFuture φ} {env : Env ω}

theorem pollInner_returns {beginTime : Nat} (hb : this.beginTime = some beginTime)
    (hin : this.pendCnt + 1 < 2 ^ 32) :
    (∀ why, (pollInner true pollF this env).res ≠ .panicked why)
      ↔ this.pollTime + charged env < 2 ^ 64 := by
  have hcnt : Word.add true 32 this.pendCnt 1 = some (this.pendCnt + 1) := Word.fit_of_lt hin
  unfold pollInner
  dsimp only
  by_cases hlt : this.pollTime + charged env < 2 ^ 64
  · have htime : Word.add true 64 this.pollTime (elapsedMicros env.bfPoll env.polledNow)
        = some (this.pollTime + charged env) := Word.fit_of_lt hlt
    refine ⟨fun _ => hlt, ?_⟩
    intro _ why
    rw [htime]
    dsimp only
    cases (pollF this.future env.cx).2 with
    | ready v =>
        rw [hb]
        simp
    | pending =>
        rw [hcnt]
        simp
  · have htime : Word.add true 64 this.pollTime (elapsedMicros env.bfPoll env.polledNow) = none :=
      Word.add_eq_none.mpr ⟨rfl, Nat.le_of_not_lt hlt⟩
    refine ⟨?_, fun hle => absurd hle hlt⟩
    intro hret
    rw [htime] at hret
    exact absurd rfl (hret .overflow)

theorem throttle_returns {beginTime : Nat} (hb : this.beginTime = some beginTime) :
    (∀ why, (throttle true pollF this env).res ≠ .panicked why)
      ↔ this.pendCnt + 1 < 2 ^ 32
        ∧ (this.handle.priority.fixedIntervalCount = none ∨ (this.pendCnt + 1) % inter ≠ 0 →
          this.pollTime + charged env < 2 ^ 64) := by
  unfold throttle
  by_cases hin : this.pendCnt + 1 < 2 ^ 32
  · have hcnt : Word.add true 32 this.pendCnt 1 = some (this.pendCnt + 1) := Word.fit_of_lt hin
    have hinner : (∀ why, (pollInner true pollF this env).res ≠ .panicked why)
        ↔ this.pollTime + charged env < 2 ^ 64 := pollInner_returns hb hin
    rw [hcnt]
    dsimp only
    by_cases hdue : (this.pendCnt + 1) % inter = 0
    · rw [if_pos hdue]
      cases hp : this.handle.priority.fixedIntervalCount with
      | none =>
          dsimp only
          rw [hinner]
          exact ⟨fun hlt => ⟨hin, fun _ => hlt⟩, fun h => h.2 (.inl rfl)⟩
      | some pendPeriod =>
          -- a back-off is inserted, which always returns
          refine ⟨fun _ => ⟨hin, fun hor => absurd hor (by simp [hdue])⟩, fun _ why => ?_⟩
          dsimp only
          rcases insertBackoff_cases (ω := ω) (ν := ν) (χ := OneFutureRecord)
            (fun state => { this with pendCnt := this.pendCnt + 1, state := state })
            (fromMillis (pendPeriod + env.jitter)) env.cx.waker env.inserted with ⟨_, h⟩ | ⟨_, h⟩
          · rw [h]
            simp
          · rw [h]
            simp
    · rw [if_neg hdue, hinner]
      exact ⟨fun hlt => ⟨hin, fun _ => hlt⟩, fun h => h.2 (.inr hdue)⟩
  · have hcnt : Word.add true 32 this.pendCnt 1 = none :=
      Word.add_eq_none.mpr ⟨rfl, Nat.le_of_not_lt hin⟩
    rw [hcnt]
    exact ⟨fun hret => absurd rfl (hret .overflow), fun h => absurd h.1 hin⟩

/--
In a build that checks for overflow, a poll returns if and only if the count it comes to
and the time it adds both fit.
-/
theorem modeCount_returns :
    (∀ why, (poll true pollF this env).res ≠ .panicked why)
      ↔ (PastBackoff this.state env.stored → this.pendCnt + 1 < 2 ^ 32)
        ∧ (ComesToInner this env → this.pollTime + charged env < 2 ^ 64) := by
  have hrest : PastBackoff this.state env.stored →
      ((∀ why, (throttle true pollF { begun this env with state := .common } env).res
          ≠ .panicked why)
        ↔ (PastBackoff this.state env.stored → this.pendCnt + 1 < 2 ^ 32)
          ∧ (ComesToInner this env → this.pollTime + charged env < 2 ^ 64)) := by
    intro hpast
    have hthrottle := @throttle_returns φ ω ν pollF { begun this env with state := .common } env
      (this.beginTime.getD env.beginNow) rfl
    refine hthrottle.trans ⟨?_, ?_⟩
    · exact fun h => ⟨fun _ => h.1, fun hinner => h.2 hinner.2⟩
    · exact fun h => ⟨h.1 hpast, fun hor => h.2 ⟨hpast, hor⟩⟩
  rw [modeCount_poll_eq]
  rcases pollBackoff_cases this.state (fun state => { begun this env with state := state })
    env.cx.waker env.stored
    (fun _ => throttle true pollF { begun this env with state := .common } env) with
    ⟨hstate, h⟩ | ⟨sleep, hstate, hstored, h⟩ | ⟨sleep, hstate, hstored, h⟩
  · rw [h]
    exact hrest (pastBackoff_common hstate)
  · rw [h]
    exact hrest (fun _ _ => hstored)
  · -- the poll ends at the stored sleep
    have hstay : ¬ PastBackoff this.state env.stored :=
      fun hpast => absurd (hstored.symm.trans (hpast sleep hstate)) (by simp)
    rw [h]
    refine ⟨fun _ => ⟨?_, ?_⟩, fun _ why => by simp⟩
    · exact fun hpast => absurd hpast hstay
    · exact fun hinner => absurd hinner.1 hstay

end

/-! ## The counter over a run -/

section
variable {chk : Bool} {pollF : φ → Cx ω → φ × Poll ν} {p : Priority} {future : φ}

/-- A poll that returns is counted once, and only if it got past the back-off, or not at all. -/
theorem modeCount_beat {this : PendingFuture φ} {env : Env ω}
    (hret : ∀ why, (poll chk pollF this env).res ≠ .panicked why) :
    (PastBackoff this.state env.stored
        ∧ (poll chk pollF this env).next.pendCnt = nextCount this.pendCnt
        ∧ (beats (poll chk pollF this env).acts).length = 1)
      ∨ ((poll chk pollF this env).next.pendCnt = this.pendCnt
        ∧ (beats (poll chk pollF this env).acts).length = 0) := by
  by_cases hpast : PastBackoff this.state env.stored
  · cases modeCount_moves this env hret with
    | waiting state _ hn hs => exact .inr ⟨by rw [hn]; rfl, by rw [hs.beats]; rfl⟩
    | backoff _ state _ _ _ hn hs => exact .inl ⟨hpast, by rw [hn]; rfl, by rw [hs.beats]; rfl⟩
    | pending _ _ hn hs => exact .inl ⟨hpast, by rw [hn]; rfl, by rw [hs.beats]; rfl⟩
    | ready v _ _ hn hs => exact .inr ⟨by rw [hn]; rfl, by rw [hs.beats]; rfl⟩
  · -- the stored sleep has not elapsed, and nothing else happens
    rw [modeCount_poll_eq]
    rcases pollBackoff_cases this.state (fun state => { begun this env with state := state })
      env.cx.waker env.stored
      (fun _ => throttle chk pollF { begun this env with state := .common } env) with
      ⟨hstate, _⟩ | ⟨_, _, hstored, _⟩ | ⟨_, _, _, h⟩
    · exact absurd (pastBackoff_common hstate) hpast
    · exact absurd (fun _ _ => hstored) hpast
    · rw [h]
      exact .inr ⟨rfl, rfl⟩

/-! ### In a build that checks -/

/-- In a build that checks, the poll comes to the inner future with a count that fits, or not. -/
theorem modeCount_polled (pollF : φ → Cx ω → φ × Poll ν) (this : PendingFuture φ) (env : Env ω) :
    (ComesToInner this env ∧ this.pendCnt + 1 < 2 ^ 32
        ∧ innerPolls (poll true pollF this env).acts = [(env.cx, (pollF this.future env.cx).2)])
      ∨ (¬ (ComesToInner this env ∧ this.pendCnt + 1 < 2 ^ 32)
        ∧ innerPolls (poll true pollF this env).acts = []) := by
  have hrest : PastBackoff this.state env.stored →
      ((ComesToInner this env ∧ this.pendCnt + 1 < 2 ^ 32
          ∧ innerPolls (throttle true pollF { begun this env with state := .common } env).acts
            = [(env.cx, (pollF this.future env.cx).2)])
        ∨ (¬ (ComesToInner this env ∧ this.pendCnt + 1 < 2 ^ 32)
          ∧ innerPolls (throttle true pollF { begun this env with state := .common } env).acts
            = [])) := by
    intro hpast
    have hinner : innerPolls
        (pollInner true pollF { begun this env with state := .common } env).acts
        = [(env.cx, (pollF this.future env.cx).2)] :=
      (modeCount_pollInner true pollF { begun this env with state := .common } env rfl rfl).polled
    unfold throttle
    by_cases hin : this.pendCnt + 1 < 2 ^ 32
    · have hcnt : Word.add true 32 this.pendCnt 1 = some (this.pendCnt + 1) := Word.fit_of_lt hin
      dsimp only [begun] at hinner ⊢
      rw [hcnt]
      dsimp only
      by_cases hdue : (this.pendCnt + 1) % inter = 0
      · rw [if_pos hdue]
        cases hp : this.handle.priority.fixedIntervalCount with
        | none => exact .inl ⟨⟨hpast, .inl hp⟩, hin, hinner⟩
        | some pendPeriod =>
            refine .inr ⟨fun h => absurd h.1.2 (by simp [hp, hdue]), ?_⟩
            dsimp only
            rcases insertBackoff_cases (ω := ω) (ν := ν) (χ := OneFutureRecord) _
              (fromMillis (pendPeriod + env.jitter)) env.cx.waker env.inserted with ⟨_, h⟩ | ⟨_, h⟩
            · rw [h]; rfl
            · rw [h]; rfl
      · rw [if_neg hdue]
        exact .inl ⟨⟨hpast, .inr hdue⟩, hin, hinner⟩
    · have hcnt : Word.add true 32 this.pendCnt 1 = none :=
        Word.add_eq_none.mpr ⟨rfl, Nat.le_of_not_lt hin⟩
      dsimp only [begun]
      rw [hcnt]
      exact .inr ⟨fun h => hin h.2, rfl⟩
  rw [modeCount_poll_eq]
  rcases pollBackoff_cases this.state (fun state => { begun this env with state := state })
    env.cx.waker env.stored
    (fun _ => throttle true pollF { begun this env with state := .common } env) with
    ⟨hstate, h⟩ | ⟨sleep, hstate, hstored, h⟩ | ⟨sleep, hstate, hstored, h⟩
  · rw [h]
    exact hrest (pastBackoff_common hstate)
  · rw [h]
    exact hrest (fun _ _ => hstored)
  · rw [h]
    refine .inr ⟨fun hc => ?_, rfl⟩
    exact absurd (hstored.symm.trans (hc.1.1 sleep hstate)) (by simp)

/-- What a poll that comes to the inner future charges, and no other does, is added exactly. -/
theorem modeCount_charge {this : PendingFuture φ} {env : Env ω}
    (hret : ∀ why, (poll true pollF this env).res ≠ .panicked why) :
    (poll true pollF this env).next.pollTime = this.pollTime
      + if (innerPolls (poll true pollF this env).acts).isEmpty then 0 else charged env := by
  have hfits : innerPolls (poll true pollF this env).acts ≠ [] →
      (this.pollTime + charged env) % 2 ^ 64 = this.pollTime + charged env := by
    intro hne
    rcases modeCount_polled pollF this env with ⟨hcomes, _, _⟩ | ⟨_, hnone⟩
    · exact Nat.mod_eq_of_lt ((modeCount_returns.mp hret).2 hcomes)
    · exact absurd hnone hne
  cases modeCount_moves this env hret with
  | waiting state _ hn hs => rw [hs.innerPolls, hn]; rfl
  | backoff _ state _ _ _ hn hs => rw [hs.innerPolls, hn]; rfl
  | pending _ _ hn hs =>
      have hexact := hfits (by rw [hs.innerPolls]; simp)
      rw [hs.innerPolls, hn]
      exact hexact
  | ready v _ _ hn hs =>
      have hexact := hfits (by rw [hs.innerPolls]; simp)
      rw [hs.innerPolls, hn]
      exact hexact

/-- The microseconds charged so far, by the polls that came to the inner future. -/
def chargedMicros (ts : List (Turn (PendingFuture φ) (Env ω) ω ν OneFutureRecord)) : Nat :=
  (ts.map (fun t => if (innerPolls t.out.acts).isEmpty then 0 else charged t.input)).sum

/-- **In a build that checks, the counter and the time are what was counted and charged.** -/
theorem checked_exact {envs : List (Env ω)} {s : Polling (PendingFuture φ)}
    {ts : List (Turn (PendingFuture φ) (Env ω) ω ν OneFutureRecord)}
    (h : (countPolls true pollF p future).exec (countPolls true pollF p future).init envs
      = some (s, ts)) :
    s.wrapper.pendCnt = pendings (runActs ts) + (insertions (runActs ts)).length
      ∧ s.wrapper.pollTime = chargedMicros ts := by
  rw [← length_beats]
  refine polls_log (P := fun w ts => w.pendCnt = (beats (runActs ts)).length
    ∧ w.pollTime = chargedMicros ts) ⟨rfl, rfl⟩ ?_ h
  intro w env us hexact hret
  obtain ⟨hcnt, htime⟩ := hexact
  refine ⟨?_, ?_⟩
  · rw [runActs_snoc, beats_append, List.length_append, ← hcnt]
    rcases modeCount_beat hret with ⟨hpast, hnext, hbeat⟩ | ⟨hnext, hbeat⟩
    · rw [hnext, hbeat]
      exact nextCount_eq ((modeCount_returns.mp hret).1 hpast)
    · rw [hnext, hbeat]
      rfl
  · unfold chargedMicros at htime ⊢
    rw [List.map_append, List.sum_append, ← htime, modeCount_charge hret]
    exact congrArg _ List.sum_singleton.symm

/-- A counter whose sums all fit is the number of beats. -/
theorem pendCnt_eq_beats {envs : List (Env ω)} {s : Polling (PendingFuture φ)}
    {ts : List (Turn (PendingFuture φ) (Env ω) ω ν OneFutureRecord)}
    (hsums : EachPoll (poll chk pollF) (PendingFuture.new ⟨p⟩ future) envs
      (fun w env _ => PastBackoff w.state env.stored → w.pendCnt + 1 < 2 ^ 32))
    (h : (countPolls chk pollF p future).exec (countPolls chk pollF p future).init envs
      = some (s, ts)) : s.wrapper.pendCnt = (beats (runActs ts)).length := by
  refine polls_guarded (P := fun w ts => w.pendCnt = (beats (runActs ts)).length) rfl ?_ hsums h
  intro w env us heq hfit hret
  rw [runActs_snoc, beats_append, List.length_append]
  dsimp only
  rcases modeCount_beat hret with ⟨hpast, hcnt, hbeat⟩ | ⟨hcnt, hbeat⟩
  · have hlt := hfit hpast
    rw [hcnt, hbeat, nextCount_eq hlt, heq]
  · rw [hcnt, hbeat]
    exact heq

/-- Where every beat was counted below the end of the counter, so were all of them. -/
theorem beats_lt {envs : List (Env ω)} {s : Polling (PendingFuture φ)}
    {ts : List (Turn (PendingFuture φ) (Env ω) ω ν OneFutureRecord)}
    (hcounts : EachPoll (poll chk pollF) (PendingFuture.new ⟨p⟩ future) envs
      (fun w env ts => PastBackoff w.state env.stored →
        pendings (runActs ts) + (insertions (runActs ts)).length + 1 < 2 ^ 32))
    (h : (countPolls chk pollF p future).exec (countPolls chk pollF p future).init envs
      = some (s, ts)) : (beats (runActs ts)).length < 2 ^ 32 := by
  refine polls_guarded (P := fun _ ts => (beats (runActs ts)).length < 2 ^ 32)
    (Nat.two_pow_pos 32) ?_ hcounts h
  intro w env us hlt hfit hret
  rw [runActs_snoc, beats_append, List.length_append]
  dsimp only
  rcases modeCount_beat hret with ⟨hpast, _, hbeat⟩ | ⟨_, hbeat⟩
  · have hnext := hfit hpast
    rw [hbeat, length_beats]
    exact hnext
  · rw [hbeat]
    exact hlt

theorem of_dueBeat {i : Nat} (hi : i + 1 < 2 ^ 32) (h : dueBeat p i = true) : (i + 1) % 5 = 0 := by
  have hsmall : i % 2 ^ 32 = i := Nat.mod_eq_of_lt (by omega)
  unfold dueBeat at h
  rw [Bool.and_eq_true, decide_eq_true_eq, hsmall, nextCount_eq hi] at h
  exact h.2

/-- So no two back-offs are due in a row. -/
theorem backoffsApart_of_follows {as : List (Act ω ν OneFutureRecord)}
    (h : Cadence.Follows (dueBeat p) (beats as)) (hlt : (beats as).length < 2 ^ 32) :
    BackoffsApart as := by
  intro pre d mid e post has hnone
  have hbeats : beats as = beats pre ++ true :: (beats mid ++ true :: beats post) := by
    rw [has, beats_append]
    change _ ++ true :: beats (mid ++ _) = _
    rw [beats_append]
    rfl
  rw [hbeats] at h hlt
  rw [List.length_append, List.length_cons, List.length_append, List.length_cons] at hlt
  obtain ⟨hfirst, hsecond⟩ := h.adjacent (false_not_mem_beats hnone)
  have h1 := of_dueBeat (by omega) hfirst
  have h2 := of_dueBeat (by omega) hsecond
  omega

end

/-! ## What the property says, and when it holds -/

section
variable (chk : Bool) (pollF : φ → Cx ω → φ × Poll ν) (p : Priority) (future : φ)
  (envs : List (Env ω))

/-- No sum of the counter exceeds its range in a run, and what follows from it. -/
structure CountsInRange : Prop where
  /-- The test evaluates this sum, and so do the insertion and the `Pending` arm. -/
  sums : EachPoll (poll chk pollF) (PendingFuture.new ⟨p⟩ future) envs
    (fun w env _ => PastBackoff w.state env.stored → w.pendCnt + 1 < 2 ^ 32)
  returns : chk = true → EachPoll (poll chk pollF) (PendingFuture.new ⟨p⟩ future) envs
    (fun w env _ => ∀ why, (poll chk pollF w env).res ≠ .panicked why)
  apart : chk = false → ∀ envs' s ts, envs' <+: envs →
    (countPolls chk pollF p future).exec (countPolls chk pollF p future).init envs' = some (s, ts) →
    BackoffsApart (runActs ts)

/-- Not too much was counted so far, nor too much time spent, whenever a poll counts. -/
structure CountsBelow : Prop where
  counts : EachPoll (poll chk pollF) (PendingFuture.new ⟨p⟩ future) envs
    (fun w env ts => PastBackoff w.state env.stored →
      pendings (runActs ts) + (insertions (runActs ts)).length + 1 < 2 ^ 32)
  times : chk = true → EachPoll (poll chk pollF) (PendingFuture.new ⟨p⟩ future) envs
    (fun w env ts => ComesToInner w env → chargedMicros ts + charged env < 2 ^ 64)

variable {chk pollF p future envs}

theorem CountsInRange.below (h : CountsInRange chk pollF p future envs) :
    CountsBelow chk pollF p future envs where
  counts := by
    intro envs' env w ts hpre hrun hpast
    have hinit : envs' <+: envs := (List.prefix_append envs' [env]).trans hpre
    have hexact := pendCnt_eq_beats (h.sums.initial hinit) hrun
    have hfit := h.sums envs' env w ts hpre hrun hpast
    dsimp only at hexact
    rw [hexact, length_beats] at hfit
    exact hfit
  times := by
    intro hchk envs' env w ts hpre hrun hcomes
    have hret := h.returns hchk envs' env w ts hpre hrun
    subst hchk
    have hfit := (modeCount_returns.mp hret).2 hcomes
    have htime := (checked_exact hrun).2
    dsimp only at htime
    rw [htime] at hfit
    exact hfit

theorem CountsBelow.sums (h : CountsBelow chk pollF p future envs) :
    EachPoll (poll chk pollF) (PendingFuture.new ⟨p⟩ future) envs
      (fun w env _ => PastBackoff w.state env.stored → w.pendCnt + 1 < 2 ^ 32) := by
  intro envs' env w ts hpre hrun hpast
  have hfit := h.counts envs' env w ts hpre hrun hpast
  have hcount := (countRun_exec hrun).count
  dsimp only at hcount
  rw [hcount, length_beats, Nat.mod_eq_of_lt (by omega)]
  exact hfit

theorem CountsBelow.inRange (h : CountsBelow chk pollF p future envs) :
    CountsInRange chk pollF p future envs where
  sums := h.sums
  returns := by
    intro hchk envs' env w ts hpre hrun
    have htime := h.times hchk envs' env w ts hpre hrun
    have hsums := h.sums envs' env w ts hpre hrun
    subst hchk
    have hexact := (checked_exact hrun).2
    dsimp only at hexact htime
    rw [← hexact] at htime
    exact modeCount_returns.mpr ⟨hsums, htime⟩
  apart := by
    intro _ envs' s ts hpre hrun
    exact backoffsApart_of_follows (countRun_exec hrun).cadence
      (beats_lt (h.counts.initial hpre) hrun)

/-- In a build that checks, this is when every poll returns. -/
theorem countsBelow_iff_returns :
    CountsBelow true pollF p future envs
      ↔ EachPoll (poll true pollF) (PendingFuture.new ⟨p⟩ future) envs
        (fun w env _ => ∀ why, (poll true pollF w env).res ≠ .panicked why) := by
  refine ⟨fun h => h.inRange.returns rfl, fun h => CountsInRange.below ⟨?_, fun _ => h, ?_⟩⟩
  · exact fun envs' env w ts hpre hrun => (modeCount_returns.mp (h envs' env w ts hpre hrun)).1
  · exact fun hchk => absurd hchk (by simp)

end

end RsRun.Proof
