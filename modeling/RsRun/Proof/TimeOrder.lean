import Mathlib.Algebra.Order.BigOperators.Group.List
import RsRun.Proof.Conservation

/-!
# How much `mode_time` holds back at each priority

When back-offs are inserted, and for how much time, is up to the measured times alone:
the priority and the schedule only decide how long a back-off lasts. So two runs with
the same measured times have the same back-offs, and each of the lower priority lasts
longer.
-/

namespace RsRun.Proof

open Async ModeTime Meter

variable {φ ψ ω ω' ν ν' : Type*}

section
variable {chk : Bool} {pollF : φ → Cx ω → φ × Poll ν} {p : Priority} {pendPeriod : Nat}
  {future : φ} {ts : List (Turn (PendingFuture φ) (Env ω) ω ν Nat)} {envs : List (Env ω)}
  {s : Polling (PendingFuture φ)}

/-- A run that is done leaves nothing to pay for. -/
theorem timeRun_done (hp : p.fixedIntervalTimeMs = some pendPeriod)
    (h : (timePolls chk pollF p future).exec (timePolls chk pollF p future).init envs
      = some (s, ts)) (hdone : s.done = true) : s.wrapper.addingUpTime ≤ inter := by
  obtain ⟨envs', q, env, us, v, hq, _, hnext, hv⟩ := polls_done h hdone
  have hrun := timeRun_exec hp hq
  cases modeTime_moves q.wrapper env hrun.lt (by rw [hv]; simp) with
  | waiting state _ _ _ hr _ _ => rw [hv] at hr; exact absurd hr (by simp)
  | backoff _ state _ _ hr _ _ => rw [hv] at hr; exact absurd hr (by simp)
  | pending _ hr _ _ => rw [hv] at hr; exact absurd hr (by simp)
  | ready v hdue _ hn _ =>
      rw [hnext, hn]
      rw [hrun.handle] at hdue
      rcases hdue with hnone | hle
      · exact absurd (hp.symm.trans hnone) (by simp)
      · exact hle

theorem timeRun_unthrottled (hp : p.fixedIntervalTimeMs = none)
    (h : (timePolls chk pollF p future).exec (timePolls chk pollF p future).init envs
      = some (s, ts)) : insertions (runActs ts) = [] := by
  have hrun := polls_log (P := fun w ts => w.handle = ⟨p⟩ ∧ w.addingUpTime < 2 ^ 64
    ∧ insertions (runActs ts) = []) ⟨rfl, Nat.zero_lt_succ _, rfl⟩ ?_ h
  · exact hrun.2.2
  · intro w env us hw hret
    obtain ⟨hhandle, hlt, hnone⟩ := hw
    rw [runActs_snoc, insertions_append, hnone, List.nil_append]
    cases modeTime_moves w env hlt hret with
    | waiting state _ _ _ _ hn hs => rw [hn]; exact ⟨hhandle, hlt, hs.insertions⟩
    | pending _ _ hn hs =>
        rw [hn]
        exact ⟨hhandle, Nat.mod_lt _ (by decide), hs.insertions⟩
    | ready v _ _ hn hs => rw [hn]; exact ⟨hhandle, hlt, hs.insertions⟩
    | backoff pendPeriod state hperiod _ _ _ _ =>
        rw [hhandle] at hperiod
        exact absurd (hp.symm.trans hperiod) (by simp)

end

/-- A step in priority is at least two in the period. -/
theorem period_lt {lower higher : Priority} (hlt : lower.index < higher.index) {pendPeriod' : Nat}
    (hp' : higher.fixedIntervalTimeMs = some pendPeriod') :
    ∃ pendPeriod, lower.fixedIntervalTimeMs = some pendPeriod ∧ pendPeriod' + 2 ≤ pendPeriod := by
  have hsteps : ∀ lower higher : Priority, lower.index < higher.index →
      ∀ a ∈ higher.fixedIntervalTimeMs, ∃ b ∈ lower.fixedIntervalTimeMs, a + 2 ≤ b := by
    intro lower higher
    cases lower <;> cases higher <;> decide
  exact hsteps lower higher hlt _ hp'

/-- Two in the period are a millisecond in every back-off, whatever the rounding. -/
theorem backoffMillis_lt {pendPeriod pendPeriod' time : Nat} (hle : pendPeriod' + 2 ≤ pendPeriod)
    (ht : 1 ≤ time) : backoffMillis pendPeriod' time < backoffMillis pendPeriod time := by
  have hmul : pendPeriod' * time + 2 * time ≤ pendPeriod * time := by
    rw [← Nat.add_mul]
    exact Nat.mul_le_mul_right time hle
  unfold backoffMillis
  omega

/-- Two runs whose measured times are the same, at a lower and at a higher priority. -/
structure TimeOrdered (s : Polling (PendingFuture φ)) (s' : Polling (PendingFuture ψ))
    (ts : List (Turn (PendingFuture φ) (Env ω) ω ν Nat))
    (ts' : List (Turn (PendingFuture ψ) (Env ω') ω' ν' Nat)) : Prop where
  /-- The back-offs come at the same positions and with the same `time` values; one run may
  not have come to its last one yet. -/
  same : SameButLast (marks ts) (marks ts')
  /-- Where neither run has anything left to pay for, there is no such difference. -/
  settled : (s.done = true ∨ s.wrapper.addingUpTime ≤ 10) →
    (s'.done = true ∨ s'.wrapper.addingUpTime ≤ 10) → marks ts = marks ts'
      ∧ (insertions (runActs ts)).length = (insertions (runActs ts')).length
      ∧ (insertions (runActs ts) ≠ [] →
        millis (insertions (runActs ts')) < millis (insertions (runActs ts)))
  /-- Each back-off of the lower priority is longer. -/
  longer : ∀ (i d d' : Nat), (insertions (runActs ts))[i]? = some d →
    (insertions (runActs ts'))[i]? = some d' → d' < d

section
variable {chk chk' : Bool} {pollF : φ → Cx ω → φ × Poll ν} {pollF' : ψ → Cx ω' → ψ × Poll ν'}
  {lower higher : Priority} {future : φ} {future' : ψ}
  {ts : List (Turn (PendingFuture φ) (Env ω) ω ν Nat)}
  {ts' : List (Turn (PendingFuture ψ) (Env ω') ω' ν' Nat)}
  {envs : List (Env ω)} {envs' : List (Env ω')}
  {s : Polling (PendingFuture φ)} {s' : Polling (PendingFuture ψ)}

theorem timeOrdered_of_throttled (hlt : lower.index < higher.index) (hhigh : higher ≠ .veryHigh)
    (h : (timePolls chk pollF lower future).exec (timePolls chk pollF lower future).init envs
      = some (s, ts))
    (h' : (timePolls chk' pollF' higher future').exec
      (timePolls chk' pollF' higher future').init envs' = some (s', ts'))
    (hsame : measured ts = measured ts') : TimeOrdered s s' ts ts' := by
  obtain ⟨pendPeriod', hp'⟩ : ∃ pendPeriod', higher.fixedIntervalTimeMs = some pendPeriod' := by
    cases higher <;> first | exact ⟨_, rfl⟩ | exact absurd rfl hhigh
  obtain ⟨pendPeriod, hp, hle⟩ := period_lt hlt hp'
  have hrun := timeRun_exec hp h
  have hrun' := timeRun_exec hp' h'
  -- the meter knows neither the schedule nor the priority
  have hmarks : SameButLast (marks ts) (marks ts') := by
    refine run_determined (by decide) hrun.metered hrun'.metered ?_
    rw [feeds_marks, feeds_marks, hsame]
  have hpos : ∀ time ∈ owns (runActs ts), 1 ≤ time := by
    rw [← pays_marks]
    exact run_pays_pos (by decide) hrun.metered
  refine { same := hmarks, settled := ?_, longer := ?_ }
  · intro hsettled hsettled'
    have hcarried : s.wrapper.addingUpTime ≤ inter :=
      hsettled.elim (fun hdone => timeRun_done hp h hdone) id
    have hcarried' : s'.wrapper.addingUpTime ≤ inter :=
      hsettled'.elim (fun hdone => timeRun_done hp' h' hdone) id
    have heq : marks ts = marks ts' :=
      eq_of_settled hrun.metered hrun'.metered hcarried hcarried' hmarks
    have howns : owns (runActs ts) = owns (runActs ts') := by
      rw [← pays_marks, ← pays_marks, heq]
    refine ⟨heq, ?_, ?_⟩
    · rw [hrun.slept, hrun'.slept, List.length_map, List.length_map, howns]
    · intro hne
      rw [hrun.slept, hrun'.slept, ← howns, millis_times, millis_times]
      rw [hrun.slept] at hne
      have hne' : owns (runActs ts) ≠ [] := fun hnil => hne (by rw [hnil]; rfl)
      exact List.sum_lt_sum_of_ne_nil hne' _ _ (fun time ht => backoffMillis_lt hle (hpos time ht))
  · intro i d d' hd hd'
    rw [hrun.slept, List.getElem?_map, Option.map_eq_some_iff] at hd
    rw [hrun'.slept, List.getElem?_map, Option.map_eq_some_iff] at hd'
    obtain ⟨time, htime, rfl⟩ := hd
    obtain ⟨time', htime', rfl⟩ := hd'
    have heq : time = time' := by
      rw [← pays_marks] at htime htime'
      exact hmarks.pays htime htime'
    subst heq
    have hlonger := backoffMillis_lt hle (hpos time (List.mem_of_getElem? htime))
    unfold fromMillis
    omega

/--
**How the priorities are ordered.**

Two runs with the same measured times have the same back-offs, and those of the lower
priority are longer; `VeryHigh` has none.
-/
theorem time_ordered (hlt : lower.index < higher.index)
    (h : (timePolls chk pollF lower future).exec (timePolls chk pollF lower future).init envs
      = some (s, ts))
    (h' : (timePolls chk' pollF' higher future').exec
      (timePolls chk' pollF' higher future').init envs' = some (s', ts'))
    (hsame : measured ts = measured ts') :
    (higher ≠ .veryHigh → TimeOrdered s s' ts ts')
      ∧ (higher = .veryHigh → insertions (runActs ts') = []
        ∧ (insertions (runActs ts) ≠ [] →
          millis (insertions (runActs ts')) < millis (insertions (runActs ts)))) := by
  refine ⟨fun hhigh => timeOrdered_of_throttled hlt hhigh h h' hsame, ?_⟩
  rintro rfl
  have hnone := timeRun_unthrottled rfl h'
  refine ⟨hnone, ?_⟩
  intro hne
  obtain ⟨pendPeriod, hp⟩ : ∃ pendPeriod, lower.fixedIntervalTimeMs = some pendPeriod := by
    cases lower <;> first | exact ⟨_, rfl⟩ | exact absurd hlt (by decide)
  have hrun := timeRun_exec hp h
  -- every back-off lasts a millisecond and a half at least
  have hbounds := (millis_bounds_time pendPeriod (owns (runActs ts))).1
  rw [← hrun.slept] at hbounds
  have hlen : 0 < (owns (runActs ts)).length := by
    rw [← List.length_map, ← hrun.slept]
    exact List.length_pos_iff.mpr hne
  rw [hnone]
  change 0 < _
  omega

end

/-- Thirty-four microseconds at `Low`, with a sleep, and at `Middle`, where it is over at once. -/
theorem time_ordered_low :
    ∃ s s' ts ts', (timePolls true stuck .low ()).exec (timePolls true stuck .low ()).init
        [timeEnv .pending .pending 34, timeEnv .pending .pending 0] = some (s, ts)
      ∧ (timePolls false stuck .middle ()).exec (timePolls false stuck .middle ()).init
        [timeEnv .pending .pending 34, timeEnv .pending (.ready ()) 0] = some (s', ts')
      ∧ marks ts = marks ts'
      ∧ millis (insertions (runActs ts')) < millis (insertions (runActs ts)) := by
  have hordered := (@time_ordered Unit Unit Unit Unit Unit Unit true false stuck stuck .low .middle
    () () _ _ [timeEnv .pending .pending 34, timeEnv .pending .pending 0]
    [timeEnv .pending .pending 34, timeEnv .pending (.ready ()) 0] _ _ (by decide) rfl rfl
    (by decide)).1 (by decide)
  have hsettled := hordered.settled (.inr (by decide)) (.inr (by decide))
  exact ⟨_, _, _, _, rfl, rfl, hsettled.1, hsettled.2.2 (by decide)⟩

end RsRun.Proof
