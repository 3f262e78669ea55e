import RsRun.Lib.Cadence
import RsRun.PendingFuture.Samples
import RsRun.Proof.CountMoves

/-!
# The back-off cadence of `mode_count`

One counter counts the `Pending` answers and the back-offs alike, so a back-off is due
at every fifth beat, whatever the schedule: polls that find the stored sleep running,
and an elapsed sleep from which the same poll goes on, are no beats.
-/

namespace RsRun.Proof

open Async ModeCount Cadence

variable {φ ω ν : Type*} {chk : Bool} {pollF : φ → Cx ω → φ × Poll ν} {p : Priority} {future : φ}

/-- The polls of a future wrapped with priority `p`. -/
def countPolls (chk : Bool) (pollF : φ → Cx ω → φ × Poll ν) (p : Priority) (future : φ) :
    Lts (Polling (PendingFuture φ)) (Env ω)
      (Turn (PendingFuture φ) (Env ω) ω ν OneFutureRecord) :=
  polls (poll chk pollF) (PendingFuture.new ⟨p⟩ future)

/-- Whether a back-off is due at the `i`-th beat; `pend_cnt` is a `u32`. -/
def dueBeat (p : Priority) (i : Nat) : Bool :=
  p.fixedIntervalCount.isSome && decide (nextCount (i % 2 ^ 32) % inter = 0)

/-- The counter counts the beats, and the back-offs among them are those that were due. -/
structure CountRun (p : Priority) (w : PendingFuture φ)
    (ts : List (Turn (PendingFuture φ) (Env ω) ω ν OneFutureRecord)) : Prop where
  handle : w.handle = ⟨p⟩
  count : w.pendCnt = (beats (runActs ts)).length % 2 ^ 32
  cadence : Follows (dueBeat p) (beats (runActs ts))

theorem dueBeat_of_due {w : PendingFuture φ}
    {ts : List (Turn (PendingFuture φ) (Env ω) ω ν OneFutureRecord)} (h : CountRun p w ts) :
    dueBeat p (beats (runActs ts)).length
      = (p.fixedIntervalCount.isSome && decide (nextCount w.pendCnt % inter = 0)) := by
  unfold dueBeat
  rw [← h.count]

/-- The inner future is polled only where no back-off is due. -/
theorem not_due {w : PendingFuture φ}
    {ts : List (Turn (PendingFuture φ) (Env ω) ω ν OneFutureRecord)} (h : CountRun p w ts)
    (hdue : w.handle.priority.fixedIntervalCount = none ∨ nextCount w.pendCnt % inter ≠ 0) :
    dueBeat p (beats (runActs ts)).length = false := by
  rw [dueBeat_of_due h]
  rw [h.handle] at hdue
  rcases hdue with hnone | hne
  · rw [hnone]
    rfl
  · rw [decide_eq_false hne, Bool.and_false]

theorem countRun_new : CountRun (ω := ω) (ν := ν) p (PendingFuture.new ⟨p⟩ future) [] :=
  { handle := rfl, count := rfl, cadence := follows_nil }

section
variable {w w' : PendingFuture φ} {env : Env ω}
  {ts : List (Turn (PendingFuture φ) (Env ω) ω ν OneFutureRecord)}
  {t : Turn (PendingFuture φ) (Env ω) ω ν OneFutureRecord}

/-- A turn that is no beat changes nothing. -/
theorem CountRun.quiet (h : CountRun p w ts) (hbeats : beats t.out.acts = [])
    (hhandle : w'.handle = w.handle) (hcount : w'.pendCnt = w.pendCnt) :
    CountRun p w' (ts ++ [t]) := by
  refine ⟨hhandle.trans h.handle, ?_, ?_⟩
  · rw [runActs_snoc, beats_append, hbeats, List.append_nil, hcount]
    exact h.count
  · rw [runActs_snoc, beats_append, hbeats, List.append_nil]
    exact h.cadence

/-- A beat is counted, and is the one that is due. -/
theorem CountRun.beat (h : CountRun p w ts) {b : Bool} (hbeats : beats t.out.acts = [b])
    (hhandle : w'.handle = w.handle) (hcount : w'.pendCnt = nextCount w.pendCnt)
    (hdue : b = dueBeat p (beats (runActs ts)).length) : CountRun p w' (ts ++ [t]) := by
  have hnext : ∀ n, nextCount (n % 2 ^ 32) = (n + 1) % 2 ^ 32 := by
    intro n
    unfold nextCount
    omega
  refine ⟨hhandle.trans h.handle, ?_, ?_⟩
  · rw [runActs_snoc, beats_append, hbeats, List.length_append, List.length_singleton, hcount,
      h.count, hnext]
  · rw [runActs_snoc, beats_append, hbeats]
    exact h.cadence.snoc hdue

theorem countRun_step (h : CountRun p w ts)
    (hret : ∀ why, (poll chk pollF w env).res ≠ .panicked why) :
    CountRun p (poll chk pollF w env).next (ts ++ [⟨w, env, poll chk pollF w env⟩]) := by
  have hbegun : CountRun p (begun w env) ts := ⟨h.handle, h.count, h.cadence⟩
  cases modeCount_moves w env hret with
  | waiting state _ hn hs => exact h.quiet hs.beats (by rw [hn]; rfl) (by rw [hn]; rfl)
  | backoff pendPeriod state hp hdue _ hn hs =>
      refine h.beat hs.beats (by rw [hn]; rfl) (by rw [hn]; rfl) ?_
      -- whether a back-off is due is up to the counter and the priority alone
      change w.handle.priority.fixedIntervalCount = some pendPeriod at hp
      rw [h.handle] at hp
      rw [dueBeat_of_due hbegun, decide_eq_true hdue, Bool.and_true, hp]
      rfl
  | pending hdue _ hn hs =>
      exact h.beat hs.beats (by rw [hn]; rfl) (by rw [hn]; rfl) (not_due hbegun hdue).symm
  | ready v hdue _ hn hs => exact h.quiet hs.beats (by rw [hn]; rfl) (by rw [hn]; rfl)

end

theorem countRun_exec {envs : List (Env ω)} {s : Polling (PendingFuture φ)}
    {ts : List (Turn (PendingFuture φ) (Env ω) ω ν OneFutureRecord)}
    (h : (countPolls chk pollF p future).exec (countPolls chk pollF p future).init envs
      = some (s, ts)) : CountRun p s.wrapper ts :=
  polls_log (P := CountRun p) countRun_new (fun _ _ _ hp hret => countRun_step hp hret) h

/-- A run that is done stopped where no back-off was due. -/
theorem countRun_done {envs : List (Env ω)} {s : Polling (PendingFuture φ)}
    {ts : List (Turn (PendingFuture φ) (Env ω) ω ν OneFutureRecord)}
    (h : (countPolls chk pollF p future).exec (countPolls chk pollF p future).init envs
      = some (s, ts)) (hdone : s.done = true) :
    dueBeat p (beats (runActs ts)).length = false := by
  obtain ⟨envs', q, env, us, v, hq, hts, _, hv⟩ := polls_done h hdone
  have hrun := countRun_exec hq
  have hbegun : CountRun p (begun q.wrapper env) us := ⟨hrun.handle, hrun.count, hrun.cadence⟩
  rw [hts, runActs_snoc, beats_append]
  dsimp only
  cases modeCount_moves q.wrapper env (by rw [hv]; simp) with
  | waiting state hr _ _ => rw [hv] at hr; exact absurd hr (by simp)
  | backoff _ state _ _ hr _ _ => rw [hv] at hr; exact absurd hr (by simp)
  | pending _ hr _ _ => rw [hv] at hr; exact absurd hr (by simp)
  | ready v hdue _ _ hs =>
      rw [hs.beats, List.append_nil]
      exact not_due hbegun hdue

/-! ## While the counter has not come to its end -/

/-- A counter that stays below its end is the number of beats. -/
theorem count_eq_beats {envs : List (Env ω)} {s : Polling (PendingFuture φ)}
    {ts : List (Turn (PendingFuture φ) (Env ω) ω ν OneFutureRecord)}
    (h : (countPolls chk pollF p future).exec (countPolls chk pollF p future).init envs
      = some (s, ts)) (hcnt : ∀ t ∈ ts, t.out.next.pendCnt < 2 ^ 32 - 1) :
    s.wrapper.pendCnt = (beats (runActs ts)).length ∧ s.wrapper.pendCnt < 2 ^ 32 - 1 := by
  refine polls_log (P := fun w ts => (∀ t ∈ ts, t.out.next.pendCnt < 2 ^ 32 - 1) →
    w.pendCnt = (beats (runActs ts)).length ∧ w.pendCnt < 2 ^ 32 - 1) ?_ ?_ h hcnt
  · intro _
    exact ⟨rfl, Nat.zero_lt_succ _⟩
  · intro w env us ih hret hus
    obtain ⟨heq, hlt⟩ := ih (fun t ht => hus t (List.mem_append_left _ ht))
    have hlast := hus _ (List.mem_append_right _ (List.mem_singleton.mpr rfl))
    dsimp only at hlast
    refine ⟨?_, hlast⟩
    have hnext : nextCount w.pendCnt = w.pendCnt + 1 := nextCount_eq (by omega)
    rw [runActs_snoc, beats_append, List.length_append, ← heq]
    cases modeCount_moves w env hret with
    | waiting state _ hn hs => rw [hn, hs.beats]; rfl
    | backoff _ state _ _ _ hn hs => rw [hn, hs.beats]; exact hnext
    | pending _ _ hn hs => rw [hn, hs.beats]; exact hnext
    | ready v _ _ hn hs => rw [hn, hs.beats]; rfl

theorem fixedIntervalCount_isSome (hp : p ≠ .veryHigh) : p.fixedIntervalCount.isSome = true := by
  cases p <;> first | rfl | exact absurd rfl hp

/-- Below the end of the counter a back-off is due at every fifth beat. -/
theorem dueBeat_eq_every (hp : p ≠ .veryHigh) {i : Nat} (hi : i < 2 ^ 32 - 1) :
    dueBeat p i = every inter i := by
  unfold dueBeat every
  rw [fixedIntervalCount_isSome hp, Bool.true_and, Nat.mod_eq_of_lt (by omega : i < 2 ^ 32),
    nextCount_eq (by omega)]

/--
**The cadence of back-offs.**

While the counter has not come to its end, it counts the `Pending` answers and the
back-offs; a back-off comes after the first four `Pending` answers, and again after
every four; and a future that is pending `n` times pays for `n / 4` of them.
-/
theorem count_cadence (chk : Bool) (hp : p ≠ .veryHigh) (pollF : φ → Cx ω → φ × Poll ν)
    (future : φ) {envs : List (Env ω)} {s : Polling (PendingFuture φ)}
    {ts : List (Turn (PendingFuture φ) (Env ω) ω ν OneFutureRecord)}
    (h : (countPolls chk pollF p future).exec (countPolls chk pollF p future).init envs
      = some (s, ts))
    (hcnt : ∀ t ∈ ts, t.out.next.pendCnt < 2 ^ 32 - 1) :
    s.wrapper.pendCnt = pendings (runActs ts) + (insertions (runActs ts)).length
      ∧ (insertions (runActs ts)).length = s.wrapper.pendCnt / 5
      ∧ (∀ pre d post, runActs ts = pre ++ .sleepInserted d :: post → insertions pre = [] →
          pendings pre = 4)
      ∧ (∀ pre d mid e post,
          runActs ts = pre ++ .sleepInserted d :: (mid ++ .sleepInserted e :: post) →
          insertions mid = [] → pendings mid = 4)
      ∧ (s.done = true → (insertions (runActs ts)).length = pendings (runActs ts) / 4) := by
  obtain ⟨hcount, hlt⟩ := count_eq_beats h hcnt
  have hfive : Follows (every 5) (beats (runActs ts)) :=
    (countRun_exec h).cadence.congr (fun i hi => dueBeat_eq_every hp (by omega))
  have hlen := length_beats (runActs ts)
  have hins : (insertions (runActs ts)).length = s.wrapper.pendCnt / 5 := by
    rw [← (beats_counts (runActs ts)).2, hfive.count_every, hcount]
  have hpair : ∀ (as : List (Act ω ν OneFutureRecord)), insertions as = [] →
      (beats as).length + 1 = 5 → pendings as = 4 := by
    intro as has hperiod
    rw [length_beats, has] at hperiod
    simpa using hperiod
  refine ⟨by omega, hins, ?_, ?_, ?_⟩
  -- a beat of five is four `Pending` answers and the back-off that ends it
  · intro pre d post hsplit hnone
    rw [hsplit, beats_append] at hfive
    exact hpair pre hnone (hfive.first (by decide) (not_mem_beats hnone))
  · intro pre d mid e post hsplit hnone
    rw [hsplit, beats_append] at hfive
    have hbeats : beats (Act.sleepInserted d :: (mid ++ .sleepInserted e :: post))
        = true :: (beats mid ++ true :: beats post) := by
      change true :: beats (mid ++ _) = _
      rw [beats_append]
      rfl
    rw [hbeats, ← List.cons_append, ← List.append_assoc] at hfive
    exact hpair mid hnone (hfive.gap (by decide) (not_mem_beats hnone))
  · intro hdone
    -- the last poll would have inserted a back-off if one had been due
    have hstop := countRun_done h hdone
    rw [dueBeat_eq_every hp (by omega), ← Bool.not_eq_true, every_eq_true] at hstop
    change ¬ (_ + 1) % 5 = 0 at hstop
    omega

/-- A future that is pending five times, with a sleep that is polled once before it elapses. -/
def fivePending : List (Env Unit) :=
  List.replicate 6 (countEnv .pending .pending 3) ++ List.replicate 2 (countEnv (.ready ()) .pending 3)

/-- It pays for one back-off. -/
theorem count_cadence_low :
    ∃ s ts, (countPolls true countdown .low 5).exec
        (countPolls true countdown .low 5).init fivePending = some (s, ts)
      ∧ s.done = true ∧ s.wrapper.pendCnt = 5 + 1 ∧ (insertions (runActs ts)).length = 1 := by
  have hrun := @count_cadence Nat Unit Unit .low true (by decide) countdown 5 fivePending _ _
    rfl (by decide)
  exact ⟨_, _, rfl, rfl, hrun.1, hrun.2.2.2.2 rfl⟩

end RsRun.Proof
