import RsRun.Lib.Slept
import RsRun.PendingFuture.SpawnSystem
import RsRun.Proof.CountRange
import RsRun.Proof.Held

/-!
# How fast `mode_count` lets a future be polled

Four polls of the future inside, then a sleep of the base of its priority. On a runtime
that keeps time this is a rate: whatever wakes the future, in any stretch of time it is
polled at most four times for every base that fits, and a few times more.
-/

namespace RsRun.Proof

open Async ModeCount SpawnSystem

variable {φ ω ν : Type*}

section
variable {chk : Bool} {pollF : φ → Cx ω → φ × Poll ν}

/-! ## Polls and sleeps -/

/-- Since some moment there were at most four polls for every sleep, and four more. -/
structure CountPaced (base : Nat) (w : PendingFuture φ)
    (ts : List (Turn (PendingFuture φ) (Env ω) ω ν OneFutureRecord)) : Prop where
  lt : w.pendCnt < 2 ^ 32
  throttled : w.handle.priority.fixedIntervalCount = some base
  pace : pendings (runActs ts) ≤ 4 * (insertions (runActs ts)).length + w.pendCnt % inter
  long : ∀ d ∈ insertions (runActs ts), fromMillis base ≤ d

theorem nextCount_not_due {n : Nat} (hlt : n < 2 ^ 32) (hdue : nextCount n % inter ≠ 0) :
    nextCount n = n + 1 ∧ nextCount n % inter = n % inter + 1 := by
  by_cases hmax : n + 1 < 2 ^ 32
  · have hnext := nextCount_eq hmax
    unfold inter at *
    omega
  · -- it would have wrapped to zero, where one is due
    have hn : n = 2 ^ 32 - 1 := by omega
    rw [hn] at hdue
    exact absurd rfl hdue

/-- A turn that neither sleeps nor leaves the future inside pending changes nothing. -/
theorem CountPaced.quiet {base : Nat} {w w' : PendingFuture φ}
    {t : Turn (PendingFuture φ) (Env ω) ω ν OneFutureRecord}
    {ts : List (Turn (PendingFuture φ) (Env ω) ω ν OneFutureRecord)}
    (h : CountPaced base w ts) (hbeats : beats t.out.acts = []) (hslept : insertions t.out.acts = [])
    (hhandle : w'.handle = w.handle) (hcount : w'.pendCnt = w.pendCnt) :
    CountPaced base w' (ts ++ [t]) := by
  have hpend : pendings t.out.acts = 0 := by
    rw [← (beats_counts _).1, hbeats]
    rfl
  refine ⟨hcount ▸ h.lt, hhandle ▸ h.throttled, ?_, ?_⟩
  · rw [runActs_snoc, pendings_append, insertions_append, hpend, hslept, hcount, List.append_nil]
    exact h.pace
  · rw [runActs_snoc, insertions_append, hslept, List.append_nil]
    exact h.long

theorem countPaced_step {base : Nat} (w : PendingFuture φ) (env : Env ω)
    (ts : List (Turn (PendingFuture φ) (Env ω) ω ν OneFutureRecord)) (h : CountPaced base w ts)
    (hret : ∀ why, (poll chk pollF w env).res ≠ .panicked why) :
    CountPaced base (poll chk pollF w env).next (ts ++ [⟨w, env, poll chk pollF w env⟩]) := by
  have hpace := h.pace
  have hmod : w.pendCnt % inter < inter := Nat.mod_lt _ (by decide)
  cases modeCount_moves w env hret with
  | waiting state _ hn hs =>
      exact h.quiet hs.beats hs.insertions (by rw [hn]; rfl) (by rw [hn]; rfl)
  | ready v _ _ hn hs => exact h.quiet hs.beats hs.insertions (by rw [hn]; rfl) (by rw [hn]; rfl)
  | backoff pendPeriod state hp hdue _ hn hs =>
      have hdue : nextCount w.pendCnt % inter = 0 := hdue
      have hperiod : pendPeriod = base := Option.some.inj (hp.symm.trans h.throttled)
      rw [hn]
      refine ⟨Nat.mod_lt _ (by decide), h.throttled, ?_, ?_⟩
      · rw [runActs_snoc, pendings_append, insertions_append, hs.pendings, hs.insertions,
          List.length_append, List.length_singleton]
        change pendings (runActs ts) + 0 ≤ 4 * ((insertions (runActs ts)).length + 1)
          + nextCount w.pendCnt % inter
        rw [hdue]
        unfold inter at *
        omega
      · rw [runActs_snoc, insertions_append, hs.insertions]
        refine Lists.forall_mem_snoc h.long ?_
        rw [hperiod]
        exact Nat.mul_le_mul_right _ (Nat.le_add_right _ _)
  | pending hdue _ hn hs =>
      have hdue : nextCount w.pendCnt % inter ≠ 0 := by
        rcases hdue with hnone | hne
        · exact absurd (h.throttled.symm.trans hnone) (by simp)
        · exact hne
      rw [hn]
      refine ⟨Nat.mod_lt _ (by decide), h.throttled, ?_, ?_⟩
      · rw [runActs_snoc, pendings_append, insertions_append, hs.pendings, hs.insertions,
          List.append_nil]
        change pendings (runActs ts) + 1 ≤ 4 * (insertions (runActs ts)).length
          + nextCount w.pendCnt % inter
        rw [(nextCount_not_due h.lt hdue).2]
        omega
      · rw [runActs_snoc, insertions_append, hs.insertions, List.append_nil]
        exact h.long

end

/-! ## On a runtime that keeps time -/

theorem base_pos {p : Priority} {base : Nat} (hb : p.fixedIntervalCount = some base) :
    0 < fromMillis base := by
  have hbase : 0 < base := by
    cases p with
    | veryLow => injection hb with hb; omega
    | low => injection hb with hb; omega
    | middle => injection hb with hb; omega
    | high => injection hb with hb; omega
    | veryHigh => exact absurd hb (by simp [Priority.fixedIntervalCount])
  exact Nat.mul_pos hbase (by decide)

section
variable {chk : Bool} {pollF : φ → Cx ω → φ × Poll ν} {p p' : Pool (PendingFuture φ) ν}
  {as : List (PoolAction (Job φ) (Env ω))}
  {es : List (PoolEvent (Job φ) (PendingFuture φ) (Env ω) ω ν OneFutureRecord)} {k : Nat}

theorem pendCnt_lt (hreach : (countRuntime chk pollF).Reachable p) {t : Task (PendingFuture φ) ν}
    (ht : p.tasks[k]? = some t) (hlive : t.fate = .live) : t.wrapper.pendCnt < 2 ^ 32 := by
  obtain ⟨as, es, hrun⟩ := hreach
  obtain ⟨job, _, hran⟩ :=
    (held_ran_init (modeCount_held chk pollF) (fun _ => rfl) hrun).tasks k t ht
  cases hran with
  | returned is q hrun hw hdone =>
      have hcount : CountRun job.priority q.wrapper _ := countRun_exec hrun
      rw [hw, hcount.count]
      exact Nat.mod_lt _ (by decide)
  | panicked is v i us why hrun hts hr hw hdead =>
      rw [hlive] at hdead
      exact absurd hdead (by simp)

/-- The handle of a task is that of the wrapper it starts as. -/
theorem ran_handle {w : PendingFuture φ} {t : Task (PendingFuture φ) ν}
    {ts : List (Turn (PendingFuture φ) (Env ω) ω ν OneFutureRecord)}
    (h : Ran (poll chk pollF) w t ts) : t.wrapper.handle = w.handle := by
  have hkeep : ∀ {is : List (Env ω)} {q us}, (polls (poll chk pollF) w).exec
      (polls (poll chk pollF) w).init is = some (q, us) → q.wrapper.handle = w.handle := by
    intro is q us hrun
    refine polls_log (P := fun v _ => v.handle = w.handle) rfl ?_ hrun
    exact fun v env _ hv _ => (poll_handle v env).trans hv
  cases h with
  | returned is q hrun hw _ => rw [hw]; exact hkeep hrun
  | panicked is v i us why hrun _ _ hw _ =>
      rw [hw, poll_handle]
      exact hkeep hrun

/-- In any stretch of a run, a throttled task was polled four times for every sleep, and five more. -/
theorem count_polls_le (hreach : (countRuntime chk pollF).Reachable p)
    (hrun : (countRuntime chk pollF).exec p as = some (p', es)) {t : Task (PendingFuture φ) ν}
    (ht : p'.tasks[k]? = some t) {base : Nat}
    (hb : t.wrapper.handle.priority.fixedIntervalCount = some base) :
    (innerPolls (deeds (history k es))).length
        ≤ 4 * (insertions (deeds (history k es))).length + 5
      ∧ ∀ d ∈ insertions (deeds (history k es)), fromMillis base ≤ d := by
  rcases held_ran (modeCount_held chk pollF) (fun _ => rfl) hreach hrun ht with
    ⟨_, hnil⟩ | ⟨w, hstart, hran⟩
  · unfold deeds
    rw [hnil]
    exact ⟨Nat.zero_le _, fun d hd => absurd hd List.not_mem_nil⟩
  · have hlt : w.pendCnt < 2 ^ 32 := by
      rcases hstart with ⟨t₀, ht₀, hlive, rfl⟩ | ⟨job, rfl⟩
      · exact pendCnt_lt hreach ht₀ hlive
      · exact Nat.two_pow_pos 32
    rw [ran_handle hran] at hb
    have hpaced : ∀ {is : List (Env ω)} {q us}, (polls (poll chk pollF) w).exec
        (polls (poll chk pollF) w).init is = some (q, us) → CountPaced base q.wrapper us :=
      fun hrun => polls_log ⟨hlt, hb, Nat.zero_le _, fun d hd => absurd hd List.not_mem_nil⟩
        countPaced_step hrun
    obtain ⟨is, q, us, hrun', hslept, _, hle⟩ := hran.polled (modeCount_held chk pollF)
    obtain ⟨_, _, hpace, hlong⟩ := hpaced hrun'
    have hmod : q.wrapper.pendCnt % inter < inter := Nat.mod_lt _ (by decide)
    unfold deeds
    rw [hslept]
    unfold inter at hpace hmod
    exact ⟨by omega, hlong⟩

end

/--
**The rate of a throttled future.**

Whatever else the runtime does, and however often the future is woken: in any stretch of any
run it is polled at most four times for every base of its priority that fits into the time
that passes, and nine times more.
-/
theorem count_rate (chk : Bool) (pollF : φ → Cx ω → φ × Poll ν)
    {p p' : Pool (PendingFuture φ) ν} {as : List (PoolAction (Job φ) (Env ω))}
    {es : List (PoolEvent (Job φ) (PendingFuture φ) (Env ω) ω ν OneFutureRecord)}
    (hreach : (countRuntime chk pollF).Reachable p)
    (hrun : (countRuntime chk pollF).exec p as = some (p', es))
    {k : Nat} {t : Task (PendingFuture φ) ν} (ht : p'.tasks[k]? = some t) {base : Nat}
    (hb : t.wrapper.handle.priority.fixedIntervalCount = some base) :
    (innerPolls (deeds (history k es))).length
      ≤ 4 * ((p'.now - p.now) / fromMillis base) + 9 := by
  obtain ⟨hpolls, hlong⟩ := count_polls_le hreach hrun ht hb
  have hslept := held_slept (modeCount_held chk pollF) (fun _ => rfl) hreach hrun ht
  have hcount := hslept.count (base_pos hb) hlong
  omega

/-- A future that has been polled four times, and is woken for the fifth time. -/
def wokenFive : List (PoolAction (Job Unit) (Env Unit)) :=
  [.spawn ⟨.high, ()⟩, .poll 0 (countEnv .pending .pending (Fin.last 9)) 0, .wake 0,
    .poll 0 (countEnv .pending .pending (Fin.last 9)) 0, .wake 0,
    .poll 0 (countEnv .pending .pending (Fin.last 9)) 0, .wake 0,
    .poll 0 (countEnv .pending .pending (Fin.last 9)) 0, .wake 0]

/-- It is held back for nineteen milliseconds, polled, and woken and polled once more. -/
def resumedTwice : List (PoolAction (Job Unit) (Env Unit)) :=
  [.poll 0 (countEnv .pending .pending (Fin.last 9)) 0, .tick 19000000, .fire 0,
    .poll 0 (countEnv (.ready ()) .pending (Fin.last 9)) 0, .wake 0,
    .poll 0 (countEnv .pending .pending (Fin.last 9)) 0]

/-- At `High`, from the middle of a run on. -/
theorem count_rate_high :
    ∃ p p' t es, (countRuntime true stuck).Reachable p
      ∧ (countRuntime true stuck).exec p resumedTwice = some (p', es) ∧ p'.tasks[0]? = some t
      ∧ t.wrapper.handle.priority.fixedIntervalCount = some 10
      ∧ insertions (deeds (history 0 es)) = [19000000]
      ∧ (innerPolls (deeds (history 0 es))).length = 2
      ∧ (innerPolls (deeds (history 0 es))).length
        ≤ 4 * ((p'.now - p.now) / fromMillis 10) + 9 := by
  have hrate := @count_rate Unit Unit Unit true stuck _ _ resumedTwice _ ⟨wokenFive, _, rfl⟩ rfl
    0 _ rfl 10 rfl
  exact ⟨_, _, _, _, ⟨wokenFive, _, rfl⟩, rfl, rfl, rfl, rfl, rfl, hrate⟩

/-! ## What it costs -/

/-- What a poll counts in a build with overflow checks, it counts without wrapping. -/
theorem count_fits {pollF : φ → Cx ω → φ × Poll ν} {w : PendingFuture φ} {env : Env ω}
    (hret : ∀ why, (poll true pollF w env).res ≠ .panicked why)
    (hbeat : (beats (poll true pollF w env).acts).length = 1) : w.pendCnt + 1 < 2 ^ 32 := by
  rcases modeCount_beat hret with ⟨hpast, _, _⟩ | ⟨_, hno⟩
  · exact (modeCount_returns.mp hret).1 hpast
  · rw [hno] at hbeat
    exact absurd hbeat (by simp)

/-- Every sleep comes after four polls that were pending. -/
theorem count_sleeps_le {pollF : φ → Cx ω → φ × Poll ν} {p : Priority} {future : φ}
    {is : List (Env ω)} {q : Polling (PendingFuture φ)}
    {ts : List (Turn (PendingFuture φ) (Env ω) ω ν OneFutureRecord)}
    (h : (countPolls true pollF p future).exec (countPolls true pollF p future).init is
      = some (q, ts)) :
    4 * (insertions (runActs ts)).length + q.wrapper.pendCnt % inter ≤ pendings (runActs ts) := by
  refine polls_log (P := fun w us => 4 * (insertions (runActs us)).length + w.pendCnt % inter
    ≤ pendings (runActs us)) (Nat.le_refl _) ?_ h
  intro w env us hle hret
  rw [runActs_snoc, insertions_append, pendings_append, List.length_append]
  dsimp only
  cases modeCount_moves w env hret with
  | waiting state _ hn hs => rw [hn, hs.insertions, hs.pendings]; exact hle
  | ready v _ _ hn hs => rw [hn, hs.insertions, hs.pendings]; exact hle
  | backoff pendPeriod state _ hdue _ hn hs =>
      have hdue : nextCount w.pendCnt % inter = 0 := hdue
      have hnext := nextCount_eq (count_fits hret (by rw [hs.beats]; rfl))
      rw [hn, hs.insertions, hs.pendings]
      change 4 * ((insertions (runActs us)).length + 1) + nextCount w.pendCnt % inter
        ≤ pendings (runActs us) + 0
      rw [hdue]
      rw [hnext] at hdue
      unfold inter at *
      omega
  | pending _ _ hn hs =>
      have hnext := nextCount_eq (count_fits hret (by rw [hs.beats]; rfl))
      rw [hn, hs.insertions, hs.pendings]
      change 4 * ((insertions (runActs us)).length + 0) + nextCount w.pendCnt % inter
        ≤ pendings (runActs us) + 1
      rw [hnext]
      unfold inter at *
      omega

/--
**Throttling costs a quarter at most.**

With overflow checks, a task is polled at most five times for every four times that its
future was spawned or woken.
-/
theorem count_overhead (pollF : φ → Cx ω → φ × Poll ν) {p : Pool (PendingFuture φ) ν}
    {as : List (PoolAction (Job φ) (Env ω))}
    {es : List (PoolEvent (Job φ) (PendingFuture φ) (Env ω) ω ν OneFutureRecord)}
    (hrun : (countRuntime true pollF).exec (countRuntime true pollF).init as = some (p, es))
    {k : Nat} {t : Task (PendingFuture φ) ν} (ht : p.tasks[k]? = some t) :
    4 * (turns (history k es)).length ≤ 5 * (1 + wakeCount (history k es)) := by
  obtain ⟨hpolls, hinner⟩ := held_paid (modeCount_held true pollF) (fun _ => rfl) hrun ht
  obtain ⟨job, _, hran⟩ :=
    (held_ran_init (modeCount_held true pollF) (fun _ => rfl) hrun).tasks k t ht
  obtain ⟨is, q, us, hrun', hslept, hpend, _⟩ := hran.polled (modeCount_held true pollF)
  have hsleeps : 4 * (insertions (runActs us)).length + q.wrapper.pendCnt % inter
      ≤ pendings (runActs us) := count_sleeps_le hrun'
  have hle := pendings_le (runActs (turns (history k es)))
  unfold deeds at hpolls hinner
  rw [hslept] at hpolls
  omega

/-- A future that was spawned and woken five times, held back once and polled seven times. -/
theorem count_overhead_high :
    ∃ p t es, (countRuntime true stuck).exec (countRuntime true stuck).init
        (wokenFive ++ resumedTwice) = some (p, es)
      ∧ p.tasks[0]? = some t ∧ (turns (history 0 es)).length = 7
      ∧ insertions (deeds (history 0 es)) = [19000000] ∧ wakeCount (history 0 es) = 5
      ∧ 4 * (turns (history 0 es)).length ≤ 5 * (1 + wakeCount (history 0 es)) := by
  have hcost := @count_overhead Unit Unit Unit stuck _ (wokenFive ++ resumedTwice) _ rfl 0 _ rfl
  exact ⟨_, _, _, rfl, rfl, rfl, rfl, rfl, hcost⟩

/-! ## When the counter can overflow -/

section
variable {pollF : φ → Cx ω → φ × Poll ν} {p : Priority} {future : φ}

/-- The microseconds of all polls. -/
def chargedSum (ts : List (Turn (PendingFuture φ) (Env ω) ω ν OneFutureRecord)) : Nat :=
  (ts.map (fun turn => charged turn.input)).sum

theorem pollTime_le {chk : Bool} {w : PendingFuture φ} (h0 : w.pollTime = 0)
    {is : List (Env ω)} {q : Polling (PendingFuture φ)}
    {ts : List (Turn (PendingFuture φ) (Env ω) ω ν OneFutureRecord)}
    (h : (polls (poll chk pollF) w).exec (polls (poll chk pollF) w).init is = some (q, ts)) :
    q.wrapper.pollTime ≤ chargedSum ts := by
  refine polls_log (P := fun v us => v.pollTime ≤ chargedSum us) h0.le ?_ h
  intro v env us hle hret
  have hsnoc : chargedSum (us ++ [⟨v, env, poll chk pollF v env⟩])
      = chargedSum us + charged env := by
    unfold chargedSum
    rw [List.map_append, List.sum_append]
    exact congrArg _ List.sum_singleton
  rw [hsnoc]
  cases modeCount_moves v env hret with
  | waiting state _ hn hs => rw [hn]; exact hle.trans (Nat.le_add_right _ _)
  | backoff pendPeriod state _ _ _ hn hs => rw [hn]; exact hle.trans (Nat.le_add_right _ _)
  | pending _ _ hn hs =>
      rw [hn]
      exact (Nat.mod_le _ _).trans (Nat.add_le_add_right hle _)
  | ready v _ _ hn hs =>
      rw [hn]
      exact (Nat.mod_le _ _).trans (Nat.add_le_add_right hle _)

/-- A throttled future counts five for every sleep, and at most four more. -/
theorem pendCnt_le {chk : Bool} {base : Nat} (hb : p.fixedIntervalCount = some base)
    {is : List (Env ω)} {q : Polling (PendingFuture φ)}
    {ts : List (Turn (PendingFuture φ) (Env ω) ω ν OneFutureRecord)}
    (h : (countPolls chk pollF p future).exec (countPolls chk pollF p future).init is
      = some (q, ts)) :
    q.wrapper.pendCnt ≤ 5 * (insertions (runActs ts)).length + 4 := by
  have hcount := (countRun_exec h).count
  have hpace : CountPaced base q.wrapper ts := polls_log ⟨Nat.two_pow_pos 32, hb, Nat.zero_le _,
    fun d hd => absurd hd List.not_mem_nil⟩ countPaced_step h
  have hmod : q.wrapper.pendCnt % inter < inter := Nat.mod_lt _ (by decide)
  have hle := Nat.mod_le (beats (runActs ts)).length (2 ^ 32)
  rw [← hcount, length_beats] at hle
  have := hpace.pace
  unfold inter at *
  omega

end

/--
**The counter of a throttled future takes its time.**

With overflow checks, and as long as the times of its polls together fit into a `u64`, a
throttled future does not panic before `858993458` bases of its priority have passed, which
is ninety-nine days at `High`.
-/
theorem count_no_early_panic (pollF : φ → Cx ω → φ × Poll ν) {p : Pool (PendingFuture φ) ν}
    {as : List (PoolAction (Job φ) (Env ω))}
    {es : List (PoolEvent (Job φ) (PendingFuture φ) (Env ω) ω ν OneFutureRecord)}
    (hrun : (countRuntime true pollF).exec (countRuntime true pollF).init as = some (p, es))
    {k : Nat} {t : Task (PendingFuture φ) ν} (ht : p.tasks[k]? = some t) {base : Nat}
    (hb : t.wrapper.handle.priority.fixedIntervalCount = some base)
    (hshort : chargedSum (turns (history k es)) < 2 ^ 64)
    (hearly : p.now < 858993458 * fromMillis base) : t.fate ≠ .panicked := by
  intro hpanic
  have hslept := held_slept (modeCount_held true pollF) (fun _ => rfl) Lts.reachable_init hrun ht
  obtain ⟨job, _, hran⟩ :=
    (held_ran_init (modeCount_held true pollF) (fun _ => rfl) hrun).tasks k t ht
  have hlong := (count_polls_le Lts.reachable_init hrun ht hb).2
  rw [ran_handle hran] at hb
  cases hran with
  | returned is q hrun hw hlive hno => exact hno hpanic
  | panicked is v i us why hrun hts hr hw hdead =>
      have hpos : 0 < fromMillis base := base_pos hb
      -- the sleeps that fit into the time so far
      have hcount : (insertions (deeds (history k es))).length ≤ p.now / fromMillis base + 1 :=
        hslept.count hpos hlong
      have hfit : p.now / fromMillis base < 858993458 := (Nat.div_lt_iff_lt_mul hpos).mpr hearly
      have hsleeps : (insertions (runActs us)).length
          ≤ (insertions (deeds (history k es))).length := by
        unfold deeds
        rw [hts, runActs_snoc, insertions_append, List.length_append]
        exact Nat.le_add_right _ _
      have hcnt : v.pendCnt ≤ 5 * (insertions (runActs us)).length + 4 :=
        pendCnt_le (p := job.priority) hb hrun
      have htime : v.pollTime ≤ chargedSum us := pollTime_le rfl hrun
      have hsum : chargedSum us + charged i < 2 ^ 64 := by
        unfold chargedSum at hshort ⊢
        rw [hts, List.map_append, List.sum_append] at hshort
        exact hshort
      refine absurd hr (modeCount_returns.mpr ⟨?_, ?_⟩ why)
      · exact fun _ => by omega
      · exact fun _ => by omega

/-- Seven counts at `High`, a back-off among them. -/
theorem count_no_early_panic_high :
    ∃ p t es, (countRuntime true stuck).exec (countRuntime true stuck).init
        (wokenFive ++ resumedTwice) = some (p, es)
      ∧ p.tasks[0]? = some t ∧ insertions (deeds (history 0 es)) = [19000000]
      ∧ t.wrapper.pendCnt = 7 ∧ t.fate ≠ .panicked := by
  have hno := @count_no_early_panic Unit Unit Unit stuck _ (wokenFive ++ resumedTwice) _ rfl
    0 _ rfl 10 rfl (by decide) (by decide)
  exact ⟨_, _, _, rfl, rfl, rfl, rfl, hno⟩

end RsRun.Proof
