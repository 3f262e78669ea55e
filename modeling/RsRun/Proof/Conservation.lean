import RsRun.PendingFuture.Samples
import RsRun.Proof.TimeMoves

/-!
# What `mode_time` charges, and what it makes of it

The accumulated time is a meter: a `Pending` inner poll feeds it, and a back-off pays
whole tens off. So nothing is lost or charged twice, and a back-off is never followed
by another one before the inner future was polled again.
-/

namespace RsRun.Proof

open Async ModeTime Meter

variable {φ ω ν : Type*}

/-- The polls of a future wrapped with priority `p`. -/
def timePolls (chk : Bool) (pollF : φ → Cx ω → φ × Poll ν) (p : Priority) (future : φ) :
    Lts (Polling (PendingFuture φ)) (Env ω) (Turn (PendingFuture φ) (Env ω) ω ν Nat) :=
  polls (poll chk pollF) (PendingFuture.new ⟨p⟩ future)

/-- What a poll does to the meter. -/
def marksOf (t : Turn (PendingFuture φ) (Env ω) ω ν Nat) : List Mark :=
  (owns t.out.acts).map .paid
    ++ if pendings t.out.acts = 0 then [] else [.fed (elapsedTime t.input)]

/-- The microseconds that passed in a `Pending` inner poll. -/
def measuredOf (t : Turn (PendingFuture φ) (Env ω) ω ν Nat) : List Nat :=
  if pendings t.out.acts = 0 then [] else [(t.input.polledNow - t.input.beginNow) / 1000]

section
variable (ts : List (Turn (PendingFuture φ) (Env ω) ω ν Nat))

/-- What a run does to the meter. -/
def marks : List Mark := ts.flatMap marksOf

/-- The measured times of a run. -/
def measured : List Nat := ts.flatMap measuredOf

end

section
variable {ts : List (Turn (PendingFuture φ) (Env ω) ω ν Nat)}

theorem marks_snoc (t : Turn (PendingFuture φ) (Env ω) ω ν Nat) :
    marks (ts ++ [t]) = marks ts ++ marksOf t := Lists.flatMap_snoc _ ts t

/-- The payments are the `time` values. -/
theorem pays_marks : pays (marks ts) = owns (runActs ts) := by
  have hturn : ∀ t : Turn (PendingFuture φ) (Env ω) ω ν Nat,
      pays (marksOf t) = owns t.out.acts := by
    intro t
    unfold marksOf
    rw [pays_append, pays_map_paid]
    split <;> exact List.append_nil _
  induction ts with
  | nil => rfl
  | cons t ts ih =>
      change pays (marksOf t ++ marks ts) = owns (t.out.acts ++ runActs ts)
      rw [pays_append, owns_append, hturn, ih]

/-- The feeds are the measured times, as `u64`. -/
theorem feeds_marks : feeds (marks ts) = (measured ts).map (fun n => n % 2 ^ 64) := by
  have hturn : ∀ t : Turn (PendingFuture φ) (Env ω) ω ν Nat,
      feeds (marksOf t) = (measuredOf t).map (fun n => n % 2 ^ 64) := by
    intro t
    unfold marksOf measuredOf
    rw [feeds_append, feeds_map_paid, List.nil_append]
    split <;> rfl
  induction ts with
  | nil => rfl
  | cons t ts ih =>
      change feeds (marksOf t ++ marks ts) = (measuredOf t ++ measured ts).map _
      rw [feeds_append, List.map_append, hturn, ih]

end

/-! ## What a run keeps -/

/-- What a turn makes sure of. -/
structure TimeTurn (t : Turn (PendingFuture φ) (Env ω) ω ν Nat) : Prop where
  /-- Nothing is due where the inner future is polled. -/
  polled : innerPolls t.out.acts ≠ [] → t.before.addingUpTime ≤ inter
  /-- Where the stored sleep has elapsed, the inner future is polled. -/
  resumed : t.before.state ≠ .common → t.input.stored = .ready () → innerPolls t.out.acts ≠ []

/-- The accumulated time is what the meter shows, and every payment is a sleep. -/
structure TimeRun (p : Priority) (pendPeriod : Nat) (w : PendingFuture φ)
    (ts : List (Turn (PendingFuture φ) (Env ω) ω ν Nat)) : Prop where
  handle : w.handle = ⟨p⟩
  metered : run inter (2 ^ 64) 0 (marks ts) = some w.addingUpTime
  counted : w.insertedPendCnt = (owns (runActs ts)).length % 2 ^ 32
  slept : insertions (runActs ts)
    = (owns (runActs ts)).map (fun time => fromMillis (backoffMillis pendPeriod time))
  settled : w.state ≠ .common → w.addingUpTime ≤ inter
  turns : ∀ t ∈ ts, TimeTurn t

section
variable {chk : Bool} {pollF : φ → Cx ω → φ × Poll ν} {p : Priority} {pendPeriod : Nat}
  {future : φ} {ts : List (Turn (PendingFuture φ) (Env ω) ω ν Nat)} {w : PendingFuture φ}

theorem TimeRun.lt (h : TimeRun p pendPeriod w ts) : w.addingUpTime < 2 ^ 64 :=
  run_lt (by decide) (by decide) (by decide) h.metered

theorem timeRun_new : TimeRun (ω := ω) (ν := ν) p pendPeriod (PendingFuture.new ⟨p⟩ future) [] :=
  { handle := rfl
    metered := rfl
    counted := rfl
    slept := rfl
    settled := fun h => absurd rfl h
    turns := fun _ ht => absurd ht List.not_mem_nil }

/-- A turn that is no mark changes nothing. -/
theorem TimeRun.quiet (h : TimeRun p pendPeriod w ts) {w' : PendingFuture φ}
    {t : Turn (PendingFuture φ) (Env ω) ω ν Nat} {ps : List (Cx ω × Poll ν)}
    (hs : Shows t.out.acts [] [] ps []) (hhandle : w'.handle = w.handle)
    (htime : w'.addingUpTime = w.addingUpTime) (hcount : w'.insertedPendCnt = w.insertedPendCnt)
    (hsettled : w'.state ≠ .common → w'.addingUpTime ≤ inter) (ht : TimeTurn t) :
    TimeRun p pendPeriod w' (ts ++ [t]) := by
  have hmarks : marksOf t = [] := by
    unfold marksOf
    rw [hs.owns, hs.pendings]
    rfl
  refine ⟨hhandle.trans h.handle, ?_, ?_, ?_, hsettled, Lists.forall_mem_snoc h.turns ht⟩
  · rw [marks_snoc, hmarks, List.append_nil, htime]
    exact h.metered
  · rw [runActs_snoc, owns_append, hs.owns, List.append_nil, hcount]
    exact h.counted
  · rw [runActs_snoc, owns_append, insertions_append, hs.owns, hs.insertions, List.append_nil,
      List.append_nil]
    exact h.slept

/-- A turn that charges the time it measured. -/
theorem TimeRun.fed (h : TimeRun p pendPeriod w ts) {w' : PendingFuture φ}
    {t : Turn (PendingFuture φ) (Env ω) ω ν Nat} {ps : List (Cx ω × Poll ν)}
    (hs : Shows t.out.acts [false] [] ps []) (hhandle : w'.handle = w.handle)
    (hle : w.addingUpTime ≤ inter)
    (htime : w'.addingUpTime = (w.addingUpTime + elapsedTime t.input) % 2 ^ 64)
    (hcount : w'.insertedPendCnt = w.insertedPendCnt)
    (hsettled : w'.state ≠ .common → w'.addingUpTime ≤ inter) (ht : TimeTurn t) :
    TimeRun p pendPeriod w' (ts ++ [t]) := by
  have hmarks : marksOf t = [.fed (elapsedTime t.input)] := by
    unfold marksOf
    rw [hs.owns, hs.pendings]
    rfl
  refine ⟨hhandle.trans h.handle, ?_, ?_, ?_, hsettled, Lists.forall_mem_snoc h.turns ht⟩
  · rw [marks_snoc, hmarks, htime]
    exact run_snoc h.metered (if_pos hle)
  · rw [runActs_snoc, owns_append, hs.owns, List.append_nil, hcount]
    exact h.counted
  · rw [runActs_snoc, owns_append, insertions_append, hs.owns, hs.insertions, List.append_nil,
      List.append_nil]
    exact h.slept

/-- A turn that pays the whole tens with a back-off. -/
theorem TimeRun.paid (h : TimeRun p pendPeriod w ts) {w' : PendingFuture φ}
    {t : Turn (PendingFuture φ) (Env ω) ω ν Nat}
    (hs : Shows t.out.acts [true] [fromMillis (backoffMillis pendPeriod (w.addingUpTime / inter))]
      [] [w.addingUpTime / inter])
    (hhandle : w'.handle = w.handle) (hdue : inter < w.addingUpTime)
    (htime : w'.addingUpTime = w.addingUpTime % inter)
    (hcount : w'.insertedPendCnt = Word.fetchAdd 32 w.insertedPendCnt 1) (ht : TimeTurn t) :
    TimeRun p pendPeriod w' (ts ++ [t]) := by
  have hmarks : marksOf t = [.paid (w.addingUpTime / inter)] := by
    unfold marksOf
    rw [hs.owns, hs.pendings]
    rfl
  refine ⟨hhandle.trans h.handle, ?_, ?_, ?_, ?_, Lists.forall_mem_snoc h.turns ht⟩
  · rw [marks_snoc, hmarks, htime]
    exact run_snoc h.metered (if_pos ⟨hdue, rfl⟩)
  · rw [runActs_snoc, owns_append, hs.owns, hcount, List.length_append, List.length_singleton,
      h.counted, Word.fetchAdd]
    omega
  · rw [runActs_snoc, owns_append, insertions_append, hs.owns, hs.insertions, h.slept,
      List.map_append]
    rfl
  · intro _
    rw [htime]
    exact Nat.le_of_lt (Nat.mod_lt _ (by decide))

theorem timeRun_step (hp : p.fixedIntervalTimeMs = some pendPeriod) {env : Env ω}
    (h : TimeRun p pendPeriod w ts) (hret : ∀ why, (poll chk pollF w env).res ≠ .panicked why) :
    TimeRun p pendPeriod (poll chk pollF w env).next
      (ts ++ [⟨w, env, poll chk pollF w env⟩]) := by
  -- at a throttled priority the inner future is polled only where nothing is due
  have hle : w.handle.priority.fixedIntervalTimeMs = none ∨ w.addingUpTime ≤ inter →
      w.addingUpTime ≤ inter := by
    rintro (hnone | hle)
    · rw [h.handle] at hnone
      exact absurd (hnone.symm.trans hp) (by simp)
    · exact hle
  have hcommon : ∀ w' : PendingFuture φ, w'.state = .common →
      w'.state ≠ .common → w'.addingUpTime ≤ inter := fun _ heq hne => absurd heq hne
  cases modeTime_moves w env h.lt hret with
  | waiting state hw ha hstate _ hn hs =>
      refine h.quiet hs (by rw [hn]) (by rw [hn]) (by rw [hn]) ?_ ⟨?_, ?_⟩
      · intro _
        rw [hn]
        exact h.settled hw
      · exact fun hpolled => absurd hs.innerPolls hpolled
      · exact fun _ hready => absurd (hready.symm.trans ha) (by simp)
  | ready v hdue _ hn hs =>
      refine h.quiet hs (by rw [hn]) (by rw [hn]) (by rw [hn]) (hcommon _ (by rw [hn])) ⟨?_, ?_⟩
      · exact fun _ => hle hdue
      · intro _ _
        rw [hs.innerPolls]
        simp
  | pending hdue _ hn hs =>
      refine h.fed hs (by rw [hn]) (hle hdue) (by rw [hn]) (by rw [hn]) (hcommon _ (by rw [hn]))
        ⟨?_, ?_⟩
      · exact fun _ => hle hdue
      · intro _ _
        rw [hs.innerPolls]
        simp
  | backoff pendPeriod' state hp' hdue _ hn hs =>
      have hperiod : pendPeriod' = pendPeriod := by
        rw [h.handle] at hp'
        exact Option.some.inj (hp'.symm.trans hp)
      subst hperiod
      refine h.paid hs (by rw [hn]) hdue (by rw [hn]) (by rw [hn]) ⟨?_, ?_⟩
      · exact fun hpolled => absurd hs.innerPolls hpolled
      · -- a stored sleep and time to pay for exclude each other
        intro hne _
        have hnone := h.settled hne
        omega

theorem timeRun_exec (hp : p.fixedIntervalTimeMs = some pendPeriod) {envs : List (Env ω)}
    {s : Polling (PendingFuture φ)}
    (h : (timePolls chk pollF p future).exec (timePolls chk pollF p future).init envs
      = some (s, ts)) : TimeRun p pendPeriod s.wrapper ts :=
  polls_log (P := TimeRun p pendPeriod) timeRun_new
    (fun _ _ _ hrun hret => timeRun_step hp hrun hret) h

end

/-! ## Conservation -/

/-- What a run has charged, paid and slept, at a period of `pendPeriod`. -/
structure Conserved (pendPeriod : Nat) (w : PendingFuture φ)
    (ts : List (Turn (PendingFuture φ) (Env ω) ω ν Nat)) : Prop where
  /-- Nothing is lost, and nothing is charged twice. -/
  balance : (measured ts).sum = w.addingUpTime + 10 * (owns (runActs ts)).sum
  /-- Every `time` value is paid with one back-off. -/
  backoffs : (insertions (runActs ts)).length = (owns (runActs ts)).length
  /-- `inserted_pend_cnt` is a `u32`. -/
  counted : w.insertedPendCnt = (insertions (runActs ts)).length % 2 ^ 32
  positive : ∀ time ∈ owns (runActs ts), 1 ≤ time
  /-- The rounding of each sleep is less than a millisecond. -/
  lower : pendPeriod * (owns (runActs ts)).sum + 3 * (insertions (runActs ts)).length
    ≤ 2 * millis (insertions (runActs ts))
  upper : 2 * millis (insertions (runActs ts))
    ≤ pendPeriod * (owns (runActs ts)).sum + 4 * (insertions (runActs ts)).length
  /-- The throttling branch of the next poll does not overflow, even where it is checked. -/
  payable : ∃ left, payOff true w.addingUpTime (w.addingUpTime / inter) = some left
  sleepable : ∃ ms, sleepMillis true pendPeriod (w.addingUpTime / inter) = some ms
  /-- At every inner poll at most ten microseconds are carried over. -/
  carried : ∀ t ∈ ts, innerPolls t.out.acts ≠ [] → t.before.addingUpTime ≤ 10
  /-- A poll that finds the back-off elapsed polls the inner future. -/
  resumed : ∀ t ∈ ts, t.before.state ≠ .common → t.input.stored = .ready () →
    innerPolls t.out.acts ≠ []
  /-- Between two back-offs the inner future is polled. -/
  between : ∀ pre k mid k' post, marks ts = pre ++ .paid k :: (mid ++ .paid k' :: post) →
    feeds mid ≠ []

section
variable {pendPeriod : Nat}

theorem millis_times (times : List Nat) :
    millis (times.map (fun time => fromMillis (backoffMillis pendPeriod time)))
      = (times.map (backoffMillis pendPeriod)).sum := by
  induction times with
  | nil => rfl
  | cons time times ih =>
      unfold millis at ih ⊢
      rw [List.map_cons, List.map_cons, List.map_cons, List.sum_cons, List.sum_cons, fromMillis_div,
        ih]

/-- A sleep is half its product and two milliseconds, up to rounding. -/
theorem millis_bounds_time (pendPeriod : Nat) (times : List Nat) :
    pendPeriod * times.sum + 3 * times.length
        ≤ 2 * millis (times.map (fun time => fromMillis (backoffMillis pendPeriod time)))
      ∧ 2 * millis (times.map (fun time => fromMillis (backoffMillis pendPeriod time)))
        ≤ pendPeriod * times.sum + 4 * times.length := by
  rw [millis_times]
  induction times with
  | nil => exact ⟨Nat.le_refl _, Nat.le_refl _⟩
  | cons time times ih =>
      rw [List.map_cons, List.sum_cons, List.sum_cons, List.length_cons, Nat.mul_add,
        backoffMillis]
      omega

/-- Times whose sum is below the modulus are not truncated. -/
theorem map_mod_of_sum_lt {M : Nat} : ∀ {l : List Nat}, l.sum < M →
    l.map (fun n => n % M) = l := by
  intro l
  induction l with
  | nil => intro _; rfl
  | cons n l ih =>
      intro hlt
      rw [List.sum_cons] at hlt
      rw [List.map_cons, ih (by omega), Nat.mod_eq_of_lt (by omega)]

end

/--
**Conservation of charged time.**

In a run of less than `2 ^ 64` measured microseconds, at every throttled priority.
-/
theorem time_conserved (chk : Bool) {p : Priority} {pendPeriod : Nat}
    (hp : p.fixedIntervalTimeMs = some pendPeriod) (pollF : φ → Cx ω → φ × Poll ν) (future : φ)
    {envs : List (Env ω)} {s : Polling (PendingFuture φ)}
    {ts : List (Turn (PendingFuture φ) (Env ω) ω ν Nat)}
    (h : (timePolls chk pollF p future).exec (timePolls chk pollF p future).init envs
      = some (s, ts)) (hshort : (measured ts).sum < 2 ^ 64) : Conserved pendPeriod s.wrapper ts := by
  have hrun := timeRun_exec hp h
  have hlen : (insertions (runActs ts)).length = (owns (runActs ts)).length := by
    rw [hrun.slept, List.length_map]
  -- as much as is measured in all, no single measurement is cut off
  have hfeeds : feeds (marks ts) = measured ts := by
    rw [feeds_marks, map_mod_of_sum_lt hshort]
  have hbounds := millis_bounds_time pendPeriod (owns (runActs ts))
  rw [← hrun.slept, ← hlen] at hbounds
  refine
    { balance := ?_
      backoffs := hlen
      counted := by rw [hlen]; exact hrun.counted
      positive := ?_
      lower := hbounds.1
      upper := hbounds.2
      payable := ⟨_, payOff_eq true hrun.lt⟩
      sleepable := ⟨_, sleepMillis_eq true (period_le hp) hrun.lt⟩
      carried := fun t ht => (hrun.turns t ht).polled
      resumed := fun t ht => (hrun.turns t ht).resumed
      between := ?_ }
  · have hbalance := run_balance hrun.metered (by rw [hfeeds]; omega)
    rw [hfeeds, pays_marks, Nat.zero_add] at hbalance
    exact hbalance
  · rw [← pays_marks]
    exact run_pays_pos (by decide) hrun.metered
  · intro pre k mid k' post hsplit
    have hmetered := hrun.metered
    rw [hsplit] at hmetered
    exact fed_between (by decide) hmetered

/-- Thirty-four microseconds pay for three units, and four are carried over. -/
theorem time_conserved_low :
    ∃ s ts, (timePolls true stuck .low ()).exec (timePolls true stuck .low ()).init
        [timeEnv .pending .pending 34, timeEnv .pending .pending 0, timeEnv .pending .pending 0,
          timeEnv (.ready ()) .pending 5] = some (s, ts)
      ∧ owns (runActs ts) = [3] ∧ 34 + 5 = s.wrapper.addingUpTime + 10 * 3 := by
  have hrun := @time_conserved Unit Unit Unit true .low 7 rfl stuck ()
    [timeEnv .pending .pending 34, timeEnv .pending .pending 0, timeEnv .pending .pending 0,
      timeEnv (.ready ()) .pending 5] _ _ rfl (by decide)
  exact ⟨_, _, rfl, rfl, hrun.balance⟩

/-- A wrapper of `stuck` with nothing to pay for. -/
def paidOff (pendCnt insertedPendCnt : Nat) : Polling (PendingFuture Unit) where
  wrapper := { future := ()
               handle := ⟨.low⟩
               pendCnt := pendCnt
               insertedPendCnt := insertedPendCnt
               addingUpTime := 0
               state := .common }
  done := false

theorem paidOff_charged (pendCnt insertedPendCnt : Nat) :
    poll true stuck (paidOff pendCnt insertedPendCnt).wrapper (timeEnv .pending .pending 20)
      = ⟨{ (paidOff ((pendCnt + 1) % 2 ^ 32) insertedPendCnt).wrapper with addingUpTime := 20 },
          .pending, [.innerPolled ⟨0, ()⟩ .pending]⟩ := rfl

theorem paidOff_paid (pendCnt insertedPendCnt : Nat) :
    poll true stuck { (paidOff pendCnt insertedPendCnt).wrapper with addingUpTime := 20 }
        (timeEnv .pending (.ready ()) 0)
      = ⟨(paidOff pendCnt ((insertedPendCnt + 1) % 2 ^ 32)).wrapper, .pending,
          [.own 2, .sleepInserted (fromMillis 9), .sleepPolled 0 (.ready ()), .woke 0]⟩ := by
  have hpay : payOff true 20 (20 / inter) = some 0 := by decide
  have hmillis : sleepMillis true 7 (20 / inter) = some 9 := by decide
  have hdue : inter < 20 := by decide
  unfold poll
  dsimp only [paidOff, pollBackoff]
  unfold throttle
  dsimp only [Priority.fixedIntervalTimeMs]
  rw [if_pos hdue, hpay]
  dsimp only
  rw [hmillis]
  rfl

theorem paidOff_cycle (pendCnt insertedPendCnt : Nat) :
    ∃ ts, (timePolls true stuck .low ()).exec (paidOff pendCnt insertedPendCnt)
        [timeEnv .pending .pending 20, timeEnv .pending (.ready ()) 0]
          = some (paidOff ((pendCnt + 1) % 2 ^ 32) ((insertedPendCnt + 1) % 2 ^ 32), ts)
      ∧ (measured ts).sum = 20 ∧ (insertions (runActs ts)).length = 1 := by
  have hcharged := polls_pending (s := PendingFuture.new ⟨.low⟩ ())
    (paidOff_charged pendCnt insertedPendCnt)
  have hpaid := polls_pending (s := PendingFuture.new ⟨.low⟩ ())
    (paidOff_paid ((pendCnt + 1) % 2 ^ 32) insertedPendCnt)
  refine ⟨_, Lts.exec_cons.mpr ⟨_, _, _, hcharged, Lts.exec_one hpaid, rfl⟩, ?_, rfl⟩
  simp [measured, measuredOf, pendings, timeEnv]

/-- Any number of back-offs. -/
theorem paidOff_cycles (n : Nat) :
    ∃ envs pendCnt ts, (timePolls true stuck .low ()).exec (timePolls true stuck .low ()).init envs
        = some (paidOff pendCnt (n % 2 ^ 32), ts)
      ∧ (measured ts).sum = 20 * n ∧ (insertions (runActs ts)).length = n := by
  induction n with
  | zero => exact ⟨[], 0, [], rfl, rfl, rfl⟩
  | succ n ih =>
      -- one more charge of twenty microseconds, and the back-off that pays for it
      obtain ⟨envs, pendCnt, ts, hrun, hsum, hlen⟩ := ih
      obtain ⟨us, hcycle, hsum', hlen'⟩ := paidOff_cycle pendCnt (n % 2 ^ 32)
      have hcnt : (n % 2 ^ 32 + 1) % 2 ^ 32 = (n + 1) % 2 ^ 32 := by omega
      rw [hcnt] at hcycle
      refine ⟨envs ++ _, _, ts ++ us, Lts.exec_append.mpr ⟨_, ts, us, hrun, hcycle, rfl⟩, ?_, ?_⟩
      · unfold measured at hsum hsum' ⊢
        rw [List.flatMap_append, List.sum_append, hsum, hsum']
        ring
      · unfold runActs at hlen hlen' ⊢
        rw [List.flatMap_append, insertions_append, List.length_append, hlen, hlen']

/-- After `2 ^ 32` back-offs `inserted_pend_cnt` is zero again. -/
theorem not_counted :
    ∃ envs s ts, (timePolls true stuck .low ()).exec (timePolls true stuck .low ()).init envs
        = some (s, ts)
      ∧ (measured ts).sum < 2 ^ 64 ∧ (insertions (runActs ts)).length = 2 ^ 32
      ∧ s.wrapper.insertedPendCnt = 0 := by
  obtain ⟨envs, pendCnt, ts, hrun, hsum, hlen⟩ := paidOff_cycles (2 ^ 32)
  exact ⟨envs, _, ts, hrun, by rw [hsum]; decide, hlen, rfl⟩

end RsRun.Proof
