import RsRun.Proof.CountPace
import RsRun.Proof.SpawnedWakes
import RsRun.Proof.TimePace

/-!
# How long a future is held back

A wake-up is answered late, but not for long: between two polls of the future inside,
`mode_count` and `mode_time` insert one sleep at most. Where `pend_cnt` wraps around,
`mode_count` inserts a second one.
-/

namespace RsRun.Proof

open Async SpawnSystem

variable {φ ω ν : Type*}

/-! ## The sleeps that may still come -/

/--
How many sleeps `mode_count` may insert before it polls the future inside again, at a
count of `n`.
-/
def countLeft (chk : Bool) (n : Nat) : Nat :=
  if nextCount n % ModeCount.inter = 0 then
    if chk then
      if n + 1 < 2 ^ 32 then 1 else 0
    else if nextCount n = 2 ^ 32 - 1 then 2 else 1
  else 0

theorem countLeft_checked (n : Nat) : countLeft true n ≤ 1 := by
  unfold countLeft
  split
  · rw [if_pos rfl]
    split <;> omega
  · omega

theorem countLeft_unchecked (n : Nat) : countLeft false n ≤ 2 := by
  unfold countLeft
  split
  · rw [if_neg (by simp)]
    split <;> omega
  · omega

theorem nextCount_after {n : Nat} (hn : n + 1 < 2 ^ 32) (hdue : n % ModeCount.inter = 0) :
    nextCount n % ModeCount.inter ≠ 0 := by
  rw [nextCount_eq hn]
  unfold ModeCount.inter at *
  omega

/-- With overflow checks, a sleep is the only one. -/
theorem countLeft_slept {n : Nat} (hfit : n + 1 < 2 ^ 32)
    (hdue : nextCount n % ModeCount.inter = 0) :
    1 + countLeft true (nextCount n) ≤ countLeft true n := by
  have hleft : countLeft true n = 1 := by
    unfold countLeft
    rw [if_pos hdue, if_pos rfl, if_pos hfit]
  have hnone : countLeft true (nextCount n) = 0 := by
    unfold countLeft
    by_cases hmax : nextCount n + 1 < 2 ^ 32
    · rw [if_neg (nextCount_after hmax hdue)]
    · rw [if_pos rfl, if_neg hmax, ite_self]
  omega

/-- Without them, there may be another one at the wrap. -/
theorem countLeft_wrapped {n : Nat} (hdue : nextCount n % ModeCount.inter = 0) :
    1 + countLeft false (nextCount n) ≤ countLeft false n := by
  by_cases hmax : nextCount n = 2 ^ 32 - 1
  · have hleft : countLeft false n = 2 := by
      unfold countLeft
      rw [if_pos hdue, if_neg Bool.false_ne_true, if_pos hmax]
    rw [hleft, hmax]
    decide
  · have hleft : countLeft false n = 1 := by
      unfold countLeft
      rw [if_pos hdue, if_neg Bool.false_ne_true, if_neg hmax]
    have hlt : nextCount n < 2 ^ 32 := Nat.mod_lt _ (Nat.two_pow_pos 32)
    have hnone : countLeft false (nextCount n) = 0 := by
      unfold countLeft
      rw [if_neg (nextCount_after (by omega) hdue)]
    omega

/-- How many sleeps `mode_time` may insert before it polls the future inside again. -/
def timeLeft (w : ModeTime.PendingFuture φ) : Nat :=
  if ModeTime.inter < w.addingUpTime then 1 else 0

theorem timeLeft_le (w : ModeTime.PendingFuture φ) : timeLeft w ≤ 1 := by
  unfold timeLeft
  split <;> omega

section
variable {chk : Bool} {pollF : φ → Cx ω → φ × Poll ν}

theorem countLeft_step (w : ModeCount.PendingFuture φ) (env : ModeCount.Env ω)
    (hret : ∀ why, (ModeCount.poll chk pollF w env).res ≠ .panicked why)
    (hno : innerPolls (ModeCount.poll chk pollF w env).acts = []) :
    (insertions (ModeCount.poll chk pollF w env).acts).length
        + countLeft chk (ModeCount.poll chk pollF w env).next.pendCnt ≤ countLeft chk w.pendCnt := by
  cases modeCount_moves w env hret with
  | waiting state _ hn hs =>
      rw [hn, hs.insertions]
      exact Nat.le_of_eq (Nat.zero_add _)
  | pending _ _ hn hs =>
      rw [hs.innerPolls] at hno
      exact absurd hno (by simp)
  | ready v _ _ hn hs =>
      rw [hs.innerPolls] at hno
      exact absurd hno (by simp)
  | backoff pendPeriod state _ hdue _ hn hs =>
      have hdue : nextCount w.pendCnt % ModeCount.inter = 0 := hdue
      rw [hn, hs.insertions, List.length_singleton]
      cases chk with
      | true =>
          have hfit : w.pendCnt + 1 < 2 ^ 32 := count_fits hret (by rw [hs.beats]; rfl)
          exact countLeft_slept hfit hdue
      | false => exact countLeft_wrapped hdue

theorem timeLeft_step (w : ModeTime.PendingFuture φ) (env : ModeTime.Env ω)
    (hlt : w.addingUpTime < 2 ^ 64)
    (hret : ∀ why, (ModeTime.poll chk pollF w env).res ≠ .panicked why) :
    (ModeTime.poll chk pollF w env).next.addingUpTime < 2 ^ 64
      ∧ (innerPolls (ModeTime.poll chk pollF w env).acts = [] →
        (insertions (ModeTime.poll chk pollF w env).acts).length
          + timeLeft (ModeTime.poll chk pollF w env).next ≤ timeLeft w) := by
  cases modeTime_moves w env hlt hret with
  | waiting state _ _ _ _ hn hs =>
      rw [hn, hs.insertions]
      exact ⟨hlt, fun _ => Nat.le_of_eq (Nat.zero_add _)⟩
  | pending _ _ hn hs =>
      rw [hn, hs.innerPolls]
      exact ⟨Nat.mod_lt _ (Nat.two_pow_pos 64), fun hno => absurd hno (by simp)⟩
  | ready v _ _ hn hs =>
      rw [hn, hs.innerPolls]
      exact ⟨hlt, fun hno => absurd hno (by simp)⟩
  | backoff pendPeriod state _ hdue _ hn hs =>
      rw [hn, hs.insertions]
      refine ⟨(Nat.mod_le _ _).trans_lt hlt, fun _ => ?_⟩
      -- what is left is less than the threshold
      have hmod : w.addingUpTime % ModeTime.inter < ModeTime.inter := Nat.mod_lt _ (by decide)
      unfold timeLeft
      rw [if_pos hdue, if_neg (by dsimp only; omega)]
      exact Nat.le_refl _

end

/-! ## On a runtime -/

section
variable {σ ι χ : Type*} {make : Job φ → σ} {cx : ι → Cx ω} {poll : σ → ι → Polled σ ω ν χ}
  {pollF : φ → Cx ω → φ × Poll ν} {inner : σ → φ} {stored : σ → Option Sleep} {chk : Bool}

/-- What holds back a wrapper at most `n` times holds back its task no more. -/
theorem heldBack_of (hheld : ∀ s i, Held pollF inner stored chk (cx i) s (poll s i))
    (hmake : ∀ x, stored (make x) = none) {I : σ → Prop} {left : σ → Nat} {n : Nat}
    (hstep : ∀ v i, I v → (∀ why, (poll v i).res ≠ .panicked why) → I (poll v i).next
      ∧ (innerPolls (poll v i).acts = [] →
        (insertions (poll v i).acts).length + left (poll v i).next ≤ left v))
    (hI : ∀ p k w, (pool make cx poll).Reachable p → StartsAs make p k w → I w)
    (hleft : ∀ w, left w ≤ n) : HeldBack n (pool make cx poll) := by
  intro p as p' es hreach hrun k t ht hno
  have hpaid := (held_paid_since hheld hmake hreach hrun ht).polls
  have hslept : (insertions (deeds (history k es))).length ≤ n := by
    rcases held_ran hheld hmake hreach hrun ht with ⟨_, hnil⟩ | ⟨w, hstart, hran⟩
    · unfold deeds
      rw [hnil]
      exact Nat.zero_le _
    · exact (hran.insertions_le hheld hstep (hI p k w hreach hstart) hno).trans (hleft w)
  exact ⟨hslept, by omega⟩

end

theorem count_heldBack (pollF : φ → Cx ω → φ × Poll ν) : HeldBack 1 (countRuntime true pollF) := by
  refine heldBack_of (I := fun _ => True) (modeCount_held true pollF) (fun _ => rfl) ?_
    (fun _ _ _ _ _ => trivial) (fun w => countLeft_checked w.pendCnt)
  exact fun w env _ hret => ⟨trivial, countLeft_step w env hret⟩

/--
**A wake-up is answered after one sleep at most.**

In any stretch of any run in which its future is not polled, a task of `mode_count` or
`mode_time` is held back by one timer, by a second one at most where `mode_count` wraps
around without noticing, and it is not polled more than a few times for nothing.
-/
theorem spawned_held_back (pollF : φ → Cx ω → φ × Poll ν) :
    HeldBack 1 (countRuntime true pollF) ∧ HeldBack 2 (countRuntime false pollF)
      ∧ ∀ chk, HeldBack 1 (timeRuntime chk pollF) := by
  refine ⟨count_heldBack pollF, ?_, fun chk => ?_⟩
  · refine heldBack_of (I := fun _ => True) (modeCount_held false pollF) (fun _ => rfl) ?_
      (fun _ _ _ _ _ => trivial) (fun w => countLeft_unchecked w.pendCnt)
    exact fun w env _ hret => ⟨trivial, countLeft_step w env hret⟩
  · refine heldBack_of (I := fun w => w.addingUpTime < 2 ^ 64) (modeTime_held chk pollF)
      (fun _ => rfl) ?_ ?_ timeLeft_le
    · exact fun w env hlt hret => timeLeft_step w env hlt hret
    · intro p k w hreach hstart
      rcases hstart with ⟨t, ht, hlive, hw⟩ | ⟨job, hw⟩
      · exact hw ▸ addingUpTime_lt hreach ht hlive
      · exact hw ▸ Nat.two_pow_pos 64

/-! ## For how long -/

section
variable {chk : Bool} {pollF : φ → Cx ω → φ × Poll ν}

/-- No sleep is longer than its base and the jitter. -/
theorem count_sleeps_short {base : Nat} {w : ModeCount.PendingFuture φ}
    (hb : w.handle.priority.fixedIntervalCount = some base) {is : List (ModeCount.Env ω)}
    {q : Polling (ModeCount.PendingFuture φ)}
    {ts : List (Turn (ModeCount.PendingFuture φ) (ModeCount.Env ω) ω ν ModeCount.OneFutureRecord)}
    (hrun : (polls (ModeCount.poll chk pollF) w).exec (polls (ModeCount.poll chk pollF) w).init is
      = some (q, ts)) : ∀ d ∈ insertions (runActs ts), d ≤ fromMillis (base + 9) := by
  have hboth := polls_log (P := fun v us => v.handle = w.handle
    ∧ ∀ d ∈ insertions (runActs us), d ≤ fromMillis (base + 9))
    ⟨rfl, fun d hd => absurd hd List.not_mem_nil⟩ ?_ hrun
  · exact hboth.2
  · intro v env us hp hret
    obtain ⟨hv, hshort⟩ := hp
    refine ⟨(poll_handle v env).trans hv, ?_⟩
    rw [runActs_snoc, insertions_append]
    dsimp only
    cases modeCount_moves v env hret with
    | waiting state _ hn hs => rw [hs.insertions, List.append_nil]; exact hshort
    | pending _ _ hn hs => rw [hs.insertions, List.append_nil]; exact hshort
    | ready u _ _ hn hs => rw [hs.insertions, List.append_nil]; exact hshort
    | backoff pendPeriod state hp hdue _ hn hs =>
        have hp : v.handle.priority.fixedIntervalCount = some pendPeriod := hp
        have hperiod : pendPeriod = base := by
          rw [hv, hb] at hp
          exact (Option.some.inj hp).symm
        rw [hs.insertions]
        refine Lists.forall_mem_snoc hshort ?_
        have hjitter : env.jitter.val ≤ 9 := Nat.le_of_lt_succ env.jitter.isLt
        rw [hperiod]
        exact Nat.mul_le_mul_right _ (Nat.add_le_add_left hjitter _)

end

/--
**The latency that `mode_count` adds.**

With overflow checks, in any stretch of any run in which the future of a task is not polled,
all timers that held it back come to the base of its priority and nine milliseconds.
-/
theorem count_latency (pollF : φ → Cx ω → φ × Poll ν) {p p' : Pool (ModeCount.PendingFuture φ) ν}
    {as : List (PoolAction (Job φ) (ModeCount.Env ω))}
    {es : List (PoolEvent (Job φ) (ModeCount.PendingFuture φ) (ModeCount.Env ω) ω ν
      ModeCount.OneFutureRecord)}
    (hreach : (countRuntime true pollF).Reachable p)
    (hrun : (countRuntime true pollF).exec p as = some (p', es)) {k : Nat}
    {t : Task (ModeCount.PendingFuture φ) ν} (ht : p'.tasks[k]? = some t) {base : Nat}
    (hb : t.wrapper.handle.priority.fixedIntervalCount = some base)
    (hno : innerPolls (deeds (history k es)) = []) :
    (insertions (deeds (history k es))).sum ≤ fromMillis (base + 9) := by
  rcases held_ran (modeCount_held true pollF) (fun _ => rfl) hreach hrun ht with
    ⟨_, hnil⟩ | ⟨w, hstart, hran⟩
  · unfold deeds
    rw [hnil]
    exact Nat.zero_le _
  · have hone := (count_heldBack pollF _ _ _ _ hreach hrun k t ht hno).1
    rw [ran_handle hran] at hb
    obtain ⟨is, q, us, hrun', _, hslept⟩ := hran.before (modeCount_held true pollF)
    have hshort := count_sleeps_short hb hrun'
    unfold deeds at hone ⊢
    rw [hslept] at hone ⊢
    calc (insertions (runActs us)).sum
        ≤ (insertions (runActs us)).length * fromMillis (base + 9) := by
          have hsum := List.sum_le_card_nsmul _ _ hshort
          rwa [nsmul_eq_mul, Nat.cast_id] at hsum
      _ ≤ 1 * fromMillis (base + 9) := Nat.mul_le_mul_right _ hone
      _ = fromMillis (base + 9) := Nat.one_mul _

/-- A poll that holds the future back, whoever wakes it in the meantime. -/
def heldBackOnce : List (PoolAction (Job Unit) (ModeCount.Env Unit)) :=
  [.poll 0 (countEnv .pending .pending (Fin.last 9)) 0, .tick 1000000, .wake 0,
    .poll 0 (countEnv .pending .pending (Fin.last 9)) 0, .tick 18000000, .fire 0]

theorem count_latency_high :
    ∃ p p' t es, (countRuntime true stuck).exec (countRuntime true stuck).init wokenFive
        = some (p, es)
      ∧ ∃ us, (countRuntime true stuck).exec p heldBackOnce = some (p', us)
        ∧ p'.tasks[0]? = some t ∧ (turns (history 0 us)).length = 2
        ∧ insertions (deeds (history 0 us)) = [19000000]
        ∧ (insertions (deeds (history 0 us))).sum ≤ fromMillis 19 := by
  have hlate := @count_latency Unit Unit Unit stuck _ _ heldBackOnce _ ⟨wokenFive, _, rfl⟩ rfl
    0 _ rfl 10 rfl rfl
  exact ⟨_, _, _, _, rfl, _, rfl, rfl, rfl, rfl, hlate⟩

end RsRun.Proof
