import RsRun.Lib.Intervals
import RsRun.Proof.CountCadence

/-!
# The record of a completed future

`total_micro` is one span, from the moment `begin_time` is read to the last reading;
`cpu_micro` is the sum of the spans of the polls that came to the inner future, each
rounded down on its own, and the first of them begins before `begin_time` is read. So
the record is a proper fraction only if what rounding leaves out, and the time in no
such poll, makes up for that head start.
-/

namespace RsRun.Proof

open Async ModeCount Intervals

variable {φ ω ν : Type*}

/-- The readings of the clock after the inner poll: `poll_time`, and the record. -/
def lateReadings (t : Turn (PendingFuture φ) (Env ω) ω ν OneFutureRecord) : List Nat :=
  (if (innerPolls t.out.acts).isEmpty then [] else [t.input.polledNow])
    ++ match t.out.res with
        | .ready _ => [t.input.endNow]
        | .pending => []
        | .panicked _ => []

/-- The readings of the clock in one poll, in the order of the code. -/
def readings (t : Turn (PendingFuture φ) (Env ω) ω ν OneFutureRecord) : List Nat :=
  t.input.bfPoll
    :: ((if t.before.beginTime.isNone then [t.input.beginNow] else []) ++ lateReadings t)

/-- The span a poll charges to the inner future, if it came to it. -/
def innerSpan (t : Turn (PendingFuture φ) (Env ω) ω ν OneFutureRecord) : List (Nat × Nat) :=
  if (innerPolls t.out.acts).isEmpty then [] else [(t.input.bfPoll, t.input.polledNow)]

section
variable (ts : List (Turn (PendingFuture φ) (Env ω) ω ν OneFutureRecord))

/-- All readings of a run. -/
def clock : List Nat := ts.flatMap readings

/-- All spans charged to the inner future. -/
def innerSpans : List (Nat × Nat) := ts.flatMap innerSpan

/-- The first reading. -/
def startedAt : Nat := (ts.head?.map (fun t => t.input.bfPoll)).getD 0

/-- What `begin_time` is set to. -/
def begunAt : Nat := (ts.head?.map (fun t => t.input.beginNow)).getD 0

/-- The last reading of a run that is done. -/
def endedAt : Nat := (ts.getLast?.map (fun t => t.input.endNow)).getD 0

/-- From `begin_time` to the last reading. -/
def lifetime : Nat := endedAt ts - begunAt ts

/-- How much earlier than `begin_time` the first charged span may begin. -/
def headStart : Nat := begunAt ts - startedAt ts

end

section
variable {ts : List (Turn (PendingFuture φ) (Env ω) ω ν OneFutureRecord)}

theorem innerSpans_snoc (t : Turn (PendingFuture φ) (Env ω) ω ν OneFutureRecord) :
    innerSpans (ts ++ [t]) = innerSpans ts ++ innerSpan t := Lists.flatMap_snoc _ ts t

theorem points_innerSpan (t : Turn (PendingFuture φ) (Env ω) ω ν OneFutureRecord) :
    (points (innerSpan t)).Sublist (readings t) := by
  unfold innerSpan readings lateReadings
  by_cases hempty : (innerPolls t.out.acts).isEmpty = true
  · rw [if_pos hempty]
    exact List.nil_sublist _
  · rw [if_neg hempty, if_neg hempty]
    refine List.Sublist.cons_cons _ (List.singleton_sublist.mpr ?_)
    exact List.mem_append_right _ (List.mem_append_left _ List.mem_cons_self)

theorem points_innerSpans (ts : List (Turn (PendingFuture φ) (Env ω) ω ν OneFutureRecord)) :
    (points (innerSpans ts)).Sublist (clock ts) := by
  induction ts with
  | nil => exact List.nil_sublist _
  | cons t ts ih =>
      have hspans : innerSpans (t :: ts) = innerSpan t ++ innerSpans ts := rfl
      rw [hspans, points_append]
      exact (points_innerSpan t).append ih

end

/-! ## What a run keeps -/

/-- `begin_time` was set by the first turn, and `poll_time` counts the charged spans. -/
structure CountClock (w : PendingFuture φ)
    (ts : List (Turn (PendingFuture φ) (Env ω) ω ν OneFutureRecord)) : Prop where
  beginTime : w.beginTime = ts.head?.map (fun t => t.input.beginNow)
  pollTime : w.pollTime = wholes 1000 (innerSpans ts) % 2 ^ 64
  first : ∀ t ∈ ts.head?, t.before.beginTime = none

/-- The record of a run that is done. -/
structure RecordOf (ts : List (Turn (PendingFuture φ) (Env ω) ω ν OneFutureRecord))
    (r : OneFutureRecord) : Prop where
  total : r.totalMicro = lifetime ts / 1000 % 2 ^ 64
  cpu : r.cpuMicro = wholes 1000 (innerSpans ts) % 2 ^ 64
  last : ∃ t v, ts.getLast? = some t ∧ t.out.res = .ready v

section
variable {chk : Bool} {pollF : φ → Cx ω → φ × Poll ν} {p : Priority} {future : φ}
  {ts : List (Turn (PendingFuture φ) (Env ω) ω ν OneFutureRecord)} {w : PendingFuture φ}

theorem head_snoc (h : CountClock w ts) (env : Env ω)
    (o : Polled (PendingFuture φ) ω ν OneFutureRecord) :
    (ts ++ [Turn.mk w env o]).head?.map (fun t => t.input.beginNow)
      = some (w.beginTime.getD env.beginNow) := by
  rw [h.beginTime]
  cases ts <;> rfl

/-- A charged span is added to `poll_time` in whole microseconds. -/
theorem charged_snoc (h : CountClock w ts) {env : Env ω}
    {o : Polled (PendingFuture φ) ω ν OneFutureRecord} {cx : Cx ω} {answer : Poll ν}
    (ho : innerPolls o.acts = [(cx, answer)]) :
    (w.pollTime + charged env) % 2 ^ 64
      = wholes 1000 (innerSpans (ts ++ [⟨w, env, o⟩])) % 2 ^ 64 := by
  have hspan : innerSpan ⟨w, env, o⟩ = [(env.bfPoll, env.polledNow)] := by
    unfold innerSpan
    dsimp only
    rw [ho]
    rfl
  have hwhole : wholes 1000 [(env.bfPoll, env.polledNow)]
      = (env.polledNow - env.bfPoll) / 1000 := rfl
  rw [innerSpans_snoc, wholes_append, hspan, hwhole, h.pollTime]
  exact (Nat.add_mod _ _ _).symm

/-- No span is charged by a poll that does not come to the inner future. -/
theorem uncharged_snoc (h : CountClock w ts) {env : Env ω}
    {o : Polled (PendingFuture φ) ω ν OneFutureRecord} (ho : innerPolls o.acts = []) :
    w.pollTime = wholes 1000 (innerSpans (ts ++ [⟨w, env, o⟩])) % 2 ^ 64 := by
  have hspan : innerSpan ⟨w, env, o⟩ = [] := by
    unfold innerSpan
    dsimp only
    rw [ho]
    rfl
  rw [innerSpans_snoc, hspan, List.append_nil]
  exact h.pollTime

theorem countClock_step {env : Env ω} (h : CountClock w ts)
    (hret : ∀ why, (poll chk pollF w env).res ≠ .panicked why) :
    CountClock (poll chk pollF w env).next (ts ++ [⟨w, env, poll chk pollF w env⟩]) := by
  have hbegin := head_snoc h env (poll chk pollF w env)
  have hfirst : ∀ t ∈ (ts ++ [Turn.mk w env (poll chk pollF w env)]).head?,
      t.before.beginTime = none := by
    intro t ht
    cases ts with
    | nil =>
        injection ht with ht
        rw [← ht]
        exact h.beginTime
    | cons t' ts => exact h.first t ht
  cases modeCount_moves w env hret with
  | waiting state _ hn hs =>
      refine ⟨?_, ?_, hfirst⟩
      · rw [hbegin, hn]; rfl
      · rw [← uncharged_snoc h hs.innerPolls, hn]; rfl
  | backoff _ state _ _ _ hn hs =>
      refine ⟨?_, ?_, hfirst⟩
      · rw [hbegin, hn]; rfl
      · rw [← uncharged_snoc h hs.innerPolls, hn]; rfl
  | pending _ _ hn hs =>
      refine ⟨?_, ?_, hfirst⟩
      · rw [hbegin, hn]; rfl
      · rw [← charged_snoc h hs.innerPolls, hn]; rfl
  | ready v _ _ hn hs =>
      refine ⟨?_, ?_, hfirst⟩
      · rw [hbegin, hn]; rfl
      · rw [← charged_snoc h hs.innerPolls, hn]; rfl

/-- The record a poll makes, if it makes one. -/
theorem recordOf_step {env : Env ω} (h : CountClock w ts)
    (hret : ∀ why, (poll chk pollF w env).res ≠ .panicked why) {r : OneFutureRecord}
    (hr : r ∈ owns (poll chk pollF w env).acts) :
    (∃ v, (poll chk pollF w env).res = .ready v)
      ∧ RecordOf (ts ++ [⟨w, env, poll chk pollF w env⟩]) r := by
  have hbegin := head_snoc h env (poll chk pollF w env)
  cases modeCount_moves w env hret with
  | waiting state _ _ hs => rw [hs.owns] at hr; exact absurd hr List.not_mem_nil
  | backoff _ state _ _ _ _ hs => rw [hs.owns] at hr; exact absurd hr List.not_mem_nil
  | pending _ _ _ hs => rw [hs.owns] at hr; exact absurd hr List.not_mem_nil
  | ready v _ hres _ hs =>
      rw [hs.owns] at hr
      have hlast : (ts ++ [Turn.mk w env (poll chk pollF w env)]).getLast?
          = some ⟨w, env, poll chk pollF w env⟩ := List.getLast?_concat
      refine ⟨⟨v, hres⟩, ?_, ?_, _, v, hlast, hres⟩
      · rw [List.mem_singleton.mp hr]
        unfold lifetime begunAt endedAt
        rw [hbegin, hlast]
        rfl
      · rw [List.mem_singleton.mp hr]
        exact charged_snoc h hs.innerPolls

theorem recordOf_exec {envs : List (Env ω)} {s : Polling (PendingFuture φ)}
    (h : (countPolls chk pollF p future).exec (countPolls chk pollF p future).init envs
      = some (s, ts)) :
    CountClock s.wrapper ts
      ∧ ∀ r ∈ owns (runActs ts), s.done = true ∧ RecordOf ts r := by
  refine Lts.log_of_init (P := fun s ts => CountClock s.wrapper ts
    ∧ ∀ r ∈ owns (runActs ts), s.done = true ∧ RecordOf ts r) ?_ ?_ h
  · exact ⟨⟨rfl, rfl, by simp⟩, fun r hr => absurd hr List.not_mem_nil⟩
  · intro q env q' us us' _ hp hs
    obtain ⟨hclock, hrecs⟩ := hp
    obtain ⟨hlive, hnext, hlog, hret, hdone⟩ := polls_step hs
    rw [hnext, hlog]
    refine ⟨countClock_step hclock hret, ?_⟩
    intro r hr
    rw [runActs_snoc, owns_append] at hr
    rcases List.mem_append.mp hr with hr | hr
    · -- a run that is still live has made no record
      obtain ⟨hd, _⟩ := hrecs r hr
      rw [hlive] at hd
      exact absurd hd (by simp)
    · obtain ⟨hready, hrec⟩ := recordOf_step hclock hret hr
      exact ⟨hdone.mpr hready, hrec⟩

/-! ## On a clock that never goes back -/

theorem clock_first (h : CountClock w ts) (hne : ts ≠ []) :
    ∃ l, clock ts = startedAt ts :: begunAt ts :: l := by
  cases ts with
  | nil => exact absurd rfl hne
  | cons t ts =>
      have hnone : t.before.beginTime = none := h.first t rfl
      refine ⟨lateReadings t ++ clock ts, ?_⟩
      unfold clock
      rw [List.flatMap_cons]
      unfold readings
      rw [hnone]
      rfl

theorem clock_last {t : Turn (PendingFuture φ) (Env ω) ω ν OneFutureRecord} {v : ν}
    (hlast : ts.getLast? = some t) (hready : t.out.res = .ready v) :
    ∃ l, clock ts = l ++ [endedAt ts] := by
  obtain ⟨us, rfl⟩ := List.getLast?_eq_some_iff.mp hlast
  have hend : endedAt (us ++ [t]) = t.input.endNow := by
    unfold endedAt
    rw [hlast]
    rfl
  have hreadings : ∃ l, readings t = l ++ [t.input.endNow] := by
    unfold readings lateReadings
    rw [hready, ← List.append_assoc, ← List.cons_append]
    exact ⟨_, rfl⟩
  obtain ⟨l, hl⟩ := hreadings
  refine ⟨clock us ++ l, ?_⟩
  unfold clock
  rw [hend, List.flatMap_append, List.flatMap_singleton, hl, List.append_assoc]

/-- The moments of a run in their order, with room for all that was charged. -/
theorem moments_ordered (h : CountClock w ts) {r : OneFutureRecord} (hr : RecordOf ts r)
    (hclock : (clock ts).Pairwise (· ≤ ·)) :
    startedAt ts ≤ begunAt ts ∧ begunAt ts ≤ endedAt ts
      ∧ startedAt ts + covered (innerSpans ts) ≤ endedAt ts := by
  obtain ⟨t, v, hlast, hready⟩ := hr.last
  have hne : ts ≠ [] := by rintro rfl; exact absurd hlast (by simp)
  obtain ⟨l, hfirst⟩ := clock_first h hne
  obtain ⟨m, hend⟩ := clock_last hlast hready
  have hafter : ∀ x ∈ clock ts, startedAt ts ≤ x := by
    rw [hfirst] at hclock ⊢
    intro x hx
    rcases List.mem_cons.mp hx with rfl | hx
    · exact Nat.le_refl _
    · exact (List.pairwise_cons.mp hclock).1 x hx
  have hbefore : ∀ x ∈ clock ts, x ≤ endedAt ts := by
    rw [hend] at hclock ⊢
    intro x hx
    rcases List.mem_append.mp hx with hx | hx
    · exact (List.pairwise_append.mp hclock).2.2 x hx _ List.mem_cons_self
    · exact Nat.le_of_eq (List.mem_singleton.mp hx)
  have hbegun : begunAt ts ∈ clock ts := by
    rw [hfirst]
    exact List.mem_cons_of_mem _ List.mem_cons_self
  refine ⟨hafter _ hbegun, hbefore _ hbegun, ?_⟩
  -- the charged spans begin and end with readings, so they do not overlap
  have hsub := points_innerSpans ts
  exact covered_le (Nat.le_trans (hafter _ hbegun) (hbefore _ hbegun)) (hclock.sublist hsub)
    (fun x hx => hafter x (hsub.subset hx)) (fun x hx => hbefore x (hsub.subset hx))

end

/--
**When the record of a future is a proper fraction.**

Exactly when the whole microseconds of its life, counted in 64 bits, are at least one
and at least those charged. In a run of less than `2 ^ 64` microseconds that is: a
microsecond passes after `begin_time` is read, and the time in no charged microsecond
is at least the head start of the first poll.
-/
theorem proper_fraction_iff (chk : Bool) (pollF : φ → Cx ω → φ × Poll ν) (p : Priority)
    (future : φ) {envs : List (Env ω)} {s : Polling (PendingFuture φ)}
    {ts : List (Turn (PendingFuture φ) (Env ω) ω ν OneFutureRecord)}
    (h : (countPolls chk pollF p future).exec (countPolls chk pollF p future).init envs
      = some (s, ts))
    (hclock : (clock ts).Pairwise (· ≤ ·)) {r : OneFutureRecord} (hr : r ∈ owns (runActs ts)) :
    ((1 ≤ r.totalMicro ∧ r.cpuMicro ≤ r.totalMicro) ↔
        1 ≤ lifetime ts / 1000 % 2 ^ 64
          ∧ wholes 1000 (innerSpans ts) % 2 ^ 64 ≤ lifetime ts / 1000 % 2 ^ 64)
      ∧ (endedAt ts - startedAt ts < 1000 * 2 ^ 64 →
        ((1 ≤ r.totalMicro ∧ r.cpuMicro ≤ r.totalMicro) ↔
          1000 ≤ lifetime ts
            ∧ headStart ts ≤ spare 1000 (startedAt ts) (endedAt ts) (innerSpans ts))) := by
  obtain ⟨hcc, hrecs⟩ := recordOf_exec h
  obtain ⟨_, hrec⟩ := hrecs r hr
  rw [hrec.total, hrec.cpu]
  refine ⟨Iff.rfl, ?_⟩
  intro hshort
  obtain ⟨hab, hbe, hfit⟩ := moments_ordered hcc hrec hclock
  have hwholes := wholes_le (u := 1000) (by decide) hfit
  -- in so short a run neither the cast nor the sum is cut off
  have hlife : lifetime ts / 1000 < 2 ^ 64 := by unfold lifetime; omega
  have hcharged : wholes 1000 (innerSpans ts) < 2 ^ 64 := by omega
  rw [Nat.mod_eq_of_lt hlife, Nat.mod_eq_of_lt hcharged]
  have hmicro : 1 ≤ lifetime ts / 1000 ↔ 1000 ≤ lifetime ts := by omega
  rw [hmicro]
  exact and_congr_right fun _ => wholes_le_iff (by decide) hab hbe hfit

/-- One poll with these readings of the clock. -/
def readyEnv (bfPoll beginNow polledNow endNow : Nat) : Env Unit :=
  { countEnv .pending .pending (Fin.last 9) with
    bfPoll := bfPoll
    beginNow := beginNow
    polledNow := polledNow
    endNow := endNow }

/-- Two pending polls and a third, of more than a microsecond each, in a life of seven. -/
def threePolls : List (Env Unit) :=
  [readyEnv 0 0 1500 0, readyEnv 2000 0 3200 0, readyEnv 4000 0 5100 7000]

/-- Three microseconds are charged, and seven pass. -/
theorem proper_fraction_short :
    ∃ s ts r, (countPolls true countdown .low 2).exec (countPolls true countdown .low 2).init
        threePolls = some (s, ts)
      ∧ innerSpans ts = [(0, 1500), (2000, 3200), (4000, 5100)] ∧ owns (runActs ts) = [r]
      ∧ (1 ≤ r.totalMicro ∧ r.cpuMicro ≤ r.totalMicro) := by
  have hrec := (@proper_fraction_iff Nat Unit Unit true countdown .low 2 threePolls
    _ _ rfl (by decide) ⟨7, 3⟩ (by decide)).2 (by decide)
  exact ⟨_, _, _, rfl, rfl, rfl, hrec.mpr (by decide)⟩

/--
On a clock that stands still the record divides by zero; and it charges two
microseconds to a life of one when the first passes before `begin_time` is read.
-/
theorem not_proper_fraction :
    (∃ s ts r, (countPolls true countdown .low 0).exec
          (countPolls true countdown .low 0).init [readyEnv 0 0 0 0] = some (s, ts)
        ∧ (clock ts).Pairwise (· ≤ ·) ∧ owns (runActs ts) = [r] ∧ r.totalMicro = 0)
      ∧ ∃ s ts r, (countPolls true countdown .low 0).exec
          (countPolls true countdown .low 0).init [readyEnv 0 1000 2000 2000] = some (s, ts)
        ∧ (clock ts).Pairwise (· ≤ ·) ∧ owns (runActs ts) = [r]
        ∧ r.totalMicro = 1 ∧ r.cpuMicro = 2 :=
  ⟨⟨_, _, _, rfl, by decide, rfl, rfl⟩, ⟨_, _, _, rfl, by decide, rfl, rfl, rfl⟩⟩

end RsRun.Proof
