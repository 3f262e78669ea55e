import RsRun.PendingFuture.Samples
import RsRun.Proof.LimiterMoves

/-!
# The pending count of `mode_ratelimiter`

The counter is raised before the limiter is asked, whatever it answers, and again when the
inner future is pending. So it counts the `Pending` answers, the back-offs, and the polls
that the limiter granted, which `mode_count` does not count.
-/

namespace RsRun.Proof

open Async ModeRatelimiter

variable {φ ω ν L : Type*}

/--
The polls of a future wrapped with a handle of priority `p`. The memory behind the handle
is what the others that share it make of it, so every poll finds one of its own.
-/
def limiterPolls (chk : Bool) (pollF : φ → Cx ω → φ × Poll ν) (tryWait : Limiter L) (p : Priority)
    (future : φ) : Lts (Polling (PendingFuture φ)) (Shared L × Env ω)
      (Turn (PendingFuture φ) (Shared L × Env ω) ω ν TryWait) :=
  polls (pollAlone chk pollF tryWait) (PendingFuture.new (RateLimiterRuntimeHandle.new p) future)

/-- The poll asks the limiter, and the limiter grants it. -/
def Granted (tryWait : Limiter L) (this : PendingFuture φ) (seen : Shared L × Env ω) : Prop :=
  PastBackoff this.state seen.2.stored
    ∧ ∃ limiter, asked tryWait seen.1 this seen.2 = some (.granted, limiter)

/-! ## One poll -/

/-- What a poll that returns adds to the counter, and to what there is to count. -/
structure LimiterCounts (tryWait : Limiter L) (this : PendingFuture φ) (seen : Shared L × Env ω)
    (o : Polled (PendingFuture φ) ω ν TryWait) : Prop where
  count : this.pendCnt < 2 ^ 32 →
    o.next.pendCnt = (this.pendCnt + (pendings o.acts + (owns o.acts).length)) % 2 ^ 32
  few : pendings o.acts + (owns o.acts).length ≤ 2
  asks : (owns o.acts).length = (insertions o.acts).length + (owns o.acts).count .granted
  granted : .granted ∈ owns o.acts ↔ Granted tryWait this seen

section
variable {chk : Bool} {pollF : φ → Cx ω → φ × Poll ν} {tryWait : Limiter L} {this : PendingFuture φ}
  {seen : Shared L × Env ω}

theorem LetThrough.counted {before : Nat} {limiter : L} {said : List TryWait}
    (h : LetThrough chk tryWait seen.1 this seen.2 before limiter said)
    (hlt : this.pendCnt < 2 ^ 32) : before = (this.pendCnt + said.length) % 2 ^ 32 := by
  cases h with
  | free _ => exact (Nat.mod_eq_of_lt hlt).symm
  | granted _ _ _ hcnt => exact Word.add_some hcnt

theorem LetThrough.saidGranted {before : Nat} {limiter : L} {said : List TryWait}
    (h : LetThrough chk tryWait seen.1 this seen.2 before limiter said)
    (hpast : PastBackoff this.state seen.2.stored) :
    said.length = said.count .granted ∧ said.length ≤ 1
      ∧ (.granted ∈ said ↔ Granted tryWait this seen) := by
  cases h with
  | free hask =>
      refine ⟨rfl, by simp, ?_⟩
      constructor
      · exact fun hmem => absurd hmem (by simp)
      · rintro ⟨_, limiter, hgranted⟩
        rw [hask] at hgranted
        exact absurd hgranted (by simp)
  | granted _ limiter hask _ =>
      exact ⟨rfl, by simp, fun _ => ⟨hpast, limiter, hask⟩, fun _ => List.mem_singleton.mpr rfl⟩

/-- The same, read off what the poll shows. -/
theorem LimiterCounts.of_shows {o : Polled (Shared L × PendingFuture φ) ω ν TryWait}
    {bs : List Bool} {ds : List Nat} {ps : List (Cx ω × Poll ν)} {xs : List TryWait}
    (hs : Shows o.acts bs ds ps xs)
    (hcount : this.pendCnt < 2 ^ 32 →
      o.next.2.pendCnt = (this.pendCnt + (bs.count false + xs.length)) % 2 ^ 32)
    (hfew : bs.count false + xs.length ≤ 2) (hasks : xs.length = ds.length + xs.count .granted)
    (hgranted : .granted ∈ xs ↔ Granted tryWait this seen) :
    LimiterCounts tryWait this seen (o.map Prod.snd) := by
  have hacts : (o.map Prod.snd).acts = o.acts := rfl
  refine ⟨?_, ?_, ?_, ?_⟩
  · rw [hacts, hs.pendings, hs.owns]
    exact hcount
  · rw [hacts, hs.pendings, hs.owns]
    exact hfew
  · rw [hacts, hs.owns, hs.insertions]
    exact hasks
  · rw [hacts, hs.owns]
    exact hgranted

/-- **What a poll counts.** -/
theorem limiter_counts
    (hret : ∀ why, (pollAlone chk pollF tryWait this seen).res ≠ .panicked why) :
    LimiterCounts tryWait this seen (pollAlone chk pollF tryWait this seen) := by
  have hret' : ∀ why, (poll chk pollF tryWait seen.1 this seen.2).res ≠ .panicked why := hret
  change LimiterCounts tryWait this seen ((poll chk pollF tryWait seen.1 this seen.2).map Prod.snd)
  cases limiter_moves chk pollF tryWait seen.1 this seen.2 with
  | waiting state hstay _ hn hs =>
      refine .of_shows hs ?_ (by simp) rfl ?_
      · intro hlt
        rw [hn]
        exact (Nat.mod_eq_of_lt hlt).symm
      · exact ⟨fun hmem => absurd hmem (by simp), fun hgranted => absurd hgranted.1 hstay⟩
  | refused wait pendCnt limiter state _ hask hcnt _ hn hs =>
      refine .of_shows hs ?_ (by simp) rfl ?_
      · intro _
        rw [hn]
        exact Word.add_some hcnt
      · constructor
        · exact fun hmem => absurd hmem (by simp)
        · rintro ⟨_, limiter', hgranted⟩
          rw [hask] at hgranted
          exact absurd hgranted (by simp)
  | pending before pendCnt limiter said hpast hlet _ hcnt _ hn hs =>
      obtain ⟨hsaid, hone, hgranted⟩ := hlet.saidGranted hpast
      refine .of_shows hs ?_ ?_ ?_ hgranted
      · intro hlt
        have hbefore := hlet.counted hlt
        have hafter := Word.add_some hcnt
        rw [hn]
        change pendCnt = (this.pendCnt + (1 + said.length)) % 2 ^ 32
        omega
      · change 1 + said.length ≤ 2
        omega
      · rw [List.length_nil, Nat.zero_add]
        exact hsaid
  | ready v pendCnt limiter said hpast hlet _ _ hn hs =>
      obtain ⟨hsaid, hone, hgranted⟩ := hlet.saidGranted hpast
      refine .of_shows hs ?_ ?_ ?_ hgranted
      · intro hlt
        rw [hn]
        change pendCnt = (this.pendCnt + (0 + said.length)) % 2 ^ 32
        rw [Nat.zero_add]
        exact hlet.counted hlt
      · change 0 + said.length ≤ 2
        omega
      · rw [List.length_nil, Nat.zero_add]
        exact hsaid
  | askPanics why _ _ _ hr _ _ => exact absurd hr (hret' why)
  | answerPanics why _ _ _ _ _ _ _ hr _ _ => exact absurd hr (hret' why)

end

/-! ## Every run -/

/-- What was counted in a run, and what the counter says of it. -/
structure LimiterRun (tryWait : Limiter L) (w : PendingFuture φ)
    (ts : List (Turn (PendingFuture φ) (Shared L × Env ω) ω ν TryWait)) : Prop where
  count : w.pendCnt = (pendings (runActs ts) + (owns (runActs ts)).length) % 2 ^ 32
  few : pendings (runActs ts) + (owns (runActs ts)).length ≤ 2 * ts.length
  asks : (owns (runActs ts)).length
    = (insertions (runActs ts)).length + (owns (runActs ts)).count .granted
  granted : .granted ∈ owns (runActs ts) ↔ ∃ t ∈ ts, Granted tryWait t.before t.input

section
variable {chk : Bool} {pollF : φ → Cx ω → φ × Poll ν} {tryWait : Limiter L} {p : Priority}
  {future : φ}

theorem limiterRun_step {w : PendingFuture φ} {seen : Shared L × Env ω}
    {ts : List (Turn (PendingFuture φ) (Shared L × Env ω) ω ν TryWait)}
    (h : LimiterRun tryWait w ts)
    (hret : ∀ why, (pollAlone chk pollF tryWait w seen).res ≠ .panicked why) :
    LimiterRun tryWait (pollAlone chk pollF tryWait w seen).next
      (ts ++ [⟨w, seen, pollAlone chk pollF tryWait w seen⟩]) := by
  have hpoll := limiter_counts hret
  have hlt : w.pendCnt < 2 ^ 32 := by
    rw [h.count]
    exact Nat.mod_lt _ (by decide)
  refine ⟨?_, ?_, ?_, ?_⟩
  · rw [hpoll.count hlt, h.count, runActs_snoc, pendings_append, owns_append, List.length_append]
    dsimp only
    omega
  · have hold := h.few
    have hnew := hpoll.few
    rw [runActs_snoc, pendings_append, owns_append, List.length_append, List.length_append,
      List.length_singleton]
    dsimp only
    omega
  · have hold := h.asks
    have hnew := hpoll.asks
    rw [runActs_snoc, owns_append, insertions_append, List.length_append, List.length_append,
      List.count_append]
    dsimp only
    omega
  · rw [runActs_snoc, owns_append, List.mem_append, h.granted, hpoll.granted]
    constructor
    · rintro (⟨t, hmem, ht⟩ | hlast)
      · exact ⟨t, List.mem_append_left _ hmem, ht⟩
      · exact ⟨_, List.mem_append_right _ (List.mem_singleton.mpr rfl), hlast⟩
    · rintro ⟨t, hmem, ht⟩
      rcases List.mem_append.mp hmem with hmem | hmem
      · exact .inl ⟨t, hmem, ht⟩
      · rw [List.mem_singleton.mp hmem] at ht
        exact .inr ht

theorem limiterRun_exec {seens : List (Shared L × Env ω)} {s : Polling (PendingFuture φ)}
    {ts : List (Turn (PendingFuture φ) (Shared L × Env ω) ω ν TryWait)}
    (h : (limiterPolls chk pollF tryWait p future).exec
      (limiterPolls chk pollF tryWait p future).init seens = some (s, ts)) :
    LimiterRun tryWait s.wrapper ts := by
  refine polls_log (P := LimiterRun tryWait) ?_ (fun _ _ _ hw hret => limiterRun_step hw hret) h
  exact ⟨rfl, Nat.zero_le _, rfl, by simp [runActs, owns]⟩

end

/--
**The counter is the `Pending` answers and the back-offs, if and only if nothing was granted.**

For fewer than `2 ^ 31` polls, whatever the limiter and the sleeps answer.
-/
theorem pending_count_iff (chk : Bool) (pollF : φ → Cx ω → φ × Poll ν) (tryWait : Limiter L)
    (p : Priority) (future : φ) {seens : List (Shared L × Env ω)} {s : Polling (PendingFuture φ)}
    {ts : List (Turn (PendingFuture φ) (Shared L × Env ω) ω ν TryWait)}
    (hlen : seens.length < 2 ^ 31)
    (h : (limiterPolls chk pollF tryWait p future).exec
      (limiterPolls chk pollF tryWait p future).init seens = some (s, ts)) :
    s.wrapper.pendCnt = pendings (runActs ts) + (insertions (runActs ts)).length
      ↔ ∀ t ∈ ts, ¬ Granted tryWait t.before t.input := by
  have hrun := limiterRun_exec h
  have hturns : ts.length = seens.length := polls_length h
  -- two counts a poll do not fill a `u32` in so few polls
  have hexact : s.wrapper.pendCnt = pendings (runActs ts) + (owns (runActs ts)).length := by
    rw [hrun.count]
    have hfew := hrun.few
    exact Nat.mod_eq_of_lt (by omega)
  have hasks := hrun.asks
  have hzero : (owns (runActs ts)).count .granted = 0
      ↔ ¬ ∃ t ∈ ts, Granted tryWait t.before t.input := by
    rw [List.count_eq_zero, hrun.granted]
  constructor
  · intro heq t hmem hgranted
    exact hzero.mp (by omega) ⟨t, hmem, hgranted⟩
  · intro hnone
    have hcount := hzero.mpr (fun ⟨t, hmem, hgranted⟩ => hnone t hmem hgranted)
    omega

/-- A limiter that refuses everything. -/
def refuseAll : Limiter Unit := fun _ limiter wait => (.refused wait, limiter)

/-- One refusal is one back-off. -/
theorem pending_count_refused :
    ∃ s ts, (limiterPolls true readyAtOnce refuseAll .middle ()).exec
        (limiterPolls true readyAtOnce refuseAll .middle ()).init
        [(Shared.new (), limiterEnv .pending .pending 1000)] = some (s, ts)
      ∧ s.wrapper.pendCnt = pendings (runActs ts) + (insertions (runActs ts)).length
      ∧ (insertions (runActs ts)).length = 1 := by
  have hiff := @pending_count_iff Unit Unit Unit Unit true readyAtOnce refuseAll .middle ()
    [(Shared.new (), limiterEnv .pending .pending 1000)] _ _ (by decide) rfl
  refine ⟨_, _, rfl, hiff.mpr ?_, rfl⟩
  rintro t hmem ⟨_, limiter, hask⟩
  rw [List.mem_singleton.mp hmem] at hask
  exact absurd hask (by simp [asked, refuseAll])

/-- At priority `Middle`, a future that is ready when it is first polled has been counted once. -/
theorem not_pending_count : ¬ ∀ (seens : List (Shared Unit × Env Unit)) s ts,
    seens.length < 2 ^ 31 →
    (limiterPolls true readyAtOnce grantAll .middle ()).exec
        (limiterPolls true readyAtOnce grantAll .middle ()).init seens = some (s, ts) →
    s.wrapper.pendCnt = pendings (runActs ts) + (insertions (runActs ts)).length := by
  intro h
  exact absurd (h [(Shared.new (), limiterEnv .pending .pending 0)] _ _ (by decide) rfl) (by decide)

end RsRun.Proof
