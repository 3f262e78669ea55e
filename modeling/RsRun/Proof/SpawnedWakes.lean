import RsRun.PendingFuture.SpawnSystem
import RsRun.Proof.CountMoves
import RsRun.Proof.Held

/-!
# No wake-up is lost, and none is invented

What the wrappers owe the futures they hold: a poll for every wake-up, though perhaps a
later one, and no poll that nothing called for.
-/

namespace RsRun.Proof

open Async SpawnSystem

variable {φ ω ν L : Type*}

section
variable {σ ι χ : Type*} {make : Job φ → σ} {cx : ι → Cx ω} {poll : σ → ι → Polled σ ω ν χ}
  {pollF : φ → Cx ω → φ × Poll ν} {inner : σ → φ} {stored : σ → Option Sleep} {chk : Bool}

theorem held_noneForgotten (hheld : ∀ s i, Held pollF inner stored chk (cx i) s (poll s i))
    (hmake : ∀ x, stored (make x) = none) : NoneForgotten (pool make cx poll) := by
  intro as p es hrun k t ht hlive
  obtain ⟨_, hwaker, _, hfired, hwaits⟩ := held_reachable hheld hmake ⟨as, es, hrun⟩ k t ht
  have howed := held_owed hheld hmake hrun ht hlive
  constructor
  · intro ho
    rw [ho] at howed
    by_cases hq : t.queued = true
    · exact .inl hq
    · -- then it is due because of a timer, and one that has fired would have queued it
      obtain ⟨tm, htm⟩ : ∃ tm, t.timer = some tm := by
        rw [← Option.isSome_iff_exists]
        simpa [Task.due, hq] using howed.symm
      have hf : tm.fired = false := by
        by_contra hf
        exact hq (hfired tm htm (by simpa using hf)).2
      exact .inr ⟨tm, htm, hf, hwaker tm htm⟩
  · intro ho
    rw [ho] at howed
    obtain ⟨hq, htm⟩ : t.queued = false ∧ t.timer = none := by
      simpa [Task.due] using howed.symm
    refine ⟨hq, htm, ?_⟩
    rcases hwaits hlive with h | h | h
    · rw [hq] at h
      exact absurd h (by simp)
    · rw [htm] at h
      exact absurd h (by simp)
    · exact h

theorem held_withinBudget (hheld : ∀ s i, Held pollF inner stored chk (cx i) s (poll s i))
    (hmake : ∀ x, stored (make x) = none) : WithinBudget (pool make cx poll) := by
  intro as p es hrun k t ht
  obtain ⟨hpolls, hinner⟩ := held_paid hheld hmake hrun ht
  exact ⟨by omega, by omega⟩

end

/--
**No wake-up is lost**: at any moment of any run, in all three modes, a live task whose
future was woken since it was last polled is queued or has a timer that will queue it, and
any other waits for its future alone, which holds a waker for it.
-/
theorem spawned_none_forgotten (chk : Bool) (pollF : φ → Cx ω → φ × Poll ν)
    (tryWait : ModeRatelimiter.Limiter L) :
    NoneForgotten (countRuntime chk pollF) ∧ NoneForgotten (timeRuntime chk pollF)
      ∧ NoneForgotten (limitedRuntime chk pollF tryWait) := by
  refine ⟨?_, ?_, ?_⟩
  · exact held_noneForgotten (modeCount_held chk pollF) (fun _ => rfl)
  · exact held_noneForgotten (modeTime_held chk pollF) (fun _ => rfl)
  · exact held_noneForgotten (modeRatelimiter_alone_held chk pollF tryWait) (fun _ => rfl)

/-- **No poll is invented**, in all three modes. -/
theorem spawned_within_budget (chk : Bool) (pollF : φ → Cx ω → φ × Poll ν)
    (tryWait : ModeRatelimiter.Limiter L) :
    WithinBudget (countRuntime chk pollF) ∧ WithinBudget (timeRuntime chk pollF)
      ∧ WithinBudget (limitedRuntime chk pollF tryWait) := by
  refine ⟨?_, ?_, ?_⟩
  · exact held_withinBudget (modeCount_held chk pollF) (fun _ => rfl)
  · exact held_withinBudget (modeTime_held chk pollF) (fun _ => rfl)
  · exact held_withinBudget (modeRatelimiter_alone_held chk pollF tryWait) (fun _ => rfl)

end RsRun.Proof
