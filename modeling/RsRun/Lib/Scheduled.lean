import RsRun.Lib.Simulation

/-!
# Tasks between polls

What a scheduler knows of a task: whether it sleeps, is to be polled, is being polled, or is
being polled and has been woken meanwhile, in which case it is polled again. And the
rule for costs that are paid per poll.
-/

namespace Sched

/-- Where a task is for its scheduler. -/
inductive Run where
  /-- Nobody polls it before it is woken. -/
  | idle
  | queued
  /-- Somebody polls it. -/
  | running
  /-- Somebody polls it, and it was woken meanwhile. -/
  | notified
deriving DecidableEq, Repr

/-- A waker is called. -/
def Run.wake : Run → Run
  | .idle => .queued
  | .queued => .queued
  | .running => .notified
  | .notified => .notified

/-- The poll comes back with `Pending`. -/
def Run.park : Run → Run
  | .idle => .idle
  | .queued => .queued
  | .running => .idle
  | .notified => .queued

/-- Is it being polled? -/
def Run.polling : Run → Bool
  | .idle => false
  | .queued => false
  | .running => true
  | .notified => true

@[simp] theorem Run.wake_ne_idle (r : Run) : r.wake ≠ .idle := by cases r <;> simp [Run.wake]

@[simp] theorem Run.wake_ne_running (r : Run) : r.wake ≠ .running := by cases r <;> simp [Run.wake]

@[simp] theorem Run.polling_wake (r : Run) : r.wake.polling = r.polling := by cases r <;> rfl

@[simp] theorem Run.polling_park (r : Run) : r.park.polling = false := by cases r <;> rfl

/-- A task that is idle after its poll was not woken in it. -/
theorem Run.running_of_park {r : Run} (hp : r.polling = true) (h : r.park = .idle) :
    r = .running := by
  cases r <;> simp_all [Run.park, Run.polling]

end Sched

namespace Lts

variable {σ α ε : Type*} {M : Lts σ α ε}

/--
**The credit rule.**

A measure that pays for the cost of every step, once what the step earns is added to it, pays
with all earnings for the cost of every run.
-/
theorem exec_credit {P : σ → Prop} (cost earn : α → Nat) (μ : σ → Nat)
    (hkeep : ∀ s a s' t, P s → M.step s a = some (s', t) → P s')
    (hstep : ∀ s a s' t, P s → M.step s a = some (s', t) → cost a + μ s' ≤ μ s + earn a)
    {as : List α} : ∀ {s s' : σ} {t : List ε}, P s → M.exec s as = some (s', t) →
      (as.map cost).sum + μ s' ≤ μ s + (as.map earn).sum := by
  induction as with
  | nil =>
      intro s s' t _ h
      injection h with h; injection h with h1 _
      subst h1
      exact Nat.le_of_eq (Nat.add_comm _ _)
  | cons a as ih =>
      intro s s' t hp h
      obtain ⟨s₁, t₁, t₂, hs, hr, _⟩ := exec_cons.mp h
      have hhead := hstep _ _ _ _ hp hs
      have htail := ih (hkeep _ _ _ _ hp hs) hr
      rw [List.map_cons, List.map_cons, List.sum_cons, List.sum_cons]
      omega

end Lts
