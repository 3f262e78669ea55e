import Mathlib.Data.List.Basic

/-!
# Token buckets

A bucket holds at most `cap` tokens. Taking one is possible while there is one; a
refill adds `amount`, and what does not fit is lost. However takes and refills are
interleaved, the takes between two moments are bounded by what was there and what
was added.
-/

namespace TokenBucket

/-- What can happen to a bucket. -/
inductive Op where
  | take
  | refill
deriving DecidableEq, Repr

/-- One operation on a bucket holding `n`; `none` when there is nothing to take. -/
def step (amount cap : Nat) : Nat → Op → Option Nat
  | n, .take => if 0 < n then some (n - 1) else none
  | n, .refill => some (min (n + amount) cap)

/-- A sequence of operations. -/
def run (amount cap : Nat) : Nat → List Op → Option Nat
  | n, [] => some n
  | n, op :: ops => (step amount cap n op).bind (fun m => run amount cap m ops)

theorem run_append {amount cap : Nat} (ops ops' : List Op) : ∀ n : Nat,
    run amount cap n (ops ++ ops')
      = (run amount cap n ops).bind (fun m => run amount cap m ops') := by
  induction ops with
  | nil => intro n; rfl
  | cons op ops ih =>
      intro n
      rw [List.cons_append, run, run]
      cases step amount cap n op with
      | none => rfl
      | some m => exact ih m

/-- As many tokens as there are can be taken one after the other. -/
theorem run_takes (amount cap : Nat) : ∀ k m : Nat,
    run amount cap (m + k) (List.replicate k .take) = some m
  | 0, _ => rfl
  | k + 1, m => by
      rw [List.replicate_succ, run, step, if_pos (by omega)]
      exact run_takes amount cap k m

theorem step_cap {amount cap n m : Nat} {op : Op} (h : step amount cap n op = some m)
    (hn : n ≤ cap) : m ≤ cap := by
  cases op with
  | take =>
      rw [step] at h
      split at h
      · injection h with h; omega
      · exact absurd h (by simp)
  | refill => injection h with h; omega

/-- **No operation takes or adds more than it says.** -/
theorem run_le {amount cap : Nat} (ops : List Op) : ∀ {n m : Nat}, n ≤ cap →
    run amount cap n ops = some m →
      ops.count .take + m ≤ n + ops.count .refill * amount ∧ m ≤ cap := by
  induction ops with
  | nil =>
      intro n m hn h
      injection h with h; subst h
      exact ⟨by simp, hn⟩
  | cons op ops ih =>
      intro n m hn h
      rw [run, Option.bind_eq_some_iff] at h
      obtain ⟨k, hk, hr⟩ := h
      obtain ⟨h1, h2⟩ := ih (step_cap hk hn) hr
      refine ⟨?_, h2⟩
      cases op with
      | take =>
          rw [step] at hk
          split at hk
          · injection hk with hk
            simp only [List.count_cons_self, List.count_cons_of_ne (show Op.take ≠ .refill by simp)]
            omega
          · exact absurd hk (by simp)
      | refill =>
          injection hk with hk
          simp only [List.count_cons_self, List.count_cons_of_ne (show Op.refill ≠ .take by simp)]
          have : (ops.count .refill + 1) * amount = ops.count .refill * amount + amount :=
            Nat.succ_mul ..
          omega

/-- **The rate bound.** Between two moments, at most a full bucket and what was added is taken. -/
theorem takes_le {amount cap n m : Nat} {ops : List Op} (hn : n ≤ cap)
    (h : run amount cap n ops = some m) :
    ops.count .take ≤ cap + ops.count .refill * amount := by
  obtain ⟨h1, _⟩ := run_le ops hn h
  omega

end TokenBucket
