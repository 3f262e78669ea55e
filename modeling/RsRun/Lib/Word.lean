import Mathlib.Tactic.Ring
import Mathlib.Data.Nat.Basic

/-!
# Fixed-width arithmetic in both kinds of build

A program compiled with overflow checks panics where the same program compiled
without them wraps. Both are one definition here: `none` is the panic, and the
flag says which build is meant. Values are natural numbers, and the width is a
parameter. Atomic read-modify-write operations wrap in every build.
-/

namespace Word

/-- Keep a result that fits in `w` bits; otherwise panic (`chk`) or wrap. -/
def fit (chk : Bool) (w n : Nat) : Option Nat :=
  if n < 2 ^ w then some n else if chk then none else some (n % 2 ^ w)

/-- `a + b` on `w`-bit unsigned integers. -/
def add (chk : Bool) (w a b : Nat) : Option Nat := fit chk w (a + b)

/-- `a * b` on `w`-bit unsigned integers. -/
def mul (chk : Bool) (w a b : Nat) : Option Nat := fit chk w (a * b)

/-- `a - b` on `w`-bit unsigned integers. -/
def sub (chk : Bool) (w a b : Nat) : Option Nat :=
  if b ≤ a then some (a - b) else if chk then none else some (a + 2 ^ w - b)

/-- `fetch_add` on a `w`-bit atomic. -/
def fetchAdd (w a b : Nat) : Nat := (a + b) % 2 ^ w

/-- `fetch_sub` on a `w`-bit atomic. -/
def fetchSub (w a b : Nat) : Nat := (a + 2 ^ w - b) % 2 ^ w

/-- `n as u64` and the like: keep the low `w` bits. -/
def truncate (w n : Nat) : Nat := n % 2 ^ w

/-- Only a build that checks for overflow panics. -/
theorem fit_none {chk : Bool} {w n : Nat} (h : fit chk w n = none) : chk = true := by
  unfold fit at h
  split at h
  · exact absurd h (by simp)
  · split at h
    · assumption
    · exact absurd h (by simp)

/-- Whatever the build, a result is the low bits. -/
theorem fit_some {chk : Bool} {w n m : Nat} (h : fit chk w n = some m) : m = n % 2 ^ w := by
  unfold fit at h
  split at h
  · rename_i hlt
    injection h with h
    rw [Nat.mod_eq_of_lt hlt, h]
  · split at h
    · exact absurd h (by simp)
    · injection h with h
      exact h.symm

/-- What fits is kept, whatever the build. -/
theorem fit_of_lt {chk : Bool} {w n : Nat} (h : n < 2 ^ w) : fit chk w n = some n := if_pos h

theorem add_some {chk : Bool} {w a b m : Nat} (h : add chk w a b = some m) :
    m = (a + b) % 2 ^ w := fit_some h

theorem add_none {chk : Bool} {w a b : Nat} (h : add chk w a b = none) : chk = true := fit_none h

/-- Without overflow checks a sum is always there. -/
theorem add_unchecked (w a b : Nat) : add false w a b = some ((a + b) % 2 ^ w) := by
  cases h : add false w a b with
  | none => exact absurd (add_none h) (by simp)
  | some m => rw [add_some h]

/-- An addition panics where the sum does not fit, in a build that checks. -/
theorem add_eq_none {chk : Bool} {w a b : Nat} :
    add chk w a b = none ↔ chk = true ∧ 2 ^ w ≤ a + b := by
  constructor
  · intro h
    refine ⟨add_none h, ?_⟩
    by_contra hlt
    rw [add, fit_of_lt (Nat.lt_of_not_le hlt)] at h
    exact absurd h (by simp)
  · rintro ⟨hchk, hle⟩
    rw [add, fit, if_neg (Nat.not_lt.mpr hle), if_pos hchk]

/-- A sum that a checking build lets through fits. -/
theorem add_checked {w a b m : Nat} (h : add true w a b = some m) : a + b < 2 ^ w ∧ m = a + b := by
  by_cases hlt : a + b < 2 ^ w
  · rw [add, fit_of_lt hlt] at h
    injection h with h
    exact ⟨hlt, h.symm⟩
  · rw [add_eq_none.mpr ⟨rfl, Nat.le_of_not_lt hlt⟩] at h
    exact absurd h (by simp)

theorem mul_none {chk : Bool} {w a b : Nat} (h : mul chk w a b = none) : chk = true := fit_none h

theorem sub_none {chk : Bool} {w a b : Nat} (h : sub chk w a b = none) : chk = true := by
  unfold sub at h
  split at h
  · exact absurd h (by simp)
  · split at h
    · assumption
    · exact absurd h (by simp)

end Word
