import Mathlib.Data.List.Basic

/-!
# One-shot and poisoning primitives

A mutex whose holder panics is poisoned, and locking it afterwards fails. A value that
is computed once is poisoned when its closure panics, and asking for it again fails.
Threads are numbered; an operation that would block, or that is not the thread's to
do, is `none`.
-/

namespace Sync

/-- A mutex nobody holds: what it protects, and whether a holder has panicked. -/
structure Mutex (α : Type*) where
  val : α
  poisoned : Bool
deriving DecidableEq, Repr

/-- A mutex nobody has locked yet. -/
def Mutex.new {α : Type*} (val : α) : Mutex α := { val := val, poisoned := false }

/--
A value computed once, by the first thread that asks for it. While it is `running`,
`res` is what came out of the closure, if the closure is over: `some none` is a panic.
-/
inductive OneShot (α : Type*) where
  | incomplete
  | running (thread : Nat) (res : Option (Option α))
  | ready (val : α)
  | poisoned
deriving DecidableEq, Repr

namespace OneShot

variable {α : Type*}

/-- A thread asks for the value: it runs the closure (`none`), or has its answer. -/
def enter (s : OneShot α) (thread : Nat) : Option (OneShot α × Option (Option α)) :=
  match s with
  | .incomplete => some (.running thread none, none)
  | .running _ _ => none
  | .ready val => some (s, some (some val))
  | .poisoned => some (s, some none)

/-- The closure returns or panics. -/
def close (s : OneShot α) (thread : Nat) (res : Option α) : Option (OneShot α) :=
  match s with
  | .running t none => if t = thread then some (.running t (some res)) else none
  | _ => none

/-- The state for good, once it is known what came out of the closure. -/
def publish : Option α → OneShot α
  | some val => .ready val
  | none => .poisoned

/-- The thread that ran the closure publishes what came out of it. -/
def leave (s : OneShot α) (thread : Nat) : Option (OneShot α × Option α) :=
  match s with
  | .running t (some res) => if t = thread then some (publish res, res) else none
  | _ => none

/-- The same, without the value. -/
def forget : OneShot α → OneShot Unit
  | .incomplete => .incomplete
  | .running thread res => .running thread (res.map (fun val => val.map (fun _ => ())))
  | .ready _ => .ready ()
  | .poisoned => .poisoned

/-- What came out of the closure, if it is over. -/
def decided : OneShot α → Option (Option α)
  | .incomplete => none
  | .running _ res => res
  | .ready val => some (some val)
  | .poisoned => some none

theorem publish_decided (res : Option α) : (publish res).decided = some res := by
  cases res with
  | none => rfl
  | some val => rfl

variable {s s' : OneShot α} {thread : Nat}

/-- Asking decides nothing. -/
theorem enter_decided {r : Option (Option α)} (h : s.enter thread = some (s', r)) :
    s'.decided = s.decided ∧ ∀ res, r = some res → s.decided = some res := by
  unfold enter at h
  split at h
  · injection h with h; injection h with h1 h2
    subst h1; subst h2
    exact ⟨rfl, by intro res hr; exact absurd hr (by simp)⟩
  · exact absurd h (by simp)
  · injection h with h; injection h with h1 h2
    subst h1; subst h2
    exact ⟨rfl, by intro res hr; injection hr with hr; rw [← hr]; rfl⟩
  · injection h with h; injection h with h1 h2
    subst h1; subst h2
    exact ⟨rfl, by intro res hr; injection hr with hr; rw [← hr]; rfl⟩

/-- A value that is there is there for good: nobody runs or publishes anything any more. -/
theorem enter_ready {val : α} {r : Option (Option α)}
    (h : (ready val).enter thread = some (s', r)) : s' = ready val ∧ r = some (some val) := by
  injection h with h; injection h with h1 h2
  exact ⟨h1.symm, h2.symm⟩

/-- A thread that comes first, and closes and leaves in turn, publishes what it came to. -/
theorem close_running (thread : Nat) (res : Option α) :
    (running thread none).close thread res = some (running thread (some res)) := by
  rw [close, if_pos rfl]

theorem leave_running (thread : Nat) (res : Option α) :
    (running thread (some res)).leave thread = some (publish res, res) := by
  rw [leave, if_pos rfl]

theorem leave_ready (val : α) : (ready val).leave thread = none := rfl

theorem forget_incomplete (h : s.forget = .incomplete) : s = incomplete := by
  cases s <;> simp_all [forget]

theorem forget_poisoned (h : s.forget = .poisoned) : s = poisoned := by
  cases s <;> simp_all [forget]

theorem forget_running {res : Option (Option Unit)} (h : s.forget = .running thread res) :
    ∃ res', s = running thread res' ∧ res = res'.map (fun val => val.map (fun _ => ())) := by
  cases s with
  | running t res' =>
      injection h with ht hres
      exact ⟨res', by rw [ht], hres.symm⟩
  | incomplete => exact absurd h (by simp [forget])
  | ready val => exact absurd h (by simp [forget])
  | poisoned => exact absurd h (by simp [forget])

theorem forget_running_none (h : s.forget = .running thread none) : s = running thread none := by
  obtain ⟨res, hs, hres⟩ := forget_running h
  rw [hs, Option.map_eq_none_iff.mp hres.symm]

theorem forget_running_panicked (h : s.forget = .running thread (some none)) :
    s = running thread (some none) := by
  obtain ⟨res, hs, hres⟩ := forget_running h
  obtain ⟨val, hval, hnone⟩ := Option.map_eq_some_iff.mp hres.symm
  rw [hs, hval, Option.map_eq_none_iff.mp hnone]

/-- While a closure is running nobody else gets in. -/
theorem enter_was_running {r : Option (Option α)} {t : Nat} {res : Option (Option α)}
    (h : s.enter thread = some (running t res, r)) : t = thread := by
  unfold enter at h
  split at h
  · injection h with h; injection h with h _
    injection h with h _
    exact h.symm
  · exact absurd h (by simp)
  · exact absurd h (by simp)
  · exact absurd h (by simp)

theorem close_was_running {val : Option α} {t : Nat} {res : Option (Option α)}
    (h : s.close thread val = some (running t res)) : s = running t none := by
  unfold close at h
  split at h
  · split at h
    · injection h with h
      injection h with h _
      rw [h]
    · exact absurd h (by simp)
  · exact absurd h (by simp)

theorem publish_over (val : Option α) (t : Nat) (res : Option (Option α)) :
    publish val ≠ running t res := by
  cases val with
  | none => simp [publish]
  | some val => simp [publish]

theorem leave_over {val : Option α} (h : s.leave thread = some (s', val)) (t : Nat)
    (res : Option (Option α)) : s' ≠ running t res := by
  unfold leave at h
  split at h
  · split at h
    · injection h with h; injection h with h _
      rw [← h]
      exact publish_over _ t res
    · exact absurd h (by simp)
  · exact absurd h (by simp)

/-- The closure decides, once. -/
theorem close_decided {res : Option α} (h : s.close thread res = some s') :
    s.decided = none ∧ s'.decided = some res := by
  unfold close at h
  split at h
  · split at h
    · injection h with h
      subst h
      exact ⟨rfl, rfl⟩
    · exact absurd h (by simp)
  · exact absurd h (by simp)

/-- Publishing tells what was decided. -/
theorem leave_decided {res : Option α} (h : s.leave thread = some (s', res)) :
    s.decided = some res ∧ s'.decided = some res := by
  unfold leave at h
  split at h
  · split at h
    · injection h with h; injection h with h1 h2
      subst h1; subst h2
      exact ⟨rfl, publish_decided _⟩
    · exact absurd h (by simp)
  · exact absurd h (by simp)

end OneShot

end Sync
