import Mathlib.Algebra.Ring.Nat
import RsRun.Lib.Async
import RsRun.Lib.Word

/-!
# The back-off state shared by the three wrappers

`mode_count`, `mode_time` and `mode_ratelimiter` each declare the same `State`
and the same two blocks around it: the `match this.state` at the head of `poll`,
and the block that inserts a sleep and polls it at once. Each block is one
definition here, over whatever structure the state is a field of. All clocks and
durations are in nanoseconds.
-/

namespace RsRun

open Async

/-- `earlier.elapsed().as_micros() as u64`, read at `now`. -/
def elapsedMicros (earlier now : Nat) : Nat := Word.truncate 64 ((now - earlier) / 1000)

/-- `Duration::from_millis`. -/
def fromMillis (ms : Nat) : Nat := ms * 1000000

/-- The milliseconds some durations come to. -/
def millis (ds : List Nat) : Nat := (ds.map (fun d => d / 1000000)).sum

@[simp] theorem fromMillis_div (ms : Nat) : fromMillis ms / 1000000 = ms :=
  Nat.mul_div_cancel ms (by decide)

/-- `State`: what a wrapper is doing between polls. -/
inductive State where
  /-- Nothing is held back. -/
  | common
  /-- A sleep was inserted and has not elapsed yet. -/
  | backoff (sleep : Sleep)
deriving DecidableEq, Repr

namespace State

/-- `State::unwrap_backoff`; `none` is its panic. -/
def unwrapBackoff : State → Option Sleep
  | .backoff sleep => some sleep
  | .common => none

/-- The sleep a wrapper holds on to between polls. -/
def stored : State → Option Sleep
  | .backoff sleep => some sleep
  | .common => none

end State

section
variable {σ φ ω ν χ : Type*}

/--
The `match this.state` at the head of `poll`: `put` writes the state back into
the wrapper, and `rest` is the remainder of `poll`, run with the state `Common`
and told whether a back-off was found elapsed.
-/
def pollBackoff (state : State) (put : State → σ) (w : Waker) (answer : Poll Unit)
    (rest : Bool → Polled σ ω ν χ) : Polled σ ω ν χ :=
  match state with
  | .common => rest false
  | .backoff sleep =>
      match sleep.poll w answer with
      | (_, .ready ()) => (rest true).after [.sleepPolled w (.ready ())]
      | (sleep, .pending) => ⟨put (.backoff sleep), .pending, [.sleepPolled w .pending]⟩

/--
Storing a fresh sleep of duration `d` and polling it at once. A sleep that is
ready immediately is forgotten again, and the task is woken.
-/
def insertBackoff (put : State → σ) (d : Nat) (w : Waker) (answer : Poll Unit) :
    Polled σ ω ν χ :=
  match (State.backoff (Sleep.new d)).unwrapBackoff with
  | none => ⟨put (.backoff (Sleep.new d)), .panicked .unwrap, [.sleepInserted d]⟩
  | some sleep =>
      match sleep.poll w answer with
      | (_, .ready ()) =>
          ⟨put .common, .pending, [.sleepInserted d, .sleepPolled w (.ready ()), .woke w]⟩
      | (sleep, .pending) =>
          ⟨put (.backoff sleep), .pending, [.sleepInserted d, .sleepPolled w .pending]⟩

/-! ## What the two blocks do, once and for all -/

/-- The three ways the head of `poll` can go. -/
theorem pollBackoff_cases (state : State) (put : State → σ) (w : Waker) (answer : Poll Unit)
    (rest : Bool → Polled σ ω ν χ) :
    (state = .common ∧ pollBackoff state put w answer rest = rest false)
    ∨ (∃ sleep, state = .backoff sleep ∧ answer = .ready ()
        ∧ pollBackoff state put w answer rest
            = (rest true).after [.sleepPolled w (.ready ())])
    ∨ (∃ sleep, state = .backoff sleep ∧ answer = .pending
        ∧ pollBackoff state put w answer rest
            = ⟨put (.backoff { sleep with waker := some w }), .pending,
                [.sleepPolled w .pending]⟩) := by
  cases state with
  | common => exact .inl ⟨rfl, rfl⟩
  | backoff sleep =>
      cases answer with
      | ready u => exact .inr (.inl ⟨sleep, rfl, rfl, rfl⟩)
      | pending => exact .inr (.inr ⟨sleep, rfl, rfl, rfl⟩)

/-- The two ways inserting a back-off can go; the `unwrap` never fails. -/
theorem insertBackoff_cases (put : State → σ) (d : Nat) (w : Waker) (answer : Poll Unit) :
    (answer = .ready () ∧ insertBackoff (ω := ω) (ν := ν) (χ := χ) put d w answer
        = ⟨put .common, .pending, [.sleepInserted d, .sleepPolled w (.ready ()), .woke w]⟩)
    ∨ (answer = .pending ∧ insertBackoff (ω := ω) (ν := ν) (χ := χ) put d w answer
        = ⟨put (.backoff { duration := d, waker := some w }), .pending,
            [.sleepInserted d, .sleepPolled w .pending]⟩) := by
  cases answer with
  | ready u => exact .inl ⟨rfl, rfl⟩
  | pending => exact .inr ⟨rfl, rfl⟩

end

end RsRun
