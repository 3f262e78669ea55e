import RsRun.Lib.Polls
import RsRun.PendingFuture.ModeCount

/-!
# What one poll of `mode_count` does

A poll that returns goes one of four ways: it waits for the stored sleep, it inserts
one, or it polls the inner future and gets one of its two answers. Everything below
about runs of `mode_count` is a case analysis on `CountMoves`.
-/

namespace RsRun.Proof

open Async ModeCount

variable {φ ω ν : Type*}

/-- The count after the next one, which decides on a back-off. -/
def nextCount (pendCnt : Nat) : Nat := (pendCnt + 1) % 2 ^ 32

theorem nextCount_eq {pendCnt : Nat} (h : pendCnt + 1 < 2 ^ 32) : nextCount pendCnt = pendCnt + 1 :=
  Nat.mod_eq_of_lt h

/-- The wrapper once `begin_time` is set. -/
def begun (this : PendingFuture φ) (env : Env ω) : PendingFuture φ :=
  { this with beginTime := some (this.beginTime.getD env.beginNow) }

/-- The microseconds a poll that came to the inner future adds to `poll_time`. -/
def charged (env : Env ω) : Nat := elapsedMicros env.bfPoll env.polledNow

/--
The four ways a poll that returns can go, for a wrapper whose `begin_time` is
`beginTime`.
-/
inductive CountMoves (pollF : φ → Cx ω → φ × Poll ν) (this : PendingFuture φ) (beginTime : Nat)
    (env : Env ω) (o : Polled (PendingFuture φ) ω ν OneFutureRecord) : Prop where
  /-- The stored sleep has not elapsed. -/
  | waiting (state : State) (hr : o.res = .pending) (hn : o.next = { this with state := state })
      (hs : Shows o.acts [] [] [] [])
  /-- A sleep is inserted. -/
  | backoff (pendPeriod : Nat) (state : State)
      (hp : this.handle.priority.fixedIntervalCount = some pendPeriod)
      (hdue : nextCount this.pendCnt % inter = 0) (hr : o.res = .pending)
      (hn : o.next = { this with state := state, pendCnt := nextCount this.pendCnt })
      (hs : Shows o.acts [true] [fromMillis (pendPeriod + env.jitter)] [] [])
  /-- The inner future is polled, and is pending. -/
  | pending (hdue : this.handle.priority.fixedIntervalCount = none
        ∨ nextCount this.pendCnt % inter ≠ 0)
      (hr : o.res = .pending)
      (hn : o.next = { this with
        state := .common
        future := (pollF this.future env.cx).1
        pendCnt := nextCount this.pendCnt
        pollTime := (this.pollTime + charged env) % 2 ^ 64 })
      (hs : Shows o.acts [false] [] [(env.cx, .pending)] [])
  /-- The inner future is polled, and is ready. -/
  | ready (v : ν) (hdue : this.handle.priority.fixedIntervalCount = none
        ∨ nextCount this.pendCnt % inter ≠ 0)
      (hr : o.res = .ready v)
      (hn : o.next = { this with
        state := .common
        future := (pollF this.future env.cx).1
        pollTime := (this.pollTime + charged env) % 2 ^ 64 })
      (hs : Shows o.acts [] [] [(env.cx, .ready v)]
        [{ totalMicro := elapsedMicros beginTime env.endNow
           cpuMicro := (this.pollTime + charged env) % 2 ^ 64 }])

section
variable {chk : Bool} {pollF : φ → Cx ω → φ × Poll ν} {this : PendingFuture φ} {beginTime : Nat}
  {env : Env ω}

/-- What quietly happened before does not matter. -/
theorem CountMoves.after {o : Polled (PendingFuture φ) ω ν OneFutureRecord}
    (h : CountMoves pollF this beginTime env o) (w : Waker) :
    CountMoves pollF this beginTime env (o.after [.sleepPolled w (.ready ())]) := by
  cases h with
  | waiting state hr hn hs => exact .waiting state hr hn (hs.sleepPolled w _)
  | backoff pendPeriod state hp hdue hr hn hs =>
      exact .backoff pendPeriod state hp hdue hr hn (hs.sleepPolled w _)
  | pending hdue hr hn hs => exact .pending hdue hr hn (hs.sleepPolled w _)
  | ready v hdue hr hn hs => exact .ready v hdue hr hn (hs.sleepPolled w _)

/-- From the poll of the inner future on. -/
theorem pollInner_moves (hb : this.beginTime = some beginTime)
    (hdue : this.handle.priority.fixedIntervalCount = none ∨ nextCount this.pendCnt % inter ≠ 0)
    (hret : ∀ why, (pollInner chk pollF { this with state := .common } env).res ≠ .panicked why) :
    CountMoves pollF this beginTime env
      (pollInner chk pollF { this with state := .common } env) := by
  unfold pollInner at hret ⊢
  dsimp only at hret ⊢
  cases hp : Word.add chk 64 this.pollTime (elapsedMicros env.bfPoll env.polledNow) with
  | none =>
      rw [hp] at hret
      exact absurd rfl (hret .overflow)
  | some pollTime =>
      rw [hp] at hret
      dsimp only at hret ⊢
      have htime : pollTime = (this.pollTime + charged env) % 2 ^ 64 := Word.add_some hp
      cases hres : (pollF this.future env.cx).2 with
      | ready v =>
          rw [hb]
          dsimp only
          rw [htime]
          exact .ready v hdue rfl (by rw [hb]) ⟨rfl, rfl, rfl, rfl⟩
      | pending =>
          rw [hres] at hret
          dsimp only at hret ⊢
          cases hc : Word.add chk 32 this.pendCnt 1 with
          | none =>
              rw [hc] at hret
              exact absurd rfl (hret .overflow)
          | some pendCnt =>
              have hcnt : pendCnt = nextCount this.pendCnt := Word.add_some hc
              dsimp only
              rw [htime, hcnt]
              exact .pending hdue rfl rfl ⟨rfl, rfl, rfl, rfl⟩

/-- From the throttling test on. -/
theorem throttle_moves (hb : this.beginTime = some beginTime)
    (hret : ∀ why, (throttle chk pollF { this with state := .common } env).res ≠ .panicked why) :
    CountMoves pollF this beginTime env
      (throttle chk pollF { this with state := .common } env) := by
  unfold throttle at hret ⊢
  dsimp only at hret ⊢
  cases hc : Word.add chk 32 this.pendCnt 1 with
  | none =>
      rw [hc] at hret
      exact absurd rfl (hret .overflow)
  | some next =>
      rw [hc] at hret
      dsimp only at hret ⊢
      have hnext : next = nextCount this.pendCnt := Word.add_some hc
      subst hnext
      by_cases hdue : nextCount this.pendCnt % inter = 0
      · rw [if_pos hdue] at hret ⊢
        cases hp : this.handle.priority.fixedIntervalCount with
        | none =>
            rw [hp] at hret
            exact pollInner_moves hb (.inl hp) hret
        | some pendPeriod =>
            dsimp only
            rcases insertBackoff_cases (ω := ω) (ν := ν) (χ := OneFutureRecord)
              (fun state => { this with state := state, pendCnt := nextCount this.pendCnt })
              (fromMillis (pendPeriod + env.jitter)) env.cx.waker env.inserted with
              ⟨_, h⟩ | ⟨_, h⟩
            · rw [h]
              exact .backoff pendPeriod .common hp hdue rfl rfl ⟨rfl, rfl, rfl, rfl⟩
            · rw [h]
              exact .backoff pendPeriod _ hp hdue rfl rfl ⟨rfl, rfl, rfl, rfl⟩
      · rw [if_neg hdue] at hret ⊢
        exact pollInner_moves hb (.inr hdue) hret

/-- `poll`, with the wrapper it goes on with by name. -/
theorem modeCount_poll_eq (this : PendingFuture φ) (env : Env ω) :
    poll chk pollF this env
      = pollBackoff this.state (fun state => { begun this env with state := state })
          env.cx.waker env.stored
          (fun _ => throttle chk pollF { begun this env with state := .common } env) := rfl

/-- **The inversion lemma.** -/
theorem modeCount_moves (this : PendingFuture φ) (env : Env ω)
    (hret : ∀ why, (poll chk pollF this env).res ≠ .panicked why) :
    CountMoves pollF (begun this env) (this.beginTime.getD env.beginNow) env
      (poll chk pollF this env) := by
  rw [modeCount_poll_eq] at hret ⊢
  rcases pollBackoff_cases this.state (fun state => { begun this env with state := state })
    env.cx.waker env.stored
    (fun _ => throttle chk pollF { begun this env with state := .common } env) with
    ⟨_, h⟩ | ⟨_, _, _, h⟩ | ⟨_, _, _, h⟩
  · rw [h] at hret ⊢
    exact throttle_moves rfl hret
  · rw [h] at hret ⊢
    exact (throttle_moves rfl hret).after _
  · rw [h]
    exact .waiting _ rfl rfl ⟨rfl, rfl, rfl, rfl⟩

/-! ## What a poll leaves alone -/

theorem pollInner_handle (this : PendingFuture φ) (env : Env ω) :
    (pollInner chk pollF this env).next.handle = this.handle := by
  unfold pollInner
  dsimp only
  split
  · rfl
  · split
    · split <;> rfl
    · split <;> rfl

theorem throttle_handle (this : PendingFuture φ) (env : Env ω) :
    (throttle chk pollF this env).next.handle = this.handle := by
  unfold throttle
  split
  · rfl
  · split
    · split
      · rename_i next _ _ _ pendPeriod _
        rcases insertBackoff_cases (ω := ω) (ν := ν) (χ := OneFutureRecord)
          (fun state => { this with state := state, pendCnt := next })
          (fromMillis (pendPeriod + env.jitter)) env.cx.waker env.inserted with
          ⟨_, h⟩ | ⟨_, h⟩
        · rw [h]
        · rw [h]
      · exact pollInner_handle this env
    · exact pollInner_handle this env

theorem poll_handle (this : PendingFuture φ) (env : Env ω) :
    (poll chk pollF this env).next.handle = this.handle := by
  rw [modeCount_poll_eq]
  rcases pollBackoff_cases this.state (fun state => { begun this env with state := state })
    env.cx.waker env.stored
    (fun _ => throttle chk pollF { begun this env with state := .common } env) with
    ⟨_, h⟩ | ⟨_, _, _, h⟩ | ⟨_, _, _, h⟩
  · rw [h]
    exact throttle_handle { begun this env with state := .common } env
  · rw [h]
    exact throttle_handle { begun this env with state := .common } env
  · rw [h]
    rfl

end

end RsRun.Proof
