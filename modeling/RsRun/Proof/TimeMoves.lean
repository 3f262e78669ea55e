import RsRun.Lib.Meter
import RsRun.Lib.Polls
import RsRun.PendingFuture.ModeTime

/-!
# What one poll of `mode_time` does

As for `mode_count`, a poll that returns goes one of four ways. The accumulated time
stays below `2 ^ 64`, and below it the arithmetic of the throttling branch is exact in
both builds, so the moves are stated without it.
-/

namespace RsRun.Proof

open Async ModeTime

variable {φ ω ν : Type*}

/-- The milliseconds that pay for `time` units of ten microseconds. -/
def backoffMillis (pendPeriod time : Nat) : Nat := pendPeriod * time / 2 + 2

/-- The microseconds a `Pending` inner poll is charged with. -/
def elapsedTime (env : Env ω) : Nat := elapsedMicros env.beginNow env.polledNow

theorem period_le {p : Priority} {pendPeriod : Nat} (hp : p.fixedIntervalTimeMs = some pendPeriod) :
    pendPeriod ≤ 9 := by
  cases p with
  | veryLow => injection hp with hp; omega
  | low => injection hp with hp; omega
  | middle => injection hp with hp; omega
  | high => injection hp with hp; omega
  | veryHigh => exact absurd hp (by simp [Priority.fixedIntervalTimeMs])

/-- Whole tens can always be taken off, and leave the remainder. -/
theorem payOff_eq (chk : Bool) {addingUpTime : Nat} (ha : addingUpTime < 2 ^ 64) :
    payOff chk addingUpTime (addingUpTime / inter) = some (addingUpTime % inter) := by
  have hpaid : addingUpTime / inter * inter ≤ addingUpTime := Nat.div_mul_le_self _ _
  have hmul : Word.mul chk 64 (addingUpTime / inter) inter
      = some (addingUpTime / inter * inter) := Word.fit_of_lt (by omega)
  have hleft : addingUpTime - addingUpTime / inter * inter = addingUpTime % inter := by
    have := Nat.div_add_mod' addingUpTime inter
    omega
  rw [payOff, hmul, Option.bind_some, Word.sub, if_pos hpaid, hleft]

/-- The length of a sleep always fits. -/
theorem sleepMillis_eq (chk : Bool) {pendPeriod addingUpTime : Nat} (hp : pendPeriod ≤ 9)
    (ha : addingUpTime < 2 ^ 64) :
    sleepMillis chk pendPeriod (addingUpTime / inter)
      = some (backoffMillis pendPeriod (addingUpTime / inter)) := by
  have htens : addingUpTime / inter * 10 ≤ addingUpTime := Nat.div_mul_le_self _ _
  have hproduct : pendPeriod * (addingUpTime / inter) ≤ 9 * (addingUpTime / inter) :=
    Nat.mul_le_mul_right _ hp
  have hmul : Word.mul chk 64 pendPeriod (addingUpTime / inter)
      = some (pendPeriod * (addingUpTime / inter)) := Word.fit_of_lt (by omega)
  rw [sleepMillis, hmul, Option.bind_some]
  exact Word.fit_of_lt (by omega)

/-- The four ways a poll that returns can go. -/
inductive TimeMoves (pollF : φ → Cx ω → φ × Poll ν) (this : PendingFuture φ) (env : Env ω)
    (o : Polled (PendingFuture φ) ω ν Nat) : Prop where
  /-- The stored sleep has not elapsed. -/
  | waiting (state : State) (hw : this.state ≠ .common) (ha : env.stored = .pending)
      (hstate : state ≠ .common) (hr : o.res = .pending)
      (hn : o.next = { this with state := state }) (hs : Shows o.acts [] [] [] [])
  /-- A sleep is inserted. -/
  | backoff (pendPeriod : Nat) (state : State)
      (hp : this.handle.priority.fixedIntervalTimeMs = some pendPeriod)
      (hdue : inter < this.addingUpTime) (hr : o.res = .pending)
      (hn : o.next = { this with
        state := state
        addingUpTime := this.addingUpTime % inter
        insertedPendCnt := Word.fetchAdd 32 this.insertedPendCnt 1 })
      (hs : Shows o.acts [true] [fromMillis (backoffMillis pendPeriod (this.addingUpTime / inter))]
        [] [this.addingUpTime / inter])
  /-- The inner future is polled, and is pending. -/
  | pending (hdue : this.handle.priority.fixedIntervalTimeMs = none ∨ this.addingUpTime ≤ inter)
      (hr : o.res = .pending)
      (hn : o.next = { this with
        state := .common
        future := (pollF this.future env.cx).1
        addingUpTime := (this.addingUpTime + elapsedTime env) % 2 ^ 64
        pendCnt := Word.fetchAdd 32 this.pendCnt 1 })
      (hs : Shows o.acts [false] [] [(env.cx, .pending)] [])
  /-- The inner future is polled, and is ready. -/
  | ready (v : ν)
      (hdue : this.handle.priority.fixedIntervalTimeMs = none ∨ this.addingUpTime ≤ inter)
      (hr : o.res = .ready v)
      (hn : o.next = { this with state := .common, future := (pollF this.future env.cx).1 })
      (hs : Shows o.acts [] [] [(env.cx, .ready v)] [])

section
variable {chk : Bool} {pollF : φ → Cx ω → φ × Poll ν} {this : PendingFuture φ} {env : Env ω}

theorem TimeMoves.after {o : Polled (PendingFuture φ) ω ν Nat} (h : TimeMoves pollF this env o)
    (w : Waker) : TimeMoves pollF this env (o.after [.sleepPolled w (.ready ())]) := by
  cases h with
  | waiting state hw ha hstate hr hn hs =>
      exact .waiting state hw ha hstate hr hn (hs.sleepPolled w _)
  | backoff pendPeriod state hp hdue hr hn hs =>
      exact .backoff pendPeriod state hp hdue hr hn (hs.sleepPolled w _)
  | pending hdue hr hn hs => exact .pending hdue hr hn (hs.sleepPolled w _)
  | ready v hdue hr hn hs => exact .ready v hdue hr hn (hs.sleepPolled w _)

theorem timeInner_moves
    (hdue : this.handle.priority.fixedIntervalTimeMs = none ∨ this.addingUpTime ≤ inter)
    (hret : ∀ why, (pollInner chk pollF { this with state := .common } env).res ≠ .panicked why) :
    TimeMoves pollF this env (pollInner chk pollF { this with state := .common } env) := by
  unfold pollInner at hret ⊢
  dsimp only at hret ⊢
  cases hres : (pollF this.future env.cx).2 with
  | ready v => exact .ready v hdue rfl rfl ⟨rfl, rfl, rfl, rfl⟩
  | pending =>
      rw [hres] at hret
      dsimp only at hret ⊢
      cases ha : Word.add chk 64 this.addingUpTime (elapsedMicros env.beginNow env.polledNow) with
      | none =>
          rw [ha] at hret
          exact absurd rfl (hret .overflow)
      | some addingUpTime =>
          have htime : addingUpTime = (this.addingUpTime + elapsedTime env) % 2 ^ 64 :=
            Word.add_some ha
          dsimp only
          rw [htime]
          exact .pending hdue rfl rfl ⟨rfl, rfl, rfl, rfl⟩

theorem timeThrottle_moves (hlt : this.addingUpTime < 2 ^ 64)
    (hret : ∀ why, (throttle chk pollF { this with state := .common } env).res ≠ .panicked why) :
    TimeMoves pollF this env (throttle chk pollF { this with state := .common } env) := by
  unfold throttle at hret ⊢
  dsimp only at hret ⊢
  cases hp : this.handle.priority.fixedIntervalTimeMs with
  | none =>
      rw [hp] at hret
      exact timeInner_moves (.inl hp) hret
  | some pendPeriod =>
      rw [hp] at hret
      dsimp only at hret ⊢
      by_cases hdue : inter < this.addingUpTime
      · rw [if_pos hdue, payOff_eq chk hlt]
        dsimp only
        rw [sleepMillis_eq chk (period_le hp) hlt]
        dsimp only
        rcases insertBackoff_cases (ω := ω) (ν := ν) (χ := Nat)
          (fun state => { this with
            state := state
            addingUpTime := this.addingUpTime % inter
            insertedPendCnt := Word.fetchAdd 32 this.insertedPendCnt 1 })
          (fromMillis (backoffMillis pendPeriod (this.addingUpTime / inter))) env.cx.waker
          env.inserted with ⟨_, h⟩ | ⟨_, h⟩
        · rw [h]
          exact .backoff pendPeriod .common hp hdue rfl rfl ⟨rfl, rfl, rfl, rfl⟩
        · rw [h]
          exact .backoff pendPeriod _ hp hdue rfl rfl ⟨rfl, rfl, rfl, rfl⟩
      · rw [if_neg hdue] at hret ⊢
        exact timeInner_moves (.inr (Nat.le_of_not_lt hdue)) hret

/-- **The inversion lemma.** -/
theorem modeTime_moves (this : PendingFuture φ) (env : Env ω) (hlt : this.addingUpTime < 2 ^ 64)
    (hret : ∀ why, (poll chk pollF this env).res ≠ .panicked why) :
    TimeMoves pollF this env (poll chk pollF this env) := by
  unfold poll at hret ⊢
  rcases pollBackoff_cases this.state (fun state => { this with state := state })
    env.cx.waker env.stored
    (fun _ => throttle chk pollF { this with state := .common } env) with
    ⟨_, h⟩ | ⟨_, _, _, h⟩ | ⟨sleep, hstate, ha, h⟩
  · rw [h] at hret ⊢
    exact timeThrottle_moves hlt hret
  · rw [h] at hret ⊢
    exact (timeThrottle_moves hlt hret).after _
  · rw [h]
    exact .waiting _ (by rw [hstate]; simp) ha (by simp) rfl rfl ⟨rfl, rfl, rfl, rfl⟩

/-! ## What a poll leaves alone -/

theorem timeInner_handle (this : PendingFuture φ) (env : Env ω) :
    (pollInner chk pollF this env).next.handle = this.handle := by
  unfold pollInner
  dsimp only
  split
  · rfl
  · split <;> rfl

theorem timeThrottle_handle (this : PendingFuture φ) (env : Env ω) :
    (throttle chk pollF this env).next.handle = this.handle := by
  unfold throttle
  split
  · exact timeInner_handle this env
  · split
    · dsimp only
      split
      · rfl
      · rename_i left _
        split
        · rfl
        · rename_i ms _
          rcases insertBackoff_cases (ω := ω) (ν := ν) (χ := Nat)
            (fun state => { this with
              state := state
              addingUpTime := left
              insertedPendCnt := Word.fetchAdd 32 this.insertedPendCnt 1 })
            (fromMillis ms) env.cx.waker env.inserted with ⟨_, h⟩ | ⟨_, h⟩
          · rw [h]
            rfl
          · rw [h]
            rfl
    · exact timeInner_handle this env

theorem time_poll_handle (this : PendingFuture φ) (env : Env ω) :
    (poll chk pollF this env).next.handle = this.handle := by
  unfold poll
  rcases pollBackoff_cases this.state (fun state => { this with state := state }) env.cx.waker
    env.stored (fun _ => throttle chk pollF { this with state := .common } env) with
    ⟨_, h⟩ | ⟨_, _, _, h⟩ | ⟨_, _, _, h⟩
  · rw [h]
    exact timeThrottle_handle { this with state := .common } env
  · rw [h]
    exact timeThrottle_handle { this with state := .common } env
  · rw [h]

end

end RsRun.Proof
