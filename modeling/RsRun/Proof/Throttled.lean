import RsRun.Lib.Throttle
import RsRun.PendingFuture.ModeCount
import RsRun.PendingFuture.ModeTime
import RsRun.PendingFuture.ModeRatelimiter

/-!
# The three wrappers, taken apart

Each of the three `poll` functions is a throttling wrapper in the sense of
`Async.Throttled`. The two blocks around `State` are common to all of them; what
remains either inserts a back-off or polls the inner future.
-/

namespace RsRun.Proof

open Async

section
variable {σ φ ω ν χ : Type*} {pollF : φ → Cx ω → φ × Poll ν} {inner : σ → φ}
  {stored : σ → Option Sleep} {chk : Bool} {cx : Cx ω} {f : φ}

theorem insertBackoff_throttled {put : State → σ} (hi : ∀ state, inner (put state) = f)
    (hs : ∀ state, stored (put state) = state.stored) (d : Nat) (answer : Poll Unit) :
    Throttled (χ := χ) pollF inner stored chk cx f (insertBackoff put d cx.waker answer) := by
  have hq : Quiet [(Act.sleepInserted d : Act ω ν χ)] := ⟨rfl, by simp⟩
  rcases insertBackoff_cases (ω := ω) (ν := ν) (χ := χ) put d cx.waker answer with
    ⟨_, h⟩ | ⟨_, h⟩
  · rw [h]; exact .woken _ hq rfl rfl (hs .common) (hi _)
  · rw [h]; exact .waiting _ _ hq rfl rfl (hs (.backoff _)) rfl (hi _)

/-- The head of `poll`, in front of a rest that is itself throttling. -/
theorem pollBackoff_throttled {put : State → σ} (hi : ∀ state, inner (put state) = f)
    (hs : ∀ state, stored (put state) = state.stored) {rest : Bool → Polled σ ω ν χ}
    (hrest : ∀ b, Throttled pollF inner stored chk cx f (rest b))
    (state : State) (answer : Poll Unit) :
    Throttled pollF inner stored chk cx f (pollBackoff state put cx.waker answer rest) := by
  rcases pollBackoff_cases state put cx.waker answer rest with
    ⟨_, h⟩ | ⟨_, _, _, h⟩ | ⟨_, _, _, h⟩
  · rw [h]; exact hrest false
  · rw [h]; exact (hrest true).after ⟨rfl, by simp⟩
  · rw [h]; exact .waiting [] _ .nil rfl rfl (hs (.backoff _)) rfl (hi _)

end

section
variable {φ ω ν L : Type*} (chk : Bool) (pollF : φ → Cx ω → φ × Poll ν) {f : φ}

/-! ## `mode_count` -/

/-- The sleep a `mode_count` wrapper stores. -/
def countStored (this : ModeCount.PendingFuture φ) : Option Sleep := this.state.stored

theorem modeCount_pollInner (this : ModeCount.PendingFuture φ) (env : ModeCount.Env ω)
    (hs : this.state = .common) (hb : this.beginTime.isSome) :
    InnerPolled pollF ModeCount.PendingFuture.future countStored chk env.cx this.future
      (ModeCount.pollInner chk pollF this env) := by
  have hn : State.stored this.state = none := by rw [hs]; rfl
  rw [ModeCount.pollInner]
  cases hp : Word.add chk 64 this.pollTime (elapsedMicros env.bfPoll env.polledNow) with
  | none => exact ⟨⟨[], rfl, fun _ => rfl⟩, .inr ⟨rfl, Word.add_none hp⟩, hn, rfl⟩
  | some pollTime =>
      dsimp only
      cases hr : (pollF this.future env.cx).2 with
      | ready r =>
          dsimp only
          cases hbt : this.beginTime with
          | none => rw [hbt] at hb; exact absurd hb (by simp)
          | some beginTime =>
              exact ⟨⟨[_], by rw [hr]; rfl, fun h => absurd h (by simp)⟩,
                .inl (by rw [hr]; rfl), hn, rfl⟩
      | pending =>
          dsimp only
          cases hc : Word.add chk 32 this.pendCnt 1 with
          | none =>
              exact ⟨⟨[], by rw [hr]; rfl, fun _ => rfl⟩,
                .inr ⟨rfl, Word.add_none hc⟩, hn, rfl⟩
          | some pendCnt =>
              exact ⟨⟨[], by rw [hr]; rfl, fun _ => rfl⟩,
                .inl (by rw [hr]; rfl), hn, rfl⟩

theorem modeCount_throttle (this : ModeCount.PendingFuture φ) (env : ModeCount.Env ω)
    (hf : this.future = f) (hs : this.state = .common) (hb : this.beginTime.isSome) :
    Throttled pollF ModeCount.PendingFuture.future countStored chk env.cx f
      (ModeCount.throttle chk pollF this env) := by
  subst hf
  have hn : countStored this = none := by unfold countStored; rw [hs]; rfl
  rw [ModeCount.throttle]
  split
  · rename_i hc
    exact .overflowed .nil rfl (Word.add_none hc) hn rfl
  · split
    · split
      · refine insertBackoff_throttled ?_ ?_ _ _
        · exact fun _ => rfl
        · exact fun _ => rfl
      · exact (modeCount_pollInner chk pollF this env hs hb).throttled
    · exact (modeCount_pollInner chk pollF this env hs hb).throttled

/-- **`mode_count` is a throttling wrapper.** -/
theorem modeCount_throttled (this : ModeCount.PendingFuture φ) (env : ModeCount.Env ω) :
    Throttled pollF ModeCount.PendingFuture.future countStored chk env.cx this.future
      (ModeCount.poll chk pollF this env) := by
  rw [ModeCount.poll]
  refine pollBackoff_throttled ?_ ?_ ?_ _ _
  · exact fun _ => rfl
  · exact fun _ => rfl
  · exact fun _ => modeCount_throttle chk pollF _ env rfl rfl rfl

/-! ## `mode_time` -/

/-- The sleep a `mode_time` wrapper stores. -/
def timeStored (this : ModeTime.PendingFuture φ) : Option Sleep := this.state.stored

theorem modeTime_pollInner (this : ModeTime.PendingFuture φ) (env : ModeTime.Env ω)
    (hs : this.state = .common) :
    InnerPolled pollF ModeTime.PendingFuture.future timeStored chk env.cx this.future
      (ModeTime.pollInner chk pollF this env) := by
  have hn : State.stored this.state = none := by rw [hs]; rfl
  rw [ModeTime.pollInner]
  cases hr : (pollF this.future env.cx).2 with
  | ready r =>
      exact ⟨⟨[], by rw [hr]; rfl, fun _ => rfl⟩, .inl (by rw [hr]; rfl), hn, rfl⟩
  | pending =>
      dsimp only
      cases ha : Word.add chk 64 this.addingUpTime (elapsedMicros env.beginNow env.polledNow) with
      | none =>
          exact ⟨⟨[], by rw [hr]; rfl, fun _ => rfl⟩,
            .inr ⟨rfl, Word.add_none ha⟩, hn, rfl⟩
      | some addingUpTime =>
          exact ⟨⟨[], by rw [hr]; rfl, fun _ => rfl⟩,
            .inl (by rw [hr]; rfl), hn, rfl⟩

theorem payOff_none {chk : Bool} {addingUpTime time : Nat}
    (h : ModeTime.payOff chk addingUpTime time = none) : chk = true := by
  rw [ModeTime.payOff, Option.bind_eq_none_iff] at h
  cases hm : Word.mul chk 64 time ModeTime.inter with
  | none => exact Word.mul_none hm
  | some paid => exact Word.sub_none (h paid hm)

theorem sleepMillis_none {chk : Bool} {pendPeriod time : Nat}
    (h : ModeTime.sleepMillis chk pendPeriod time = none) : chk = true := by
  rw [ModeTime.sleepMillis, Option.bind_eq_none_iff] at h
  cases hm : Word.mul chk 64 pendPeriod time with
  | none => exact Word.mul_none hm
  | some product => exact Word.add_none (h product hm)

theorem modeTime_throttle (this : ModeTime.PendingFuture φ) (env : ModeTime.Env ω)
    (hf : this.future = f) (hs : this.state = .common) :
    Throttled pollF ModeTime.PendingFuture.future timeStored chk env.cx f
      (ModeTime.throttle chk pollF this env) := by
  subst hf
  have hn : State.stored this.state = none := by rw [hs]; rfl
  rw [ModeTime.throttle]
  split
  · exact (modeTime_pollInner chk pollF this env hs).throttled
  · split
    · dsimp only
      split
      · rename_i hp
        exact .overflowed .nil rfl (payOff_none hp) hn rfl
      · split
        · rename_i hm
          exact .overflowed ⟨rfl, by simp⟩ rfl (sleepMillis_none hm) hn rfl
        · refine Throttled.after ?_ ⟨rfl, by simp⟩
          refine insertBackoff_throttled ?_ ?_ _ _
          · exact fun _ => rfl
          · exact fun _ => rfl
    · exact (modeTime_pollInner chk pollF this env hs).throttled

/-- **`mode_time` is a throttling wrapper.** -/
theorem modeTime_throttled (this : ModeTime.PendingFuture φ) (env : ModeTime.Env ω) :
    Throttled pollF ModeTime.PendingFuture.future timeStored chk env.cx this.future
      (ModeTime.poll chk pollF this env) := by
  rw [ModeTime.poll]
  refine pollBackoff_throttled ?_ ?_ ?_ _ _
  · exact fun _ => rfl
  · exact fun _ => rfl
  · exact fun _ => modeTime_throttle chk pollF _ env rfl rfl

/-! ## `mode_ratelimiter` -/

/-- The inner future, next to the memory its wrapper shares. -/
def sharedInner (p : Shared L × ModeRatelimiter.PendingFuture φ) : φ := p.2.future

/-- The sleep a `mode_ratelimiter` wrapper stores. -/
def limitedStored (this : ModeRatelimiter.PendingFuture φ) : Option Sleep := this.state.stored

/-- The same, next to the memory its wrapper shares. -/
def sharedStored (p : Shared L × ModeRatelimiter.PendingFuture φ) : Option Sleep :=
  limitedStored p.2

theorem modeRatelimiter_pollInner (sh : Shared L) (this : ModeRatelimiter.PendingFuture φ)
    (env : ModeRatelimiter.Env ω) (hf : this.future = f) (hs : this.state = .common) :
    InnerPolled pollF sharedInner sharedStored chk env.cx f
      (ModeRatelimiter.pollInner chk pollF sh this env) := by
  subst hf
  have hn : State.stored this.state = none := by rw [hs]; rfl
  rw [ModeRatelimiter.pollInner]
  cases hr : (pollF this.future env.cx).2 with
  | ready r =>
      exact ⟨⟨[], by rw [hr]; rfl, fun _ => rfl⟩, .inl (by rw [hr]; rfl), hn, rfl⟩
  | pending =>
      dsimp only
      cases hc : Word.add chk 32 this.pendCnt 1 with
      | none =>
          exact ⟨⟨[], by rw [hr]; rfl, fun _ => rfl⟩,
            .inr ⟨rfl, Word.add_none hc⟩, hn, rfl⟩
      | some pendCnt =>
          exact ⟨⟨[], by rw [hr]; rfl, fun _ => rfl⟩,
            .inl (by rw [hr]; rfl), hn, rfl⟩

theorem modeRatelimiter_throttle (tryWait : ModeRatelimiter.Limiter L) (sh : Shared L)
    (this : ModeRatelimiter.PendingFuture φ) (env : ModeRatelimiter.Env ω)
    (hf : this.future = f) (hs : this.state = .common) :
    Throttled pollF sharedInner sharedStored chk env.cx f
      (ModeRatelimiter.throttle chk pollF tryWait sh this env) := by
  have hn : State.stored this.state = none := by rw [hs]; rfl
  rw [ModeRatelimiter.throttle]
  split
  · exact (modeRatelimiter_pollInner chk pollF sh this env hf hs).throttled
  · split
    · rename_i hc
      exact .overflowed .nil rfl (Word.add_none hc) hn hf
    · dsimp only
      split
      · refine Throttled.after ?_ ⟨rfl, by simp⟩
        refine InnerPolled.throttled ?_
        refine modeRatelimiter_pollInner chk pollF _ _ env ?_ ?_
        · exact hf
        · exact hs
      · refine Throttled.after ?_ ⟨rfl, by simp⟩
        refine insertBackoff_throttled ?_ ?_ _ _
        · exact fun _ => hf
        · exact fun _ => rfl

/-- **`mode_ratelimiter` is a throttling wrapper.** -/
theorem modeRatelimiter_throttled (tryWait : ModeRatelimiter.Limiter L) (sh : Shared L)
    (this : ModeRatelimiter.PendingFuture φ) (env : ModeRatelimiter.Env ω) :
    Throttled pollF sharedInner sharedStored chk env.cx this.future
      (ModeRatelimiter.poll chk pollF tryWait sh this env) := by
  rw [ModeRatelimiter.poll]
  refine pollBackoff_throttled ?_ ?_ ?_ _ _
  · exact fun _ => rfl
  · exact fun _ => rfl
  · exact fun _ => modeRatelimiter_throttle chk pollF tryWait _ _ env rfl rfl

theorem modeRatelimiter_alone_throttled (tryWait : ModeRatelimiter.Limiter L)
    (this : ModeRatelimiter.PendingFuture φ) (seen : Shared L × ModeRatelimiter.Env ω) :
    Throttled pollF ModeRatelimiter.PendingFuture.future limitedStored chk seen.2.cx this.future
      (ModeRatelimiter.pollAlone chk pollF tryWait this seen) :=
  Throttled.map (g := Prod.snd) (modeRatelimiter_throttled chk pollF tryWait seen.1 this seen.2)

end

end RsRun.Proof
