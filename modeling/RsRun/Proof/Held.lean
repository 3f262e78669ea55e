import RsRun.Lib.Held
import RsRun.Proof.Throttled

/-!
# What the three wrappers do, action by action

The stored sleep is polled first. If it has elapsed, or there was none, what is left either
stores a new one or comes to the future inside; in front of that `mode_time` notes what it
takes off, and `mode_ratelimiter` what the limiter said.
-/

namespace RsRun.Proof

open Async

section
variable {σ φ ω ν χ : Type*} {pollF : φ → Cx ω → φ × Poll ν} {inner : σ → φ}
  {stored : σ → Option Sleep} {chk : Bool} {cx : Cx ω} {s : σ}

theorem insertBackoff_held {put : State → σ} (hs : stored s = none)
    (hi : ∀ state, inner (put state) = inner s) (hput : ∀ state, stored (put state) = state.stored)
    (d : Nat) (answer : Poll Unit) :
    Held (χ := χ) pollF inner stored chk cx s (insertBackoff put d cx.waker answer) := by
  have hhead : Head cx.waker (stored s) ([] : List (Act ω ν χ)) := by
    rw [hs]
    exact .clear
  rcases insertBackoff_cases (ω := ω) (ν := ν) (χ := χ) put d cx.waker answer with
    ⟨_, h⟩ | ⟨_, h⟩
  · rw [h]; exact .woken [] [] d hhead rfl rfl (hput .common) (hi _)
  · rw [h]; exact .inserted [] [] d hhead rfl rfl (by rw [hput]; rfl) (hi _)

theorem pollBackoff_held (s₀ : σ) {put : State → σ} {state : State} (hs : stored s = state.stored)
    (hs₀ : stored s₀ = none) (hi : inner s₀ = inner s)
    (hput : ∀ state, stored (put state) = state.stored)
    (hputi : ∀ state, inner (put state) = inner s) {rest : Bool → Polled σ ω ν χ}
    (hrest : ∀ b, Held pollF inner stored chk cx s₀ (rest b)) (answer : Poll Unit) :
    Held pollF inner stored chk cx s (pollBackoff state put cx.waker answer rest) := by
  rcases pollBackoff_cases state put cx.waker answer rest with
    ⟨hc, h⟩ | ⟨sl, hc, _, h⟩ | ⟨sl, hc, _, h⟩
  · rw [hc] at hs
    rw [h]
    exact (hrest false).congr (hs₀.trans hs.symm) hi
  · rw [hc] at hs
    rw [h]
    exact (hrest true).elapsed hs₀ hi hs
  · rw [hc] at hs
    rw [h]
    exact .still sl hs rfl rfl (by rw [hput]; rfl) (hputi _)

end

section
variable {φ ω ν L : Type*} (chk : Bool) (pollF : φ → Cx ω → φ × Poll ν)

/-! ## `mode_count` -/

theorem modeCount_throttle_held (this : ModeCount.PendingFuture φ) (env : ModeCount.Env ω)
    (hs : this.state = .common) (hb : this.beginTime.isSome) :
    Held pollF ModeCount.PendingFuture.future countStored chk env.cx this
      (ModeCount.throttle chk pollF this env) := by
  have hn : countStored this = none := by unfold countStored; rw [hs]; rfl
  have hinner := (modeCount_pollInner chk pollF this env hs hb).held hn
  rw [ModeCount.throttle]
  split
  · rename_i hc
    exact .overflowed [] [] (by rw [hn]; exact .clear) rfl rfl (Word.add_none hc)
  · split
    · split
      · refine insertBackoff_held hn ?_ ?_ _ _
        · exact fun _ => rfl
        · exact fun _ => rfl
      · exact hinner
    · exact hinner

/-- **`mode_count`, action by action.** -/
theorem modeCount_held (this : ModeCount.PendingFuture φ) (env : ModeCount.Env ω) :
    Held pollF ModeCount.PendingFuture.future countStored chk env.cx this
      (ModeCount.poll chk pollF this env) := by
  rw [ModeCount.poll]
  refine pollBackoff_held { this with
    beginTime := some (this.beginTime.getD env.beginNow), state := .common } ?_ ?_ ?_ ?_ ?_ ?_ _
  · rfl
  · rfl
  · rfl
  · exact fun _ => rfl
  · exact fun _ => rfl
  · exact fun _ => modeCount_throttle_held chk pollF _ env rfl rfl

/-! ## `mode_time` -/

theorem modeTime_throttle_held (this : ModeTime.PendingFuture φ) (env : ModeTime.Env ω)
    (hs : this.state = .common) :
    Held pollF ModeTime.PendingFuture.future timeStored chk env.cx this
      (ModeTime.throttle chk pollF this env) := by
  have hn : timeStored this = none := by unfold timeStored; rw [hs]; rfl
  have hhead : Head env.cx.waker (timeStored this) ([] : List (Act ω ν Nat)) := by
    rw [hn]
    exact .clear
  have hinner := (modeTime_pollInner chk pollF this env hs).held hn
  rw [ModeTime.throttle]
  split
  · exact hinner
  · split
    · dsimp only
      split
      · rename_i hp
        exact .overflowed [] [] hhead rfl rfl (payOff_none hp)
      · split
        · rename_i hm
          exact .overflowed [] [_] hhead rfl rfl (sleepMillis_none hm)
        · refine Held.noted ?_ hn _
          refine insertBackoff_held hn ?_ ?_ _ _
          · exact fun _ => rfl
          · exact fun _ => rfl
    · exact hinner

/-- **`mode_time`, action by action.** -/
theorem modeTime_held (this : ModeTime.PendingFuture φ) (env : ModeTime.Env ω) :
    Held pollF ModeTime.PendingFuture.future timeStored chk env.cx this
      (ModeTime.poll chk pollF this env) := by
  rw [ModeTime.poll]
  refine pollBackoff_held { this with state := .common } ?_ ?_ ?_ ?_ ?_ ?_ _
  · rfl
  · rfl
  · rfl
  · exact fun _ => rfl
  · exact fun _ => rfl
  · exact fun _ => modeTime_throttle_held chk pollF _ env rfl

/-! ## `mode_ratelimiter` -/

theorem modeRatelimiter_throttle_held (tryWait : ModeRatelimiter.Limiter L) (sh : Shared L)
    (this : ModeRatelimiter.PendingFuture φ) (env : ModeRatelimiter.Env ω)
    (hs : this.state = .common) {s₀ : Shared L × ModeRatelimiter.PendingFuture φ}
    (hs₀ : sharedStored s₀ = none) (hi : sharedInner s₀ = this.future) :
    Held pollF sharedInner sharedStored chk env.cx s₀
      (ModeRatelimiter.throttle chk pollF tryWait sh this env) := by
  rw [ModeRatelimiter.throttle]
  split
  · exact (modeRatelimiter_pollInner chk pollF sh this env hi.symm hs).held hs₀
  · split
    · rename_i hc
      exact .overflowed [] [] (by rw [hs₀]; exact .clear) rfl rfl (Word.add_none hc)
    · dsimp only
      split
      · refine Held.noted ?_ hs₀ _
        refine InnerPolled.held ?_ hs₀
        refine modeRatelimiter_pollInner chk pollF _ _ env ?_ ?_
        · exact hi.symm
        · exact hs
      · refine Held.noted ?_ hs₀ _
        refine insertBackoff_held hs₀ ?_ ?_ _ _
        · exact fun _ => hi.symm
        · exact fun _ => rfl

theorem modeRatelimiter_held (tryWait : ModeRatelimiter.Limiter L) (sh : Shared L)
    (this : ModeRatelimiter.PendingFuture φ) (env : ModeRatelimiter.Env ω) :
    Held pollF sharedInner sharedStored chk env.cx (sh, this)
      (ModeRatelimiter.poll chk pollF tryWait sh this env) := by
  rw [ModeRatelimiter.poll]
  refine pollBackoff_held (sh, { this with state := .common }) ?_ ?_ ?_ ?_ ?_ ?_ _
  · rfl
  · rfl
  · rfl
  · exact fun _ => rfl
  · exact fun _ => rfl
  · exact fun _ => modeRatelimiter_throttle_held chk pollF tryWait _ _ env rfl rfl rfl

/-- **`mode_ratelimiter`, action by action**, whatever memory it finds. -/
theorem modeRatelimiter_alone_held (tryWait : ModeRatelimiter.Limiter L)
    (this : ModeRatelimiter.PendingFuture φ) (seen : Shared L × ModeRatelimiter.Env ω) :
    Held pollF ModeRatelimiter.PendingFuture.future limitedStored chk seen.2.cx this
      (ModeRatelimiter.pollAlone chk pollF tryWait this seen) :=
  Held.map (g := Prod.snd) (modeRatelimiter_held chk pollF tryWait seen.1 this seen.2)

end

end RsRun.Proof
