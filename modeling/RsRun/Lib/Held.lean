import RsRun.Lib.Throttle

/-!
# Polls of a throttling wrapper, action by action

`Throttled` says what a poll came to. A runtime that keeps the timers has to know the
actions themselves and their order: the stored timer first, then whatever is noted down,
then either a new timer or the future inside.
-/

namespace Async

variable {σ τ ι φ ω ν χ : Type*}

/-- What a poll that got past the stored timer did about it. -/
inductive Head (w : Waker) : Option Sleep → List (Act ω ν χ) → Prop where
  | clear : Head w none []
  | elapsed (sl : Sleep) : Head w (some sl) [.sleepPolled w (.ready ())]

/-- The five ways a poll of a throttling wrapper in state `s` can go. -/
inductive Held (pollF : φ → Cx ω → φ × Poll ν) (inner : σ → φ) (stored : σ → Option Sleep)
    (chk : Bool) (cx : Cx ω) (s : σ) (o : Polled σ ω ν χ) : Prop where
  /-- The stored timer has not elapsed. -/
  | still (sl : Sleep) (hs : stored s = some sl)
      (ha : o.acts = [.sleepPolled cx.waker .pending]) (hr : o.res = .pending)
      (hs' : (stored o.next).isSome) (hi : inner o.next = inner s)
  /-- A new timer is stored, and it has not elapsed. -/
  | inserted (pre : List (Act ω ν χ)) (xs : List χ) (d : Nat) (hpre : Head cx.waker (stored s) pre)
      (ha : o.acts = pre ++ (xs.map .own ++ [.sleepInserted d, .sleepPolled cx.waker .pending]))
      (hr : o.res = .pending) (hs' : (stored o.next).isSome) (hi : inner o.next = inner s)
  /-- The new timer has elapsed at once. -/
  | woken (pre : List (Act ω ν χ)) (xs : List χ) (d : Nat) (hpre : Head cx.waker (stored s) pre)
      (ha : o.acts = pre ++ (xs.map .own
        ++ [.sleepInserted d, .sleepPolled cx.waker (.ready ()), .woke cx.waker]))
      (hr : o.res = .pending) (hs' : stored o.next = none) (hi : inner o.next = inner s)
  /-- The future inside is polled. -/
  | polled (pre : List (Act ω ν χ)) (xs ys : List χ) (hpre : Head cx.waker (stored s) pre)
      (ha : o.acts = pre ++ (xs.map .own
        ++ .innerPolled cx (pollF (inner s) cx).2 :: ys.map .own))
      (hr : o.res = (pollF (inner s) cx).2.outcome ∨ (o.res = .panicked .overflow ∧ chk = true))
      (hs' : stored o.next = none) (hi : inner o.next = (pollF (inner s) cx).1)
  /-- It comes to neither. -/
  | overflowed (pre : List (Act ω ν χ)) (xs : List χ) (hpre : Head cx.waker (stored s) pre)
      (ha : o.acts = pre ++ xs.map .own) (hr : o.res = .panicked .overflow) (hc : chk = true)

section
variable {pollF : φ → Cx ω → φ × Poll ν} {inner : σ → φ} {stored : σ → Option Sleep}
  {chk : Bool} {cx : Cx ω} {s s₀ : σ} {o : Polled σ ω ν χ}

/-- Without a stored timer there is nothing to do about it. -/
theorem Head.nil {w : Waker} {pre : List (Act ω ν χ)} (h : Head w none pre) : pre = [] := by
  cases h
  rfl

/-- Only the future inside and the stored timer matter of the state before. -/
theorem Held.congr (h : Held pollF inner stored chk cx s₀ o) (hs : stored s₀ = stored s)
    (hi : inner s₀ = inner s) : Held pollF inner stored chk cx s o := by
  cases h with
  | still sl hsl ha hr hs' hi' => exact .still sl (hs ▸ hsl) ha hr hs' (hi ▸ hi')
  | inserted pre xs d hpre ha hr hs' hi' =>
      exact .inserted pre xs d (hs ▸ hpre) ha hr hs' (hi ▸ hi')
  | woken pre xs d hpre ha hr hs' hi' => exact .woken pre xs d (hs ▸ hpre) ha hr hs' (hi ▸ hi')
  | polled pre xs ys hpre ha hr hs' hi' =>
      rw [hi] at ha hr hi'
      exact .polled pre xs ys (hs ▸ hpre) ha hr hs' hi'
  | overflowed pre xs hpre ha hr hc => exact .overflowed pre xs (hs ▸ hpre) ha hr hc

/-- A poll that found no timer, after the stored one was seen to and things were noted down. -/
theorem Held.behind (h : Held pollF inner stored chk cx s₀ o) (hs : stored s₀ = none)
    (hi : inner s₀ = inner s) {head : List (Act ω ν χ)} (hhead : Head cx.waker (stored s) head)
    (zs : List χ) : Held pollF inner stored chk cx s (o.after (head ++ zs.map .own)) := by
  have hnil : ∀ pre : List (Act ω ν χ), Head cx.waker (stored s₀) pre → pre = [] := by
    intro pre hpre
    rw [hs] at hpre
    exact hpre.nil
  cases h with
  | still sl hsl =>
      rw [hs] at hsl
      exact absurd hsl (by simp)
  | inserted pre xs d hpre ha hr hs' hi' =>
      refine .inserted head (zs ++ xs) d hhead ?_ hr hs' (hi ▸ hi')
      rw [Polled.after_acts, ha, hnil pre hpre]
      simp
  | woken pre xs d hpre ha hr hs' hi' =>
      refine .woken head (zs ++ xs) d hhead ?_ hr hs' (hi ▸ hi')
      rw [Polled.after_acts, ha, hnil pre hpre]
      simp
  | polled pre xs ys hpre ha hr hs' hi' =>
      rw [hi] at ha hr hi'
      refine .polled head (zs ++ xs) ys hhead ?_ hr hs' hi'
      rw [Polled.after_acts, ha, hnil pre hpre]
      simp
  | overflowed pre xs hpre ha hr hc =>
      refine .overflowed head (zs ++ xs) hhead ?_ hr hc
      rw [Polled.after_acts, ha, hnil pre hpre]
      simp

/-- A stored timer that has elapsed, in front of a poll that found none. -/
theorem Held.elapsed (h : Held pollF inner stored chk cx s₀ o) (hs : stored s₀ = none)
    (hi : inner s₀ = inner s) {sl : Sleep} (hsl : stored s = some sl) :
    Held pollF inner stored chk cx s (o.after [.sleepPolled cx.waker (.ready ())]) :=
  h.behind hs hi (by rw [hsl]; exact .elapsed sl) []

/-- Something noted down, in front of a poll that found no timer. -/
theorem Held.noted (h : Held pollF inner stored chk cx s o) (hs : stored s = none) (x : χ) :
    Held pollF inner stored chk cx s (o.after [.own x]) :=
  h.behind hs rfl (by rw [hs]; exact .clear) [x]

/-- Seen through a part of the state that holds the future inside and the timer. -/
theorem Held.map {g : τ → σ} {s : τ} {o : Polled τ ω ν χ}
    (h : Held pollF (fun s => inner (g s)) (fun s => stored (g s)) chk cx s o) :
    Held pollF inner stored chk cx (g s) (o.map g) := by
  cases h with
  | still sl hs ha hr hs' hi => exact .still sl hs ha hr hs' hi
  | inserted pre xs d hpre ha hr hs' hi => exact .inserted pre xs d hpre ha hr hs' hi
  | woken pre xs d hpre ha hr hs' hi => exact .woken pre xs d hpre ha hr hs' hi
  | polled pre xs ys hpre ha hr hs' hi => exact .polled pre xs ys hpre ha hr hs' hi
  | overflowed pre xs hpre ha hr hc => exact .overflowed pre xs hpre ha hr hc

/-- A poll that comes straight to the future inside, and found no timer. -/
theorem InnerPolled.held (h : InnerPolled pollF inner stored chk cx (inner s) o)
    (hs : stored s = none) : Held pollF inner stored chk cx s o := by
  obtain ⟨ys, ha, _⟩ := h.acts
  refine .polled [] [] ys ?_ ha h.res h.stored h.inner
  rw [hs]
  exact .clear

/-- Only a build that checks for overflow panics. -/
theorem Held.panic (h : Held pollF inner stored chk cx s o) {why : Panic}
    (hp : o.res = .panicked why) : chk = true := by
  cases h with
  | still _ _ _ hr => rw [hr] at hp; exact absurd hp (by simp)
  | inserted _ _ _ _ _ hr => rw [hr] at hp; exact absurd hp (by simp)
  | woken _ _ _ _ _ hr => rw [hr] at hp; exact absurd hp (by simp)
  | polled _ _ _ _ _ hr =>
      rcases hr with hr | ⟨_, hc⟩
      · rw [hr] at hp
        cases hv : (pollF (inner s) cx).2 with
        | ready v => rw [hv] at hp; exact absurd hp (by simp [Poll.outcome])
        | pending => rw [hv] at hp; exact absurd hp (by simp [Poll.outcome])
      · exact hc
  | overflowed _ _ _ _ _ hc => exact hc

end

end Async
