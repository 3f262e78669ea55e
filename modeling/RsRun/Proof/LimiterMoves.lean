import RsRun.Lib.Polls
import RsRun.PendingFuture.ModeRatelimiter

/-!
# What one poll of `mode_ratelimiter` does

A poll waits for the stored sleep, is refused by the limiter and inserts one, or polls
the inner future and gets one of its two answers. The counter is a plain `u32`, so in a
build that checks for overflow the poll may also panic: at the count before the limiter
is asked, or at the one after a `Pending` answer.
-/

namespace RsRun.Proof

open Async ModeRatelimiter

variable {φ ω ν L : Type*}

/-- The memory that a poll goes on with once it is past the back-off. -/
def settled (sh : Shared L) (this : PendingFuture φ) : Shared L :=
  settle this.state.stored.isSome sh

/-- The poll gets past the back-off, if there is one. -/
def PastBackoff (state : State) (stored : Poll Unit) : Prop :=
  ∀ sleep, state = .backoff sleep → stored = .ready ()

theorem pastBackoff_common {state : State} {stored : Poll Unit} (h : state = .common) :
    PastBackoff state stored :=
  fun _ heq => absurd (h.symm.trans heq) (by simp)

/-- What the limiter answers, if there is one. -/
def asked (tryWait : Limiter L) (sh : Shared L) (this : PendingFuture φ) (env : Env ω) :
    Option (TryWait × L) :=
  this.handle.ratelimiter.map (fun ratelimiter => tryWait ratelimiter sh.limiter env.wait)

/--
The limiter lets the poll through: the count it goes on with, the limiter it leaves
behind, and what the limiter said.
-/
inductive LetThrough (chk : Bool) (tryWait : Limiter L) (sh : Shared L) (this : PendingFuture φ)
    (env : Env ω) : Nat → L → List TryWait → Prop where
  /-- There is no limiter. -/
  | free (h : asked tryWait sh this env = none) :
      LetThrough chk tryWait sh this env this.pendCnt sh.limiter []
  | granted (pendCnt : Nat) (limiter : L) (h : asked tryWait sh this env = some (.granted, limiter))
      (hcnt : Word.add chk 32 this.pendCnt 1 = some pendCnt) :
      LetThrough chk tryWait sh this env pendCnt limiter [.granted]

/-- The ways a poll can go. -/
inductive LimiterMoves (chk : Bool) (pollF : φ → Cx ω → φ × Poll ν) (tryWait : Limiter L)
    (sh : Shared L) (this : PendingFuture φ) (env : Env ω)
    (o : Polled (Shared L × PendingFuture φ) ω ν TryWait) : Prop where
  /-- The stored sleep has not elapsed. -/
  | waiting (state : State) (hstay : ¬ PastBackoff this.state env.stored) (hr : o.res = .pending)
      (hn : o.next = (sh, { this with state := state })) (hs : Shows o.acts [] [] [] [])
  /-- The limiter refuses, and a sleep is inserted. -/
  | refused (wait pendCnt : Nat) (limiter : L) (state : State)
      (hpast : PastBackoff this.state env.stored)
      (hask : asked tryWait sh this env = some (.refused wait, limiter))
      (hcnt : Word.add chk 32 this.pendCnt 1 = some pendCnt) (hr : o.res = .pending)
      (hn : o.next = ({ settled sh this with limiter := limiter },
        { this with state := state, pendCnt := pendCnt }))
      (hs : Shows o.acts [true] [wait] [] [.refused wait])
  /-- The inner future is polled, and is pending. -/
  | pending (before pendCnt : Nat) (limiter : L) (said : List TryWait)
      (hpast : PastBackoff this.state env.stored)
      (hlet : LetThrough chk tryWait sh this env before limiter said)
      (hres : (pollF this.future env.cx).2 = .pending)
      (hcnt : Word.add chk 32 before 1 = some pendCnt) (hr : o.res = .pending)
      (hn : o.next = ({ settled sh this with limiter := limiter },
        { this with
          state := .common
          future := (pollF this.future env.cx).1
          pendCnt := pendCnt }))
      (hs : Shows o.acts [false] [] [(env.cx, .pending)] said)
  /-- The inner future is polled, and is ready. -/
  | ready (v : ν) (pendCnt : Nat) (limiter : L) (said : List TryWait)
      (hpast : PastBackoff this.state env.stored)
      (hlet : LetThrough chk tryWait sh this env pendCnt limiter said)
      (hres : (pollF this.future env.cx).2 = .ready v) (hr : o.res = .ready v)
      (hn : o.next = ({ settled sh this with limiter := limiter },
        { this with
          state := .common
          future := (pollF this.future env.cx).1
          pendCnt := pendCnt }))
      (hs : Shows o.acts [] [] [(env.cx, .ready v)] said)
  /-- The counter overflows before the limiter is asked. -/
  | askPanics (why : Panic) (hpast : PastBackoff this.state env.stored)
      (hask : asked tryWait sh this env ≠ none)
      (hcnt : Word.add chk 32 this.pendCnt 1 = none) (hr : o.res = .panicked why)
      (hn : o.next = (settled sh this, { this with state := .common }))
      (hs : Shows o.acts [] [] [] [])
  /-- The counter overflows after the inner future was polled. -/
  | answerPanics (why : Panic) (before : Nat) (limiter : L) (said : List TryWait)
      (hpast : PastBackoff this.state env.stored)
      (hlet : LetThrough chk tryWait sh this env before limiter said)
      (hres : (pollF this.future env.cx).2 = .pending)
      (hcnt : Word.add chk 32 before 1 = none) (hr : o.res = .panicked why)
      (hn : o.next = ({ settled sh this with limiter := limiter },
        { this with
          state := .common
          future := (pollF this.future env.cx).1
          pendCnt := before }))
      (hs : Shows o.acts [false] [] [(env.cx, .pending)] said)

section
variable {chk : Bool} {pollF : φ → Cx ω → φ × Poll ν} {tryWait : Limiter L} {sh : Shared L}
  {this : PendingFuture φ} {env : Env ω}

/-- What quietly happened before does not matter. -/
theorem LimiterMoves.after {o : Polled (Shared L × PendingFuture φ) ω ν TryWait}
    (h : LimiterMoves chk pollF tryWait sh this env o) (w : Waker) :
    LimiterMoves chk pollF tryWait sh this env (o.after [.sleepPolled w (.ready ())]) := by
  cases h with
  | waiting state hstay hr hn hs => exact .waiting state hstay hr hn (hs.sleepPolled w _)
  | refused wait pendCnt limiter state hpast hask hcnt hr hn hs =>
      exact .refused wait pendCnt limiter state hpast hask hcnt hr hn (hs.sleepPolled w _)
  | pending before pendCnt limiter said hpast hlet hres hcnt hr hn hs =>
      exact .pending before pendCnt limiter said hpast hlet hres hcnt hr hn (hs.sleepPolled w _)
  | ready v pendCnt limiter said hpast hlet hres hr hn hs =>
      exact .ready v pendCnt limiter said hpast hlet hres hr hn (hs.sleepPolled w _)
  | askPanics why hpast hask hcnt hr hn hs =>
      exact .askPanics why hpast hask hcnt hr hn (hs.sleepPolled w _)
  | answerPanics why before limiter said hpast hlet hres hcnt hr hn hs =>
      exact .answerPanics why before limiter said hpast hlet hres hcnt hr hn (hs.sleepPolled w _)

theorem limiterInner_moves (chk : Bool) (pollF : φ → Cx ω → φ × Poll ν) {before : Nat}
    {limiter : L} {said : List TryWait} (hpast : PastBackoff this.state env.stored)
    (hlet : LetThrough chk tryWait sh this env before limiter said) :
    LimiterMoves chk pollF tryWait sh this env
      ((pollInner chk pollF { settled sh this with limiter := limiter }
        { this with state := .common, pendCnt := before } env).after (said.map .own)) := by
  have howns : ∀ (w : Cx ω) (r : Poll ν) (bs : List Bool),
      Shows [Act.innerPolled (χ := TryWait) w r] bs [] [(w, r)] [] →
      Shows (said.map .own ++ [.innerPolled w r]) bs [] [(w, r)] said := by
    intro w r bs h
    cases hlet with
    | free _ => exact h
    | granted _ _ _ _ => exact ⟨h.beats, rfl, rfl, rfl⟩
  unfold pollInner
  dsimp only
  cases hres : (pollF this.future env.cx).2 with
  | ready v =>
      exact .ready v before limiter said hpast hlet hres rfl rfl
        (howns _ _ _ ⟨rfl, rfl, rfl, rfl⟩)
  | pending =>
      dsimp only
      cases hcnt : Word.add chk 32 before 1 with
      | none =>
          exact .answerPanics .overflow before limiter said hpast hlet hres hcnt rfl rfl
            (howns _ _ _ ⟨rfl, rfl, rfl, rfl⟩)
      | some pendCnt =>
          exact .pending before pendCnt limiter said hpast hlet hres hcnt rfl rfl
            (howns _ _ _ ⟨rfl, rfl, rfl, rfl⟩)

theorem settle_limiter (elapsed : Bool) (sh : Shared L) :
    (settle elapsed sh).limiter = sh.limiter := by
  rw [settle]; split <;> rfl

theorem limiterThrottle_moves (chk : Bool) (pollF : φ → Cx ω → φ × Poll ν) (tryWait : Limiter L)
    (sh : Shared L) (hpast : PastBackoff this.state env.stored) :
    LimiterMoves chk pollF tryWait sh this env
      (throttle chk pollF tryWait (settled sh this) { this with state := .common } env) := by
  unfold throttle
  dsimp only
  cases hrl : this.handle.ratelimiter with
  | none =>
      have hask : asked tryWait sh this env = none := by rw [asked, hrl]; rfl
      have hlet : LetThrough chk tryWait sh this env this.pendCnt sh.limiter [] := .free hask
      have hinner := limiterInner_moves chk pollF hpast hlet
      have hsame : { settled sh this with limiter := sh.limiter } = settled sh this := by
        unfold settled
        rw [← settle_limiter this.state.stored.isSome sh]
      rw [hsame] at hinner
      exact hinner
  | some ratelimiter =>
      have hask : asked tryWait sh this env = some (tryWait ratelimiter sh.limiter env.wait) := by
        rw [asked, hrl]; rfl
      dsimp only
      cases hcnt : Word.add chk 32 this.pendCnt 1 with
      | none =>
          exact .askPanics .overflow hpast (by rw [hask]; simp) hcnt rfl rfl ⟨rfl, rfl, rfl, rfl⟩
      | some pendCnt =>
          have hlimiter : (settled sh this).limiter = sh.limiter := settle_limiter _ sh
          dsimp only
          rw [hlimiter]
          obtain ⟨answer, limiter, htry⟩ : ∃ answer limiter,
              tryWait ratelimiter sh.limiter env.wait = (answer, limiter) := ⟨_, _, rfl⟩
          rw [htry] at hask ⊢
          cases answer with
          | granted => exact limiterInner_moves chk pollF hpast (.granted pendCnt limiter hask hcnt)
          | refused wait =>
              dsimp only
              rcases insertBackoff_cases (ω := ω) (ν := ν) (χ := TryWait)
                (fun state => ({ settled sh this with limiter := limiter },
                  { this with state := state, pendCnt := pendCnt }))
                wait env.cx.waker env.inserted with ⟨_, h⟩ | ⟨_, h⟩
              · rw [h]
                exact .refused wait pendCnt limiter .common hpast hask hcnt rfl rfl
                  ⟨rfl, rfl, rfl, rfl⟩
              · rw [h]
                exact .refused wait pendCnt limiter _ hpast hask hcnt rfl rfl
                  ⟨rfl, rfl, rfl, rfl⟩

/-- **The inversion lemma.** -/
theorem limiter_moves (chk : Bool) (pollF : φ → Cx ω → φ × Poll ν) (tryWait : Limiter L)
    (sh : Shared L) (this : PendingFuture φ) (env : Env ω) :
    LimiterMoves chk pollF tryWait sh this env (poll chk pollF tryWait sh this env) := by
  unfold poll
  rcases pollBackoff_cases this.state (fun state => (sh, { this with state := state }))
    env.cx.waker env.stored (fun elapsed =>
      throttle chk pollF tryWait (settle elapsed sh) { this with state := .common } env) with
    ⟨hstate, h⟩ | ⟨sleep, hstate, hstored, h⟩ | ⟨sleep, hstate, hstored, h⟩
  · have hpast : PastBackoff this.state env.stored := pastBackoff_common hstate
    have hrest := limiterThrottle_moves chk pollF tryWait sh hpast
    rw [settled, hstate] at hrest
    rw [h]
    exact hrest
  · have hpast : PastBackoff this.state env.stored := fun _ _ => hstored
    have hrest := limiterThrottle_moves chk pollF tryWait sh hpast
    rw [settled, hstate] at hrest
    rw [h]
    exact hrest.after _
  · have hstay : ¬ PastBackoff this.state env.stored :=
      fun hpast => absurd (hstored.symm.trans (hpast sleep hstate)) (by simp)
    rw [h]
    exact .waiting _ hstay rfl rfl ⟨rfl, rfl, rfl, rfl⟩

end

end RsRun.Proof
