import RsRun.Lib.Lists
import RsRun.PendingFuture.LimiterSystem
import RsRun.PendingFuture.Samples
import RsRun.Proof.HandleMoves

/-!
# The shared back-off counter

`poll` takes one off the counter where it finds a back-off elapsed, and nothing ever adds
one: not where a back-off is inserted, nor anywhere else. So the first back-off that is
found elapsed wraps the counter, and until then it stays at zero, whatever happens.
-/

namespace RsRun.Proof

open Async ModeRatelimiter HandleSystem

variable {φ ω ν L : Type*}

/-! ## What the property says -/

/-- The action takes one off the counter of this memory. -/
def Settles (w : World L φ) (a : Action L φ ω) (sh : Shared L) : Prop :=
  ∃ r m env this, a = .poll r env ∧ w.slots[r]? = some (some (.future m this))
    ∧ w.memories[m]? = some sh ∧ FindsElapsed this env

/-- Between the two states some counter went from zero to the largest `u64`. -/
def Wraps (w w' : World L φ) : Prop :=
  ∃ (m : Nat) (sh sh' : Shared L), w.memories[m]? = some sh ∧ w'.memories[m]? = some sh'
    ∧ sh.counter = 0 ∧ sh'.counter = 2 ^ 64 - 1

/-- No future that shares memory `m` is in a back-off. -/
def NoneInBackoff (w : World L φ) (m : Nat) : Prop :=
  ∀ this, some (.future m this) ∈ w.slots → this.state = .common

/-- A counter whose futures are in no back-off is back at zero. -/
def Balanced (w : World L φ) : Prop :=
  ∀ m sh, w.memories[m]? = some sh → NoneInBackoff w m → sh.counter = 0

/-! ## What the code does -/

/-- Every counter is where `new` put it. -/
def AtZero (w : World L φ) : Prop :=
  ∀ (m : Nat) (sh : Shared L), w.memories[m]? = some sh → sh.counter = 0

section
variable {chk : Bool} {pollF : φ → Cx ω → φ × Poll ν} {tryWait : Limiter L} {w w' : World L φ}
  {a : Action L φ ω} {t : List (Act ω ν TryWait)}

/-- **A step that finds no back-off elapsed leaves every counter at zero.** -/
theorem atZero_step (h : AtZero w) (hnone : ∀ sh, ¬ Settles w a sh)
    (hs : (system chk pollF tryWait).step w a = some (w', t)) : AtZero w' := by
  intro m sh hsh
  cases handle_moves hs with
  | new p limiter =>
      rcases Lists.getElem?_snoc_cases hsh with hold | ⟨_, hnew⟩
      · exact h m sh hold
      · rw [hnew]
        rfl
  | clone r m' handle hr => exact h m sh hsh
  | wrap r m' handle future hr => exact h m sh hsh
  | poll r m' env this sh' hr hm' =>
      rcases Lists.getElem?_set_cases hsh with ⟨_, hnew⟩ | ⟨_, hold⟩
      · have hquiet : ¬ FindsElapsed this env :=
          fun hfinds => hnone sh' ⟨r, m', env, this, rfl, hr, hm', hfinds⟩
        rw [hnew, poll_counter hquiet]
        exact h m' sh' hm'
      · exact h m sh hold
  | refill m' limiter sh' hm' =>
      rcases Lists.getElem?_set_cases hsh with ⟨_, hnew⟩ | ⟨_, hold⟩
      · rw [hnew]
        exact h m' sh' hm'
      · exact h m sh hold
  | drop r slot hr =>
      obtain ⟨sh₀, hsh₀, ⟨_, hnew⟩ | ⟨_, hnew⟩⟩ := Lists.getElem?_modify_cases hsh
      · rw [hnew]
        exact h m sh₀ hsh₀
      · rw [hnew]
        exact h m sh₀ hsh₀

/-- A settling step can be taken, and at zero it wraps. -/
theorem Settles.wraps (h : AtZero w) {sh : Shared L} (hset : Settles w a sh) :
    ∃ w' t, (system chk pollF tryWait).step w a = some (w', t) ∧ Wraps w w' := by
  obtain ⟨r, m, env, this, rfl, hr, hm, hfinds⟩ := hset
  have hzero := h m sh hm
  obtain ⟨hlt, _⟩ := List.getElem?_eq_some_iff.mp hm
  refine ⟨_, _, step_poll hr hm, m, sh, _, hm, List.getElem?_set_self hlt, hzero, ?_⟩
  rw [poll_counter_taken hfinds, hzero]
  rfl

/-- A run whose steps all meet a condition that rules out every settling step. -/
theorem atZero_exec {G : World L φ → Action L φ ω → Prop}
    (hG : ∀ w a sh, AtZero w → G w a → ¬ Settles w a sh) {as : List (Action L φ ω)}
    (hguard : ∀ bs a w t, bs ++ [a] <+: as →
      (system chk pollF tryWait).exec (system chk pollF tryWait).init bs = some (w, t) → G w a)
    (hrun : (system chk pollF tryWait).exec (system chk pollF tryWait).init as = some (w, t)) :
    AtZero w := by
  refine Lts.log_of_guarded (P := fun w _ => AtZero w) (G := fun w _ a => G w a) ?_ ?_ hguard hrun
  · intro m sh hsh
    exact absurd hsh (by simp [system])
  · exact fun w a w' u t _ _ h hg hs => atZero_step h (fun sh => hG w a sh h hg) hs

end

/--
**The counter is balanced, if and only if it is never touched.**

For any number of handles, clones and futures, and any interleaving of what happens to
them, `as`: no step wraps a counter below zero, and a counter whose futures are in no
back-off is zero, exactly when no poll finds a stored back-off elapsed.
-/
theorem backoff_counter_iff (chk : Bool) (pollF : φ → Cx ω → φ × Poll ν) (tryWait : Limiter L)
    (as : List (Action L φ ω)) :
    ((∀ bs a w t w' u, bs ++ [a] <+: as →
          (system chk pollF tryWait).exec (system chk pollF tryWait).init bs = some (w, t) →
          (system chk pollF tryWait).step w a = some (w', u) → ¬ Wraps w w')
        ∧ ∀ bs w t, bs <+: as →
          (system chk pollF tryWait).exec (system chk pollF tryWait).init bs = some (w, t) →
          Balanced w)
      ↔ ∀ bs a w t, bs ++ [a] <+: as →
        (system chk pollF tryWait).exec (system chk pollF tryWait).init bs = some (w, t) →
        ∀ sh, ¬ Settles w a sh := by
  constructor
  · rintro ⟨hnowrap, _⟩ bs a w t hpre hrun sh hset
    -- before the first wrap every counter is at zero, so this step would be one
    have hzero : AtZero w := by
      refine atZero_exec (G := fun w a => ∀ w' u,
        (system chk pollF tryWait).step w a = some (w', u) → ¬ Wraps w w') ?_ ?_ hrun
      · intro w a sh h hno hset
        obtain ⟨w', u, hs, hwraps⟩ := hset.wraps h
        exact hno w' u hs hwraps
      · exact fun cs b w u hcs hr w' u' =>
          hnowrap cs b w u w' u' (hcs.trans ((List.prefix_append bs [a]).trans hpre)) hr
    obtain ⟨w', u, hs, hwraps⟩ := hset.wraps hzero
    exact hnowrap bs a w t w' u hpre hrun hs hwraps
  · intro hnone
    have hzero : ∀ bs w t, bs <+: as →
        (system chk pollF tryWait).exec (system chk pollF tryWait).init bs = some (w, t) →
        AtZero w := by
      intro bs w t hpre hrun
      refine atZero_exec (G := fun w a => ∀ sh, ¬ Settles w a sh) ?_ ?_ hrun
      · exact fun w a sh _ hno => hno sh
      · exact fun cs a w u hcs hr => hnone cs a w u (hcs.trans hpre) hr
    refine ⟨?_, fun bs w t hpre hrun m sh hm _ => hzero bs w t hpre hrun m sh hm⟩
    rintro bs a w t w' u hpre hrun hs ⟨m, sh, sh', _, hm', _, hwrapped⟩
    have hzero' := atZero_step (hzero bs w t ((List.prefix_append bs [a]).trans hpre) hrun)
      (hnone bs a w t hpre hrun) hs m sh' hm'
    omega

/-- An empty bucket refuses once; the back-off elapses, and the future completes. -/
theorem not_balanced : ¬ ∀ (as : List (Action Nat Unit Unit)) w t,
    (system true readyAtOnce LimiterSystem.tryWait).exec
        (system true readyAtOnce LimiterSystem.tryWait).init as = some (w, t) → Balanced w := by
  intro h
  have hbalanced := h [.new .middle 0, .wrap 0 (), .poll 0 (limiterEnv .pending .pending 1000),
    .refill 0 1, .poll 0 (limiterEnv (.ready ()) .pending 1000)] _ _ rfl
  refine absurd (hbalanced 0 _ rfl ?_) (by decide)
  intro this hmem
  have hslot := List.mem_singleton.mp hmem
  injection hslot with hslot
  injection hslot with _ hthis
  rw [hthis]
  rfl

end RsRun.Proof
