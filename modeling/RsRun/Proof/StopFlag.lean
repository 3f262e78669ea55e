import RsRun.Lib.Lists
import RsRun.PendingFuture.Samples
import RsRun.Proof.HandleMoves

/-!
# What the stop flag of a handle says

`Drop` raises the flag for whatever clone it runs for, and nothing lowers it again. So the
flag says that all clones are gone as long as the only clone that is ever dropped is the
last one, and no longer.
-/

namespace RsRun.Proof

open Async ModeRatelimiter HandleSystem

variable {φ ω ν L : Type*}

/-- The flag of every `new` is raised exactly when all its clones are gone. -/
def FlagOk (w : World L φ) : Prop :=
  ∀ m sh, w.memories[m]? = some sh → (sh.stop = true ↔ w.clones m = 0)

/-- The action drops a clone, and there are others of the same `new`. -/
def DropsEarly (w : World L φ) (a : Action L φ ω) : Prop :=
  ∃ r slot, a = .drop r ∧ w.slots[r]? = some (some slot) ∧ 1 < w.clones slot.memory

section
variable {chk : Bool} {pollF : φ → Cx ω → φ × Poll ν} {tryWait : Limiter L} {w w' : World L φ}
  {a : Action L φ ω} {t : List (Act ω ν TryWait)}

/-- As long as a clone is alive, the flag is down. -/
theorem FlagOk.live (h : FlagOk w) {r : Nat} {slot : Slot φ}
    (hr : w.slots[r]? = some (some slot)) {sh : Shared L}
    (hm : w.memories[slot.memory]? = some sh) : sh.stop = false := by
  have hpos := clones_pos hr
  cases hstop : sh.stop with
  | false => rfl
  | true =>
      have hzero := (h _ _ hm).mp hstop
      omega

/-- **A step that drops no clone early keeps the flags right.** -/
theorem flagOk_step (h : FlagOk w) (hlast : ¬ DropsEarly w a)
    (hs : (system chk pollF tryWait).step w a = some (w', t)) : FlagOk w' := by
  intro m sh hsh
  cases handle_moves hs with
  | new p limiter =>
      rw [clones_push]
      change _ ↔ w.clones m + (if w.memories.length = m then 1 else 0) = 0
      rcases Lists.getElem?_snoc_cases hsh with hold | ⟨hm, hnew⟩
      · have hlt : m < w.memories.length := (List.getElem?_eq_some_iff.mp hold).1
        rw [if_neg (by omega)]
        exact h m sh hold
      · rw [if_pos hm.symm, hnew]
        exact ⟨fun hstop => absurd hstop (by simp [Shared.new]), fun hz => absurd hz (by omega)⟩
  | clone r m' handle hr =>
      rw [clones_push]
      change _ ↔ w.clones m + (if m' = m then 1 else 0) = 0
      by_cases hm : m' = m
      · -- the handle that was cloned is alive, so the flag was down and stays so
        subst hm
        have hdown : sh.stop = false := h.live hr hsh
        rw [if_pos rfl, hdown]
        exact ⟨fun hstop => absurd hstop (by simp), fun hz => absurd hz (by omega)⟩
      · rw [if_neg hm]
        exact h m sh hsh
  | wrap r m' handle future hr =>
      rw [clones_replace hr]
      · exact h m sh hsh
      · rfl
  | poll r m' env this sh' hr hm' =>
      rw [clones_replace hr]
      · rcases Lists.getElem?_set_cases hsh with ⟨hm, hnew⟩ | ⟨_, hold⟩
        · rw [hnew, poll_stop, hm]
          exact h m' sh' hm'
        · exact h m sh hold
      · rfl
  | refill m' limiter sh' hm' =>
      rcases Lists.getElem?_set_cases hsh with ⟨hm, hnew⟩ | ⟨_, hold⟩
      · rw [hnew, hm]
        exact h m' sh' hm'
      · exact h m sh hold
  | drop r slot hr =>
      have hless := clones_release hr m
      obtain ⟨sh₀, hsh₀, ⟨hm, hnew⟩ | ⟨hm, hnew⟩⟩ := Lists.getElem?_modify_cases hsh
      · -- this was the last clone
        rw [if_pos hm] at hless
        have hone : ¬ 1 < w.clones m := fun hlt => hlast ⟨r, slot, rfl, hr, hm ▸ hlt⟩
        rw [hnew]
        exact ⟨fun _ => by omega, fun _ => rfl⟩
      · rw [if_neg hm] at hless
        have hsame : (w.release r slot).clones m = w.clones m := by omega
        rw [hsame, hnew]
        exact h m sh₀ hsh₀

/-- **A clone that is dropped early raises the flag over the others.** -/
theorem flag_of_dropsEarly (hin : InRange w) (hearly : DropsEarly w a) :
    ∃ w', (system chk pollF tryWait).step w a = some (w', []) ∧ ¬ FlagOk w' := by
  obtain ⟨r, slot, rfl, hr, hlt⟩ := hearly
  obtain ⟨sh, hsh⟩ := hin.memory hr
  refine ⟨_, step_drop hr, ?_⟩
  intro hflag
  have hraised : (w.release r slot).memories[slot.memory]? = some sh.drop := by
    change (w.memories.modify slot.memory Shared.drop)[slot.memory]? = _
    rw [List.getElem?_modify_eq, hsh]
    rfl
  have hzero := (hflag _ _ hraised).mp rfl
  have hless := clones_release hr slot.memory
  rw [if_pos rfl] at hless
  omega

end

/--
**The stop flag means that the handle is gone, if and only if no clone is dropped early.**

For any order in which handles are made, cloned, moved into futures and dropped, `as`.
-/
theorem stop_flag_iff (chk : Bool) (pollF : φ → Cx ω → φ × Poll ν) (tryWait : Limiter L)
    (as : List (Action L φ ω)) :
    (∀ bs w t, bs <+: as →
        (system chk pollF tryWait).exec (system chk pollF tryWait).init bs = some (w, t) →
        FlagOk w)
      ↔ ∀ bs a w t, bs ++ [a] <+: as →
        (system chk pollF tryWait).exec (system chk pollF tryWait).init bs = some (w, t) →
        ¬ DropsEarly w a := by
  constructor
  · intro hall bs a w t hpre hrun hearly
    obtain ⟨w', hs, hbad⟩ := flag_of_dropsEarly (inRange_exec hrun) hearly
    have hrun' : (system chk pollF tryWait).exec (system chk pollF tryWait).init (bs ++ [a])
        = some (w', t ++ []) := Lts.exec_append.mpr ⟨w, t, [], hrun, Lts.exec_one hs, rfl⟩
    exact hbad (hall _ w' _ hpre hrun')
  · intro hguard bs w t hpre hrun
    refine Lts.log_of_guarded (P := fun w _ => FlagOk w) (G := fun w _ a => ¬ DropsEarly w a)
      ?_ ?_ ?_ hrun
    · intro m sh hsh
      exact absurd hsh (by simp [system])
    · exact fun w a w' u t _ _ h hlast hs => flagOk_step h hlast hs
    · exact fun cs a w u hcs hr => hguard cs a w u (hcs.trans hpre) hr

/-- The future that a clone was moved into completes, and the handle it was cloned from lives on. -/
theorem not_stop_flag : ¬ ∀ (as : List (Action Unit Unit Unit)) w t,
    (system true readyAtOnce grantAll).exec (system true readyAtOnce grantAll).init as
        = some (w, t) → FlagOk w := by
  intro h
  have hflag := h [.new .high (), .clone 0, .wrap 1 (), .poll 1 (limiterEnv .pending .pending 0),
    .drop 1] _ _ rfl
  exact absurd ((hflag 0 _ rfl).mp rfl) (by decide)

end RsRun.Proof
