import RsRun.Proof.Lifecycle

/-!
# Every loop is owned or cancelled

The handle of a running loop lives in one place. Whoever takes it out cancels the
token under the same lock, and so does the drop of a task that still has it; nobody
else touches the token. So the token tells exactly whether the loop was given up.
-/

namespace RsRun.Proof

open TaskSystem RepeatedTask

/-- While the handle is in its place, only the drop cancels. -/
def TokenKept (w : World) : Prop :=
  w.task.inner.val.taskHandle.isSome = true → w.task.cancelToken = w.dropped

section
variable {interval : Nat} {initialDelay : Option Nat} {taskFn : TaskFunction}

theorem tokenKept_init : TokenKept (system interval initialDelay taskFn).init := by
  intro _
  rfl

/-- Only a task that is still there is started. -/
theorem start_alive {w w' : World} {t : List Event} (h : step w .start = some (w', t)) :
    w.dropped = false := by
  rw [step] at h
  split at h
  · exact absurd h (by simp)
  · rename_i hlive
    exact Bool.eq_false_iff.mpr hlive

theorem tokenKept_step {w w' : World} {a : Action} {t : List Event}
    (hw : (system interval initialDelay taskFn).Reachable w) (h : TokenKept w)
    (hs : (system interval initialDelay taskFn).step w a = some (w', t)) : TokenKept w' := by
  have hm := reachable_moves hw hs
  cases hm with
  | startFresh taskFn hf =>
      intro _
      -- a task that still has its function is fresh, and its token untouched
      have htoken : w.task.cancelToken = false := by
        obtain ⟨s, hst, _⟩ := reachable_stage hw
        cases hst with
        | fresh _ _ _ _ token => exact token
        | running inner => rw [inner] at hf; exact absurd hf (by simp)
        | stopped inner => rw [inner] at hf; exact absurd hf (by simp)
      exact htoken.trans (start_alive hs).symm
  | stopTakes c handle hc hh => intro hsome; exact absurd hsome (by simp)
  | drop =>
      -- a task that is dropped cancels exactly if it still has the handle
      intro hsome
      change (w.task.cancelToken || w.task.inner.val.taskHandle.isSome) = true
      rw [show w.task.inner.val.taskHandle.isSome = true from hsome, Bool.or_true]
  | _ => exact h

theorem tokenKept_reachable {w : World} (h : (system interval initialDelay taskFn).Reachable w) :
    TokenKept w :=
  h.inv tokenKept_init (fun _ _ _ _ hr hp hs => tokenKept_step hr hp hs)

/-! ## Ownership -/

/-- Who answers for the loop of a task. -/
structure NoOrphan (w : World) : Prop where
  /-- The token is cancelled when the loop has been given up, and only then. -/
  cancelled : w.task.cancelToken = true
    ↔ w.loops ≠ [] ∧ (w.stops.any StopCall.took = true ∨ w.dropped = true)
  /-- A loop that is not cancelled can still be reached through the handle. -/
  owned : ∀ i, i < w.loops.length →
    w.task.cancelToken = true ∨ w.task.inner.val.taskHandle = some i
  /-- Nothing that was done before the start disables it. -/
  startable : w.loops = [] → w.dropped = false →
    ∃ w' l, step w .start = some (w', [.startRet (.ok ())]) ∧ w'.loops = [l]
      ∧ w'.task.cancelToken = false

/-- What a stop or a drop before the start leaves behind. -/
theorem startable_fresh {w : World} (hp : w.task.inner.poisoned = false) {taskFn : TaskFunction}
    (hf : w.task.inner.val.taskFn = some taskFn) (hloops : w.loops = [])
    (htoken : w.task.cancelToken = false) (hlive : w.dropped = false) :
    ∃ w' l, step w .start = some (w', [.startRet (.ok ())]) ∧ w'.loops = [l]
      ∧ w'.task.cancelToken = false := by
  rw [step, if_neg (by rw [hlive]; simp), start_fresh hp hf]
  have hone : ∀ l : Loop, w.loops ++ (some l).toList = [l] := by
    intro l
    rw [hloops]
    rfl
  exact ⟨_, _, rfl, hone _, htoken⟩

/--
**No loop is orphaned.**

In every world that any use of a task leads to.
-/
theorem no_orphan (interval : Nat) (initialDelay : Option Nat) (taskFn : TaskFunction)
    {w : World} (h : (system interval initialDelay taskFn).Reachable w) : NoOrphan w := by
  have hkept := tokenKept_reachable h
  have hsound := (staged_reachable h).1
  obtain ⟨s, hst, _⟩ := reachable_stage h
  cases hst with
  | fresh taskFn inner started loops token took =>
      refine ⟨?_, ?_, ?_⟩
      · rw [token, loops]
        exact ⟨fun h => absurd h (by simp), fun h => absurd rfl h.1⟩
      · intro i hi
        rw [loops] at hi
        exact absurd hi (Nat.not_lt_zero i)
      · intro _ hlive
        exact startable_fresh hsound (by rw [inner]) loops token hlive
  | running inner started loops took =>
      have hne : w.loops ≠ [] := by
        intro hnil
        rw [hnil] at loops
        exact absurd loops (by simp)
      have htoken : w.task.cancelToken = w.dropped := hkept (by rw [inner]; rfl)
      refine ⟨?_, ?_, fun hnil => absurd hnil hne⟩
      · rw [htoken, took]
        exact ⟨fun h => ⟨hne, .inr h⟩, fun h => h.2.resolve_left (by simp)⟩
      · intro i hi
        have hzero : i = 0 := by omega
        rw [hzero, inner]
        exact .inr rfl
  | stopped inner started loops token took =>
      have hne : w.loops ≠ [] := by
        intro hnil
        rw [hnil] at loops
        exact absurd loops (by simp)
      exact ⟨⟨fun _ => ⟨hne, .inl took⟩, fun _ => token⟩, fun _ _ => .inl token,
        fun hnil => absurd hnil hne⟩

end

/--
A stop that is abandoned before the mutex takes nothing, and the drop cancels; one that is
abandoned after it has taken the handle has cancelled.
-/
theorem no_orphan_dropped :
    (∃ w t, (system 100 none ⟨"tick"⟩).exec (system 100 none ⟨"tick"⟩).init
          [.stopCall, .start, .stopDrop 0, .drop] = some (w, t)
        ∧ w.stops.any StopCall.took = false ∧ w.task.cancelToken = true)
      ∧ ∃ w t, (system 100 none ⟨"tick"⟩).exec (system 100 none ⟨"tick"⟩).init
          [.start, .loop 0 .resume, .stopCall, .stopLock 0, .stopDrop 0] = some (w, t)
        ∧ w.dropped = false ∧ w.stops.any StopCall.took = true ∧ w.task.cancelToken = true := by
  have hdrop := @no_orphan 100 none ⟨"tick"⟩ _ ⟨[.stopCall, .start, .stopDrop 0, .drop], _, rfl⟩
  have hstop := @no_orphan 100 none ⟨"tick"⟩ _
    ⟨[.start, .loop 0 .resume, .stopCall, .stopLock 0, .stopDrop 0], _, rfl⟩
  refine ⟨⟨_, _, rfl, rfl, ?_⟩, ⟨_, _, rfl, rfl, rfl, ?_⟩⟩
  · exact hdrop.cancelled.mpr ⟨by simp, .inr rfl⟩
  · exact hstop.cancelled.mpr ⟨by simp, .inl rfl⟩

end RsRun.Proof
