import RsRun.Lib.Lts

/-!
# Simulations between two systems

What an observer makes of a log is a list for each event, so that an event may also be
invisible. One system simulates another when every step of the other is matched by a run,
possibly empty, that looks the same.
-/

namespace Lts

variable {σ τ α β ε δ ζ : Type*}

/-- Every step of `M` is matched by a run of `N` that looks the same. -/
structure Simulation (M : Lts σ α ε) (N : Lts τ β δ) (see : ε → List ζ) (see' : δ → List ζ)
    (R : σ → τ → Prop) : Prop where
  /-- The two systems start in related states. -/
  init : R M.init N.init
  /-- A step from related states is matched, and leads to related states. -/
  step : ∀ s u a s' t, M.Reachable s → N.Reachable u → R s u → M.step s a = some (s', t) →
    ∃ bs u' v, N.exec u bs = some (u', v) ∧ v.flatMap see' = t.flatMap see ∧ R s' u'

variable {M : Lts σ α ε} {N : Lts τ β δ} {see : ε → List ζ} {see' : δ → List ζ}
  {R : σ → τ → Prop}

/-- **Every run of the simulated system is a run of the other**, as far as one can see. -/
theorem Simulation.run (h : Simulation M N see see' R) {as : List α} {s : σ} {t : List ε}
    (hr : M.exec M.init as = some (s, t)) :
    ∃ bs u v, N.exec N.init bs = some (u, v) ∧ v.flatMap see' = t.flatMap see ∧ R s u := by
  refine log_of_init (P := fun s t => ∃ bs u v, N.exec N.init bs = some (u, v)
    ∧ v.flatMap see' = t.flatMap see ∧ R s u) ?_ ?_ hr
  · exact ⟨[], N.init, [], rfl, rfl, h.init⟩
  · rintro s a s' t t' hreach ⟨bs, u, v, hrun, hsee, hrel⟩ hs
    obtain ⟨cs, u', v', hmatch, hsee', hrel'⟩ :=
      h.step s u a s' t' hreach ⟨bs, v, hrun⟩ hrel hs
    refine ⟨bs ++ cs, u', v ++ v', exec_append.mpr ⟨u, v, v', hrun, hmatch, rfl⟩, ?_, hrel'⟩
    rw [List.flatMap_append, List.flatMap_append, hsee, hsee']

/-- A system that does nothing matches what nobody sees. -/
theorem exec_stutter {u : τ} {t : List ε} (h : t.flatMap see = []) {s' : σ} (hrel : R s' u) :
    ∃ bs u' v, N.exec u bs = some (u', v) ∧ v.flatMap see' = t.flatMap see ∧ R s' u' :=
  ⟨[], u, [], rfl, by rw [h]; rfl, hrel⟩

/-- One step that looks the same is a match. -/
theorem exec_match {u u' : τ} {b : β} {t : List ε} {v : List δ} (hs : N.step u b = some (u', v))
    (h : v.flatMap see' = t.flatMap see) {s' : σ} (hrel : R s' u') :
    ∃ bs u' v, N.exec u bs = some (u', v) ∧ v.flatMap see' = t.flatMap see ∧ R s' u' :=
  ⟨[b], u', v, exec_one hs, h, hrel⟩

/-! ## Some actions only -/

/-- The same system, in which only some actions are taken. -/
def only (M : Lts σ α ε) (p : α → Bool) : Lts σ α ε where
  init := M.init
  step s a := if p a then M.step s a else none

variable {p : α → Bool}

theorem only_step {s s' : σ} {a : α} {t : List ε} :
    (M.only p).step s a = some (s', t) ↔ M.step s a = some (s', t) ∧ p a = true := by
  unfold only
  dsimp only
  by_cases ha : p a = true
  · rw [if_pos ha]
    exact ⟨fun h => ⟨h, ha⟩, fun h => h.1⟩
  · rw [if_neg ha]
    exact ⟨fun h => absurd h (by simp), fun h => absurd h.2 ha⟩

/-- Its runs are the runs that take none of the others. -/
theorem only_exec {as : List α} : ∀ {s s' : σ} {t : List ε},
    (M.only p).exec s as = some (s', t) ↔ M.exec s as = some (s', t) ∧ ∀ a ∈ as, p a = true := by
  induction as with
  | nil => exact ⟨fun h => ⟨h, fun a ha => absurd ha List.not_mem_nil⟩, fun h => h.1⟩
  | cons a as ih =>
      intro s s' t
      constructor
      · intro h
        obtain ⟨s₁, t₁, t₂, hs, hr, rfl⟩ := exec_cons.mp h
        obtain ⟨hs, ha⟩ := only_step.mp hs
        obtain ⟨hr, has⟩ := ih.mp hr
        exact ⟨exec_cons.mpr ⟨s₁, t₁, t₂, hs, hr, rfl⟩, List.forall_mem_cons.mpr ⟨ha, has⟩⟩
      · rintro ⟨h, has⟩
        obtain ⟨s₁, t₁, t₂, hs, hr, rfl⟩ := exec_cons.mp h
        obtain ⟨ha, has⟩ := List.forall_mem_cons.mp has
        exact exec_cons.mpr ⟨s₁, t₁, t₂, only_step.mpr ⟨hs, ha⟩, ih.mpr ⟨hr, has⟩, rfl⟩

theorem only_reachable {s : σ} (h : (M.only p).Reachable s) : M.Reachable s := by
  obtain ⟨as, t, hr⟩ := h
  exact ⟨as, t, (only_exec.mp hr).1⟩

end Lts
