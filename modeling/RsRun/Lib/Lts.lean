import Mathlib.Algebra.Ring.Nat
import Mathlib.Data.List.Induction

/-!
# Labelled runs with an event log

A system is an initial state and a partial step function: `step s a` is `none`
when the action `a` is not enabled at `s`, and otherwise the next state together
with the events an observer sees. Running a list of actions concatenates the
events, so "before", "after" and "how often" are statements about one list.

The step function is executable, which is what lets a concrete interleaving be
evaluated. The rules below are the only inductions over runs a development needs:
what one step keeps, every run keeps.
-/

/-- A labelled transition system over states `σ`, actions `α` and events `ε`. -/
structure Lts (σ α ε : Type*) where
  /-- Where every run starts. -/
  init : σ
  /-- What one action does, if it is enabled. -/
  step : σ → α → Option (σ × List ε)

namespace Lts

variable {σ α ε : Type*}

/-- Run a list of actions from `s`, collecting the events in order. -/
def exec (M : Lts σ α ε) : σ → List α → Option (σ × List ε)
  | s, [] => some (s, [])
  | s, a :: as =>
      match M.step s a with
      | none => none
      | some (s₁, t₁) =>
          match exec M s₁ as with
          | none => none
          | some (s₂, t₂) => some (s₂, t₁ ++ t₂)

/-- `s` is reached by some run from the initial state. -/
def Reachable (M : Lts σ α ε) (s : σ) : Prop := ∃ as t, M.exec M.init as = some (s, t)

variable {M : Lts σ α ε}

/-- A run of `a :: as` is a step and then a run of `as`. -/
theorem exec_cons {s s' : σ} {a : α} {as : List α} {t : List ε} :
    M.exec s (a :: as) = some (s', t) ↔
      ∃ s₁ t₁ t₂, M.step s a = some (s₁, t₁) ∧ M.exec s₁ as = some (s', t₂) ∧ t = t₁ ++ t₂ := by
  rw [exec]
  constructor
  · intro h
    split at h
    · exact absurd h (by simp)
    · rename_i s₁ t₁ hs
      split at h
      · exact absurd h (by simp)
      · rename_i s₂ t₂ hr
        injection h with h; injection h with h1 h2
        subst h1; subst h2
        exact ⟨s₁, t₁, t₂, hs, hr, rfl⟩
  · rintro ⟨s₁, t₁, t₂, hs, hr, rfl⟩
    rw [hs]; dsimp only; rw [hr]

/-- Runs compose, and their logs concatenate. -/
theorem exec_append {s s' : σ} {as bs : List α} {t : List ε} :
    M.exec s (as ++ bs) = some (s', t) ↔
      ∃ s₁ t₁ t₂, M.exec s as = some (s₁, t₁) ∧ M.exec s₁ bs = some (s', t₂) ∧ t = t₁ ++ t₂ := by
  induction as generalizing s t with
  | nil =>
      constructor
      · intro h; exact ⟨s, [], t, rfl, h, rfl⟩
      · rintro ⟨s₁, t₁, t₂, h1, h2, rfl⟩
        injection h1 with h1; injection h1 with h1 h3
        subst h1; subst h3
        exact h2
  | cons a as ih =>
      constructor
      · intro h
        obtain ⟨s₁, t₁, t₂, hs, hr, rfl⟩ := exec_cons.mp h
        obtain ⟨s₂, u₁, u₂, h1, h2, rfl⟩ := ih.mp hr
        exact ⟨s₂, t₁ ++ u₁, u₂, exec_cons.mpr ⟨s₁, t₁, u₁, hs, h1, rfl⟩, h2,
          (List.append_assoc ..).symm⟩
      · rintro ⟨s₁, t₁, t₂, h1, h2, rfl⟩
        obtain ⟨s₂, u₁, u₂, hs, hr, rfl⟩ := exec_cons.mp h1
        exact exec_cons.mpr ⟨s₂, u₁, u₂ ++ t₂, hs, ih.mpr ⟨s₁, u₂, t₂, hr, h2, rfl⟩,
          List.append_assoc ..⟩

/-- A single enabled action is a run. -/
theorem exec_one {s s' : σ} {a : α} {t : List ε} (h : M.step s a = some (s', t)) :
    M.exec s [a] = some (s', t) :=
  exec_cons.mpr ⟨s', t, [], h, rfl, (List.append_nil t).symm⟩

theorem reachable_init : M.Reachable M.init := ⟨[], [], rfl⟩

theorem Reachable.exec {s s' : σ} {as : List α} {t : List ε} (h : M.Reachable s)
    (hr : M.exec s as = some (s', t)) : M.Reachable s' := by
  obtain ⟨bs, u, hb⟩ := h
  exact ⟨bs ++ as, u ++ t, exec_append.mpr ⟨s, u, t, hb, hr, rfl⟩⟩

theorem Reachable.step {s s' : σ} {a : α} {t : List ε} (h : M.Reachable s)
    (hs : M.step s a = some (s', t)) : M.Reachable s' :=
  h.exec (exec_one hs)

/--
**The log rule.**

A relation between the state and everything logged so far that one step keeps is
kept by every run.
-/
theorem exec_log {P : σ → List ε → Prop}
    (hstep : ∀ s a s' u t, P s u → M.step s a = some (s', t) → P s' (u ++ t))
    {as : List α} : ∀ {s s' : σ} {u t : List ε},
      P s u → M.exec s as = some (s', t) → P s' (u ++ t) := by
  induction as with
  | nil =>
      intro s s' u t hp h
      injection h with h; injection h with h1 h2
      subst h1; subst h2
      rw [List.append_nil]; exact hp
  | cons a as ih =>
      intro s s' u t hp h
      obtain ⟨s₁, t₁, t₂, hs, hr, rfl⟩ := exec_cons.mp h
      rw [← List.append_assoc]
      exact ih (hstep _ _ _ _ _ hp hs) hr

/-- **The invariant rule**, from any state. -/
theorem exec_inv {P : σ → Prop}
    (hstep : ∀ s a s' t, P s → M.step s a = some (s', t) → P s')
    {s s' : σ} {as : List α} {t : List ε} (hp : P s) (h : M.exec s as = some (s', t)) : P s' :=
  exec_log (P := fun s _ => P s) (fun s a s' _ t hp hs => hstep s a s' t hp hs)
    (u := []) hp h

/--
**The event rule.**

If every step from a state satisfying `I` keeps `I` and shows only events satisfying `Q`,
so does every run.
-/
theorem exec_events {I : σ → Prop} {Q : ε → Prop}
    (hstep : ∀ s a s' t, I s → M.step s a = some (s', t) → I s' ∧ ∀ e ∈ t, Q e)
    {s s' : σ} {as : List α} {t : List ε} (hp : I s) (h : M.exec s as = some (s', t)) :
    I s' ∧ ∀ e ∈ t, Q e := by
  refine exec_log (P := fun s u => I s ∧ ∀ e ∈ u, Q e) ?_ (u := []) ⟨hp, by simp⟩ h
  intro s a s' u t hp hs
  obtain ⟨hs', ht⟩ := hstep s a s' t hp.1 hs
  refine ⟨hs', ?_⟩
  intro e he
  rcases List.mem_append.mp he with he | he
  · exact hp.2 e he
  · exact ht e he

/--
**The invariant rule**, from the initial state.

The step may use that the state it starts in is reachable, and with it every invariant
proved before.
-/
theorem Reachable.inv {P : σ → Prop} (h0 : P M.init)
    (hstep : ∀ s a s' t, M.Reachable s → P s → M.step s a = some (s', t) → P s')
    {s : σ} (h : M.Reachable s) : P s := by
  obtain ⟨as, t, hr⟩ := h
  have hboth : M.Reachable s ∧ P s := by
    refine exec_inv (P := fun s => M.Reachable s ∧ P s) ?_ ⟨reachable_init, h0⟩ hr
    intro s a s' t hp hs
    exact ⟨hp.1.step hs, hstep s a s' t hp.1 hp.2 hs⟩
  exact hboth.2

/-- **The log rule**, from the initial state and the empty log. -/
theorem log_of_init {P : σ → List ε → Prop} (h0 : P M.init [])
    (hstep : ∀ s a s' u t, M.Reachable s → P s u → M.step s a = some (s', t) → P s' (u ++ t))
    {as : List α} {s : σ} {t : List ε} (h : M.exec M.init as = some (s, t)) : P s t := by
  have hboth : M.Reachable s ∧ P s ([] ++ t) := by
    refine exec_log (P := fun s u => M.Reachable s ∧ P s u) ?_ ⟨reachable_init, h0⟩ h
    intro s a s' u t hp hs
    exact ⟨hp.1.step hs, hstep s a s' u t hp.1 hp.2 hs⟩
  rw [List.nil_append] at hboth
  exact hboth.2

/--
**The log rule for runs whose steps all meet a condition.**

The condition is on the state in which the step is taken, and on the log so far.
-/
theorem log_of_guarded {P : σ → List ε → Prop} {G : σ → List ε → α → Prop}
    (h0 : P M.init [])
    (hstep : ∀ s a s' u t as, M.exec M.init as = some (s, u) → P s u → G s u a →
      M.step s a = some (s', t) → P s' (u ++ t))
    {as : List α} (hguard : ∀ bs a s u, bs ++ [a] <+: as →
      M.exec M.init bs = some (s, u) → G s u a)
    {s : σ} {t : List ε} (h : M.exec M.init as = some (s, t)) : P s t := by
  induction as using List.reverseRecOn generalizing s t with
  | nil =>
      injection h with h; injection h with h1 h2
      subst h1; subst h2
      exact h0
  | append_singleton as a ih =>
      obtain ⟨s₁, t₁, t₂, hr, hone, rfl⟩ := exec_append.mp h
      obtain ⟨s₂, u₁, u₂, hs, hnil, rfl⟩ := exec_cons.mp hone
      injection hnil with hnil; injection hnil with h1 h2
      subst h1; subst h2
      rw [List.append_nil]
      have hp := ih (fun bs b s u hb => hguard bs b s u (hb.trans (List.prefix_append as [a]))) hr
      exact hstep _ _ _ _ _ as hr hp (hguard as a _ _ List.prefix_rfl hr) hs

/-- A reflexive and transitive relation that contains every step contains every run. -/
theorem Reachable.rel {R : σ → σ → Prop} (hrefl : ∀ s, R s s)
    (htrans : ∀ a b c, R a b → R b c → R a c)
    (hstep : ∀ s a s' t, M.Reachable s → M.step s a = some (s', t) → R s s')
    {as : List α} : ∀ {s s' : σ} {t : List ε},
      M.Reachable s → M.exec s as = some (s', t) → R s s' := by
  induction as with
  | nil =>
      intro s s' t _ h
      injection h with h; injection h with h1 _
      exact h1 ▸ hrefl s
  | cons a as ih =>
      intro s s' t hp h
      obtain ⟨s₁, t₁, t₂, hs, hr, _⟩ := exec_cons.mp h
      exact htrans _ _ _ (hstep _ _ _ _ hp hs) (ih (hp.step hs) hr)

/--
**The cost rule.**

A measure that pays for the cost of every step pays for the cost of every run.
-/
theorem exec_cost {P : σ → Prop} {cost : α → Nat} {μ : σ → Nat}
    (hkeep : ∀ s a s' t, P s → M.step s a = some (s', t) → P s')
    (hstep : ∀ s a s' t, P s → M.step s a = some (s', t) → cost a + μ s' ≤ μ s)
    {as : List α} : ∀ {s s' : σ} {t : List ε}, P s → M.exec s as = some (s', t) →
      (as.map cost).sum + μ s' ≤ μ s := by
  induction as with
  | nil =>
      intro s s' t _ h
      injection h with h; injection h with h1 _
      subst h1
      show 0 + μ s ≤ μ s
      omega
  | cons a as ih =>
      intro s s' t hp h
      obtain ⟨s₁, t₁, t₂, hs, hr, _⟩ := exec_cons.mp h
      have hhead := hstep _ _ _ _ hp hs
      have htail := ih (hkeep _ _ _ _ hp hs) hr
      rw [List.map_cons, List.sum_cons]
      omega

/-! ## Runs on record -/

/-- One step of a run: where it was taken, what was done, and what was seen. -/
structure Recorded (σ α ε : Type*) where
  before : σ
  action : α
  events : List ε

/-- The same system, with every step on record. -/
def recorded (M : Lts σ α ε) : Lts σ α (Recorded σ α ε) where
  init := M.init
  step s a :=
    match M.step s a with
    | none => none
    | some (s', t) => some (s', [⟨s, a, t⟩])

theorem recorded_step {s s' : σ} {a : α} {rs : List (Recorded σ α ε)} :
    M.recorded.step s a = some (s', rs)
      ↔ ∃ t, M.step s a = some (s', t) ∧ rs = [⟨s, a, t⟩] := by
  unfold recorded
  dsimp only
  cases M.step s a with
  | none => exact ⟨fun h => absurd h (by simp), fun ⟨t, h, _⟩ => absurd h (by simp)⟩
  | some r =>
      obtain ⟨s₁, t₁⟩ := r
      constructor
      · intro h
        injection h with h; injection h with h1 h2
        subst h1; subst h2
        exact ⟨t₁, rfl, rfl⟩
      · rintro ⟨t, h, rfl⟩
        injection h with h; injection h with h1 h2
        subst h1; subst h2
        rfl

/-- A run on record is a run. -/
theorem recorded_exec {as : List α} : ∀ {s s' : σ} {rs : List (Recorded σ α ε)},
    M.recorded.exec s as = some (s', rs) →
      M.exec s as = some (s', rs.flatMap (fun r => r.events)) := by
  induction as with
  | nil =>
      intro s s' rs h
      injection h with h; injection h with h1 h2
      subst h1; subst h2
      rfl
  | cons a as ih =>
      intro s s' rs h
      obtain ⟨s₁, r₁, r₂, hs, hr, rfl⟩ := exec_cons.mp h
      obtain ⟨t, hst, rfl⟩ := recorded_step.mp hs
      exact exec_cons.mpr ⟨s₁, t, _, hst, ih hr, rfl⟩

/--
**The log rule for runs on record.**

The step may use that it starts in a state the system itself reaches.
-/
theorem recorded_log {P : σ → List (Recorded σ α ε) → Prop} (h0 : P M.init [])
    (hstep : ∀ s a s' t rs, M.Reachable s → P s rs → M.step s a = some (s', t) →
      P s' (rs ++ [⟨s, a, t⟩]))
    {as : List α} {s : σ} {rs : List (Recorded σ α ε)}
    (h : M.recorded.exec M.init as = some (s, rs)) : P s rs := by
  refine log_of_init (M := M.recorded) h0 ?_ h
  rintro s a s' rs rs' ⟨as, us, hr⟩ hp hs
  obtain ⟨t, hst, rfl⟩ := recorded_step.mp hs
  exact hstep s a s' t rs ⟨as, _, recorded_exec hr⟩ hp hst

end Lts
