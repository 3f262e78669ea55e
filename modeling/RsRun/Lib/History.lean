import RsRun.Lib.HeldPool
import RsRun.Lib.Polls

/-!
# The history of one task

What happens to one task of a pool of throttling wrappers while the others go on: it is
polled, its future calls its waker, its timer elapses, it is aborted, or only time goes by.
A property of a task and of what was seen of it so far that each of these keeps holds of
every task of every run.
-/

namespace Async

variable {ψ σ ι φ ω ν χ : Type*}

/-- Which task an event is one of. -/
def PoolEvent.task : PoolEvent ψ σ ι ω ν χ → Option Nat
  | .spawned _ => none
  | .polled k _ => some k
  | .woke k => some k
  | .aborted k => some k

/-- What was seen of task `k` once it was spawned. -/
def history (k : Nat) (es : List (PoolEvent ψ σ ι ω ν χ)) : List (PoolEvent ψ σ ι ω ν χ) :=
  es.filter (fun e => e.task == some k)

/-- The polls in a history. -/
def turns (es : List (PoolEvent ψ σ ι ω ν χ)) : List (Turn σ ι ω ν χ) :=
  es.filterMap (fun e => match e with
    | .polled _ turn => some turn
    | _ => none)

/-- How often a future called its waker. -/
def wakeCount (es : List (PoolEvent ψ σ ι ω ν χ)) : Nat :=
  es.countP (fun e => match e with
    | .woke _ => true
    | _ => false)

/-- What the polls in a history did, in order. -/
def deeds (es : List (PoolEvent ψ σ ι ω ν χ)) : List (Act ω ν χ) := runActs (turns es)

@[simp] theorem history_append (k : Nat) (es us : List (PoolEvent ψ σ ι ω ν χ)) :
    history k (es ++ us) = history k es ++ history k us := List.filter_append _ _

theorem history_of {k : Nat} {e : PoolEvent ψ σ ι ω ν χ} (h : e.task = some k) :
    history k [e] = [e] := by
  unfold history
  rw [List.filter_cons, if_pos (beq_iff_eq.mpr h)]
  rfl

theorem history_of_not {j k : Nat} {e : PoolEvent ψ σ ι ω ν χ} (h : e.task = some j)
    (hj : j ≠ k) : history k [e] = [] := by
  have hne : ¬(e.task == some k) = true := by
    rw [h, beq_iff_eq]
    exact fun heq => hj (Option.some.inj heq)
  unfold history
  rw [List.filter_cons, if_neg hne]
  rfl

/-! ### One more event -/

section
variable (es : List (PoolEvent ψ σ ι ω ν χ)) (k : Nat) (turn : Turn σ ι ω ν χ)

@[simp] theorem turns_polled : turns (es ++ [.polled k turn]) = turns es ++ [turn] :=
  List.filterMap_append

@[simp] theorem turns_woke : turns (es ++ [.woke k]) = turns es := by
  unfold turns
  rw [List.filterMap_append]
  exact List.append_nil _

@[simp] theorem turns_aborted : turns (es ++ [.aborted k]) = turns es := by
  unfold turns
  rw [List.filterMap_append]
  exact List.append_nil _

@[simp] theorem wakeCount_polled : wakeCount (es ++ [.polled k turn]) = wakeCount es :=
  List.countP_append

@[simp] theorem wakeCount_woke : wakeCount (es ++ [.woke k]) = wakeCount es + 1 :=
  List.countP_append

@[simp] theorem wakeCount_aborted : wakeCount (es ++ [.aborted k]) = wakeCount es :=
  List.countP_append

@[simp] theorem deeds_nil : deeds ([] : List (PoolEvent ψ σ ι ω ν χ)) = [] := rfl

@[simp] theorem deeds_polled : deeds (es ++ [.polled k turn]) = deeds es ++ turn.out.acts := by
  unfold deeds
  rw [turns_polled]
  exact runActs_snoc _ _

@[simp] theorem deeds_woke : deeds (es ++ [.woke k]) = deeds es := by
  unfold deeds
  rw [turns_woke]

@[simp] theorem deeds_aborted : deeds (es ++ [.aborted k]) = deeds es := by
  unfold deeds
  rw [turns_aborted]

end

/-- What one step of the pool means for task `k`, from one time to another. -/
inductive TaskStep (cx : ι → Cx ω) (poll : σ → ι → Polled σ ω ν χ)
    (pollF : φ → Cx ω → φ × Poll ν) (inner : σ → φ) (stored : σ → Option Sleep) (chk : Bool)
    (k : Nat) (t : Task σ ν) :
    Nat → Nat → Task σ ν → List (PoolEvent ψ σ ι ω ν χ) → Prop where
  /-- Something happened elsewhere. -/
  | elsewhere {now now' : Nat} (hle : now ≤ now') :
      TaskStep cx poll pollF inner stored chk k t now now' t []
  | polled {now : Nat} {i : ι} {lag : Nat} {t' : Task σ ν} (hlive : t.fate = .live)
      (hq : t.queued = true) (hw : (cx i).waker = k)
      (h : Handled pollF inner stored chk (cx i) now lag t (poll t.wrapper i) t')
      (hfate : t'.fate = (poll t.wrapper i).res.fate) :
      TaskStep cx poll pollF inner stored chk k t now (now + lag) t'
        [.polled k ⟨t.wrapper, i, poll t.wrapper i⟩]
  | woke {now : Nat} (hlive : t.fate = .live) (hk : t.kept = some k) :
      TaskStep cx poll pollF inner stored chk k t now now t.wake [.woke k]
  | fired {now : Nat} {tm : Timer} (hlive : t.fate = .live) (htm : t.timer = some tm)
      (hf : tm.fired = false) (hd : tm.deadline ≤ now) :
      TaskStep cx poll pollF inner stored chk k t now now
        { t with timer := some { tm with fired := true }, queued := true } []
  | aborted {now : Nat} (hlive : t.fate = .live) :
      TaskStep cx poll pollF inner stored chk k t now now { t with fate := .aborted } [.aborted k]

/--
The turns of a task are a run of the wrapper `w` on its own. A poll that panics is no step
of such a run, and the last there is.
-/
inductive Ran (poll : σ → ι → Polled σ ω ν χ) (w : σ) (t : Task σ ν)
    (ts : List (Turn σ ι ω ν χ)) : Prop where
  /-- All of them returned. -/
  | returned (is : List ι) (q : Polling σ)
      (hrun : (polls poll w).exec (polls poll w).init is = some (q, ts))
      (hw : t.wrapper = q.wrapper) (hlive : t.fate = .live → q.done = false)
      (hno : t.fate ≠ .panicked)
  /-- The last one panicked. -/
  | panicked (is : List ι) (v : σ) (i : ι) (us : List (Turn σ ι ω ν χ)) (why : Panic)
      (hrun : (polls poll w).exec (polls poll w).init is
        = some ({ wrapper := v, done := false }, us))
      (ht : ts = us ++ [⟨v, i, poll v i⟩]) (hr : (poll v i).res = .panicked why)
      (hw : t.wrapper = (poll v i).next) (hdead : t.fate = .panicked)

section
variable {make : ψ → σ} {cx : ι → Cx ω} {poll : σ → ι → Polled σ ω ν χ}
  {pollF : φ → Cx ω → φ × Poll ν} {inner : σ → φ} {stored : σ → Option Sleep} {chk : Bool}
  {p p' : Pool σ ν} {a : PoolAction ψ ι} {es : List (PoolEvent ψ σ ι ω ν χ)} {k : Nat}

/-- A task that is put back is the one asked about, or leaves it as it was. -/
theorem Pool.put_cases (now : Nat) (u' : Task σ ν) {j : Nat} {t u : Task σ ν}
    (hu : p.tasks[j]? = some u) (ht : p.tasks[k]? = some t) :
    (j = k ∧ t = u ∧ ({ p with now := now }.put j u').tasks[k]? = some u')
      ∨ (j ≠ k ∧ ({ p with now := now }.put j u').tasks[k]? = some t) := by
  by_cases hj : j = k
  · subst hj
    refine .inl ⟨rfl, Option.some.inj (ht.symm.trans hu), ?_⟩
    exact Pool.put_self (p := { p with now := now }) (List.getElem?_eq_some_iff.mp hu).1 u'
  · exact .inr ⟨hj, (List.getElem?_set_ne hj).trans ht⟩

/-- **What a step of the pool means for one of its tasks.** -/
theorem HeldStep.task (h : HeldStep make cx poll pollF inner stored chk p a p' es) {t : Task σ ν}
    (ht : p.tasks[k]? = some t) :
    ∃ t', p'.tasks[k]? = some t'
      ∧ TaskStep cx poll pollF inner stored chk k t p.now p'.now t' (history k es) := by
  cases h with
  | spawned x =>
      refine ⟨t, ?_, .elsewhere (Nat.le_refl _)⟩
      exact Lists.getElem?_append_some ht _
  | @polled j i lag u u' hu hlive hq hw h hfate =>
      rcases Pool.put_cases (p.now + lag) u' hu ht with ⟨hj, htu, hput⟩ | ⟨hj, hput⟩
      · subst hj
        subst htu
        rw [history_of rfl]
        exact ⟨u', hput, .polled hlive hq hw h hfate⟩
      · rw [history_of_not rfl hj]
        exact ⟨t, hput, .elsewhere (Nat.le_add_right _ _)⟩
  | @woke j u hu hlive hk =>
      rcases Pool.put_cases p.now u.wake hu ht with ⟨hj, htu, hput⟩ | ⟨hj, hput⟩
      · subst hj
        subst htu
        rw [history_of rfl]
        exact ⟨t.wake, hput, .woke hlive hk⟩
      · rw [history_of_not rfl hj]
        exact ⟨t, hput, .elsewhere (Nat.le_refl _)⟩
  | @fired j u tm hu hlive htm hf hd =>
      rcases Pool.put_cases p.now
        { u with timer := some { tm with fired := true }, queued := true } hu ht with
        ⟨hj, htu, hput⟩ | ⟨hj, hput⟩
      · subst htu
        exact ⟨_, hj ▸ hput, .fired hlive htm hf hd⟩
      · exact ⟨t, hput, .elsewhere (Nat.le_refl _)⟩
  | ticked n => exact ⟨t, ht, .elsewhere (Nat.le_add_right _ _)⟩
  | @aborted j u hu hlive =>
      rcases Pool.put_cases p.now { u with fate := .aborted } hu ht with
        ⟨hj, htu, hput⟩ | ⟨hj, hput⟩
      · subst hj
        subst htu
        rw [history_of rfl]
        exact ⟨_, hput, .aborted hlive⟩
      · rw [history_of_not rfl hj]
        exact ⟨t, hput, .elsewhere (Nat.le_refl _)⟩

/-- Time does not go back. -/
theorem HeldStep.now_le (h : HeldStep make cx poll pollF inner stored chk p a p' es) :
    p.now ≤ p'.now := by
  cases h with
  | spawned x => exact Nat.le_refl _
  | polled => exact Nat.le_add_right _ _
  | woke => exact Nat.le_refl _
  | fired => exact Nat.le_refl _
  | ticked n => exact Nat.le_add_right _ _
  | aborted => exact Nat.le_refl _

/-- A task that is there after a step was there before, or has just been spawned. -/
theorem HeldStep.spawned_or (h : HeldStep make cx poll pollF inner stored chk p a p' es)
    {t' : Task σ ν} (ht' : p'.tasks[k]? = some t') (hno : p.tasks[k]? = none) :
    (∃ x, t' = Task.new (make x)) ∧ p'.now = p.now ∧ history k es = [] := by
  have hput : ∀ (j now : Nat) (u : Task σ ν),
      ({ p with now := now }.put j u).tasks[k]? ≠ some t' := by
    intro j now u hu
    have hlt := (List.getElem?_eq_some_iff.mp hu).1
    unfold Pool.put at hlt
    rw [List.length_set] at hlt
    exact Nat.not_lt.mpr (List.getElem?_eq_none_iff.mp hno) hlt
  cases h with
  | spawned x =>
      rcases Lists.getElem?_snoc_cases ht' with h | ⟨_, h⟩
      · rw [hno] at h
        exact absurd h (by simp)
      · exact ⟨⟨x, h⟩, rfl, rfl⟩
  | @polled j i lag u u' hu hlive hq hw h => exact absurd ht' (hput j (p.now + lag) u')
  | @woke j u hu hlive hk => exact absurd ht' (hput j p.now u.wake)
  | @fired j u tm hu hlive htm hf hd => exact absurd ht' (hput j p.now _)
  | ticked n =>
      have ht' : p.tasks[k]? = some t' := ht'
      rw [hno] at ht'
      exact absurd ht' (by simp)
  | @aborted j u hu hlive => exact absurd ht' (hput j p.now _)

/-- A step in which task `k` is not there yet shows nothing of it. -/
theorem HeldStep.unborn (h : HeldStep make cx poll pollF inner stored chk p a p' es)
    (hno : p.tasks[k]? = none) : history k es = [] := by
  have hne : ∀ {j : Nat} {u : Task σ ν}, p.tasks[j]? = some u → j ≠ k := by
    intro j u hu hj
    rw [hj, hno] at hu
    exact absurd hu (by simp)
  cases h with
  | spawned x => rfl
  | polled hu => exact history_of_not rfl (hne hu)
  | woke hu => exact history_of_not rfl (hne hu)
  | fired hu => rfl
  | ticked n => rfl
  | aborted hu => exact history_of_not rfl (hne hu)

/--
**The history rule.**

What every new task satisfies, and what is kept by everything that happens to a task, holds
of every task of a run, together with what was seen of it.
-/
theorem held_history {P : Nat → Task σ ν → List (PoolEvent ψ σ ι ω ν χ) → Prop}
    (hheld : ∀ s i, Held pollF inner stored chk (cx i) s (poll s i))
    (hmake : ∀ x, stored (make x) = none)
    (hnew : ∀ now x, p.now ≤ now → P now (Task.new (make x)) [])
    (hstep : ∀ now now' t t' u es, TaskOk stored now k t → P now t u →
      TaskStep cx poll pollF inner stored chk k t now now' t' es → P now' t' (u ++ es))
    {as : List (PoolAction ψ ι)} (hreach : (pool make cx poll).Reachable p)
    (hstart : ∀ t, p.tasks[k]? = some t → P p.now t [])
    (hrun : (pool make cx poll).exec p as = some (p', es)) {t' : Task σ ν}
    (ht' : p'.tasks[k]? = some t') : P p'.now t' (history k es) := by
  have hboth := Lts.exec_log (P := fun q u => PoolOk stored q ∧ p.now ≤ q.now
      ∧ (∀ t, q.tasks[k]? = some t → P q.now t (history k u))
      ∧ (q.tasks[k]? = none → history k u = [])) ?_ (u := [])
    ⟨held_reachable hheld hmake hreach, Nat.le_refl _, hstart, fun _ => rfl⟩ hrun
  · exact hboth.2.2.1 t' ht'
  · intro q a q' u us hq hs
    obtain ⟨hok, hnow, hP, hno⟩ := hq
    have hstep' := held_step hheld hok hs
    have hnow' := hstep'.now_le
    refine ⟨hstep'.ok hmake hok, hnow.trans hnow', ?_, ?_⟩
    · intro t' ht'
      rw [history_append]
      cases hq : q.tasks[k]? with
      | none =>
          obtain ⟨⟨x, hx⟩, hsame, hhist⟩ := hstep'.spawned_or ht' hq
          rw [hno hq, hhist, hx, hsame]
          exact hnew q.now x hnow
      | some t =>
          obtain ⟨t₁, ht₁, htask⟩ := hstep'.task hq
          rw [Option.some.inj (ht'.symm.trans ht₁)]
          exact hstep _ _ _ _ _ _ (hok k t hq) (hP t hq) htask
    · intro hq'
      cases hq : q.tasks[k]? with
      | none => rw [history_append, hno hq, hstep'.unborn hq]; rfl
      | some t =>
          obtain ⟨t₁, ht₁, _⟩ := hstep'.task hq
          rw [hq'] at ht₁
          exact absurd ht₁ (by simp)

/-- The wrapper of a task that was polled. -/
theorem Handled.wrapper {c : Cx ω} {now lag : Nat} {t t' : Task σ ν} {o : Polled σ ω ν χ}
    (h : Handled pollF inner stored chk c now lag t o t') : t'.wrapper = o.next := by
  cases h with
  | still => rfl
  | inserted => rfl
  | woken => rfl
  | polled => rfl
  | overflowed => rfl

/-- Only a task whose poll was pending is still live. -/
theorem live_of_pending {o : Outcome ν} : o.fate = .live ↔ o = .pending := by
  cases o with
  | ready v => simp [Outcome.fate]
  | pending => simp [Outcome.fate]
  | panicked why => simp [Outcome.fate]

/-- A wrapper that is not done takes a step with every poll that returns. -/
theorem polls_returned {w : σ} {q : Polling σ} {i : ι} (hdone : q.done = false)
    (hret : ∀ why, (poll q.wrapper i).res ≠ .panicked why) :
    ∃ q', (polls poll w).step q i = some (q', [⟨q.wrapper, i, poll q.wrapper i⟩])
      ∧ q'.wrapper = (poll q.wrapper i).next
      ∧ ((poll q.wrapper i).res = .pending → q'.done = false) := by
  unfold polls
  dsimp only
  rw [hdone]
  cases hr : (poll q.wrapper i).res with
  | ready v => exact ⟨_, rfl, rfl, fun h => absurd h (by simp)⟩
  | pending => exact ⟨_, rfl, rfl, fun _ => rfl⟩
  | panicked why => exact absurd hr (hret why)

/-- A new task has not been polled. -/
theorem Ran.new (w : σ) : Ran poll w (Task.new w : Task σ ν) [] :=
  .returned [] ⟨w, false⟩ rfl rfl (fun _ => rfl) (by simp [Task.new])

/-- A run of a wrapper on its own goes on with the polls of its task. -/
theorem TaskStep.ran {now now' : Nat} {w : σ} {t t' : Task σ ν}
    {u es : List (PoolEvent ψ σ ι ω ν χ)}
    (h : TaskStep cx poll pollF inner stored chk k t now now' t' es)
    (hran : Ran poll w t (turns u)) : Ran poll w t' (turns (u ++ es)) := by
  -- nothing but the fate of a live task changes
  have hkeep : t.fate = .live → ∀ t' : Task σ ν, t'.wrapper = t.wrapper → t'.fate ≠ .panicked →
      Ran poll w t' (turns u) := by
    intro hlive t' hw' hno'
    cases hran with
    | returned is q hrun hw hdone hno =>
        exact .returned is q hrun (hw'.trans hw) (fun _ => hdone hlive) hno'
    | panicked is v i us why hrun ht hr hw hdead =>
        rw [hlive] at hdead
        exact absurd hdead (by simp)
  cases h with
  | elsewhere hle =>
      rw [List.append_nil]
      exact hran
  | @polled i lag t' hlive hq hwk h hfate =>
      cases hran with
      | panicked is v j us why hrun ht hr hw hdead =>
          rw [hlive] at hdead
          exact absurd hdead (by simp)
      | returned is q hrun hw hdone hno =>
          rw [turns_polled, hw]
          rw [hw] at hfate
          have hnext := h.wrapper
          rw [hw] at hnext
          by_cases hret : ∀ why, (poll q.wrapper i).res ≠ .panicked why
          · obtain ⟨q', hs, hw', hpend⟩ := polls_returned (w := w) (hdone hlive) hret
            refine .returned (is ++ [i]) q' ?_ (hnext.trans hw'.symm) ?_ ?_
            · exact Lts.exec_append.mpr ⟨_, _, _, hrun, Lts.exec_one hs, rfl⟩
            · intro hlive'
              rw [hfate] at hlive'
              exact hpend (live_of_pending.mp hlive')
            · rw [hfate]
              intro hpanic
              cases hr : (poll q.wrapper i).res with
              | ready v => rw [hr] at hpanic; exact absurd hpanic (by simp [Outcome.fate])
              | pending => rw [hr] at hpanic; exact absurd hpanic (by simp [Outcome.fate])
              | panicked why => exact hret why hr
          · push Not at hret
            obtain ⟨why, hr⟩ := hret
            obtain ⟨v, done⟩ := q
            have hd : done = false := hdone hlive
            subst hd
            refine .panicked is v i _ why hrun rfl hr hnext ?_
            rw [hfate, hr]
            rfl
  | woke hlive hk =>
      rw [turns_woke]
      exact hkeep hlive _ rfl (by rw [Task.wake, hlive]; simp)
  | fired hlive htm hf hd =>
      rw [List.append_nil]
      exact hkeep hlive _ rfl (by rw [hlive]; simp)
  | aborted hlive =>
      rw [turns_aborted]
      exact hkeep hlive _ rfl (by simp)

/-- The wrapper that a task is polled as from some moment on. -/
def StartsAs (make : ψ → σ) (p : Pool σ ν) (k : Nat) (w : σ) : Prop :=
  (∃ t, p.tasks[k]? = some t ∧ t.fate = .live ∧ t.wrapper = w) ∨ ∃ x, make x = w

/--
**What the pool does with a task is a run of its wrapper on its own**, from any moment on,
unless the task had ended before.
-/
theorem held_ran (hheld : ∀ s i, Held pollF inner stored chk (cx i) s (poll s i))
    (hmake : ∀ x, stored (make x) = none) {as : List (PoolAction ψ ι)}
    (hreach : (pool make cx poll).Reachable p)
    (hrun : (pool make cx poll).exec p as = some (p', es)) {t' : Task σ ν}
    (ht' : p'.tasks[k]? = some t') :
    (t'.fate ≠ .live ∧ turns (history k es) = [])
      ∨ ∃ w, StartsAs make p k w ∧ Ran poll w t' (turns (history k es)) := by
  refine held_history (P := fun _ t u => (t.fate ≠ .live ∧ turns u = [])
    ∨ ∃ w, StartsAs make p k w ∧ Ran poll w t (turns u)) hheld hmake ?_ ?_ hreach ?_ hrun ht'
  · intro now x _
    exact .inr ⟨make x, .inr ⟨x, rfl⟩, .new (make x)⟩
  · intro now now' t t' u us _ hP hs
    rcases hP with ⟨hdead, hnil⟩ | ⟨w, hw, hran⟩
    · -- nothing happens to a task that has ended
      cases hs with
      | elsewhere hle => exact .inl ⟨hdead, by rw [List.append_nil]; exact hnil⟩
      | polled hlive => exact absurd hlive hdead
      | woke hlive => exact absurd hlive hdead
      | fired hlive => exact absurd hlive hdead
      | aborted hlive => exact absurd hlive hdead
    · exact .inr ⟨w, hw, hs.ran hran⟩
  · intro t ht
    by_cases hlive : t.fate = .live
    · refine .inr ⟨t.wrapper, .inl ⟨t, ht, hlive, rfl⟩,
        .returned [] ⟨t.wrapper, false⟩ rfl rfl (fun _ => rfl) ?_⟩
      rw [hlive]
      simp
    · exact .inl ⟨hlive, rfl⟩

/-- What was spawned, in order. -/
def spawns (es : List (PoolEvent ψ σ ι ω ν χ)) : List ψ :=
  es.filterMap (fun e => match e with
    | .spawned x => some x
    | _ => none)

/-- Only a spawn adds a task. -/
theorem HeldStep.spawns (h : HeldStep make cx poll pollF inner stored chk p a p' es) :
    (p'.tasks.length = p.tasks.length ∧ Async.spawns es = [])
      ∨ ∃ x, p'.tasks = p.tasks ++ [Task.new (make x)] ∧ Async.spawns es = [x]
        ∧ ∀ j, history j es = [] := by
  cases h with
  | spawned x => exact .inr ⟨x, rfl, rfl, fun _ => rfl⟩
  | polled => exact .inl ⟨List.length_set, rfl⟩
  | woke => exact .inl ⟨List.length_set, rfl⟩
  | fired => exact .inl ⟨List.length_set, rfl⟩
  | ticked n => exact .inl ⟨rfl, rfl⟩
  | aborted => exact .inl ⟨List.length_set, rfl⟩

/-- The tasks of a pool are what was spawned, each polled as if it were alone. -/
structure TasksRan (make : ψ → σ) (poll : σ → ι → Polled σ ω ν χ) (p : Pool σ ν)
    (es : List (PoolEvent ψ σ ι ω ν χ)) : Prop where
  length : p.tasks.length = (spawns es).length
  unborn : ∀ k, p.tasks[k]? = none → history k es = []
  tasks : ∀ (k : Nat) (t : Task σ ν), p.tasks[k]? = some t →
    ∃ x, (spawns es)[k]? = some x ∧ Ran poll (make x) t (turns (history k es))

/-- **What the pool does with a task is a run of the wrapper that was spawned as this task.** -/
theorem held_ran_init (hheld : ∀ s i, Held pollF inner stored chk (cx i) s (poll s i))
    (hmake : ∀ x, stored (make x) = none) {as : List (PoolAction ψ ι)}
    (hrun : (pool make cx poll).exec (pool make cx poll).init as = some (p, es)) :
    TasksRan make poll p es := by
  refine Lts.log_of_init (P := TasksRan make poll) ?_ ?_ hrun
  · exact ⟨rfl, fun _ _ => rfl, fun k t ht => absurd ht (by simp [pool])⟩
  · intro q a q' u us hreach hran hs
    obtain ⟨hlen, hunborn, htasks⟩ := hran
    have hstep := held_step hheld (held_reachable hheld hmake hreach) hs
    have happ : spawns (u ++ us) = spawns u ++ spawns us := List.filterMap_append
    rcases hstep.spawns with ⟨hsame, hno⟩ | ⟨x, hq', hx, hhist⟩
    · rw [hno, List.append_nil] at happ
      refine ⟨by rw [hsame, happ, hlen], ?_, ?_⟩
      · intro k hk
        have hk' : q.tasks[k]? = none := by
          rw [List.getElem?_eq_none_iff] at hk ⊢
          rwa [← hsame]
        rw [history_append, hunborn k hk', hstep.unborn hk']
        rfl
      · intro k t' ht'
        obtain ⟨t, ht⟩ : ∃ t, q.tasks[k]? = some t := by
          have hk := (List.getElem?_eq_some_iff.mp ht').1
          rw [hsame] at hk
          exact ⟨_, List.getElem?_eq_getElem hk⟩
        obtain ⟨x, hx, hran⟩ := htasks k t ht
        obtain ⟨t₁, ht₁, htask⟩ := hstep.task ht
        rw [ht₁] at ht'
        injection ht' with ht'
        subst ht'
        rw [happ, history_append]
        exact ⟨x, hx, htask.ran hran⟩
    · rw [hx] at happ
      refine ⟨by rw [hq', happ, List.length_append, List.length_append, hlen]; rfl, ?_, ?_⟩
      · intro k hk
        have hk' : q.tasks[k]? = none := by
          rw [hq', List.getElem?_eq_none_iff, List.length_append] at hk
          rw [List.getElem?_eq_none_iff]
          omega
        rw [history_append, hunborn k hk', hhist k]
        rfl
      · intro k t' ht'
        rw [happ, history_append, hhist k, List.append_nil]
        rw [hq'] at ht'
        rcases Lists.getElem?_snoc_cases ht' with ht | ⟨hk, ht⟩
        · obtain ⟨y, hy, hran⟩ := htasks k t' ht
          exact ⟨y, Lists.getElem?_append_some hy _, hran⟩
        · refine ⟨x, ?_, ?_⟩
          · rw [hk, hlen]
            exact List.getElem?_concat_length
          · rw [hunborn k (List.getElem?_eq_none_iff.mpr hk.ge), ht]
            exact .new (make x)

end

end Async
