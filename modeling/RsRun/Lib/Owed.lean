import RsRun.Lib.History
import RsRun.Lib.PoolRefines

/-!
# Wake-ups, polls and timers

What the history of a task says about whether it is due, and what its polls cost. A poll is
paid for by the spawn, by a wake-up, or by a timer that was inserted; a poll of the future
inside by the spawn or a wake-up alone.
-/

namespace Async

variable {ψ σ ι φ ω ν χ : Type*}

/-- Is a poll of the future inside still to come, now that this was seen? -/
def PoolEvent.owes (owing : Bool) : PoolEvent ψ σ ι ω ν χ → Bool
  | .spawned _ => owing
  | .polled _ turn => owing && (innerPolls turn.out.acts).isEmpty
  | .woke _ => true
  | .aborted _ => owing

/--
Has the future been woken since it was polled last? A future that was never polled counts
as woken.
-/
def owed (es : List (PoolEvent ψ σ ι ω ν χ)) : Bool := es.foldl PoolEvent.owes true

/-- Is a timer of this task still going to fire? -/
def Task.armed (t : Task σ ν) : Bool :=
  match t.timer with
  | some tm => !tm.fired
  | none => false

/-- What the polls in the history of a task are paid for with, where `n` were due before. -/
structure PaidFor (n : Nat) (t : Task σ ν) (es : List (PoolEvent ψ σ ι ω ν χ)) : Prop where
  polls : (turns es).length + t.queued.toNat + t.armed.toNat
    ≤ n + wakeCount es + (insertions (deeds es)).length
  inner : (innerPolls (deeds es)).length + t.due.toNat ≤ n + wakeCount es

section
variable {make : ψ → σ} {cx : ι → Cx ω} {poll : σ → ι → Polled σ ω ν χ}
  {pollF : φ → Cx ω → φ × Poll ν} {inner : σ → φ} {stored : σ → Option Sleep} {chk : Bool}
  {k n now now' : Nat} {t t' : Task σ ν} {es u : List (PoolEvent ψ σ ι ω ν χ)}

theorem owed_append (es : List (PoolEvent ψ σ ι ω ν χ)) (e : PoolEvent ψ σ ι ω ν χ) :
    owed (es ++ [e]) = e.owes (owed es) := by
  unfold owed
  rw [List.foldl_append]
  rfl

/-- A task in the queue is due. -/
theorem Task.due_of_queued (h : t.queued = true) : t.due = true := by
  unfold Task.due
  rw [h]
  rfl

/-- So is one that has a timer. -/
theorem Task.due_of_timer {tm : Timer} (h : t.timer = some tm) : t.due = true := by
  unfold Task.due
  rw [h]
  exact Bool.or_true _

theorem Task.armed_of {tm : Timer} (h : t.timer = some tm) (hf : tm.fired = false) :
    t.armed = true := by
  unfold Task.armed
  rw [h]
  dsimp only
  rw [hf]
  rfl

/-- A live task stays due until the future inside has been polled. -/
theorem TaskStep.owed (h : TaskStep cx poll pollF inner stored chk k t now now' t' es)
    (hok : t.fate = .live → owed u = t.due) (hlive' : t'.fate = .live) :
    owed (u ++ es) = t'.due := by
  cases h with
  | elsewhere hle =>
      rw [List.append_nil]
      exact hok hlive'
  | @polled i lag t' hlive hq hw h hfate =>
      have hdue : Async.owed u = true := (hok hlive).trans (Task.due_of_queued hq)
      rw [owed_append, PoolEvent.owes, hdue, Bool.true_and]
      cases h with
      | still tm htm hf hin => rw [hin]; exact (Task.due_of_timer rfl).symm
      | inserted d he hin => rw [hin]; exact (Task.due_of_timer rfl).symm
      | woken d he hlag hin => rw [hin]; exact (Task.due_of_queued rfl).symm
      | polled fate he hin => rw [hin]; rfl
      | overflowed => exact absurd hlive' (by simp)
  | woke hlive hk =>
      rw [owed_append]
      exact (Task.due_of_queued rfl).symm
  | fired hlive htm hf hd =>
      rw [List.append_nil, hok hlive, Task.due_of_timer htm]
      exact (Task.due_of_timer rfl).symm
  | aborted hlive => exact absurd hlive' (by simp)

/-- A new task is due once. -/
theorem PaidFor.new (s : σ) (hn : 1 ≤ n) :
    PaidFor n (Task.new s : Task σ ν) ([] : List (PoolEvent ψ σ ι ω ν χ)) :=
  ⟨hn, hn⟩

/-- Any task is due twice at most, by the queue and by its timer. -/
theorem PaidFor.begin (t : Task σ ν) : PaidFor 2 t ([] : List (PoolEvent ψ σ ι ω ν χ)) := by
  have hqueued : t.queued.toNat ≤ 1 := Bool.toNat_le _
  have harmed : t.armed.toNat ≤ 1 := Bool.toNat_le _
  have hdue : t.due.toNat ≤ 1 := Bool.toNat_le _
  constructor
  · change 0 + t.queued.toNat + t.armed.toNat ≤ 2
    omega
  · change 0 + t.due.toNat ≤ 2
    omega

/-- Nothing is polled that has not been paid for. -/
theorem TaskStep.paid (h : TaskStep cx poll pollF inner stored chk k t now now' t' es)
    (hp : PaidFor n t u) : PaidFor n t' (u ++ es) := by
  obtain ⟨hpolls, hinner⟩ := hp
  cases h with
  | elsewhere hle =>
      rw [List.append_nil]
      exact ⟨hpolls, hinner⟩
  | @polled i lag t' hlive hq hw h hfate =>
      -- the poll takes the task out of the queue
      have hdue : t.due = true := Task.due_of_queued hq
      rw [hq] at hpolls
      rw [hdue] at hinner
      refine ⟨?_, ?_⟩
      · rw [turns_polled, wakeCount_polled, deeds_polled, insertions_append, List.length_append,
          List.length_append, List.length_singleton]
        dsimp only
        cases h with
        | still tm htm hf hin hsl =>
            rw [Task.armed_of htm hf] at hpolls
            rw [hsl]
            simp only [Task.armed, hf, Bool.toNat_true, Bool.toNat_false, List.length_nil,
              Bool.not_false] at hpolls ⊢
            omega
        | inserted d he hin hsl =>
            rw [hsl]
            simp only [Task.armed, Bool.toNat_true, Bool.toNat_false, List.length_singleton,
              Bool.not_false] at hpolls ⊢
            omega
        | woken d he hlag hin hsl =>
            rw [hsl]
            simp only [Task.armed, Bool.toNat_true, Bool.toNat_false, List.length_singleton]
              at hpolls ⊢
            omega
        | polled fate he hin hsl =>
            rw [hsl]
            simp only [Task.armed, Bool.toNat_true, Bool.toNat_false, List.length_nil] at hpolls ⊢
            omega
        | overflowed he hin hsl hc =>
            rw [hsl]
            simp only [Task.armed, Bool.toNat_true, Bool.toNat_false, List.length_nil] at hpolls ⊢
            omega
      · rw [wakeCount_polled, deeds_polled, innerPolls_append, List.length_append]
        dsimp only
        have hle : t'.due.toNat ≤ 1 := Bool.toNat_le _
        cases h with
        | still tm htm hf hin => rw [hin]; exact (Nat.add_le_add_left hle _).trans hinner
        | inserted d he hin => rw [hin]; exact (Nat.add_le_add_left hle _).trans hinner
        | woken d he hlag hin => rw [hin]; exact (Nat.add_le_add_left hle _).trans hinner
        | polled fate he hin => rw [hin]; exact hinner
        | overflowed he hin => rw [hin]; exact (Nat.add_le_add_left hle _).trans hinner
  | woke hlive hk =>
      have hq : t.wake.queued.toNat ≤ 1 := Bool.toNat_le _
      have hdue : t.wake.due.toNat ≤ 1 := Bool.toNat_le _
      have harmed : t.wake.armed = t.armed := rfl
      refine ⟨?_, ?_⟩
      · rw [turns_woke, wakeCount_woke, deeds_woke, harmed]
        omega
      · rw [wakeCount_woke, deeds_woke]
        omega
  | @fired tm hlive htm hf hd =>
      rw [Task.armed_of htm hf] at hpolls
      rw [Task.due_of_timer htm] at hinner
      rw [List.append_nil]
      refine ⟨?_, ?_⟩
      · simp only [Task.armed, Bool.toNat_true, Bool.toNat_false, Bool.not_true] at hpolls ⊢
        omega
      · rw [Task.due_of_timer rfl]
        exact hinner
  | aborted hlive =>
      refine ⟨?_, ?_⟩
      · rw [turns_aborted, wakeCount_aborted, deeds_aborted]
        exact hpolls
      · rw [wakeCount_aborted, deeds_aborted]
        exact hinner

/-! ## Over a run -/

section
variable {p : Pool σ ν} {as : List (PoolAction ψ ι)}
  (hheld : ∀ s i, Held pollF inner stored chk (cx i) s (poll s i))
  (hmake : ∀ x, stored (make x) = none)
  (hrun : (pool make cx poll).exec (pool make cx poll).init as = some (p, es))
  (ht : p.tasks[k]? = some t)
include hheld hmake hrun ht

/-- **A live task is due exactly when its future has been woken since it was polled last.** -/
theorem held_owed (hlive : t.fate = .live) : owed (history k es) = t.due := by
  refine held_history (P := fun _ t u => t.fate = .live → owed u = t.due) hheld hmake ?_ ?_
    Lts.reachable_init ?_ hrun ht hlive
  · exact fun _ _ _ _ => rfl
  · exact fun _ _ _ _ _ _ _ hok hs hlive' => hs.owed hok hlive'
  · exact fun t ht => absurd ht (by simp [pool])

/-- **Nothing is polled that has not been paid for**, over a run. -/
theorem held_paid : PaidFor 1 t (history k es) := by
  refine held_history (P := fun _ t u => PaidFor 1 t u) hheld hmake ?_ ?_ Lts.reachable_init ?_
    hrun ht
  · exact fun _ _ _ => .new _ (Nat.le_refl 1)
  · exact fun _ _ _ _ _ _ _ hp hs => hs.paid hp
  · exact fun t ht => absurd ht (by simp [pool])

end

/-- The same from any moment of a run on. -/
theorem held_paid_since {p p' : Pool σ ν} {as : List (PoolAction ψ ι)}
    (hheld : ∀ s i, Held pollF inner stored chk (cx i) s (poll s i))
    (hmake : ∀ x, stored (make x) = none) (hreach : (pool make cx poll).Reachable p)
    (hrun : (pool make cx poll).exec p as = some (p', es)) (ht : p'.tasks[k]? = some t) :
    PaidFor 2 t (history k es) := by
  refine held_history (P := fun _ t u => PaidFor 2 t u) hheld hmake ?_ ?_ hreach ?_ hrun ht
  · exact fun _ _ _ => .new _ (by omega)
  · exact fun _ _ _ _ _ _ _ hp hs => hs.paid hp
  · exact fun t _ => .begin t

end

end Async
