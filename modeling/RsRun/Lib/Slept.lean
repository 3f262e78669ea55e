import Mathlib.Algebra.Order.BigOperators.Group.List
import RsRun.Lib.History

/-!
# Timers take time

A task holds at most one timer at once, and no wrapper inserts one before the last has
elapsed. So the durations of the timers of one task add up: together they are no longer
than the time that has passed, and what is left of the last one.
-/

namespace Async

variable {ψ σ ι φ ω ν χ : Type*}

/-- What is left of the timer of a task. -/
def Task.rest (now : Nat) (t : Task σ ν) : Nat :=
  match t.timer with
  | some tm => tm.deadline - now
  | none => 0

/-- The timers in a history that begins at `start` fit into the time until `now`. -/
structure Slept (start now : Nat) (t : Task σ ν) (es : List (PoolEvent ψ σ ι ω ν χ)) : Prop where
  total : start + (insertions (deeds es)).sum ≤ now + t.rest now
  /-- All but the last have elapsed. -/
  past : start + (insertions (deeds es)).dropLast.sum ≤ now

section
variable {make : ψ → σ} {cx : ι → Cx ω} {poll : σ → ι → Polled σ ω ν χ}
  {pollF : φ → Cx ω → φ × Poll ν} {inner : σ → φ} {stored : σ → Option Sleep} {chk : Bool}
  {k start now now' : Nat} {t t' : Task σ ν} {es u : List (PoolEvent ψ σ ι ω ν χ)}

theorem Task.rest_of_timer {tm : Timer} (h : t.timer = some tm) (now : Nat) :
    t.rest now = tm.deadline - now := by
  unfold Task.rest
  rw [h]

theorem Task.rest_of_none (h : t.timer = none) (now : Nat) : t.rest now = 0 := by
  unfold Task.rest
  rw [h]

/-- Nothing is left of a timer that has elapsed. -/
theorem Task.rest_of_elapsed (h : t.elapsed now) : t.rest now = 0 := by
  cases htm : t.timer with
  | none => exact Task.rest_of_none htm now
  | some tm =>
      rw [Task.rest_of_timer htm]
      exact Nat.sub_eq_zero_of_le (h tm htm)

/-- As time goes by, no more is left of a timer than what has not passed. -/
theorem Task.rest_later (t : Task σ ν) (hle : now ≤ now') :
    now + t.rest now ≤ now' + t.rest now' := by
  cases htm : t.timer with
  | none =>
      rw [Task.rest_of_none htm, Task.rest_of_none htm]
      exact hle
  | some tm =>
      rw [Task.rest_of_timer htm, Task.rest_of_timer htm]
      omega

theorem Slept.new (hle : start ≤ now) (s : σ) :
    Slept start now (Task.new s : Task σ ν) ([] : List (PoolEvent ψ σ ι ω ν χ)) :=
  ⟨hle, hle⟩

/-- Time goes by. -/
theorem Slept.later (h : Slept start now t u) (hle : now ≤ now') : Slept start now' t u :=
  ⟨h.total.trans (t.rest_later hle), h.past.trans hle⟩

/-- **A timer is inserted when the ones before have elapsed.** -/
theorem TaskStep.slept (h : TaskStep cx poll pollF inner stored chk k t now now' t' es)
    (hs : Slept start now t u) : Slept start now' t' (u ++ es) := by
  cases h with
  | elsewhere hle =>
      rw [List.append_nil]
      exact hs.later hle
  | @polled i lag t' hlive hq hwk h hfate =>
      have hlater := hs.later (Nat.le_add_right now lag)
      -- a poll without a new timer that finds the old one elapsed, or none
      have hdone : t.elapsed now → insertions (poll t.wrapper i).acts = [] →
          t'.timer = none → Slept start (now + lag) t'
            (u ++ [.polled k ⟨t.wrapper, i, poll t.wrapper i⟩]) := by
        intro he hsl htm
        have htotal := hs.total
        rw [Task.rest_of_elapsed he] at htotal
        refine ⟨?_, ?_⟩
        · rw [deeds_polled, insertions_append, hsl, List.append_nil, Task.rest_of_none htm]
          omega
        · rw [deeds_polled, insertions_append, hsl, List.append_nil]
          exact hlater.past
      cases h with
      | still tm htm hf hin hsl =>
          have htotal := hlater.total
          rw [Task.rest_of_timer htm] at htotal
          refine ⟨?_, ?_⟩
          · rw [deeds_polled, insertions_append, hsl, List.append_nil, Task.rest_of_timer rfl]
            exact htotal
          · rw [deeds_polled, insertions_append, hsl, List.append_nil]
            exact hlater.past
      | inserted d he hin hsl =>
          have htotal := hs.total
          rw [Task.rest_of_elapsed he] at htotal
          refine ⟨?_, ?_⟩
          · rw [deeds_polled, insertions_append, hsl, List.sum_append, List.sum_singleton,
              Task.rest_of_timer rfl]
            dsimp only
            omega
          · rw [deeds_polled, insertions_append, hsl, List.dropLast_concat]
            omega
      | woken d he hlag hin hsl =>
          have htotal := hs.total
          rw [Task.rest_of_elapsed he] at htotal
          refine ⟨?_, ?_⟩
          · rw [deeds_polled, insertions_append, hsl, List.sum_append, List.sum_singleton,
              Task.rest_of_none rfl]
            omega
          · rw [deeds_polled, insertions_append, hsl, List.dropLast_concat]
            omega
      | polled fate he hin hsl => exact hdone he hsl rfl
      | overflowed he hin hsl hc => exact hdone he hsl rfl
  | woke hlive hk =>
      refine ⟨?_, ?_⟩
      · rw [deeds_woke]
        exact hs.total
      · rw [deeds_woke]
        exact hs.past
  | fired hlive htm hf hd =>
      have htotal := hs.total
      rw [Task.rest_of_timer htm] at htotal
      rw [List.append_nil]
      refine ⟨?_, hs.past⟩
      rw [Task.rest_of_timer rfl]
      exact htotal
  | aborted hlive =>
      refine ⟨?_, ?_⟩
      · rw [deeds_aborted]
        exact hs.total
      · rw [deeds_aborted]
        exact hs.past

/-- **The timers of a task fit into the time that has passed.** -/
theorem held_slept (hheld : ∀ s i, Held pollF inner stored chk (cx i) s (poll s i))
    (hmake : ∀ x, stored (make x) = none) {p p' : Pool σ ν} {as : List (PoolAction ψ ι)}
    (hreach : (pool make cx poll).Reachable p)
    (hrun : (pool make cx poll).exec p as = some (p', es)) (ht' : p'.tasks[k]? = some t') :
    Slept p.now p'.now t' (history k es) := by
  refine held_history (P := fun now t u => Slept p.now now t u) hheld hmake ?_ ?_ hreach ?_
    hrun ht'
  · exact fun _ x hle => .new hle _
  · exact fun _ _ _ _ _ _ _ hs hstep => hstep.slept hs
  · exact fun t _ => ⟨Nat.le_add_right _ _, Nat.le_refl _⟩

/-- Timers of at least `d` cannot follow each other faster than that. -/
theorem Slept.count {d : Nat} (h : Slept start now t u) (hd : 0 < d)
    (hlong : ∀ n ∈ insertions (deeds u), d ≤ n) :
    (insertions (deeds u)).length ≤ (now - start) / d + 1 := by
  have hpast : ∀ n ∈ (insertions (deeds u)).dropLast, d ≤ n :=
    fun n hn => hlong n (List.dropLast_subset _ hn)
  have hsum := List.card_nsmul_le_sum _ d hpast
  rw [List.length_dropLast, nsmul_eq_mul, Nat.cast_id] at hsum
  have hle : ((insertions (deeds u)).length - 1) * d ≤ now - start := by
    have := h.past
    omega
  have := (Nat.le_div_iff_mul_le hd).mpr hle
  omega

end

/-! ## Polls between timers -/

/-- The `pending` answers are no more than the polls. -/
theorem pendings_le (as : List (Act ω ν χ)) : pendings as ≤ (innerPolls as).length := by
  induction as with
  | nil => exact Nat.le_refl _
  | cons a as ih =>
      have hcons : a :: as = [a] ++ as := rfl
      rw [hcons, pendings_append, innerPolls_append, List.length_append]
      refine Nat.add_le_add ?_ ih
      cases a with
      | sleepInserted d => exact Nat.le_refl _
      | sleepPolled w r => exact Nat.le_refl _
      | woke w => exact Nat.le_refl _
      | own x => exact Nat.le_refl _
      | innerPolled cx r =>
          cases r with
          | ready v => exact Nat.zero_le _
          | pending => exact Nat.le_refl _

/-- Where every answer is `pending`, the `pending` answers are the polls. -/
theorem pendings_eq (as : List (Act ω ν χ)) (h : ∀ c ∈ innerPolls as, c.2 = .pending) :
    pendings as = (innerPolls as).length := by
  induction as with
  | nil => rfl
  | cons a as ih =>
      have hcons : a :: as = [a] ++ as := rfl
      rw [hcons, innerPolls_append] at h
      rw [hcons, pendings_append, innerPolls_append, List.length_append,
        ih (fun c hc => h c (List.mem_append_right _ hc))]
      cases a with
      | sleepInserted d => rfl
      | sleepPolled w r => rfl
      | woke w => rfl
      | own x => rfl
      | innerPolled cx r =>
          have hr : r = .pending := h (cx, r) (List.mem_append_left _ (List.mem_singleton.mpr rfl))
          rw [hr]
          rfl

section
variable {poll : σ → ι → Polled σ ω ν χ} {pollF : φ → Cx ω → φ × Poll ν} {inner : σ → φ}
  {stored : σ → Option Sleep} {chk : Bool}

/-- A poll comes to the future inside once at most, and is pending only with it. -/
theorem Held.innerPolls {c : Cx ω} {s : σ} {o : Polled σ ω ν χ}
    (h : Held pollF inner stored chk c s o) :
    (innerPolls o.acts).length ≤ 1
      ∧ (o.res = .pending → pendings o.acts = (Async.innerPolls o.acts).length) := by
  -- a poll that does not come to it
  have hnone : Async.innerPolls o.acts = [] → (Async.innerPolls o.acts).length ≤ 1
      ∧ (o.res = .pending → pendings o.acts = (Async.innerPolls o.acts).length) := by
    intro hin
    refine ⟨by rw [hin]; exact Nat.zero_le _, fun _ => pendings_eq _ ?_⟩
    rw [hin]
    exact fun _ hc => absurd hc List.not_mem_nil
  cases h with
  | still sl hs ha => exact hnone (by rw [ha]; rfl)
  | inserted pre xs d hpre ha => exact hnone (by rw [ha, (hpre.quiet xs _).1]; rfl)
  | woken pre xs d hpre ha => exact hnone (by rw [ha, (hpre.quiet xs _).1]; rfl)
  | overflowed pre xs hpre ha =>
      refine hnone ?_
      rw [ha, ← List.append_nil (xs.map _), (hpre.quiet xs _).1]
      rfl
  | polled pre xs ys hpre ha hr =>
      have hin : Async.innerPolls o.acts = [(c, (pollF (inner s) c).2)] := by
        rw [ha, (hpre.quiet xs _).1, innerPolls_innerPolled, innerPolls_own_map]
      refine ⟨by rw [hin]; exact Nat.le_refl _, fun hp => pendings_eq _ ?_⟩
      rw [hin]
      intro q hq
      rw [List.mem_singleton.mp hq]
      dsimp only
      rcases hr with hr | ⟨hr, _⟩
      · rw [hp] at hr
        cases hv : (pollF (inner s) c).2 with
        | ready v => rw [hv] at hr; exact absurd hr (by simp [Poll.outcome])
        | pending => rfl
      · rw [hp] at hr
        exact absurd hr (by simp)

/-- In a run, all polls of the future inside but the last are pending. -/
theorem polls_inner {cx : ι → Cx ω} (hheld : ∀ s i, Held pollF inner stored chk (cx i) s (poll s i))
    {w : σ} {is : List ι} {q : Polling σ} {ts : List (Turn σ ι ω ν χ)}
    (h : (polls poll w).exec (polls poll w).init is = some (q, ts)) :
    (innerPolls (runActs ts)).length ≤ pendings (runActs ts) + q.done.toNat := by
  refine Lts.log_of_init (P := fun q ts => (innerPolls (runActs ts)).length
    ≤ pendings (runActs ts) + q.done.toNat) (Nat.le_refl _) ?_ h
  intro q i q' us ts _ hle hs
  obtain ⟨hlive, _, hlog, hret, hdone⟩ := polls_step hs
  obtain ⟨hone, hpend⟩ := (hheld q.wrapper i).innerPolls
  rw [hlive] at hle
  rw [hlog, runActs_snoc, innerPolls_append, pendings_append, List.length_append]
  dsimp only
  cases hr : (poll q.wrapper i).res with
  | ready v =>
      rw [hdone.mpr ⟨v, hr⟩]
      simp only [Bool.toNat_true, Bool.toNat_false] at hle ⊢
      omega
  | pending =>
      rw [← hpend hr]
      simp only [Bool.toNat_false] at hle
      omega
  | panicked why => exact absurd hr (hret why)

/-- A poll that ends otherwise than pending inserts no timer. -/
theorem Held.insertions {c : Cx ω} {s : σ} {o : Polled σ ω ν χ}
    (h : Held pollF inner stored chk c s o) (hr : o.res ≠ .pending) :
    Async.insertions o.acts = [] := by
  cases h with
  | still sl hs ha hr' => exact absurd hr' hr
  | inserted pre xs d hpre ha hr' => exact absurd hr' hr
  | woken pre xs d hpre ha hr' => exact absurd hr' hr
  | overflowed pre xs hpre ha =>
      rw [ha, ← List.append_nil (xs.map _), (hpre.quiet xs _).2.1]
      rfl
  | polled pre xs ys hpre ha =>
      rw [ha, (hpre.quiet xs _).2.1, ← List.singleton_append, insertions_append, insertions_own]
      rfl

/-- The same of the turns of a task: the part of them that returned has all of their timers. -/
theorem Ran.polled {cx : ι → Cx ω} (hheld : ∀ s i, Held pollF inner stored chk (cx i) s (poll s i))
    {w : σ} {t : Task σ ν} {ts : List (Turn σ ι ω ν χ)} (h : Ran poll w t ts) :
    ∃ is q us, (polls poll w).exec (polls poll w).init is = some (q, us)
      ∧ insertions (runActs ts) = insertions (runActs us)
      ∧ pendings (runActs us) ≤ pendings (runActs ts)
      ∧ (innerPolls (runActs ts)).length ≤ pendings (runActs us) + 1 := by
  cases h with
  | returned is q hrun hw hlive =>
      have hle := polls_inner hheld hrun
      have hdone : q.done.toNat ≤ 1 := Bool.toNat_le _
      exact ⟨is, q, ts, hrun, rfl, Nat.le_refl _, by omega⟩
  | panicked is v i us why hrun ht hr hw hdead =>
      have hle := polls_inner hheld hrun
      have hone := (hheld v i).innerPolls.1
      have hslept := (hheld v i).insertions (by rw [hr]; simp)
      refine ⟨is, _, us, hrun, ?_, ?_, ?_⟩
      · rw [ht, runActs_snoc, insertions_append, hslept, List.append_nil]
      · rw [ht, runActs_snoc, pendings_append]
        exact Nat.le_add_right _ _
      · rw [ht, runActs_snoc, innerPolls_append, List.length_append]
        dsimp only at hle ⊢
        rw [Bool.toNat_false] at hle
        omega

/-- The turns that returned come first, and insert all timers. -/
theorem Ran.before {cx : ι → Cx ω} (hheld : ∀ s i, Held pollF inner stored chk (cx i) s (poll s i))
    {w : σ} {t : Task σ ν} {ts : List (Turn σ ι ω ν χ)} (h : Ran poll w t ts) :
    ∃ is q us, (polls poll w).exec (polls poll w).init is = some (q, us) ∧ us <+: ts
      ∧ insertions (runActs ts) = insertions (runActs us) := by
  cases h with
  | returned is q hrun hw hlive => exact ⟨is, q, ts, hrun, List.prefix_refl _, rfl⟩
  | panicked is v i us why hrun ht hr hw hdead =>
      have hslept := (hheld v i).insertions (by rw [hr]; simp)
      refine ⟨is, _, us, hrun, ⟨_, ht.symm⟩, ?_⟩
      rw [ht, runActs_snoc, insertions_append, hslept, List.append_nil]

/-! ## Between two polls of the future inside -/

/--
**The potential rule.**

A potential that pays for every timer of a poll that does not come to the future inside
bounds the timers that are inserted while it is not polled.
-/
theorem Ran.insertions_le {cx : ι → Cx ω} {I : σ → Prop} {left : σ → Nat}
    (hheld : ∀ s i, Held pollF inner stored chk (cx i) s (poll s i))
    (hstep : ∀ v i, I v → (∀ why, (poll v i).res ≠ .panicked why) → I (poll v i).next
      ∧ (innerPolls (poll v i).acts = [] →
        (insertions (poll v i).acts).length + left (poll v i).next ≤ left v))
    {w : σ} (hw : I w) {t : Task σ ν} {ts : List (Turn σ ι ω ν χ)} (h : Ran poll w t ts)
    (hno : innerPolls (runActs ts) = []) : (insertions (runActs ts)).length ≤ left w := by
  obtain ⟨is, q, us, hrun, ⟨rest, hts⟩, hslept⟩ := h.before hheld
  have hsplit : runActs ts = runActs us ++ runActs rest := by
    rw [← hts]
    exact List.flatMap_append
  rw [hsplit, innerPolls_append] at hno
  rw [hslept]
  have hpaid := polls_log (P := fun v us => I v ∧ (innerPolls (runActs us) = [] →
    (insertions (runActs us)).length + left v ≤ left w)) ?_ ?_ hrun
  · have hle := hpaid.2 (List.append_eq_nil_iff.mp hno).1
    omega
  · exact ⟨hw, fun _ => Nat.le_of_eq (Nat.zero_add _)⟩
  · intro v i us hp hret
    obtain ⟨hv, hle⟩ := hp
    obtain ⟨hnext, hpay⟩ := hstep v i hv hret
    refine ⟨hnext, fun hnone => ?_⟩
    rw [runActs_snoc, innerPolls_append] at hnone
    obtain ⟨hbefore, hnow⟩ := List.append_eq_nil_iff.mp hnone
    have hfirst := hle hbefore
    have hlast := hpay hnow
    rw [runActs_snoc, insertions_append, List.length_append]
    dsimp only
    omega

end

end Async
