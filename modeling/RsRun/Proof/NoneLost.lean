import RsRun.Proof.Records

/-!
# No record is lost, unless an entry is inserted twice

An update happens under the read lock that the look-up took, so it goes into the window that
the map shows. An insertion happens after the read lock was let go of: what others inserted
for the type since is thrown away with its window.
-/

namespace RsRun.Proof

open ModeCount RecordTable

variable {τ : Type*} [DecidableEq τ]

/-! ## What the property says -/

/-- The window that the map shows for a type. -/
def windowOf (w : World τ) (ty : τ) : List OneFutureRecord := (entryOf w ty).elim [] (fun e => e.2)

/-- Nobody is at work on the window of a type. -/
def MutexFree (w : World τ) (ty : τ) : Prop :=
  ∀ i cell, w.table ty = some i → w.cells[i]? = some cell → cell.holder = none

/-- The record of a future of type `ty` that has finished its completing poll. -/
def finishedBy (ty : τ) (x : Completion τ) : Option OneFutureRecord :=
  if x.ty = ty ∧ x.phase = .done then some x.record else none

/-- Every finished future was recorded once, and the window shows the ten recorded last. -/
structure NoneLost (w : World τ) (t : List (Event τ)) (ty : τ) : Prop where
  finished : (recordsOf ty t).Perm (w.completions.filterMap (finishedBy ty))
  window : windowOf w ty = Window.last 10 (recordsOf ty t)

/-- The action inserts an entry for a type that has one. -/
def Overwrites (w : World τ) (a : Action τ) : Prop :=
  ∃ c x i, a = .insert c ∧ w.completions[c]? = some x ∧ x.phase = .missed ∧ w.noReader = true
    ∧ w.table x.ty = some i

/-! ## The windows, step by step -/

section
variable {w : World τ} {t : List (Event τ)} {c i : Nat} {x : Completion τ}

omit [DecidableEq τ] in
theorem windowOf_some {ty : τ} {cell : Cell} (ht : w.table ty = some i)
    (hc : w.cells[i]? = some cell) : windowOf w ty = cell.deque := by
  unfold windowOf entryOf
  rw [ht, Option.bind_some, hc]
  rfl

omit [DecidableEq τ] in
theorem windowOf_none {ty : τ} (ht : w.table ty = none) : windowOf w ty = [] := by
  unfold windowOf entryOf
  rw [ht]
  rfl

theorem TableOk.cell (h : TableOk w t) {ty : τ} (ht : w.table ty = some i) :
    ∃ cell, w.cells[i]? = some cell :=
  ⟨_, List.getElem?_eq_getElem (h.cells ty i ht)⟩

/-- The window of every type, after work on one entry. -/
theorem windowOf_work (h : TableOk w t) {cell cell' : Cell} {phase : Phase}
    (hx : w.completions[c]? = some x) (hc : w.cells[i]? = some cell)
    (hentry : x.phase.entry = some i) (ty : τ) :
    windowOf ((w.setCell i cell').goto c x phase) ty
      = if x.ty = ty then cell'.deque else windowOf w ty := by
  have htable := h.reading c x i hx hentry
  by_cases hty : x.ty = ty
  · subst hty
    have hlt : i < w.cells.length := (List.getElem?_eq_some_iff.mp hc).1
    rw [if_pos rfl]
    exact windowOf_some htable (List.getElem?_set_self hlt)
  · rw [if_neg hty]
    unfold windowOf
    rw [entryOf_work h hx hentry hty]

theorem windowOf_kept (h : TableOk w t) {cell cell' : Cell} {phase : Phase}
    (hx : w.completions[c]? = some x) (hc : w.cells[i]? = some cell)
    (hentry : x.phase.entry = some i) (hdeque : cell'.deque = cell.deque) (ty : τ) :
    windowOf ((w.setCell i cell').goto c x phase) ty = windowOf w ty := by
  rw [windowOf_work h hx hc hentry]
  split
  · rename_i hty
    subst hty
    rw [hdeque, windowOf_some (h.reading c x i hx hentry) hc]
  · rfl

theorem windowOf_insert (h : TableOk w t) (cell : Cell) (xs : List (Completion τ)) (ty : τ) :
    windowOf { w with
        completions := xs
        table := Function.update w.table x.ty (some w.cells.length)
        cells := w.cells ++ [cell] } ty
      = if x.ty = ty then cell.deque else windowOf w ty := by
  by_cases hty : x.ty = ty
  · subst hty
    rw [if_pos rfl]
    exact windowOf_some (Function.update_self ..) (List.getElem?_concat_length ..)
  · rw [if_neg hty]
    have htable : Function.update w.table x.ty (some w.cells.length) ty = w.table ty :=
      Function.update_of_ne (fun heq => hty heq.symm) ..
    cases ht : w.table ty with
    | none => rw [windowOf_none ht, windowOf_none (htable.trans ht)]
    | some j =>
        obtain ⟨old, hget⟩ := h.cell ht
        rw [windowOf_some ht hget]
        exact windowOf_some (htable.trans ht)
          ((List.getElem?_append_left (h.cells ty j ht)).trans hget)

/-- Every window shows the last of what was recorded. -/
def Recent (w : World τ) (t : List (Event τ)) : Prop :=
  ∀ ty, windowOf w ty = Window.last 10 (recordsOf ty t)

/-- **A step that does not overwrite an entry keeps every window recent.** -/
theorem recent_step {w' : World τ} {a : Action τ} {es : List (Event τ)} (hok : TableOk w t)
    (h : Recent w t) (hnew : ¬ Overwrites w a) (hs : step w a = some (w', es)) :
    Recent w' (t ++ es) := by
  intro ty
  cases table_moves hs with
  | complete ty' record => rw [List.append_nil]; exact h ty
  | hit c x i hx hp ht => rw [List.append_nil]; exact h ty
  | miss c x hx hp ht => rw [List.append_nil]; exact h ty
  | lock c x i cell hx hp hc hfree =>
      have hentry : x.phase.entry = some i := by rw [hp]; rfl
      rw [List.append_nil]
      refine (windowOf_kept hok hx hc hentry ?_ ty).trans (h ty)
      rfl
  | push c x i cell hx hp hc =>
      have hentry : x.phase.entry = some i := by rw [hp]; rfl
      rw [windowOf_work hok hx hc hentry]
      split
      · rename_i hty
        subst hty
        have hwindow := (windowOf_some (hok.reading c x i hx hentry) hc).symm.trans (h x.ty)
        rw [recordsOf_same, hwindow]
        exact Window.push_last 10 _ _
      · rename_i hty
        rw [recordsOf_other hty]
        exact h ty
  | publish c x i cell hx hp hc =>
      have hentry : x.phase.entry = some i := by rw [hp]; rfl
      rw [List.append_nil]
      refine (windowOf_kept hok hx hc hentry ?_ ty).trans (h ty)
      rfl
  | insert c x hx hp hfree =>
      refine (windowOf_insert hok _ _ ty).trans ?_
      split
      · rename_i hty
        subst hty
        -- there was no entry, so nothing of this type was recorded
        have hnone : w.table x.ty = none := by
          cases ht : w.table x.ty with
          | none => rfl
          | some i => exact absurd ⟨c, x, i, rfl, hx, hp, hfree, ht⟩ hnew
        have hlen := congrArg List.length ((windowOf_none hnone).symm.trans (h x.ty))
        rw [Window.length_last, List.length_nil] at hlen
        have hnil : recordsOf x.ty t = [] := List.eq_nil_of_length_eq_zero (by omega)
        rw [recordsOf_same, hnil]
        rfl
      · rename_i hty
        rw [recordsOf_other hty]
        exact h ty

/-- Once nobody is at work on the window, who has recorded has finished. -/
theorem finished_of_free (h : TableOk w t) {ty : τ} (hfree : MutexFree w ty) :
    (recordsOf ty t).Perm (w.completions.filterMap (finishedBy ty)) := by
  refine (h.recorded ty).trans (List.Perm.of_eq (List.filterMap_congr ?_))
  intro x hmem
  obtain ⟨c, hx⟩ := List.mem_iff_getElem?.mp hmem
  unfold recordedBy finishedBy
  refine if_congr (and_congr_right ?_) rfl rfl
  intro hty
  cases hp : x.phase with
  | pushed i =>
      -- it would hold the mutex
      have htable := h.reading c x i hx (by rw [hp]; rfl)
      obtain ⟨cell, hget⟩ := h.cell htable
      have hheld := h.held c x i _ hx (.inr hp) hget
      rw [hfree i _ (hty ▸ htable) hget] at hheld
      exact absurd hheld (by simp)
  | called => simp [Phase.recorded]
  | found i => simp [Phase.recorded]
  | locked i => simp [Phase.recorded]
  | missed => simp [Phase.recorded]
  | done => simp [Phase.recorded]

theorem step_insert (hx : w.completions[c]? = some x) (hp : x.phase = .missed)
    (hfree : w.noReader = true) :
    step w (.insert c) = some ({ w.goto c x .done with
        table := Function.update w.table x.ty (some w.cells.length)
        cells := w.cells ++ [{ rate := cpuRate x.record, deque := [x.record], holder := none }] },
      [{ ty := x.ty, record := x.record }]) := by
  rw [step, hx]
  dsimp only
  rw [if_pos ⟨hp, hfree⟩]

/-- **An entry that is overwritten takes its records with it.** -/
theorem lost_of_overwrites {a : Action τ} (h : TableOk w t) (hover : Overwrites w a) :
    ∃ w' es ty, step w a = some (w', es) ∧ MutexFree w' ty
      ∧ windowOf w' ty ≠ Window.last 10 (recordsOf ty (t ++ es)) := by
  obtain ⟨c, x, i, rfl, hx, hp, hfree, ht⟩ := hover
  obtain ⟨cell, hget⟩ := h.cell ht
  obtain ⟨⟨hlen, _⟩, hsuf, _⟩ := h.windows x.ty i _ ht hget
  -- there is a record of this type already, and the new window shows one only
  have hold : 1 ≤ (recordsOf x.ty t).length := hlen.trans hsuf.length_le
  refine ⟨_, _, x.ty, step_insert hx hp hfree, ?_, ?_⟩
  · intro j cell hj hcell
    dsimp only at hj hcell
    rw [Function.update_self] at hj
    injection hj with hj
    subst hj
    rw [List.getElem?_concat_length] at hcell
    injection hcell with hcell
    subst hcell
    rfl
  · intro heq
    have hone : [x.record] = Window.last 10 (recordsOf x.ty t ++ [x.record]) := by
      rw [← recordsOf_same, ← heq]
      exact ((windowOf_insert h { rate := cpuRate x.record, deque := [x.record], holder := none }
        (w.goto c x .done).completions x.ty).trans (if_pos rfl)).symm
    have hlast := congrArg List.length hone
    rw [Window.length_last, List.length_append, List.length_singleton] at hlast
    omega

end

/--
**No record is lost, if and only if no entry is overwritten.**

For any completing polls and any interleaving of their steps, `as`.
-/
theorem none_lost_iff (τ : Type*) [DecidableEq τ] (as : List (Action τ)) :
    (∀ bs (w : World τ) t, bs <+: as →
        (system τ).exec (system τ).init bs = some (w, t) →
        ∀ ty, MutexFree w ty → NoneLost w t ty)
      ↔ ∀ bs a (w : World τ) t, bs ++ [a] <+: as →
        (system τ).exec (system τ).init bs = some (w, t) → ¬ Overwrites w a := by
  constructor
  · intro hall bs a w t hpre hrun hover
    obtain ⟨w', es, ty, hs, hfree, hlost⟩ := lost_of_overwrites (tableOk_exec hrun) hover
    have hrun' : (system τ).exec (system τ).init (bs ++ [a]) = some (w', t ++ es) :=
      Lts.exec_append.mpr ⟨w, t, es, hrun, Lts.exec_one hs, rfl⟩
    exact hlost (hall _ w' _ hpre hrun' ty hfree).window
  · intro hguard bs w t hpre hrun ty hfree
    have hrecent : Recent w t := by
      refine Lts.log_of_guarded (P := Recent) (G := fun w _ a => ¬ Overwrites w a) ?_ ?_ ?_ hrun
      · exact fun ty => windowOf_none rfl
      · exact fun w a w' u t cs hr h hnew hs => recent_step (tableOk_exec hr) h hnew hs
      · exact fun cs a w u hcs hr => hguard cs a w u (hcs.trans hpre) hr
    exact ⟨finished_of_free (tableOk_exec hrun) hfree, hrecent ty⟩

/-- Two first completions of one type: both find no entry, and the second insertion wins. -/
theorem not_none_lost : ¬ ∀ (as : List (Action Nat)) w t,
    (system Nat).exec (system Nat).init as = some (w, t) →
    ∀ ty, MutexFree w ty → NoneLost w t ty := by
  intro h
  have hlost := h [.complete 0 ⟨10, 1⟩, .complete 0 ⟨10, 2⟩, .look 0, .look 1, .insert 0, .insert 1]
    _ _ rfl 0
  have hnone := hlost ?_
  · exact absurd hnone.window (by decide)
  · rintro i cell hi hc
    cases hi
    cases hc
    rfl

end RsRun.Proof
