import Mathlib.Data.List.Infix
import RsRun.Lib.Lists
import RsRun.PendingFuture.RecordTable

/-!
# The record table, under any interleaving

Whoever works on an entry holds the read lock, so the entry stays where it is until the
work is done; the mutex lets one at a time work on a window. So every entry belongs to
one type, and a window that nobody is working on agrees with its rate.
-/

namespace RsRun.Proof

open ModeCount RecordTable

variable {τ : Type*} [DecidableEq τ]

/-! ## One step -/

/-- What a step does, one constructor for each way. -/
inductive TableMoves (w : World τ) : Action τ → World τ → List (Event τ) → Prop where
  | complete (ty : τ) (record : OneFutureRecord) :
      TableMoves w (.complete ty record)
        { w with completions := w.completions ++
          [{ ty := ty, record := record, phase := .called }] } []
  | hit (c : Nat) (x : Completion τ) (i : Nat) (hx : w.completions[c]? = some x)
      (hp : x.phase = .called) (ht : w.table x.ty = some i) :
      TableMoves w (.look c) (w.goto c x (.found i)) []
  | miss (c : Nat) (x : Completion τ) (hx : w.completions[c]? = some x) (hp : x.phase = .called)
      (ht : w.table x.ty = none) : TableMoves w (.look c) (w.goto c x .missed) []
  | lock (c : Nat) (x : Completion τ) (i : Nat) (cell : Cell) (hx : w.completions[c]? = some x)
      (hp : x.phase = .found i) (hc : w.cells[i]? = some cell) (hfree : cell.holder = none) :
      TableMoves w (.lock c)
        ((w.setCell i { cell with holder := some c }).goto c x (.locked i)) []
  | push (c : Nat) (x : Completion τ) (i : Nat) (cell : Cell) (hx : w.completions[c]? = some x)
      (hp : x.phase = .locked i) (hc : w.cells[i]? = some cell) :
      TableMoves w (.push c)
        ((w.setCell i { cell with deque := Window.push 10 cell.deque x.record }).goto c x
          (.pushed i)) [{ ty := x.ty, record := x.record }]
  | publish (c : Nat) (x : Completion τ) (i : Nat) (cell : Cell)
      (hx : w.completions[c]? = some x) (hp : x.phase = .pushed i)
      (hc : w.cells[i]? = some cell) :
      TableMoves w (.publish c)
        ((w.setCell i { cell with rate := meanRate cell.deque, holder := none }).goto c x .done) []
  | insert (c : Nat) (x : Completion τ) (hx : w.completions[c]? = some x)
      (hp : x.phase = .missed) (hfree : w.noReader = true) :
      TableMoves w (.insert c)
        { w.goto c x .done with
          table := Function.update w.table x.ty (some w.cells.length)
          cells := w.cells ++
            [{ rate := cpuRate x.record, deque := [x.record], holder := none }] }
        [{ ty := x.ty, record := x.record }]

/-- **The inversion lemma.** -/
theorem table_moves {w w' : World τ} {a : Action τ} {t : List (Event τ)}
    (h : step w a = some (w', t)) : TableMoves w a w' t := by
  cases a with
  | complete ty record =>
      rw [step] at h
      injection h with h; injection h with h1 h2
      subst h1; subst h2
      exact .complete ty record
  | look c =>
      rw [step] at h
      split at h
      · rename_i x hx
        split at h
        · rename_i hp
          split at h
          · rename_i i ht
            injection h with h; injection h with h1 h2
            subst h1; subst h2
            exact .hit c x i hx hp ht
          · rename_i ht
            injection h with h; injection h with h1 h2
            subst h1; subst h2
            exact .miss c x hx hp ht
        · exact absurd h (by simp)
      · exact absurd h (by simp)
  | lock c =>
      rw [step] at h
      split at h
      · rename_i x hx
        split at h
        · rename_i i hp
          split at h
          · rename_i cell hc
            split at h
            · rename_i hfree
              injection h with h; injection h with h1 h2
              subst h1; subst h2
              exact .lock c x i cell hx hp hc hfree
            · exact absurd h (by simp)
          · exact absurd h (by simp)
        · exact absurd h (by simp)
      · exact absurd h (by simp)
  | push c =>
      rw [step] at h
      split at h
      · rename_i x hx
        split at h
        · rename_i i hp
          split at h
          · rename_i cell hc
            injection h with h; injection h with h1 h2
            subst h1; subst h2
            exact .push c x i cell hx hp hc
          · exact absurd h (by simp)
        · exact absurd h (by simp)
      · exact absurd h (by simp)
  | publish c =>
      rw [step] at h
      split at h
      · rename_i x hx
        split at h
        · rename_i i hp
          split at h
          · rename_i cell hc
            injection h with h; injection h with h1 h2
            subst h1; subst h2
            exact .publish c x i cell hx hp hc
          · exact absurd h (by simp)
        · exact absurd h (by simp)
      · exact absurd h (by simp)
  | insert c =>
      rw [step] at h
      split at h
      · rename_i x hx
        split at h
        · rename_i hp
          injection h with h; injection h with h1 h2
          subst h1; subst h2
          exact .insert c x hx hp.1 hp.2
        · exact absurd h (by simp)
      · exact absurd h (by simp)

/-! ## What was recorded -/

/-- The records of futures of type `ty`, in the order in which they were recorded. -/
def recordsOf (ty : τ) (t : List (Event τ)) : List OneFutureRecord :=
  t.filterMap (fun e => if e.ty = ty then some e.record else none)

theorem recordsOf_append (ty : τ) (t u : List (Event τ)) :
    recordsOf ty (t ++ u) = recordsOf ty t ++ recordsOf ty u := List.filterMap_append

theorem recordsOf_other {ty ty' : τ} (h : ty' ≠ ty) (t : List (Event τ))
    (record : OneFutureRecord) :
    recordsOf ty (t ++ [{ ty := ty', record := record }]) = recordsOf ty t := by
  have hnone : recordsOf ty [{ ty := ty', record := record }] = [] := by
    unfold recordsOf
    rw [List.filterMap_cons, if_neg h]
    rfl
  rw [recordsOf_append, hnone, List.append_nil]

theorem recordsOf_same (ty : τ) (t : List (Event τ)) (record : OneFutureRecord) :
    recordsOf ty (t ++ [{ ty := ty, record := record }]) = recordsOf ty t ++ [record] := by
  have hone : recordsOf ty [{ ty := ty, record := record }] = [record] := by
    unfold recordsOf
    rw [List.filterMap_cons, if_pos rfl]
    rfl
  rw [recordsOf_append, hone]

/-- The record that a completing poll of type `ty` has put into a window. -/
def recordedBy (ty : τ) (x : Completion τ) : Option OneFutureRecord :=
  if x.ty = ty ∧ x.phase.recorded = true then some x.record else none

/-- All of them, poll by poll. -/
def recordedOf (ty : τ) (xs : List (Completion τ)) : List OneFutureRecord :=
  xs.filterMap (recordedBy ty)

/-- A poll records when it becomes one that has recorded. -/
inductive Logs (x : Completion τ) (phase : Phase) : List (Event τ) → Prop where
  | quiet (h : phase.recorded = x.phase.recorded) : Logs x phase []
  | records (h : x.phase.recorded = false) (h' : phase.recorded = true) :
      Logs x phase [{ ty := x.ty, record := x.record }]

theorem recordedOf_set {xs : List (Completion τ)} {c : Nat} {x : Completion τ} {phase : Phase}
    {t es : List (Event τ)} (hx : xs[c]? = some x) (hes : Logs x phase es) (ty : τ)
    (h : (recordsOf ty t).Perm (recordedOf ty xs)) :
    (recordsOf ty (t ++ es)).Perm (recordedOf ty (xs.set c { x with phase := phase })) := by
  unfold recordedOf at h ⊢
  cases hes with
  | quiet hsame =>
      have hby : recordedBy ty { x with phase := phase } = recordedBy ty x := by
        unfold recordedBy
        dsimp only
        rw [hsame]
      rw [List.append_nil, Lists.filterMap_set_same hx hby]
      exact h
  | records hold hnew =>
      by_cases hty : x.ty = ty
      · subst hty
        have hnone : recordedBy x.ty x = none := if_neg (by rw [hold]; simp)
        have hsome : recordedBy x.ty { x with phase := phase } = some x.record :=
          if_pos ⟨rfl, hnew⟩
        rw [recordsOf_same]
        have hold' := (List.perm_append_singleton x.record (recordsOf x.ty t)).trans
          (h.cons x.record)
        exact hold'.trans (Lists.filterMap_set_new hx hnone hsome).symm
      · have hby : recordedBy ty { x with phase := phase } = recordedBy ty x :=
          (if_neg (fun hand => hty hand.1)).trans (if_neg (fun hand => hty hand.1)).symm
        rw [recordsOf_other hty, Lists.filterMap_set_same hx hby]
        exact h

/-! ## What every step keeps -/

/-- The window of an entry and its rate, while nobody is between the two. -/
structure WindowOk (w : World τ) (t : List (Event τ)) (ty : τ) (i : Nat) (cell : Cell) : Prop where
  length : 1 ≤ cell.deque.length ∧ cell.deque.length ≤ 10
  /-- All its records are of futures of this type, and the last of them. -/
  suffix : cell.deque <:+ recordsOf ty t
  rate : cell.rate = meanRate cell.deque
    ∨ ∃ (c : Nat) (x : Completion τ), w.completions[c]? = some x ∧ x.phase = .pushed i

/-- Entries belong to types, and whoever works on one has its locks. -/
structure TableOk (w : World τ) (t : List (Event τ)) : Prop where
  cells : ∀ ty i, w.table ty = some i → i < w.cells.length
  own : ∀ ty ty' i, w.table ty = some i → w.table ty' = some i → ty = ty'
  /-- The read lock keeps the entry in the map. -/
  reading : ∀ (c : Nat) x i, w.completions[c]? = some x → x.phase.entry = some i →
    w.table x.ty = some i
  held : ∀ (c : Nat) x i cell, w.completions[c]? = some x →
    (x.phase = .locked i ∨ x.phase = .pushed i) → w.cells[i]? = some cell → cell.holder = some c
  windows : ∀ ty i cell, w.table ty = some i → w.cells[i]? = some cell → WindowOk w t ty i cell
  /-- Every record that was made is the one of a poll, and each poll makes one. -/
  recorded : ∀ ty, (recordsOf ty t).Perm (recordedOf ty w.completions)

theorem tableOk_init : TableOk (system τ).init [] where
  cells := by intro ty i h; exact absurd h (by simp [system])
  own := by intro ty ty' i h; exact absurd h (by simp [system])
  reading := by intro c x i h; exact absurd h (by simp [system])
  held := by intro c x i cell h; exact absurd h (by simp [system])
  windows := by intro ty i cell h; exact absurd h (by simp [system])
  recorded := fun _ => .nil

section
variable {w : World τ} {t es : List (Event τ)} {c i : Nat} {x : Completion τ} {phase : Phase}
  {cell cell' : Cell}

omit [DecidableEq τ] in
/-- A step of one completing poll leaves the others between their push and the new rate. -/
theorem pushed_goto {j : Nat} (hx : w.completions[c]? = some x) (hne : x.phase ≠ .pushed j)
    (h : ∃ (d : Nat) (y : Completion τ), w.completions[d]? = some y ∧ y.phase = .pushed j) :
    ∃ (d : Nat) (y : Completion τ), (w.goto c x phase).completions[d]? = some y
      ∧ y.phase = .pushed j := by
  obtain ⟨d, y, hd, hy⟩ := h
  have hdc : c ≠ d := by
    rintro rfl
    rw [hx] at hd
    injection hd with hd
    subst hd
    exact hne hy
  exact ⟨d, y, by rw [World.goto, List.getElem?_set_ne hdc]; exact hd, hy⟩

/-- While the mutex is free, nobody is between the push and the new rate. -/
theorem TableOk.published (h : TableOk w t) (hc : w.cells[i]? = some cell)
    (hfree : cell.holder = none) :
    ¬ ∃ (d : Nat) (y : Completion τ), w.completions[d]? = some y ∧ y.phase = .pushed i := by
  rintro ⟨d, y, hd, hy⟩
  have hholder := h.held d y i cell hd (.inr hy) hc
  rw [hfree] at hholder
  exact absurd hholder (by simp)

/-- A step in the life of a completing poll that works on no entry. -/
theorem TableOk.goto (h : TableOk w t) (hx : w.completions[c]? = some x)
    (hentry : ∀ i, phase.entry = some i → w.table x.ty = some i)
    (hheld : ∀ i, phase ≠ .locked i ∧ phase ≠ .pushed i) (hpushed : ∀ i, x.phase ≠ .pushed i)
    (hrec : phase.recorded = x.phase.recorded) : TableOk (w.goto c x phase) t where
  cells := h.cells
  own := h.own
  reading := by
    intro d y i hd hy
    rcases Lists.getElem?_set_cases hd with ⟨_, rfl⟩ | ⟨_, hd⟩
    · exact hentry i hy
    · exact h.reading d y i hd hy
  held := by
    intro d y i cell hd hy hc
    rcases Lists.getElem?_set_cases hd with ⟨_, rfl⟩ | ⟨_, hd⟩
    · exact (hy.elim (hheld i).1 (hheld i).2).elim
    · exact h.held d y i cell hd hy hc
  windows := by
    intro ty i cell ht hc
    obtain ⟨hlen, hsuf, hrate⟩ := h.windows ty i cell ht hc
    exact ⟨hlen, hsuf, hrate.imp id (pushed_goto hx (hpushed i))⟩
  recorded := by
    intro ty
    have := recordedOf_set hx (.quiet hrec) ty (h.recorded ty)
    rwa [List.append_nil] at this

theorem TableOk.work (h : TableOk w t) (hx : w.completions[c]? = some x)
    (hc : w.cells[i]? = some cell) (hentry : x.phase.entry = some i)
    (hstay : phase.entry = some i ∨ phase.entry = none)
    (halone : ∀ (d : Nat) y, w.completions[d]? = some y → d ≠ c →
      y.phase ≠ .locked i ∧ y.phase ≠ .pushed i)
    (hholder : phase = .locked i ∨ phase = .pushed i → cell'.holder = some c)
    (hes : Logs x phase es)
    (hwindow : WindowOk ((w.setCell i cell').goto c x phase) (t ++ es) x.ty i cell') :
    TableOk ((w.setCell i cell').goto c x phase) (t ++ es) := by
  have htable : w.table x.ty = some i := h.reading c x i hx hentry
  have hne : ∀ j, phase.entry = some j → j = i := by
    intro j hj
    rcases hstay with hstay | hstay
    · rw [hj] at hstay
      injection hstay
    · rw [hj] at hstay
      exact absurd hstay (by simp)
  refine ⟨?_, h.own, ?_, ?_, ?_, ?_⟩
  · intro ty j ht
    change j < (w.cells.set i cell').length
    rw [List.length_set]
    exact h.cells ty j ht
  · intro d y j hd hy
    -- the entry it works on is still the one in the map
    rcases Lists.getElem?_set_cases hd with ⟨_, rfl⟩ | ⟨_, hd⟩
    · rw [hne j hy]
      exact htable
    · exact h.reading d y j hd hy
  · intro d y j cell₁ hd hy hcell
    rcases Lists.getElem?_set_cases hd with ⟨hdc, rfl⟩ | ⟨hdc, hd⟩
    · have hj : j = i := by
        refine hne j ?_
        rcases hy with hy | hy
        · change phase = _ at hy
          rw [hy]
          rfl
        · change phase = _ at hy
          rw [hy]
          rfl
      subst hj
      rcases Lists.getElem?_set_cases hcell with ⟨_, rfl⟩ | ⟨hne', _⟩
      · rw [hdc]
        exact hholder hy
      · exact absurd rfl hne'
    · rcases Lists.getElem?_set_cases hcell with ⟨rfl, _⟩ | ⟨_, hcell⟩
      · obtain ⟨h1, h2⟩ := halone d y hd hdc
        exact (hy.elim h1 h2).elim
      · exact h.held d y j cell₁ hd hy hcell
  · intro ty j cell₁ ht hcell
    rcases Lists.getElem?_set_cases hcell with ⟨rfl, rfl⟩ | ⟨hji, hcell⟩
    · rw [h.own ty x.ty j ht htable]
      exact hwindow
    · -- another entry, and so one of another type
      obtain ⟨hlen, hsuf, hrate⟩ := h.windows ty j cell₁ ht hcell
      have hty : x.ty ≠ ty := by
        rintro rfl
        exact hji (Option.some.inj (htable.symm.trans ht)).symm
      refine ⟨hlen, ?_, hrate.imp id ?_⟩
      · cases hes with
        | quiet _ => rw [List.append_nil]; exact hsuf
        | records _ _ => rw [recordsOf_other hty]; exact hsuf
      · refine pushed_goto (w := w.setCell i cell') hx ?_
        intro hy
        rw [hy] at hentry
        injection hentry with hentry
        exact hji hentry
  · intro ty
    exact recordedOf_set hx hes ty (h.recorded ty)

/-- Who is not the holder of the mutex does not work on the window. -/
theorem TableOk.alone (h : TableOk w t) (hc : w.cells[i]? = some cell)
    (hholder : cell.holder = none ∨ cell.holder = some c) (d : Nat) (y : Completion τ)
    (hd : w.completions[d]? = some y) (hne : d ≠ c) :
    y.phase ≠ .locked i ∧ y.phase ≠ .pushed i := by
  have hnot : ¬ (y.phase = .locked i ∨ y.phase = .pushed i) := by
    intro hy
    have hmine := h.held d y i cell hd hy hc
    rcases hholder with hfree | hother
    · rw [hfree] at hmine
      exact absurd hmine (by simp)
    · rw [hother] at hmine
      exact hne (Option.some.inj hmine).symm
  exact ⟨fun hy => hnot (.inl hy), fun hy => hnot (.inr hy)⟩

/-- A new completing poll. -/
theorem TableOk.complete (h : TableOk w t) (ty : τ) (record : OneFutureRecord) :
    TableOk { w with completions := w.completions ++
      [{ ty := ty, record := record, phase := .called }] } t where
  cells := h.cells
  own := h.own
  reading := by
    intro d y i hd hy
    rcases Lists.getElem?_snoc_cases hd with hd | ⟨_, rfl⟩
    · exact h.reading d y i hd hy
    · exact absurd hy (by simp [Phase.entry])
  held := by
    intro d y i cell hd hy hc
    rcases Lists.getElem?_snoc_cases hd with hd | ⟨_, rfl⟩
    · exact h.held d y i cell hd hy hc
    · exact absurd hy (by simp)
  windows := by
    intro ty i cell ht hc
    obtain ⟨hlen, hsuf, hrate⟩ := h.windows ty i cell ht hc
    refine ⟨hlen, hsuf, hrate.imp id ?_⟩
    rintro ⟨d, y, hd, hy⟩
    exact ⟨d, y, Lists.getElem?_append_some hd _, hy⟩
  recorded := by
    intro ty'
    have hnew : recordedBy ty' { ty := ty, record := record, phase := .called } = none :=
      if_neg (by simp [Phase.recorded])
    unfold recordedOf
    rw [List.filterMap_append, List.filterMap_cons_none hnew, List.filterMap_nil, List.append_nil]
    exact h.recorded ty'

omit [DecidableEq τ] in
theorem noReader_entry (hfree : w.noReader = true) {y : Completion τ} {d : Nat}
    (hd : w.completions[d]? = some y) : y.phase.entry = none := by
  have hall := List.all_eq_true.mp hfree y (List.mem_of_getElem? hd)
  exact Option.isNone_iff_eq_none.mp hall

/-- A new entry, in the place of whatever entry there was. -/
theorem TableOk.insert (h : TableOk w t) (hx : w.completions[c]? = some x)
    (hp : x.phase = .missed) (hfree : w.noReader = true) :
    TableOk { w.goto c x .done with
        table := Function.update w.table x.ty (some w.cells.length)
        cells := w.cells ++ [{ rate := cpuRate x.record, deque := [x.record], holder := none }] }
      (t ++ [{ ty := x.ty, record := x.record }]) := by
  have hupdate : ∀ ty i, Function.update w.table x.ty (some w.cells.length) ty = some i →
      (ty = x.ty ∧ i = w.cells.length) ∨ (ty ≠ x.ty ∧ w.table ty = some i) := by
    intro ty i ht
    by_cases hty : ty = x.ty
    · subst hty
      rw [Function.update_self] at ht
      exact .inl ⟨rfl, (Option.some.inj ht).symm⟩
    · rw [Function.update_of_ne hty] at ht
      exact .inr ⟨hty, ht⟩
  -- nobody holds the read lock, before or after
  have hnone : ∀ (d : Nat) y, (w.completions.set c { x with phase := .done })[d]? = some y →
      y.phase.entry = none := by
    intro d y hd
    rcases Lists.getElem?_set_cases hd with ⟨_, rfl⟩ | ⟨_, hd⟩
    · rfl
    · exact noReader_entry hfree hd
  refine ⟨?_, ?_, ?_, ?_, ?_, ?_⟩
  · intro ty i ht
    dsimp only
    rw [List.length_append, List.length_singleton]
    rcases hupdate ty i ht with ⟨_, rfl⟩ | ⟨_, ht⟩
    · exact Nat.lt_succ_self _
    · exact Nat.lt_succ_of_lt (h.cells ty i ht)
  · intro ty ty' i ht ht'
    rcases hupdate ty i ht with ⟨rfl, rfl⟩ | ⟨_, hold⟩
    · rcases hupdate ty' _ ht' with ⟨rfl, _⟩ | ⟨_, hold'⟩
      · rfl
      · exact absurd (h.cells ty' _ hold') (Nat.lt_irrefl _)
    · rcases hupdate ty' i ht' with ⟨rfl, rfl⟩ | ⟨_, hold'⟩
      · exact absurd (h.cells ty _ hold) (Nat.lt_irrefl _)
      · exact h.own ty ty' i hold hold'
  · intro d y i hd hy
    rw [hnone d y hd] at hy
    exact absurd hy (by simp)
  · intro d y i cell hd hy _
    have hentry := hnone d y hd
    rcases hy with hy | hy
    · rw [hy] at hentry
      exact absurd hentry (by simp [Phase.entry])
    · rw [hy] at hentry
      exact absurd hentry (by simp [Phase.entry])
  · intro ty i cell ht hc
    rcases hupdate ty i ht with ⟨rfl, rfl⟩ | ⟨hne, hold⟩
    · rw [List.getElem?_concat_length] at hc
      injection hc with hc
      subst hc
      refine ⟨⟨Nat.le_refl 1, Nat.le_of_ble_eq_true rfl⟩, ?_, .inl ?_⟩
      · rw [recordsOf_same]
        exact List.suffix_append _ _
      · simp [meanRate]
    · have hlt := h.cells ty i hold
      dsimp only at hc
      rw [List.getElem?_append_left hlt] at hc
      obtain ⟨hlen, hsuf, hrate⟩ := h.windows ty i cell hold hc
      refine ⟨hlen, ?_, .inl (hrate.resolve_right ?_)⟩
      · rw [recordsOf_other (fun heq => hne heq.symm)]
        exact hsuf
      · rintro ⟨d, y, hd, hy⟩
        have hentry := noReader_entry hfree hd
        rw [hy] at hentry
        exact absurd hentry (by simp [Phase.entry])
  · intro ty
    have hlogs : Logs x .done [{ ty := x.ty, record := x.record }] :=
      .records (by rw [hp]; rfl) rfl
    exact recordedOf_set hx hlogs ty (h.recorded ty)

end

/-- **Every step keeps the table.** -/
theorem tableOk_step {w w' : World τ} {a : Action τ} {t es : List (Event τ)} (h : TableOk w t)
    (hm : TableMoves w a w' es) : TableOk w' (t ++ es) := by
  cases hm with
  | complete ty record =>
      rw [List.append_nil]
      exact h.complete ty record
  | hit c x i hx hp ht =>
      rw [List.append_nil]
      refine h.goto hx ?_ (fun _ => by simp) (fun _ => by rw [hp]; simp) (by rw [hp]; rfl)
      intro j hj
      injection hj with hj
      rw [← hj]
      exact ht
  | miss c x hx hp ht =>
      rw [List.append_nil]
      refine h.goto hx ?_ (fun _ => by simp) (fun _ => by rw [hp]; simp) (by rw [hp]; rfl)
      intro j hj
      exact absurd hj (by simp [Phase.entry])
  | lock c x i cell hx hp hc hfree =>
      have hentry : x.phase.entry = some i := by rw [hp]; rfl
      have hlogs : Logs x (.locked i) [] := .quiet (by rw [hp]; rfl)
      obtain ⟨hlen, hsuf, hrate⟩ := h.windows x.ty i cell (h.reading c x i hx hentry) hc
      refine h.work hx hc hentry (.inl rfl) (h.alone hc (.inl hfree)) (fun _ => rfl) hlogs ?_
      rw [List.append_nil]
      exact ⟨hlen, hsuf, .inl (hrate.resolve_right (h.published hc hfree))⟩
  | push c x i cell hx hp hc =>
      have hentry : x.phase.entry = some i := by rw [hp]; rfl
      have hlogs : Logs x (.pushed i) [{ ty := x.ty, record := x.record }] :=
        .records (by rw [hp]; rfl) rfl
      have hholder : cell.holder = some c := h.held c x i cell hx (.inl hp) hc
      have hlt : c < w.completions.length := (List.getElem?_eq_some_iff.mp hx).1
      obtain ⟨hlen, hsuf, _⟩ := h.windows x.ty i cell (h.reading c x i hx hentry) hc
      refine h.work hx hc hentry (.inl rfl) (h.alone hc (.inr hholder)) (fun _ => hholder) hlogs ?_
      -- until it publishes, the rate may be the one of the window before
      refine ⟨Window.length_push (by decide) hlen.2 x.record, ?_, .inr ?_⟩
      · rw [recordsOf_same]
        exact Window.push_suffix 10 hsuf x.record
      · exact ⟨c, _, List.getElem?_set_self hlt, rfl⟩
  | publish c x i cell hx hp hc =>
      have hentry : x.phase.entry = some i := by rw [hp]; rfl
      have hlogs : Logs x .done [] := .quiet (by rw [hp]; rfl)
      have hholder : cell.holder = some c := h.held c x i cell hx (.inr hp) hc
      obtain ⟨hlen, hsuf, _⟩ := h.windows x.ty i cell (h.reading c x i hx hentry) hc
      refine h.work hx hc hentry (.inr rfl) (h.alone hc (.inr hholder)) (by simp) hlogs ?_
      rw [List.append_nil]
      exact ⟨hlen, hsuf, .inl rfl⟩
  | insert c x hx hp hfree => exact h.insert hx hp hfree

theorem tableOk_exec {as : List (Action τ)} {w : World τ} {t : List (Event τ)}
    (h : (system τ).exec (system τ).init as = some (w, t)) : TableOk w t :=
  Lts.log_of_init tableOk_init (fun _ _ _ _ _ _ hp hs => tableOk_step hp (table_moves hs)) h

/-! ## What the table shows -/

/-- What the map shows for a type: the rate, and the window. -/
def entryOf (w : World τ) (ty : τ) : Option (ℚ × List OneFutureRecord) :=
  ((w.table ty).bind (fun i => w.cells[i]?)).map (fun cell => (cell.rate, cell.deque))

/-- The type of the future whose completing poll an action belongs to. -/
def typeOf (w : World τ) : Action τ → Option τ
  | .complete ty _ => some ty
  | .look c => (w.completions[c]?).map (fun x => x.ty)
  | .lock c => (w.completions[c]?).map (fun x => x.ty)
  | .push c => (w.completions[c]?).map (fun x => x.ty)
  | .publish c => (w.completions[c]?).map (fun x => x.ty)
  | .insert c => (w.completions[c]?).map (fun x => x.ty)

theorem entryOf_work {w : World τ} {t : List (Event τ)} (h : TableOk w t) {c i : Nat}
    {x : Completion τ} {phase : Phase} {cell' : Cell} (hx : w.completions[c]? = some x)
    (hentry : x.phase.entry = some i) {ty : τ} (hne : x.ty ≠ ty) :
    entryOf ((w.setCell i cell').goto c x phase) ty = entryOf w ty := by
  have htable := h.reading c x i hx hentry
  unfold entryOf World.goto World.setCell
  dsimp only
  cases ht : w.table ty with
  | none => rfl
  | some j =>
      have hij : i ≠ j := by
        rintro rfl
        exact hne (h.own x.ty ty i htable ht)
      rw [Option.bind_some, Option.bind_some, List.getElem?_set_ne hij]

/-- **A completing poll works for its own type.** -/
theorem entryOf_other {w w' : World τ} {a : Action τ} {t es : List (Event τ)} (h : TableOk w t)
    (hm : TableMoves w a w' es) {ty : τ} (hne : typeOf w a ≠ some ty) :
    entryOf w' ty = entryOf w ty := by
  have hother : ∀ (c : Nat) x, w.completions[c]? = some x →
      (w.completions[c]?).map (fun x => x.ty) ≠ some ty → x.ty ≠ ty := by
    intro c x hx hne heq
    rw [hx, Option.map_some, heq] at hne
    exact hne rfl
  cases hm with
  | complete ty' record => rfl
  | hit c x i hx hp ht => rfl
  | miss c x hx hp ht => rfl
  | lock c x i cell hx hp hc hfree =>
      exact entryOf_work h hx (by rw [hp]; rfl) (hother c x hx hne)
  | push c x i cell hx hp hc => exact entryOf_work h hx (by rw [hp]; rfl) (hother c x hx hne)
  | publish c x i cell hx hp hc => exact entryOf_work h hx (by rw [hp]; rfl) (hother c x hx hne)
  | insert c x hx hp hfree =>
      have hty : ty ≠ x.ty := fun heq => hother c x hx hne heq.symm
      unfold entryOf
      dsimp only
      rw [Function.update_of_ne hty]
      cases ht : w.table ty with
      | none => rfl
      | some j =>
          rw [Option.bind_some, Option.bind_some, List.getElem?_append_left (h.cells ty j ht)]

/-- A window that nobody is working on, and its rate. -/
structure Consistent (t : List (Event τ)) (ty : τ) (cell : Cell) : Prop where
  length : 1 ≤ cell.deque.length ∧ cell.deque.length ≤ 10
  /-- The records are the last ones of futures of this type. -/
  suffix : cell.deque <:+ recordsOf ty t
  /-- The rate is the mean of the records' own rates. -/
  rate : cell.rate = (cell.deque.map
      (fun record => (record.cpuMicro : ℚ) / (record.totalMicro : ℚ))).sum
    / (cell.deque.length : ℚ)

/--
**The table is consistent, and its types are apart.**

Under any interleaving of any completing polls, of any types.
-/
theorem record_table (τ : Type*) [DecidableEq τ] :
    (∀ as (w : World τ) t, (system τ).exec (system τ).init as = some (w, t) →
        ∀ ty i cell, w.table ty = some i → w.cells[i]? = some cell → cell.holder = none →
        Consistent t ty cell)
      ∧ ∀ (w : World τ) a w' t, (system τ).Reachable w → (system τ).step w a = some (w', t) →
        ∀ ty, typeOf w a ≠ some ty → entryOf w' ty = entryOf w ty := by
  refine ⟨?_, ?_⟩
  · intro as w t h ty i cell ht hc hfree
    have hok := tableOk_exec h
    obtain ⟨hlen, hsuf, hrate⟩ := hok.windows ty i cell ht hc
    have hmean : cell.rate = meanRate cell.deque := hrate.resolve_right (hok.published hc hfree)
    unfold meanRate cpuRate at hmean
    exact ⟨hlen, hsuf, hmean⟩
  · rintro w a w' t ⟨as, u, h⟩ hs ty hne
    exact entryOf_other (tableOk_exec h) (table_moves hs) hne

end RsRun.Proof
