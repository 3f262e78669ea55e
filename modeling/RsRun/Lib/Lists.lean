import Mathlib.Data.List.Basic

/-!
# Lists with one element changed

What the elements of a list are after one was rewritten, added at the end, or passed
through a function, as the case distinction that proofs about indexed state need.
-/

namespace Lists

variable {α β : Type*} {xs : List α} {x y : α} {i j : Nat}

/-- An element of a list with one rewritten. -/
theorem getElem?_set_cases (h : (xs.set i x)[j]? = some y) :
    (j = i ∧ y = x) ∨ (j ≠ i ∧ xs[j]? = some y) := by
  by_cases hij : i = j
  · subst hij
    obtain ⟨hlt, _⟩ := List.getElem?_eq_some_iff.mp h
    rw [List.length_set] at hlt
    rw [List.getElem?_set_self hlt] at h
    injection h with h
    exact .inl ⟨rfl, h.symm⟩
  · rw [List.getElem?_set_ne hij] at h
    exact .inr ⟨fun hji => hij hji.symm, h⟩

/-- An element stays where it is when others come after it. -/
theorem getElem?_append_some (h : xs[i]? = some x) (ys : List α) : (xs ++ ys)[i]? = some x := by
  obtain ⟨hlt, _⟩ := List.getElem?_eq_some_iff.mp h
  rw [List.getElem?_append_left hlt]
  exact h

/-- An element of a list with one more at its end. -/
theorem getElem?_snoc_cases (h : (xs ++ [x])[j]? = some y) :
    xs[j]? = some y ∨ (j = xs.length ∧ y = x) := by
  rcases Nat.lt_or_ge j xs.length with hlt | hge
  · rw [List.getElem?_append_left hlt] at h
    exact .inl h
  · rw [List.getElem?_append_right hge] at h
    obtain ⟨hj, hy⟩ := List.getElem?_eq_some_iff.mp h
    rw [List.length_singleton] at hj
    refine .inr ⟨by omega, ?_⟩
    rw [← hy]
    simp

/-- An element of a list with a function applied at one place. -/
theorem getElem?_modify_cases {f : α → α} (h : (xs.modify i f)[j]? = some y) :
    ∃ x, xs[j]? = some x ∧ ((i = j ∧ y = f x) ∨ (i ≠ j ∧ y = x)) := by
  by_cases hij : i = j
  · subst hij
    rw [List.getElem?_modify_eq] at h
    obtain ⟨x, hx, heq⟩ := Option.map_eq_some_iff.mp h
    exact ⟨x, hx, .inl ⟨rfl, heq.symm⟩⟩
  · rw [List.getElem?_modify_ne f xs hij] at h
    exact ⟨y, h, .inr ⟨hij, rfl⟩⟩

/-- What one more element adds to a list that is read element by element. -/
theorem flatMap_snoc (f : α → List β) (xs : List α) (x : α) :
    (xs ++ [x]).flatMap f = xs.flatMap f ++ f x := by
  rw [List.flatMap_append, List.flatMap_singleton]

/-- What holds of all elements, and of one more. -/
theorem forall_mem_snoc {P : α → Prop} (h : ∀ y ∈ xs, P y) (hx : P x) : ∀ y ∈ xs ++ [x], P y := by
  intro y hy
  rcases List.mem_append.mp hy with hmem | hmem
  · exact h y hmem
  · rw [List.mem_singleton.mp hmem]
    exact hx

/-- A list around one of its elements, also when that one is rewritten. -/
theorem set_around (h : xs[i]? = some x) (y : α) :
    ∃ before after, xs = before ++ x :: after ∧ xs.set i y = before ++ y :: after := by
  obtain ⟨hlt, hget⟩ := List.getElem?_eq_some_iff.mp h
  refine ⟨xs.take i, xs.drop (i + 1), ?_, ?_⟩
  · rw [← hget, List.getElem_cons_drop, List.take_append_drop]
  · rw [List.set_eq_take_append_cons_drop, if_pos hlt]

theorem map_set_same {f : α → β} (h : xs[i]? = some x) (hf : f y = f x) :
    (xs.set i y).map f = xs.map f := by
  obtain ⟨before, after, hxs, hset⟩ := set_around h y
  rw [hset, hxs, List.map_append, List.map_append, List.map_cons, List.map_cons, hf]

variable {f : α → Option β} {b : β}

theorem filterMap_set_same (h : xs[i]? = some x) (hf : f y = f x) :
    (xs.set i y).filterMap f = xs.filterMap f := by
  obtain ⟨before, after, hxs, hset⟩ := set_around h y
  rw [hset, hxs, List.filterMap_append, List.filterMap_append, List.filterMap_cons,
    List.filterMap_cons, hf]

/-- Rewriting an element that was left out, so that it is in, adds one. -/
theorem filterMap_set_new (h : xs[i]? = some x) (hx : f x = none) (hy : f y = some b) :
    ((xs.set i y).filterMap f).Perm (b :: xs.filterMap f) := by
  obtain ⟨before, after, hxs, hset⟩ := set_around h y
  rw [hset, hxs, List.filterMap_append, List.filterMap_append, List.filterMap_cons_some hy,
    List.filterMap_cons_none hx]
  exact List.perm_middle

section
variable {γ : Type*} {R : α → γ → Prop} {zs : List γ} {z : γ}

/-- The partner of an element in a list that is related element by element. -/
theorem forall₂_partner (h : List.Forall₂ R xs zs) (hx : xs[i]? = some x) :
    ∃ z, zs[i]? = some z ∧ R x z := by
  induction h generalizing i with
  | nil => exact absurd hx (by simp)
  | @cons x' z' xs zs hhead _ ih =>
      cases i with
      | zero =>
          injection hx with hx
          subst hx
          exact ⟨z', rfl, hhead⟩
      | succ i => exact ih hx

/-- Two related lists with one element each rewritten, in the same place. -/
theorem forall₂_set (h : List.Forall₂ R xs zs) (hxz : R x z) (i : Nat) :
    List.Forall₂ R (xs.set i x) (zs.set i z) := by
  induction h generalizing i with
  | nil => exact .nil
  | cons hhead htail ih =>
      cases i with
      | zero => exact .cons hxz htail
      | succ i => exact .cons hhead (ih i)

/-- Two related lists with an element of the first rewritten. -/
theorem forall₂_set_left (h : List.Forall₂ R xs zs) (hz : zs[i]? = some z) (hxz : R x z) :
    List.Forall₂ R (xs.set i x) zs := by
  have hset := forall₂_set h hxz i
  obtain ⟨hi, hget⟩ := List.getElem?_eq_some_iff.mp hz
  rwa [← hget, List.set_getElem_self] at hset

end

end Lists
