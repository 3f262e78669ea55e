import Mathlib.Data.List.Induction

/-!
# Cadences

A sequence `f` says of every beat whether something is due at it. A list of what came
at each beat *follows* `f` when it agrees with it as far as it goes. Lists that follow
one sequence are determined by their length, and, if they stop where nothing is due,
already by how many beats passed at which nothing was.
-/

namespace Cadence

/-- What came at every beat is what `f` says. -/
def Follows (f : Nat → Bool) (l : List Bool) : Prop := ∀ i b, l[i]? = some b → b = f i

variable {f : Nat → Bool} {l l' : List Bool}

theorem follows_nil : Follows f [] := by
  intro i b h
  exact absurd h (by simp)

/-- One more beat. -/
theorem Follows.snoc (h : Follows f l) {b : Bool} (hb : b = f l.length) : Follows f (l ++ [b]) := by
  intro i x hx
  rcases Nat.lt_or_ge i l.length with hlt | hge
  · rw [List.getElem?_append_left hlt] at hx
    exact h i x hx
  · rw [List.getElem?_append_right hge] at hx
    obtain ⟨hi, heq⟩ := List.getElem?_eq_some_iff.mp hx
    have hzero : i = l.length := by rw [List.length_singleton] at hi; omega
    subst hzero
    rw [← heq, hb]
    simp

/-- An initial piece follows as well. -/
theorem Follows.append_left {r : List Bool} (h : Follows f (l ++ r)) : Follows f l := by
  intro i b hb
  obtain ⟨hlt, _⟩ := List.getElem?_eq_some_iff.mp hb
  exact h i b (by rw [List.getElem?_append_left hlt]; exact hb)

/-- A sequence that agrees with `f` on the beats of the list is followed too. -/
theorem Follows.congr (h : Follows f l) {g : Nat → Bool} (hfg : ∀ i, i < l.length → f i = g i) :
    Follows g l := by
  intro i b hb
  obtain ⟨hlt, _⟩ := List.getElem?_eq_some_iff.mp hb
  rw [h i b hb, hfg i hlt]

/-- Of two lists that follow one sequence the shorter is an initial piece of the longer. -/
theorem Follows.isPrefix (h : Follows f l) (h' : Follows f l') (hle : l.length ≤ l'.length) :
    l <+: l' := by
  rw [List.prefix_iff_getElem?]
  intro i hi
  have hi' : i < l'.length := by omega
  have h1 : l[i]? = some l[i] := List.getElem?_eq_getElem hi
  have h2 : l'[i]? = some l'[i] := List.getElem?_eq_getElem hi'
  rw [h2, h i _ h1, h' i _ h2]

/-- The longer of two lists that stop where nothing is due has more beats without anything. -/
theorem Follows.eq_of_le (h : Follows f l) (h' : Follows f l') (hle : l.length ≤ l'.length)
    (hcount : l.count false = l'.count false) (hstop : f l.length = false) : l = l' := by
  obtain ⟨r, rfl⟩ := h.isPrefix h' hle
  cases r with
  | nil => rw [List.append_nil]
  | cons b r =>
      have hb : b = f l.length := h' l.length b (by simp)
      rw [hstop] at hb
      subst hb
      rw [List.count_append, List.count_cons_self] at hcount
      omega

/-- **Where nothing is due, the beats at which nothing was determine the list.** -/
theorem Follows.eq_of_count (h : Follows f l) (h' : Follows f l')
    (hcount : l.count false = l'.count false) (hstop : f l.length = false)
    (hstop' : f l'.length = false) : l = l' := by
  rcases Nat.le_total l.length l'.length with hle | hle
  · exact h.eq_of_le h' hle hcount hstop
  · exact (h'.eq_of_le h hle hcount.symm hstop').symm

/-- If something came at two beats and at all between, it came at two in a row. -/
theorem Follows.adjacent {x y z : List Bool} (h : Follows f (x ++ true :: (y ++ true :: z)))
    (hy : false ∉ y) : f x.length = true ∧ f (x.length + 1) = true := by
  have hnext : (x ++ true :: (y ++ true :: z))[x.length + 1]? = some true := by
    rw [List.getElem?_append_right (by omega), Nat.add_sub_cancel_left]
    cases y with
    | nil => rfl
    | cons b y =>
        cases b with
        | true => rfl
        | false => exact absurd (List.mem_cons_self) hy
  exact ⟨(h x.length true (by simp)).symm, (h _ true hnext).symm⟩

/-! ## Every so many beats -/

/-- Something is due at every `m`-th beat. -/
def every (m i : Nat) : Bool := decide ((i + 1) % m = 0)

theorem every_eq_true {m i : Nat} : every m i = true ↔ (i + 1) % m = 0 := decide_eq_true_iff

/-- How often something was due. -/
theorem Follows.count_every {m : Nat} (h : Follows (every m) l) : l.count true = l.length / m := by
  induction l using List.reverseRec with
  | nil => rw [List.count_nil, List.length_nil, Nat.zero_div]
  | append_singleton l b ih =>
      have hb : b = every m l.length := h l.length b (by simp)
      rw [List.count_append, ih h.append_left, List.length_append, List.length_singleton,
        Nat.succ_div]
      by_cases hdue : m ∣ l.length + 1
      · have htrue : b = true := by rw [hb, every_eq_true]; exact Nat.mod_eq_zero_of_dvd hdue
        rw [if_pos hdue, htrue]
        rfl
      · have hfalse : b = false := by
          rw [hb, ← Bool.not_eq_true, every_eq_true]
          intro hz
          exact hdue (Nat.dvd_of_mod_eq_zero hz)
        rw [if_neg hdue, hfalse]
        rfl

/-- From the end of a period to the next time something is due it is a period. -/
theorem Follows.period {m : Nat} (hm : 0 < m) {pre x z : List Bool}
    (h : Follows (every m) (pre ++ x ++ true :: z)) (hpre : pre.length % m = 0)
    (hx : true ∉ x) : x.length + 1 = m := by
  have hlast : every m (pre ++ x).length = true := (h _ true (by simp)).symm
  rw [every_eq_true, List.length_append, Nat.add_assoc, Nat.add_mod, hpre, Nat.zero_add,
    Nat.mod_mod] at hlast
  have hge : m ≤ x.length + 1 := Nat.le_of_dvd (Nat.succ_pos _) (Nat.dvd_of_mod_eq_zero hlast)
  by_contra hne
  -- otherwise something was due in between
  have hlt : m - 1 < x.length := by omega
  have hmid : (pre ++ x ++ true :: z)[pre.length + (m - 1)]? = some x[m - 1] := by
    rw [List.append_assoc, List.getElem?_append_right (by omega), Nat.add_sub_cancel_left,
      List.getElem?_append_left hlt, List.getElem?_eq_getElem hlt]
  have hdue : every m (pre.length + (m - 1)) = true := by
    rw [every_eq_true, Nat.add_assoc, Nat.sub_add_cancel hm, Nat.add_mod_right, hpre]
  have htrue : x[m - 1] = true := by rw [h _ _ hmid, hdue]
  exact hx (htrue ▸ List.getElem_mem hlt)

/-- The first time something is due a period has passed. -/
theorem Follows.first {m : Nat} (hm : 0 < m) {x z : List Bool}
    (h : Follows (every m) (x ++ true :: z)) (hx : true ∉ x) : x.length + 1 = m := by
  have h' : Follows (every m) ([] ++ x ++ true :: z) := h
  exact h'.period hm (Nat.zero_mod m) hx

/-- Between two times something is due there is a period. -/
theorem Follows.gap {m : Nat} (hm : 0 < m) {x y z : List Bool}
    (h : Follows (every m) (x ++ true :: y ++ true :: z)) (hy : true ∉ y) : y.length + 1 = m := by
  have hdue : every m x.length = true := (h x.length true (by simp)).symm
  have hlen : (x ++ [true]).length % m = 0 := by
    rw [List.length_append, List.length_singleton]
    exact every_eq_true.mp hdue
  have h' : Follows (every m) (x ++ [true] ++ y ++ true :: z) := by
    rw [List.append_assoc, List.append_assoc, List.singleton_append]
    rw [List.append_assoc, List.cons_append] at h
    exact h
  exact h'.period hm hlen hy

end Cadence
