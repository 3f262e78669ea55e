import Mathlib.Algebra.Ring.Nat
import Mathlib.Data.List.Basic
import Mathlib.Tactic.Ring

/-!
# Spans of time, measured in whole units

The time between two moments is the spans in between, each rounded down to whole
units, and what this leaves over: the parts that were rounded away, and the time in
no span.
-/

namespace Intervals

/-- The time some spans take. -/
def covered (l : List (Nat × Nat)) : Nat := (l.map (fun s => s.2 - s.1)).sum

/-- The whole units of time some spans take, counted span by span. -/
def wholes (u : Nat) (l : List (Nat × Nat)) : Nat := (l.map (fun s => (s.2 - s.1) / u)).sum

/-- What is rounded away. -/
def fractions (u : Nat) (l : List (Nat × Nat)) : Nat := (l.map (fun s => (s.2 - s.1) % u)).sum

/-- The moments at which spans begin and end, in order. -/
def points (l : List (Nat × Nat)) : List Nat := l.flatMap (fun s => [s.1, s.2])

/-- The time from `a` to `e` in none of the whole units of the spans in between. -/
def spare (u a e : Nat) (l : List (Nat × Nat)) : Nat := e - a - covered l + fractions u l

@[simp] theorem wholes_append (u : Nat) (l m : List (Nat × Nat)) :
    wholes u (l ++ m) = wholes u l + wholes u m := by
  unfold wholes
  rw [List.map_append, List.sum_append]

@[simp] theorem points_append (l m : List (Nat × Nat)) :
    points (l ++ m) = points l ++ points m := List.flatMap_append

/-- Whole units and fractions make up the time. -/
theorem covered_eq (u : Nat) (l : List (Nat × Nat)) :
    covered l = u * wholes u l + fractions u l := by
  induction l with
  | nil => rfl
  | cons s l ih =>
      unfold covered wholes fractions at ih ⊢
      rw [List.map_cons, List.map_cons, List.map_cons, List.sum_cons, List.sum_cons, List.sum_cons,
        ih, Nat.mul_add]
      have := Nat.div_add_mod (s.2 - s.1) u
      omega

/-- Spans that follow each other fit between the moments around them. -/
theorem covered_le {e : Nat} {l : List (Nat × Nat)} : ∀ {a : Nat}, a ≤ e →
    (points l).Pairwise (· ≤ ·) → (∀ x ∈ points l, a ≤ x) → (∀ x ∈ points l, x ≤ e) →
    a + covered l ≤ e := by
  induction l with
  | nil =>
      intro a hae _ _ _
      exact hae
  | cons s l ih =>
      intro a _ hsorted ha he
      change (s.1 :: s.2 :: points l).Pairwise (· ≤ ·) at hsorted
      obtain ⟨hfst, hrest⟩ := List.pairwise_cons.mp hsorted
      obtain ⟨hsnd, hrest⟩ := List.pairwise_cons.mp hrest
      have hbegin : a ≤ s.1 := ha s.1 List.mem_cons_self
      have hspan : s.1 ≤ s.2 := hfst s.2 List.mem_cons_self
      have hend : s.2 ≤ e := he s.2 (List.mem_cons_of_mem _ List.mem_cons_self)
      have htail := ih hend hrest hsnd
        (fun x hx => he x (List.mem_cons_of_mem _ (List.mem_cons_of_mem _ hx)))
      change a + ((s.2 - s.1) + covered l) ≤ e
      omega

/--
**Whole units against whole time.**

The whole units of spans that lie between `a` and `e` fit into the time from `b` to
`e` exactly if what comes before `b` is spare.
-/
theorem wholes_le_iff {u a b e : Nat} {l : List (Nat × Nat)} (hu : 0 < u) (hab : a ≤ b)
    (hbe : b ≤ e) (hl : a + covered l ≤ e) :
    wholes u l ≤ (e - b) / u ↔ b - a ≤ spare u a e l := by
  rw [Nat.le_div_iff_mul_le hu, Nat.mul_comm]
  have := covered_eq u l
  unfold spare
  omega

/-- They fit into the time from `a` to `e` in any case. -/
theorem wholes_le {u a e : Nat} {l : List (Nat × Nat)} (hu : 0 < u) (hl : a + covered l ≤ e) :
    wholes u l ≤ (e - a) / u := by
  rw [wholes_le_iff hu (Nat.le_refl a) (by omega) hl, Nat.sub_self]
  exact Nat.zero_le _

end Intervals
