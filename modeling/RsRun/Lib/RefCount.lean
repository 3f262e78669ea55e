import RsRun.Lib.Lists

/-!
# Shared ownership

A program's variables hold values that share cells: a slot is empty, or holds a value
that names the cell it shares. A cell is alive as long as some slot shares it. The
lemmas say what becomes of the number of shares when a value is put into a new slot
and when a slot is emptied, which is all that clones, moves and drops do.
-/

namespace RefCount

variable {α : Type*} (cell : α → Nat)

/-- Does the slot hold a share of cell `c`? -/
def holds (c : Nat) (slot : Option α) : Bool := slot.any (fun a => cell a == c)

/-- The number of slots that share cell `c`. -/
def shares (c : Nat) (slots : List (Option α)) : Nat := slots.countP (holds cell c)

theorem holds_some (c : Nat) (a : α) : holds cell c (some a) = (cell a == c) := rfl

theorem holds_none (c : Nat) : holds cell c none = false := rfl

/-- A new slot adds its share. -/
theorem shares_push (c : Nat) (slots : List (Option α)) (a : α) :
    shares cell c (slots ++ [some a]) = shares cell c slots + if cell a = c then 1 else 0 := by
  unfold shares
  rw [List.countP_append, List.countP_singleton, holds_some]
  by_cases h : cell a = c
  · rw [if_pos (by rw [h]; exact beq_self_eq_true c), if_pos h]
  · rw [if_neg (by rw [beq_iff_eq]; exact h), if_neg h]

/-- A slot that is emptied gives its share back. -/
theorem shares_release (c : Nat) {slots : List (Option α)} {r : Nat} {a : α}
    (h : slots[r]? = some (some a)) :
    shares cell c (slots.set r none) + (if cell a = c then 1 else 0) = shares cell c slots := by
  obtain ⟨before, after, hslots, hset⟩ := Lists.set_around h none
  rw [hset, hslots, shares, shares, List.countP_append, List.countP_append, List.countP_cons,
    List.countP_cons, holds_some, holds_none]
  by_cases hc : cell a = c
  · simp only [hc, beq_self_eq_true, if_true, Bool.false_eq_true, if_false]
    omega
  · have hne : (cell a == c) = false := beq_eq_false_iff_ne.mpr hc
    simp only [hc, hne, Bool.false_eq_true, if_false]
    omega

/-- A value that takes the place of another one, and its share. -/
theorem shares_replace (c : Nat) {slots : List (Option α)} {r : Nat} {a b : α}
    (h : slots[r]? = some (some a)) (hcell : cell b = cell a) :
    shares cell c (slots.set r (some b)) = shares cell c slots := by
  obtain ⟨before, after, hslots, hset⟩ := Lists.set_around h (some b)
  rw [hset, hslots, shares, shares, List.countP_append, List.countP_append, List.countP_cons,
    List.countP_cons, holds_some, holds_some, hcell]

/-- A cell is shared if some slot holds a value that names it. -/
theorem shares_pos (c : Nat) (slots : List (Option α)) :
    0 < shares cell c slots ↔ ∃ a, some a ∈ slots ∧ cell a = c := by
  unfold shares
  rw [List.countP_pos_iff]
  constructor
  · intro h
    obtain ⟨slot, hmem, hslot⟩ := h
    cases slot with
    | none => exact absurd hslot (by simp [holds])
    | some a => exact ⟨a, hmem, eq_of_beq hslot⟩
  · intro h
    obtain ⟨a, hmem, ha⟩ := h
    exact ⟨some a, hmem, by rw [holds_some, ha]; exact beq_self_eq_true c⟩

end RefCount
