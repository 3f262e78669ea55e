import Mathlib.Data.List.Basic

/-!
# Windows on a history

A window of size `n` keeps what was pushed last: one more goes in at the back, and once
there are more than `n`, the oldest goes out at the front.
-/

namespace Window

variable {α : Type*}

/-- Push to the back; pop the front if that makes more than `n`. -/
def push (n : Nat) (w : List α) (x : α) : List α :=
  if n < (w ++ [x]).length then (w ++ [x]).tail else w ++ [x]

/-- The last `n` of a history. -/
def last (n : Nat) (l : List α) : List α := l.drop (l.length - n)

theorem length_push {n : Nat} (hn : 0 < n) {w : List α} (hw : w.length ≤ n) (x : α) :
    1 ≤ (push n w x).length ∧ (push n w x).length ≤ n := by
  unfold push
  by_cases hfull : n < (w ++ [x]).length
  · rw [if_pos hfull, List.length_tail]
    rw [List.length_append, List.length_singleton] at hfull ⊢
    omega
  · rw [if_neg hfull]
    rw [List.length_append, List.length_singleton] at hfull ⊢
    omega

/-- What is pushed is the end of the history that it is recorded in. -/
theorem push_suffix (n : Nat) {w l : List α} (h : w <:+ l) (x : α) :
    push n w x <:+ l ++ [x] := by
  obtain ⟨old, rfl⟩ := h
  have hall : w ++ [x] <:+ old ++ w ++ [x] := ⟨old, (List.append_assoc ..).symm⟩
  unfold push
  split
  · exact (List.tail_suffix _).trans hall
  · exact hall

/-- **A window shows the last of its history**, if it was the only one. -/
theorem push_last (n : Nat) (l : List α) (x : α) : push n (last n l) x = last n (l ++ [x]) := by
  unfold push last
  rw [List.length_append, List.length_singleton, List.length_drop, List.length_append,
    List.length_singleton]
  by_cases hfull : l.length < n
  · have h0 : l.length - n = 0 := by omega
    have h1 : l.length + 1 - n = 0 := by omega
    rw [h0, h1, List.drop_zero, List.drop_zero, if_neg (by omega)]
  · have h1 : l.length + 1 - n = l.length - n + 1 := by omega
    rw [if_pos (by omega), h1, ← List.drop_append_of_le_length (Nat.sub_le _ _),
      List.tail_drop]

theorem length_last (n : Nat) (l : List α) : (last n l).length = min l.length n := by
  unfold last
  rw [List.length_drop]
  omega

end Window
