import Mathlib.Tactic.Ring
import RsRun.Lib.Lists

/-!
# Gauges under labels

A gauge for each label, which goes up and down by one and wraps at its width. The gauges
show how many elements of a list are counted under each label, as long as every change of
the list comes with the change of the gauges that belongs to it.
-/

/-- A gauge for each label, with values of `w` bits. -/
structure Gauges (κ : Type*) (w : Nat) where
  value : κ → BitVec w

namespace Gauges

variable {κ α : Type*} [DecidableEq κ] {w : Nat}

/-- Gauges that nobody has touched yet. -/
def zero (κ : Type*) (w : Nat) : Gauges κ w := ⟨fun _ => 0⟩

/-- One gauge is changed. -/
def add (g : Gauges κ w) (l : κ) (d : BitVec w) : Gauges κ w :=
  ⟨fun k => if k = l then g.value k + d else g.value k⟩

/-- One gauge goes up. -/
def inc (g : Gauges κ w) (l : κ) : Gauges κ w := g.add l 1

/-- One gauge goes down. -/
def dec (g : Gauges κ w) (l : κ) : Gauges κ w := g.add l (-1)

/-! ## Counting -/

/-- How many elements are counted under `l`, when `f` says where each is counted, if at all. -/
def tally (f : α → Option κ) (l : κ) (xs : List α) : Nat := xs.countP (fun x => f x = some l)

variable {f : α → Option κ} {xs : List α} {x y : α} {k : Nat}

theorem tally_push (l : κ) :
    tally f l (xs ++ [y]) = tally f l xs + if f y = some l then 1 else 0 := by
  unfold tally
  rw [List.countP_append, List.countP_singleton]
  by_cases h : f y = some l
  · rw [if_pos (decide_eq_true h), if_pos h]
  · rw [if_neg (by rw [decide_eq_true_eq]; exact h), if_neg h]

theorem tally_set (h : xs[k]? = some x) (l : κ) :
    tally f l (xs.set k y) + (if f x = some l then 1 else 0)
      = tally f l xs + if f y = some l then 1 else 0 := by
  obtain ⟨before, after, hxs, hset⟩ := Lists.set_around h y
  unfold tally
  rw [hset, hxs, List.countP_append, List.countP_append, List.countP_cons, List.countP_cons]
  simp only [decide_eq_true_eq]
  omega

/-- Nothing is counted under a label that no element names. -/
theorem tally_eq_zero_iff {l : κ} : tally f l xs = 0 ↔ ∀ x ∈ xs, f x ≠ some l := by
  unfold tally
  rw [List.countP_eq_zero]
  simp only [decide_eq_true_eq]

/-- Elements that are no longer counted might as well be gone. -/
theorem tally_silenced {l : κ} {g : α → α} {p : α → Bool} (hkept : ∀ x, p x = true → f (g x) = f x)
    (hsilent : ∀ x, p x = false → f (g x) = none) :
    tally f l (xs.map g) = tally f l (xs.filter p) := by
  unfold tally
  rw [List.countP_map, List.countP_filter]
  refine List.countP_congr ?_
  intro x _
  rw [Function.comp_apply, decide_eq_true_eq, Bool.and_eq_true, decide_eq_true_eq]
  cases hp : p x with
  | true =>
      rw [hkept x hp]
      exact ⟨fun h => ⟨h, rfl⟩, fun h => h.1⟩
  | false =>
      rw [hsilent x hp]
      exact ⟨fun h => absurd h (by simp), fun h => absurd h.2 (by simp)⟩

/-! ## What the gauges show -/

/-- Every gauge shows the number of elements counted under its label, up to its width. -/
def Shows (g : Gauges κ w) (f : α → Option κ) (xs : List α) : Prop :=
  ∀ l, g.value l = BitVec.ofNat w (tally f l xs)

variable {g : Gauges κ w} {l : κ}

theorem shows_zero (f : α → Option κ) : Shows (zero κ w) f [] := fun _ => rfl

/-- One element more under `l`. -/
theorem Shows.more {ys : List α} (h : Shows g f xs)
    (hmore : ∀ m, tally f m ys = tally f m xs + if some l = some m then 1 else 0) :
    Shows (g.inc l) f ys := by
  intro m
  show (if m = l then g.value m + 1 else g.value m) = _
  rw [hmore m, h m]
  by_cases hm : m = l
  · rw [if_pos hm, if_pos (by rw [hm]), BitVec.ofNat_add]
    rfl
  · rw [if_neg hm, if_neg (fun heq => hm (Option.some.inj heq).symm), Nat.add_zero]

/-- One element less under `l`. -/
theorem Shows.less {ys : List α} (h : Shows g f xs)
    (hless : ∀ m, tally f m ys + (if some l = some m then 1 else 0) = tally f m xs) :
    Shows (g.dec l) f ys := by
  intro m
  show (if m = l then g.value m + -1 else g.value m) = _
  rw [h m, ← hless m]
  by_cases hm : m = l
  · rw [if_pos hm, if_pos (by rw [hm]), BitVec.ofNat_add, ← BitVec.sub_eq_add_neg]
    exact BitVec.add_sub_cancel _ _
  · rw [if_neg hm, if_neg (fun heq => hm (Option.some.inj heq).symm), Nat.add_zero]

theorem Shows.same {ys : List α} (h : Shows g f xs) (hsame : ∀ m, tally f m ys = tally f m xs) :
    Shows g f ys := by
  intro m
  rw [hsame m]
  exact h m

/-- A new element that is counted. -/
theorem Shows.push (h : Shows g f xs) (hy : f y = some l) : Shows (g.inc l) f (xs ++ [y]) := by
  refine h.more ?_
  intro m
  rw [tally_push, hy]

/-- A new element that is not counted. -/
theorem Shows.push_none (h : Shows g f xs) (hy : f y = none) : Shows g f (xs ++ [y]) := by
  refine h.same ?_
  intro m
  rw [tally_push, hy, if_neg (by simp), Nat.add_zero]

/-- An element is counted from now on. -/
theorem Shows.raise (h : Shows g f xs) (hk : xs[k]? = some x) (hx : f x = none)
    (hy : f y = some l) : Shows (g.inc l) f (xs.set k y) := by
  refine h.more ?_
  intro m
  have hset := tally_set (f := f) (y := y) hk m
  rw [hx, hy, if_neg (by simp), Nat.add_zero] at hset
  exact hset

/-- An element is no longer counted. -/
theorem Shows.lower (h : Shows g f xs) (hk : xs[k]? = some x) (hx : f x = some l)
    (hy : f y = none) : Shows (g.dec l) f (xs.set k y) := by
  refine h.less ?_
  intro m
  have hset := tally_set (f := f) (y := y) hk m
  rw [hx, hy, if_neg (show ¬ (none : Option κ) = some m by simp), Nat.add_zero] at hset
  exact hset

/-- An element changes, and is counted where it was. -/
theorem Shows.keep (h : Shows g f xs) (hk : xs[k]? = some x) (hxy : f y = f x) :
    Shows g f (xs.set k y) := by
  refine h.same ?_
  intro m
  have hset := tally_set (f := f) (y := y) hk m
  rw [hxy] at hset
  exact Nat.add_right_cancel hset

/-- A number kept in `w + 1` bits reads as itself, with a sign, if it fits beside the sign. -/
theorem toInt_ofNat_eq_iff (w n : Nat) :
    (BitVec.ofNat (w + 1) n).toInt = (n : Int) ↔ n < 2 ^ w := by
  constructor
  · intro h
    have hlt := BitVec.two_mul_toInt_lt (x := BitVec.ofNat (w + 1) n)
    rw [h, Int.pow_succ] at hlt
    have hpow : ((2 ^ w : Nat) : Int) = (2 : Int) ^ w := Int.natCast_pow 2 w
    omega
  · intro h
    rw [BitVec.toInt_ofNat']
    refine Int.bmod_eq_of_le ?_ ?_
    · omega
    · rw [Nat.pow_succ]
      omega

/-- **A gauge reads as what it counts exactly while that fits.** -/
theorem Shows.exact_iff {g : Gauges κ (w + 1)} (h : Shows g f xs) (l : κ) :
    (g.value l).toInt = (tally f l xs : Int) ↔ tally f l xs < 2 ^ w := by
  rw [h l]
  exact toInt_ofNat_eq_iff w _

end Gauges
