import Mathlib.Algebra.Ring.Nat
import Mathlib.Data.List.Basic
import Mathlib.Tactic.Ring

/-!
# Meters that pay in whole units

A meter adds up what it is fed, modulo some `M`. It is fed only while it shows at most
one unit `u`; once it shows more, all whole units are paid at once and the remainder
stays. So nothing is lost while the modulus is not reached, two payments never follow
each other, and what is fed determines what is paid and when.
-/

namespace Meter

/-- What happens to a meter. -/
inductive Mark where
  | fed (n : Nat)
  | paid (k : Nat)
deriving DecidableEq, Repr

/-- One mark on a meter that shows `a`; `none` when it cannot be made. -/
def step (u M : Nat) : Nat → Mark → Option Nat
  | a, .fed n => if a ≤ u then some ((a + n) % M) else none
  | a, .paid k => if u < a ∧ k = a / u then some (a % u) else none

/-- A sequence of marks. -/
def run (u M : Nat) : Nat → List Mark → Option Nat
  | a, [] => some a
  | a, m :: ms => (step u M a m).bind (fun b => run u M b ms)

/-- What a meter was fed, in order. -/
def feeds : List Mark → List Nat
  | [] => []
  | .fed n :: ms => n :: feeds ms
  | .paid _ :: ms => feeds ms

/-- What a meter paid, in order. -/
def pays : List Mark → List Nat
  | [] => []
  | .fed _ :: ms => pays ms
  | .paid k :: ms => k :: pays ms

theorem feeds_append (ms ns : List Mark) : feeds (ms ++ ns) = feeds ms ++ feeds ns := by
  induction ms with
  | nil => rfl
  | cons m ms ih =>
      cases m with
      | fed n => rw [List.cons_append, feeds, feeds, ih, List.cons_append]
      | paid k => rw [List.cons_append, feeds, feeds, ih]

theorem pays_append (ms ns : List Mark) : pays (ms ++ ns) = pays ms ++ pays ns := by
  induction ms with
  | nil => rfl
  | cons m ms ih =>
      cases m with
      | fed n => rw [List.cons_append, pays, pays, ih]
      | paid k => rw [List.cons_append, pays, pays, ih, List.cons_append]

theorem pays_map_paid (ks : List Nat) : pays (ks.map .paid) = ks := by
  induction ks with
  | nil => rfl
  | cons k ks ih => rw [List.map_cons, pays, ih]

theorem feeds_map_paid (ks : List Nat) : feeds (ks.map .paid) = [] := by
  induction ks with
  | nil => rfl
  | cons k ks ih => rw [List.map_cons, feeds, ih]

variable {u M : Nat}

theorem step_fed {a b n : Nat} (h : step u M a (.fed n) = some b) :
    a ≤ u ∧ b = (a + n) % M := by
  rw [step] at h
  split at h
  · injection h with h
    exact ⟨by assumption, h.symm⟩
  · exact absurd h (by simp)

theorem step_paid {a b k : Nat} (h : step u M a (.paid k) = some b) :
    u < a ∧ k = a / u ∧ b = a % u := by
  rw [step] at h
  split at h
  · rename_i hdue
    injection h with h
    exact ⟨hdue.1, hdue.2, h.symm⟩
  · exact absurd h (by simp)

theorem run_cons {a c : Nat} {m : Mark} {ms : List Mark} (h : run u M a (m :: ms) = some c) :
    ∃ b, step u M a m = some b ∧ run u M b ms = some c := by
  rw [run, Option.bind_eq_some_iff] at h
  exact h

theorem run_append {ns : List Mark} {c : Nat} (ms : List Mark) : ∀ {a : Nat},
    run u M a (ms ++ ns) = some c ↔ ∃ b, run u M a ms = some b ∧ run u M b ns = some c := by
  induction ms with
  | nil =>
      intro a
      exact ⟨fun h => ⟨a, rfl, h⟩, fun ⟨b, hb, h⟩ => by injection hb with hb; subst hb; exact h⟩
  | cons m ms ih =>
      intro a
      rw [List.cons_append, run, run]
      cases step u M a m with
      | none => exact ⟨fun h => absurd h (by simp), fun ⟨b, hb, _⟩ => absurd hb (by simp)⟩
      | some b => exact ih

/-- One more mark. -/
theorem run_snoc {a b c : Nat} {ms : List Mark} {m : Mark} (h : run u M a ms = some b)
    (hs : step u M b m = some c) : run u M a (ms ++ [m]) = some c := by
  rw [run_append]
  refine ⟨b, h, ?_⟩
  rw [run, hs]
  rfl

/-- A meter never shows the modulus. -/
theorem run_lt {ms : List Mark} (hu : 0 < u) (hM : u ≤ M) : ∀ {a b : Nat}, a < M →
    run u M a ms = some b → b < M := by
  induction ms with
  | nil =>
      intro a b ha h
      injection h with h; subst h
      exact ha
  | cons m ms ih =>
      intro a c ha h
      obtain ⟨b, hs, hr⟩ := run_cons h
      refine ih ?_ hr
      cases m with
      | fed n => rw [(step_fed hs).2]; exact Nat.mod_lt _ (Nat.lt_of_lt_of_le hu hM)
      | paid k => rw [(step_paid hs).2.2]; exact Nat.lt_of_lt_of_le (Nat.mod_lt _ hu) hM

/-- Every payment is of one unit at least. -/
theorem run_pays_pos {ms : List Mark} (hu : 0 < u) : ∀ {a b : Nat}, run u M a ms = some b →
    ∀ k ∈ pays ms, 1 ≤ k := by
  induction ms with
  | nil =>
      intro a b _ k hk
      exact absurd hk List.not_mem_nil
  | cons m ms ih =>
      intro a c h k hk
      obtain ⟨b, hs, hr⟩ := run_cons h
      cases m with
      | fed n => exact ih hr k hk
      | paid k' =>
          obtain ⟨hdue, hk', _⟩ := step_paid hs
          rcases List.mem_cons.mp hk with rfl | hk
          · rw [hk']
            exact Nat.div_pos (Nat.le_of_lt hdue) hu
          · exact ih hr k hk

/--
**Conservation.**

What was there and what was fed is what is there and what was paid, while the sum
does not reach the modulus.
-/
theorem run_balance {ms : List Mark} : ∀ {a b : Nat}, run u M a ms = some b →
    a + (feeds ms).sum < M → a + (feeds ms).sum = b + u * (pays ms).sum := by
  induction ms with
  | nil =>
      intro a b h _
      obtain rfl : a = b := Option.some.inj h
      rfl
  | cons m ms ih =>
      intro a c h hlt
      obtain ⟨b, hs, hr⟩ := run_cons h
      cases m with
      | fed n =>
          obtain ⟨_, hb⟩ := step_fed hs
          rw [feeds, List.sum_cons] at hlt ⊢
          rw [Nat.mod_eq_of_lt (by omega)] at hb
          have := ih hr (by omega)
          rw [pays]
          omega
      | paid k =>
          obtain ⟨_, hk, hb⟩ := step_paid hs
          rw [feeds] at hlt ⊢
          have hdiv := Nat.div_add_mod a u
          have hle : b ≤ a := by rw [hb]; exact Nat.mod_le a u
          have := ih hr (by omega)
          rw [pays, List.sum_cons, Nat.mul_add, hk]
          omega

/-- After a payment a meter shows less than a unit. -/
theorem step_paid_lt (hu : 0 < u) {a b k : Nat} (h : step u M a (.paid k) = some b) : b < u := by
  rw [(step_paid h).2.2]
  exact Nat.mod_lt a hu

/-- Without being fed, a meter that shows no more than a unit does nothing. -/
theorem unfed {ms : List Mark} {a b : Nat} (ha : a ≤ u) (h : run u M a ms = some b)
    (hfeeds : feeds ms = []) : ms = [] := by
  cases ms with
  | nil => rfl
  | cons m ms =>
      obtain ⟨c, hs, _⟩ := run_cons h
      cases m with
      | fed n => exact absurd hfeeds (by simp [feeds])
      | paid k =>
          have := (step_paid hs).1
          omega

/-- Between two payments a meter is fed. -/
theorem fed_between (hu : 0 < u) {pre mid post : List Mark} {k k' a b : Nat}
    (h : run u M a (pre ++ .paid k :: (mid ++ .paid k' :: post)) = some b) : feeds mid ≠ [] := by
  intro hfeeds
  obtain ⟨c, _, h⟩ := (run_append pre).mp h
  obtain ⟨d, hs, h⟩ := run_cons h
  obtain ⟨e, hmid, h⟩ := (run_append mid).mp h
  have hd := step_paid_lt hu hs
  have hnil := unfed (Nat.le_of_lt hd) hmid hfeeds
  rw [hnil] at hmid
  injection hmid with hmid
  obtain ⟨_, hs', _⟩ := run_cons h
  have := (step_paid hs').1
  omega

/-- One sequence of marks is the other, but for a payment at the end. -/
def SameButLast (ms ns : List Mark) : Prop :=
  ms = ns ∨ (∃ k, ms = ns ++ [.paid k]) ∨ ∃ k, ns = ms ++ [.paid k]

theorem SameButLast.cons {ms ns : List Mark} (h : SameButLast ms ns) (m : Mark) :
    SameButLast (m :: ms) (m :: ns) := by
  rcases h with rfl | ⟨k, rfl⟩ | ⟨k, rfl⟩
  · exact .inl rfl
  · exact .inr (.inl ⟨k, rfl⟩)
  · exact .inr (.inr ⟨k, rfl⟩)

/-- The payments of the two agree, one by one. -/
theorem SameButLast.pays {ms ns : List Mark} (h : SameButLast ms ns) {i k k' : Nat}
    (hk : (pays ms)[i]? = some k) (hk' : (pays ns)[i]? = some k') : k = k' := by
  rcases h with rfl | ⟨_, rfl⟩ | ⟨_, rfl⟩
  · exact Option.some.inj (hk.symm.trans hk')
  · obtain ⟨hlt, _⟩ := List.getElem?_eq_some_iff.mp hk'
    rw [pays_append, List.getElem?_append_left hlt] at hk
    exact Option.some.inj (hk.symm.trans hk')
  · obtain ⟨hlt, _⟩ := List.getElem?_eq_some_iff.mp hk
    rw [pays_append, List.getElem?_append_left hlt] at hk'
    exact Option.some.inj (hk.symm.trans hk')

/-- A meter that is not fed pays at most once. -/
theorem sameButLast_nil (hu : 0 < u) {ms : List Mark} {a b : Nat} (h : run u M a ms = some b)
    (hfeeds : feeds ms = []) : ms = [] ∨ ∃ k, ms = [.paid k] := by
  cases ms with
  | nil => exact .inl rfl
  | cons m ms =>
      obtain ⟨c, hs, hr⟩ := run_cons h
      cases m with
      | fed n => exact absurd hfeeds (by simp [feeds])
      | paid k =>
          rw [unfed (Nat.le_of_lt (step_paid_lt hu hs)) hr hfeeds]
          exact .inr ⟨k, rfl⟩

/-- **What a meter is fed determines what it pays, and when.** -/
theorem run_determined (hu : 0 < u) {ms : List Mark} : ∀ {ns : List Mark} {a b b' : Nat},
    run u M a ms = some b → run u M a ns = some b' → feeds ms = feeds ns →
    SameButLast ms ns := by
  induction ms with
  | nil =>
      intro ns a b b' _ h' hfeeds
      rcases sameButLast_nil hu h' hfeeds.symm with rfl | ⟨k, rfl⟩
      · exact .inl rfl
      · exact .inr (.inr ⟨k, rfl⟩)
  | cons m ms ih =>
      intro ns a b b' h h' hfeeds
      cases ns with
      | nil =>
          rcases sameButLast_nil hu h hfeeds with hnil | ⟨k, hk⟩
          · exact absurd hnil (by simp)
          · exact .inr (.inl ⟨k, hk⟩)
      | cons n ns =>
          obtain ⟨c, hs, hr⟩ := run_cons h
          obtain ⟨c', hs', hr'⟩ := run_cons h'
          -- whether a payment is due is up to what the meter shows
          cases m with
          | fed x =>
              obtain ⟨hle, hc⟩ := step_fed hs
              cases n with
              | fed y =>
                  injection hfeeds with hxy hfeeds
                  subst hxy
                  rw [(step_fed hs').2, ← hc] at hr'
                  exact (ih hr hr' hfeeds).cons _
              | paid k =>
                  have := (step_paid hs').1
                  omega
          | paid k =>
              obtain ⟨hdue, hk, hc⟩ := step_paid hs
              cases n with
              | fed y =>
                  have := (step_fed hs').1
                  omega
              | paid k' =>
                  obtain ⟨_, hk', hc'⟩ := step_paid hs'
                  rw [hc', ← hc] at hr'
                  rw [hk', ← hk]
                  exact (ih hr hr' hfeeds).cons _

/-- Where nothing is due any more, the sequences are the same. -/
theorem eq_of_settled {ms ns : List Mark} {a b b' : Nat} (h : run u M a ms = some b)
    (h' : run u M a ns = some b') (hb : b ≤ u) (hb' : b' ≤ u) (hsame : SameButLast ms ns) :
    ms = ns := by
  rcases hsame with heq | ⟨k, rfl⟩ | ⟨k, rfl⟩
  · exact heq
  · obtain ⟨c, hc, hlast⟩ := (run_append ns).mp h
    rw [hc] at h'
    injection h' with h'
    obtain ⟨_, hs, _⟩ := run_cons hlast
    have := (step_paid hs).1
    omega
  · obtain ⟨c, hc, hlast⟩ := (run_append ms).mp h'
    rw [hc] at h
    injection h with h
    obtain ⟨_, hs, _⟩ := run_cons hlast
    have := (step_paid hs).1
    omega

end Meter
