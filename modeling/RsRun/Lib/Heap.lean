import Mathlib.Logic.Function.Basic
import RsRun.Lib.RefCount

/-!
# Cells that are told of their owners

A heap of numbered cells, and how many owners each of them has, wherever these are kept. A
cell is put there with its first owner, and is told of every owner that comes or goes. Where
one such message keeps a cell in order for the owners it has, all cells always are.
-/

namespace RefCount

variable {C : Type*} {Ok : Nat → C → Prop} {clone drop f : C → C} {heap : Nat → Option C}
  {owners owners' : Nat → Nat} {next next' i j : Nat} {c : C}

/-- A cell is told something, if it is there. -/
def tell (f : C → C) (heap : Nat → Option C) (i : Nat) : Nat → Option C :=
  Function.update heap i ((heap i).map f)

/-- Cells are told, one after the other. -/
def tellAll (f : C → C) (heap : Nat → Option C) (is : List Nat) : Nat → Option C :=
  is.foldl (tell f) heap

/-- A new cell. -/
def put (heap : Nat → Option C) (x : Nat × C) : Nat → Option C :=
  Function.update heap x.1 (some x.2)

/-- New cells, one after the other. -/
def putAll (heap : Nat → Option C) (xs : List (Nat × C)) : Nat → Option C := xs.foldl put heap

/-- A cell that is in order stays so when it is told of an owner that comes or goes. -/
structure Rules (Ok : Nat → C → Prop) (clone drop : C → C) : Prop where
  clone : ∀ n c, 0 < n → Ok n c → Ok (n + 1) (clone c)
  drop : ∀ n c, Ok (n + 1) c → Ok n (drop c)

/-- Every cell is in order for its owners, and the numbers from `next` on are free. -/
structure Tracks (Ok : Nat → C → Prop) (heap : Nat → Option C) (owners : Nat → Nat)
    (next : Nat) : Prop where
  counted : ∀ i c, heap i = some c → Ok (owners i) c
  there : ∀ i, 0 < owners i → (heap i).isSome = true
  fresh : ∀ i, next ≤ i → heap i = none

@[simp] theorem tell_self (h : heap i = some c) : tell f heap i i = some (f c) := by
  unfold tell
  rw [Function.update_self, h]
  rfl

@[simp] theorem tell_of_ne (h : j ≠ i) : tell f heap i j = heap j := Function.update_of_ne h _ _

/-- A cell that was told something was there before. -/
theorem tell_cases (h : tell f heap i j = some c) :
    (j = i ∧ ∃ c₀, heap j = some c₀ ∧ c = f c₀) ∨ (j ≠ i ∧ heap j = some c) := by
  by_cases hj : j = i
  · subst hj
    unfold tell at h
    rw [Function.update_self, Option.map_eq_some_iff] at h
    obtain ⟨c₀, hc₀, hc⟩ := h
    exact .inl ⟨rfl, c₀, hc₀, hc.symm⟩
  · rw [tell_of_ne hj] at h
    exact .inr ⟨hj, h⟩

/-- Telling changes nothing about which cells there are. -/
theorem tell_isSome (f : C → C) (heap : Nat → Option C) (i j : Nat) :
    (tell f heap i j).isSome = (heap j).isSome := by
  by_cases hj : j = i
  · subst hj
    unfold tell
    rw [Function.update_self, Option.isSome_map]
  · rw [tell_of_ne hj]

theorem tell_free (f : C → C) (i : Nat) (h : heap j = none) : tell f heap i j = none := by
  have hsome := tell_isSome f heap i j
  rw [h] at hsome
  cases htell : tell f heap i j with
  | none => rfl
  | some c =>
      rw [htell] at hsome
      exact absurd hsome (by simp)

/-- A free number has no owners. -/
theorem Tracks.unowned (h : Tracks Ok heap owners next) (hi : next ≤ i) : owners i = 0 := by
  by_contra hne
  have hsome := h.there i (Nat.pos_of_ne_zero hne)
  rw [h.fresh i hi] at hsome
  exact absurd hsome (by simp)

/-- Cells stay in order when owners only move. -/
theorem Tracks.same (h : Tracks Ok heap owners next) (ho : ∀ j, owners' j = owners j) :
    Tracks Ok heap owners' next := by
  rw [funext ho]
  exact h

/-- Numbers may be left out. -/
theorem Tracks.skip (h : Tracks Ok heap owners next) (hle : next ≤ next') :
    Tracks Ok heap owners next' :=
  ⟨h.counted, h.there, fun i hi => h.fresh i (Nat.le_trans hle hi)⟩

/-- **A new cell**, with its first owner. -/
theorem Tracks.put (h : Tracks Ok heap owners next) (hi : next ≤ i) (hlt : i < next')
    (hc : Ok 1 c) (ho : ∀ j, owners' j = owners j + if i = j then 1 else 0) :
    Tracks Ok (put heap (i, c)) owners' next' := by
  unfold RefCount.put
  dsimp only
  refine ⟨?_, ?_, ?_⟩
  · intro j d hd
    rw [ho]
    by_cases hj : j = i
    · subst hj
      rw [Function.update_self] at hd
      injection hd with hd
      rw [if_pos rfl, h.unowned hi, ← hd]
      exact hc
    · rw [Function.update_of_ne hj] at hd
      rw [if_neg (Ne.symm hj)]
      exact h.counted j d hd
  · intro j hj
    by_cases hji : j = i
    · subst hji
      rw [Function.update_self]
      rfl
    · rw [ho, if_neg (Ne.symm hji)] at hj
      rw [Function.update_of_ne hji]
      exact h.there j hj
  · intro j hj
    rw [Function.update_of_ne (by omega)]
    exact h.fresh j (by omega)

/-- **New cells**, numbered in order. -/
theorem Tracks.putAll {xs : List (Nat × C)} (h : Tracks Ok heap owners next)
    (hsorted : (xs.map Prod.fst).Pairwise (· < ·)) (hle : ∀ x ∈ xs, next ≤ x.1)
    (hlt : ∀ x ∈ xs, x.1 < next') (hnext : next ≤ next') (hok : ∀ x ∈ xs, Ok 1 x.2)
    (ho : ∀ j, owners' j = owners j + (xs.map Prod.fst).count j) :
    Tracks Ok (putAll heap xs) owners' next' := by
  induction xs generalizing heap owners next with
  | nil => exact (h.same ho).skip hnext
  | cons x xs ih =>
      rw [List.map_cons, List.pairwise_cons] at hsorted
      have hx : x.1 < next' := hlt x List.mem_cons_self
      have hone : Tracks Ok (RefCount.put heap x)
          (fun j => owners j + if x.1 = j then 1 else 0) (x.1 + 1) :=
        h.put (hle x List.mem_cons_self) (Nat.lt_succ_self _) (hok x List.mem_cons_self)
          (fun _ => rfl)
      refine ih hone hsorted.2 ?_ ?_ hx ?_ ?_
      · exact fun y hy => hsorted.1 y.1 (List.mem_map_of_mem hy)
      · exact fun y hy => hlt y (List.mem_cons_of_mem _ hy)
      · exact fun y hy => hok y (List.mem_cons_of_mem _ hy)
      · intro j
        rw [ho, List.map_cons, List.count_cons]
        simp only [beq_iff_eq]
        omega

/-- **An owner comes**, and the cell is told. -/
theorem Tracks.comes (hrules : Rules Ok clone drop) (h : Tracks Ok heap owners next)
    (hi : 0 < owners i) (ho : ∀ j, owners' j = owners j + if i = j then 1 else 0) :
    Tracks Ok (tell clone heap i) owners' next := by
  refine ⟨?_, ?_, ?_⟩
  · intro j d hd
    rw [ho]
    rcases tell_cases hd with ⟨hj, d₀, hd₀, hdd⟩ | ⟨hj, hd⟩
    · rw [if_pos hj.symm, hdd]
      exact hrules.clone _ _ (hj ▸ hi) (h.counted j d₀ hd₀)
    · rw [if_neg (Ne.symm hj)]
      exact h.counted j d hd
  · intro j hj
    rw [tell_isSome]
    rw [ho] at hj
    by_cases hji : i = j
    · exact h.there j (hji ▸ hi)
    · rw [if_neg hji] at hj
      exact h.there j hj
  · exact fun j hj => tell_free clone i (h.fresh j hj)

/-- **An owner goes**, and the cell is told. -/
theorem Tracks.goes (hrules : Rules Ok clone drop) (h : Tracks Ok heap owners next)
    (ho : ∀ j, owners' j + (if i = j then 1 else 0) = owners j) :
    Tracks Ok (tell drop heap i) owners' next := by
  refine ⟨?_, ?_, ?_⟩
  · intro j d hd
    rcases tell_cases hd with ⟨hj, d₀, hd₀, hdd⟩ | ⟨hj, hd⟩
    · have hok := h.counted j d₀ hd₀
      rw [← ho, if_pos hj.symm] at hok
      rw [hdd]
      exact hrules.drop _ _ hok
    · have hok := h.counted j d hd
      rw [← ho, if_neg (Ne.symm hj)] at hok
      exact hok
  · intro j hj
    rw [tell_isSome]
    refine h.there j ?_
    rw [← ho]
    omega
  · exact fun j hj => tell_free drop i (h.fresh j hj)

/-- **Owners go**, one after the other. -/
theorem Tracks.allGo (hrules : Rules Ok clone drop) {is : List Nat}
    (h : Tracks Ok heap owners next) (ho : ∀ j, owners' j + is.count j = owners j) :
    Tracks Ok (tellAll drop heap is) owners' next := by
  induction is generalizing heap owners with
  | nil => exact h.same (fun j => ho j)
  | cons i is ih =>
      have hone : Tracks Ok (tell drop heap i) (fun j => owners' j + is.count j) next := by
        refine h.goes hrules (fun j => ?_)
        rw [← ho, List.count_cons]
        simp only [beq_iff_eq]
        omega
      exact ih hone (fun _ => rfl)

/-- A cell may be told what does not concern its owners. -/
theorem Tracks.told (hf : ∀ n c, Ok n c → Ok n (f c)) (h : Tracks Ok heap owners next) (i : Nat) :
    Tracks Ok (tell f heap i) owners next := by
  refine ⟨?_, ?_, ?_⟩
  · intro j d hd
    rcases tell_cases hd with ⟨_, d₀, hd₀, hdd⟩ | ⟨_, hd⟩
    · rw [hdd]
      exact hf _ _ (h.counted j d₀ hd₀)
    · exact h.counted j d hd
  · intro j hj
    rw [tell_isSome]
    exact h.there j hj
  · exact fun j hj => tell_free f i (h.fresh j hj)

/-! ## What a cell keeps -/

/-- A property that messages keep stays with the cells that are there. -/
theorem tell_keeps {P : C → Prop} (hf : ∀ c, P c → P (f c)) (h : ∃ c, heap j = some c ∧ P c) :
    ∃ c, tell f heap i j = some c ∧ P c := by
  obtain ⟨c, hc, hp⟩ := h
  by_cases hj : j = i
  · subst hj
    exact ⟨f c, tell_self hc, hf c hp⟩
  · exact ⟨c, (tell_of_ne hj).trans hc, hp⟩

theorem tellAll_keeps {P : C → Prop} (hf : ∀ c, P c → P (f c)) {is : List Nat}
    (h : ∃ c, heap j = some c ∧ P c) : ∃ c, tellAll f heap is j = some c ∧ P c := by
  induction is generalizing heap with
  | nil => exact h
  | cons i is ih => exact ih (tell_keeps hf h)

/-- New cells leave the others alone. -/
theorem putAll_of_not_mem {xs : List (Nat × C)} (h : j ∉ xs.map Prod.fst) :
    putAll heap xs j = heap j := by
  induction xs generalizing heap with
  | nil => rfl
  | cons x xs ih =>
      rw [List.map_cons, List.mem_cons, not_or] at h
      exact (ih h.2).trans (Function.update_of_ne h.1 _ _)

theorem tellAll_isSome (f : C → C) (heap : Nat → Option C) (is : List Nat) (j : Nat) :
    (tellAll f heap is j).isSome = (heap j).isSome := by
  induction is generalizing heap with
  | nil => rfl
  | cons i is ih => exact (ih _).trans (tell_isSome f heap i j)

/-- New cells are there. -/
theorem putAll_isSome {xs : List (Nat × C)} (h : j ∈ xs.map Prod.fst ∨ (heap j).isSome = true) :
    (putAll heap xs j).isSome = true := by
  induction xs generalizing heap with
  | nil =>
      rcases h with h | h
      · exact absurd h List.not_mem_nil
      · exact h
  | cons x xs ih =>
      refine ih ?_
      by_cases hj : j = x.1
      · refine .inr ?_
        unfold put
        rw [hj, Function.update_self]
        rfl
      · rcases h with h | h
        · rw [List.map_cons, List.mem_cons] at h
          exact .inl (h.resolve_left hj)
        · refine .inr ?_
          unfold put
          rw [Function.update_of_ne hj]
          exact h

/-! ## Owners in slots -/

/-- The shares of a cell, counted among the cells that the slots name. -/
theorem shares_eq_count {α : Type*} (cell : α → Nat) (i : Nat) (slots : List (Option α)) :
    shares cell i slots = ((slots.filterMap id).map cell).count i := by
  induction slots with
  | nil => rfl
  | cons slot slots ih =>
      unfold shares at ih ⊢
      cases slot with
      | none =>
          rw [List.countP_cons, ih, holds_none]
          rfl
      | some a =>
          rw [List.countP_cons, ih, holds_some, List.filterMap_cons]
          exact (List.count_cons ..).symm

end RefCount
