import RsRun.Lib.HeldPool
import RsRun.Lib.Simulation

/-!
# Throttling wrappers refine the futures inside them

A pool of wrappers against a pool of the same futures spawned as they are. What can be seen
of either is which futures are spawned and aborted, when the future inside a task calls its
waker, and how it is polled and what it answers. A task that a wrapper holds back is one
that the other pool has in its run queue.
-/

namespace Async

variable {ψ σ ι φ ω ν χ : Type*}

/-- What can be seen of a spawned future without looking at its wrapper. -/
inductive Seen (ψ ω ν : Type*) where
  | spawned (x : ψ)
  | polled (k : Nat) (cx : Cx ω) (answer : Poll ν)
  | woke (k : Nat)
  | aborted (k : Nat)

/-- What can be seen of an event. -/
def PoolEvent.seen : PoolEvent ψ σ ι ω ν χ → List (Seen ψ ω ν)
  | .spawned x => [.spawned x]
  | .polled k turn => (innerPolls turn.out.acts).map (fun q => .polled k q.1 q.2)
  | .woke k => [.woke k]
  | .aborted k => [.aborted k]

/-- Is the future inside to be polled as soon as its wrapper lets it? -/
def Task.due (t : Task σ ν) : Bool := t.queued || t.timer.isSome

/-- The same task in a pool of wrappers and in one of the futures inside. -/
structure Matches (inner : σ → φ) (t : Task σ ν) (u : Task φ ν) : Prop where
  fate : u.fate = t.fate
  wrapper : t.fate = .live → u.wrapper = inner t.wrapper
  kept : t.fate = .live → u.kept = t.kept
  queued : t.fate = .live → u.queued = t.due

/-- The two pools have the same tasks, up to those of which `P` says it need not be so. -/
structure PoolsMatch (inner : σ → φ) (P : Task σ ν → Prop) (p : Pool σ ν) (q : Pool φ ν) :
    Prop where
  length : p.tasks.length = q.tasks.length
  tasks : ∀ (k : Nat) (t : Task σ ν) (u : Task φ ν), p.tasks[k]? = some t →
    q.tasks[k]? = some u → P t ∨ Matches inner t u

section
variable {inner : σ → φ} {P : Task σ ν → Prop} {p : Pool σ ν} {q : Pool φ ν}

/-- The counterpart of a task. -/
theorem PoolsMatch.partner (h : PoolsMatch inner P p q) {k : Nat} {t : Task σ ν}
    (ht : p.tasks[k]? = some t) : ∃ u, q.tasks[k]? = some u ∧ (P t ∨ Matches inner t u) := by
  have hk : k < q.tasks.length := by
    rw [← h.length]
    exact (List.getElem?_eq_some_iff.mp ht).1
  exact ⟨_, List.getElem?_eq_getElem hk, h.tasks k t _ ht (List.getElem?_eq_getElem hk)⟩

theorem PoolsMatch.partner' (h : PoolsMatch inner P p q) {k : Nat} {u : Task φ ν}
    (hu : q.tasks[k]? = some u) : ∃ t, p.tasks[k]? = some t ∧ (P t ∨ Matches inner t u) := by
  have hk : k < p.tasks.length := by
    rw [h.length]
    exact (List.getElem?_eq_some_iff.mp hu).1
  exact ⟨_, List.getElem?_eq_getElem hk, h.tasks k _ u (List.getElem?_eq_getElem hk) hu⟩

/-- One task goes on in both pools. -/
theorem PoolsMatch.put (h : PoolsMatch inner P p q) {k m n : Nat} {t : Task σ ν} {u : Task φ ν}
    (hrel : P t ∨ Matches inner t u) :
    PoolsMatch inner P ({ p with now := m }.put k t) ({ q with now := n }.put k u) := by
  refine ⟨?_, ?_⟩
  · unfold Pool.put
    dsimp only
    rw [List.length_set, List.length_set, h.length]
  · intro j t' u' ht' hu'
    rcases Lists.getElem?_set_cases ht' with ⟨hj, ht'⟩ | ⟨hj, ht'⟩
    · rcases Lists.getElem?_set_cases hu' with ⟨_, hu'⟩ | ⟨hj', _⟩
      · rw [ht', hu']
        exact hrel
      · exact absurd hj hj'
    · rcases Lists.getElem?_set_cases hu' with ⟨hj', _⟩ | ⟨_, hu'⟩
      · exact absurd hj' hj
      · exact h.tasks j t' u' ht' hu'

theorem Pool.put_self_eq {k : Nat} {t : Task σ ν} (h : p.tasks[k]? = some t) : p.put k t = p := by
  unfold Pool.put
  obtain ⟨hk, hget⟩ := List.getElem?_eq_some_iff.mp h
  rw [← hget, List.set_getElem_self]

/-- One task goes on in the pool of wrappers only. -/
theorem PoolsMatch.left (h : PoolsMatch inner P p q) {k m : Nat} {t : Task σ ν} {u : Task φ ν}
    (hu : q.tasks[k]? = some u) (hrel : P t ∨ Matches inner t u) :
    PoolsMatch inner P ({ p with now := m }.put k t) q := by
  have hboth := h.put (k := k) (m := m) (n := q.now) hrel
  rw [Pool.put_self_eq (p := { q with now := q.now }) hu] at hboth
  exact hboth

/-- The same future is spawned in both pools. -/
theorem PoolsMatch.spawn (h : PoolsMatch inner P p q) {s : σ} {f : φ} (hi : inner s = f) :
    PoolsMatch inner P { p with tasks := p.tasks ++ [Task.new s] }
      { q with tasks := q.tasks ++ [Task.new f] } := by
  refine ⟨?_, ?_⟩
  · dsimp only
    rw [List.length_append, List.length_append, h.length]
    rfl
  · intro j t u ht hu
    rcases Lists.getElem?_snoc_cases ht with ht' | ⟨hj, ht'⟩
    · rcases Lists.getElem?_snoc_cases hu with hu' | ⟨hj', _⟩
      · exact h.tasks j t u ht' hu'
      · have hlt := (List.getElem?_eq_some_iff.mp ht').1
        rw [hj', ← h.length] at hlt
        exact absurd hlt (Nat.lt_irrefl _)
    · rcases Lists.getElem?_snoc_cases hu with hu' | ⟨_, hu'⟩
      · have hlt := (List.getElem?_eq_some_iff.mp hu').1
        rw [hj, h.length] at hlt
        exact absurd hlt (Nat.lt_irrefl _)
      · rw [ht', hu']
        exact .inr ⟨rfl, fun _ => hi.symm, fun _ => rfl, fun _ => rfl⟩

/-- The clocks do not matter. -/
theorem PoolsMatch.clocks (h : PoolsMatch inner P p q) (m n : Nat) :
    PoolsMatch inner P { p with now := m } { q with now := n } := ⟨h.length, h.tasks⟩

end

/-! ## A pool of bare futures -/

/-- A pool that polls the futures it was given. -/
def barePool (make : ψ → φ) (pollF : φ → Cx ω → φ × Poll ν) :
    Lts (Pool φ ν) (PoolAction ψ (Cx ω)) (PoolEvent ψ φ (Cx ω) ω ν χ) :=
  pool make id (barePoll pollF)

section
variable {pollF : φ → Cx ω → φ × Poll ν} {inner : σ → φ} {stored : σ → Option Sleep}
  {chk : Bool} {make : ψ → σ} {bare : ψ → φ} {cx : ι → Cx ω} {poll : σ → ι → Polled σ ω ν χ}

/-- A future is the throttling wrapper of itself that never holds it back. -/
theorem bare_held (pollF : φ → Cx ω → φ × Poll ν) (f : φ) (cx : Cx ω) :
    Held (χ := χ) pollF id (fun _ => none) false cx f (barePoll pollF f cx) :=
  .polled [] [] [] .clear rfl (.inl rfl) rfl rfl

/-- So a poll of it is a poll of it. -/
theorem bare_handled {c : Cx ω} {now lag : Nat} {u u' : Task φ ν}
    (h : Handled pollF id (fun _ => none) false c now lag u
      (barePoll (χ := χ) pollF u.wrapper c) u') :
    u' = { wrapper := (pollF u.wrapper c).1, fate := (pollF u.wrapper c).2.outcome.fate,
           queued := false, timer := none, kept := keeps c.waker u.kept (pollF u.wrapper c).2 } := by
  have hacts : innerPolls (barePoll (χ := χ) pollF u.wrapper c).acts
      = [(c, (pollF u.wrapper c).2)] := rfl
  cases h with
  | still tm htm hf hin => rw [hacts] at hin; exact absurd hin (by simp)
  | inserted d he hin => rw [hacts] at hin; exact absurd hin (by simp)
  | woken d he hlag hin => rw [hacts] at hin; exact absurd hin (by simp)
  | polled fate he hin hsl hfate hs hi =>
      rcases hfate with hfate | ⟨_, hc⟩
      · rw [hfate]
        rfl
      · exact absurd hc (by simp)
  | overflowed he hin => rw [hacts] at hin; exact absurd hin (by simp)

/-- The runtime can always follow it. -/
theorem bare_follow (c : Cx ω) (now lag : Nat) {u : Task φ ν} (ht : u.timer = none) :
    (u.polled (barePoll (χ := χ) pollF u.wrapper c)).follow lag now
        (barePoll (χ := χ) pollF u.wrapper c).acts
      = some { wrapper := (pollF u.wrapper c).1, fate := (pollF u.wrapper c).2.outcome.fate,
               queued := false, timer := none,
               kept := keeps c.waker u.kept (pollF u.wrapper c).2 } := by
  unfold barePoll
  dsimp only
  cases hv : (pollF u.wrapper c).2 with
  | ready v =>
      rw [Task.follow, Task.follow, Task.polled, ht]
      rfl
  | pending =>
      rw [Task.follow, Task.follow, Task.polled, ht]
      rfl

/-- And does so in one step. -/
theorem bare_polls (bare : ψ → φ) (pollF : φ → Cx ω → φ × Poll ν) {q : Pool φ ν} {k : Nat}
    {u : Task φ ν} (hu : q.tasks[k]? = some u) (hlive : u.fate = .live) (hq : u.queued = true)
    (ht : u.timer = none) {c : Cx ω} (hw : c.waker = k) (lag : Nat) :
    (barePool (χ := χ) bare pollF).step q (.poll k c lag)
      = some ({ q with now := q.now + lag }.put k
          { wrapper := (pollF u.wrapper c).1, fate := (pollF u.wrapper c).2.outcome.fate,
            queued := false, timer := none, kept := keeps c.waker u.kept (pollF u.wrapper c).2 },
        [.polled k ⟨u.wrapper, c, barePoll pollF u.wrapper c⟩]) :=
  pool_poll bare id (barePoll pollF) hu hlive hq hw (bare_follow c q.now lag ht) rfl

/-! ## Every run of the wrappers is one of the futures inside -/

/-- A task that has panicked. -/
def Task.crashed (t : Task σ ν) : Prop := t.fate = .panicked

/-- The counterpart of a live task. -/
theorem PoolsMatch.live {p : Pool σ ν} {q : Pool φ ν} (h : PoolsMatch inner Task.crashed p q)
    {k : Nat} {t : Task σ ν} (ht : p.tasks[k]? = some t) (hlive : t.fate = .live) :
    ∃ u, q.tasks[k]? = some u ∧ Matches inner t u := by
  obtain ⟨u, hu, hcrash | hpart⟩ := h.partner ht
  · exact absurd (hlive.symm.trans hcrash) (by simp)
  · exact ⟨u, hu, hpart⟩

/-- A task whose future is held back matches what it matched before. -/
theorem Matches.hold {t t' : Task σ ν} {u : Task φ ν} (h : Matches inner t u)
    (hlive : t.fate = .live) (hfate : t'.fate = t.fate)
    (hi : inner t'.wrapper = inner t.wrapper) (hkept : t'.kept = t.kept) (hdue : t'.due = t.due) :
    Matches inner t' u := by
  refine ⟨h.fate.trans hfate.symm, fun _ => ?_, fun _ => ?_, fun _ => ?_⟩
  · rw [hi]
    exact h.wrapper hlive
  · rw [hkept]
    exact h.kept hlive
  · rw [hdue]
    exact h.queued hlive

/-- **The refinement.** -/
theorem held_refines (hheld : ∀ s i, Held pollF inner stored chk (cx i) s (poll s i))
    (hmake : ∀ x, stored (make x) = none) (hinner : ∀ x, inner (make x) = bare x) :
    Lts.Simulation (pool make cx poll) (barePool (χ := χ) bare pollF) PoolEvent.seen PoolEvent.seen
      (PoolsMatch inner Task.crashed) := by
  refine ⟨⟨rfl, fun k t u ht => absurd ht (by simp [pool])⟩, ?_⟩
  intro p q a p' es hreach hreach' hrel hs
  have hok := held_reachable hheld hmake hreach
  have hok' := held_reachable (bare_held pollF) (fun _ => rfl) hreach'
  cases held_step hheld hok hs with
  | spawned x =>
      exact Lts.exec_match (pool_spawn bare id (barePoll pollF) q x) rfl (hrel.spawn (hinner x))
  | @polled k i lag t t' ht hlive hq hw h =>
      obtain ⟨u, hu, hpart⟩ := hrel.live ht hlive
      have hdue : t.due = true := by
        rw [Task.due, hq]
        rfl
      have hu_live : u.fate = .live := hpart.fate.trans hlive
      -- a poll that does not come to the future inside is nothing to the other pool
      have hstutter : ∀ t' : Task σ ν, innerPolls (poll t.wrapper i).acts = [] →
          t'.crashed ∨ Matches inner t' u →
          ∃ bs q' vs, (barePool (χ := χ) bare pollF).exec q bs = some (q', vs)
            ∧ vs.flatMap PoolEvent.seen = [PoolEvent.polled (ψ := ψ) k
                ⟨t.wrapper, i, poll t.wrapper i⟩].flatMap PoolEvent.seen
            ∧ PoolsMatch inner Task.crashed ({ p with now := p.now + lag }.put k t') q' := by
        intro t' hin hrel'
        refine Lts.exec_stutter ?_ (hrel.left hu hrel')
        rw [List.flatMap_singleton, PoolEvent.seen, hin]
        rfl
      cases h with
      | still tm htm hf hin hsl hst hi =>
          refine hstutter _ hin (.inr (hpart.hold hlive rfl hi rfl ?_))
          rw [hdue]
          rfl
      | inserted d he hin hsl hst hi =>
          refine hstutter _ hin (.inr (hpart.hold hlive rfl hi rfl ?_))
          rw [hdue]
          rfl
      | woken d he hlag hin hsl hst hi =>
          refine hstutter _ hin (.inr (hpart.hold hlive rfl hi rfl ?_))
          rw [hdue]
          rfl
      | overflowed he hin hsl hc => exact hstutter _ hin (.inl rfl)
      | polled fate he hin hsl hfate hst hi =>
          have htimer : u.timer = none := by
            have := (hok' k u hu).timer hu_live
            rw [← Option.not_isSome_iff_eq_none, ← this]
            simp
          have hwr := hpart.wrapper hlive
          have hu_queued : u.queued = true := (hpart.queued hlive).trans hdue
          refine Lts.exec_match (bare_polls bare pollF hu hu_live hu_queued htimer hw lag) ?_ ?_
          · rw [List.flatMap_singleton, List.flatMap_singleton, PoolEvent.seen, PoolEvent.seen, hin,
              ← hwr]
            rfl
          · refine hrel.put ?_
            rcases hfate with hfate | ⟨hfate, _⟩
            · refine .inr ⟨?_, fun _ => ?_, fun _ => ?_, fun _ => rfl⟩
              · rw [hwr, hfate]
              · rw [hwr, hi]
              · rw [hwr, hpart.kept hlive]
            · exact .inl hfate
  | @woke k t ht hlive hk =>
      obtain ⟨u, hu, hpart⟩ := hrel.live ht hlive
      have hstep := pool_wake bare id (barePoll (χ := χ) pollF) hu (hpart.fate.trans hlive)
        ((hpart.kept hlive).trans hk)
      refine Lts.exec_match hstep rfl (hrel.put (m := p.now) (n := q.now) (.inr ?_))
      exact ⟨hpart.fate, hpart.wrapper, hpart.kept, fun _ => rfl⟩
  | @fired k t tm ht hlive htm hf hd =>
      obtain ⟨u, hu, hpart⟩ := hrel.live ht hlive
      refine Lts.exec_stutter rfl (hrel.left (m := p.now) hu
        (.inr (hpart.hold hlive rfl rfl rfl ?_)))
      rw [Task.due, Task.due, htm]
      simp
  | ticked n => exact Lts.exec_stutter rfl (hrel.clocks (p.now + n) q.now)
  | @aborted k t ht hlive =>
      obtain ⟨u, hu, hpart⟩ := hrel.live ht hlive
      have hstep := pool_abort bare id (barePoll (χ := χ) pollF) hu (hpart.fate.trans hlive)
      refine Lts.exec_match hstep rfl (hrel.put (m := p.now) (n := q.now) (.inr ?_))
      exact ⟨rfl, fun h => absurd h (by simp), fun h => absurd h (by simp),
        fun h => absurd h (by simp)⟩

end

end Async
