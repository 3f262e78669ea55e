import RsRun.Lib.PoolRefines

/-!
# Throttling wrappers replay the futures inside them

The other direction of `PoolRefines`: whatever the futures can do when they are spawned as
they are, they can do inside wrappers that let them be polled after finitely many timers.
The wrappers only need more time.
-/

namespace Async

variable {ψ σ ι φ ω ν χ : Type*}

/--
After finitely many timers that have to elapse, a poll in context `c` comes to the future
inside.
-/
inductive Gets (cx : ι → Cx ω) (poll : σ → ι → Polled σ ω ν χ) (stored : σ → Option Sleep)
    (c : Cx ω) : σ → Prop where
  /-- This poll does, once the stored timer has elapsed. -/
  | now {s : σ} (i : ι) (hc : cx i = c) (h : innerPolls (poll s i).acts ≠ []) :
      Gets cx poll stored c s
  /-- This poll inserts a timer first. -/
  | later {s : σ} (i : ι) (hc : cx i = c) (hd : insertions (poll s i).acts ≠ [])
      (hs : (stored (poll s i).next).isSome) (hnext : Gets cx poll stored c (poll s i).next) :
      Gets cx poll stored c s

section
variable {make : ψ → σ} {cx : ι → Cx ω} {poll : σ → ι → Polled σ ω ν χ}
  {pollF : φ → Cx ω → φ × Poll ν} {inner : σ → φ} {stored : σ → Option Sleep} {chk : Bool}
  {p : Pool σ ν}

/-- The same task in the run queue, with no timer in its way at `now`. -/
structure Readied (now : Nat) (t t' : Task σ ν) : Prop where
  queued : t'.queued = true
  elapsed : t'.elapsed now
  wrapper : t'.wrapper = t.wrapper
  fate : t'.fate = t.fate
  kept : t'.kept = t.kept
  timer : t'.timer.isSome = t.timer.isSome

/-- A task that is due gets into the queue without its future noticing, and its timer elapses. -/
theorem due_readied (make : ψ → σ) (cx : ι → Cx ω) (poll : σ → ι → Polled σ ω ν χ)
    (hok : PoolOk stored p) {k : Nat} {t : Task σ ν} (ht : p.tasks[k]? = some t)
    (hlive : t.fate = .live) (hdue : t.due = true) :
    ∃ as now t', (pool make cx poll).exec p as = some ({ p with now := now }.put k t', [])
      ∧ p.now ≤ now ∧ Readied now t t' := by
  -- a task that is ready already has nothing to do
  have hstay : t.queued = true → t.elapsed p.now →
      ∃ as now t', (pool make cx poll).exec p as = some ({ p with now := now }.put k t', [])
        ∧ p.now ≤ now ∧ Readied now t t' := by
    intro hq he
    refine ⟨[], p.now, t, ?_, Nat.le_refl _, hq, he, rfl, rfl, rfl, rfl⟩
    rw [Pool.put_self_eq (p := { p with now := p.now }) ht]
    rfl
  cases htm : t.timer with
  | none =>
      rw [Task.due, htm] at hdue
      refine hstay (by simpa using hdue) ?_
      intro tm htm'
      rw [htm] at htm'
      exact absurd htm' (by simp)
  | some tm =>
      cases hf : tm.fired with
      | true =>
          obtain ⟨hd, hq⟩ := (hok k t ht).fired tm htm hf
          refine hstay hq ?_
          intro tm' htm'
          rw [htm] at htm'
          injection htm' with htm'
          exact htm' ▸ hd
      | false =>
          have hd : tm.deadline ≤ p.now + (tm.deadline - p.now) := by omega
          have htick := Lts.exec_one (pool_tick make cx poll p (tm.deadline - p.now))
          have hfire := Lts.exec_one (pool_fire (p := { p with
            now := p.now + (tm.deadline - p.now) }) make cx poll ht hlive htm hf hd
            ((hok k t ht).waker tm htm))
          refine ⟨_, _, _, Lts.exec_append.mpr ⟨_, _, _, htick, hfire, rfl⟩, Nat.le_add_right _ _,
            rfl, ?_, rfl, rfl, rfl, ?_⟩
          · intro tm' htm'
            injection htm' with htm'
            rw [← htm']
            exact hd
          · rw [htm]
            rfl

/-- A task whose future was polled in context `c`. -/
structure CameTo (pollF : φ → Cx ω → φ × Poll ν) (inner : σ → φ) (c : Cx ω) (t t' : Task σ ν) :
    Prop where
  fate : t'.fate = (pollF (inner t.wrapper) c).2.outcome.fate
  wrapper : inner t'.wrapper = (pollF (inner t.wrapper) c).1
  kept : t'.kept = keeps c.waker t.kept (pollF (inner t.wrapper) c).2
  due : t'.due = false

/-- A task whose future was held back by a new timer. -/
structure HeldBack (inner : σ → φ) (next : σ) (t t' : Task σ ν) : Prop where
  fate : t'.fate = .live
  wrapper : t'.wrapper = next
  inner : inner next = inner t.wrapper
  kept : t'.kept = t.kept
  due : t'.due = true

/-- Without overflow checks, a poll that comes to the future inside is followed. -/
theorem Held.follow_polled {c : Cx ω} {now : Nat} {t : Task σ ν} {o : Polled σ ω ν χ}
    (h : Held pollF inner stored false c t.wrapper o) (hin : innerPolls o.acts ≠ [])
    (ht : (stored t.wrapper).isSome = t.timer.isSome) (he : t.elapsed now) (lag : Nat) :
    ∃ t', (t.polled o).follow lag now o.acts = some t' ∧ wakers o.acts = []
      ∧ innerPolls o.acts = [(c, (pollF (inner t.wrapper) c).2)]
      ∧ CameTo pollF inner c t t' := by
  cases h with
  | still sl hs ha => rw [ha] at hin; exact absurd rfl hin
  | inserted pre xs d hpre ha => rw [ha, (hpre.quiet xs _).1] at hin; exact absurd rfl hin
  | woken pre xs d hpre ha => rw [ha, (hpre.quiet xs _).1] at hin; exact absurd rfl hin
  | overflowed pre xs hpre ha hr hc => exact absurd hc (by simp)
  | polled pre xs ys hpre ha hr hs' hi =>
      rcases hr with hr | ⟨_, hc⟩
      · obtain ⟨hin', _, hwk⟩ := hpre.quiet xs
          (.innerPolled c (pollF (inner t.wrapper) c).2 :: ys.map .own)
        rw [← ha] at hin' hwk
        rw [innerPolls_innerPolled, innerPolls_own_map] at hin'
        rw [← List.singleton_append, wakers_append, wakers_own] at hwk
        have hpast := Task.follow_past hpre (t := t.polled o) ht he lag xs
          (.innerPolled c (pollF (inner t.wrapper) c).2 :: ys.map .own)
        rw [← ha] at hpast
        rw [hpast]
        cases hv : (pollF (inner t.wrapper) c).2 with
        | ready v =>
            rw [hv] at hr
            rw [Task.follow, ← List.append_nil (ys.map _), Task.follow_own]
            refine ⟨_, rfl, hwk, hv ▸ hin', ?_, hi, ?_, rfl⟩
            · rw [hv, Task.polled, hr]
            · rw [hv]
              rfl
        | pending =>
            rw [hv] at hr
            rw [Task.follow, ← List.append_nil (ys.map _), Task.follow_own]
            refine ⟨_, rfl, hwk, hv ▸ hin', ?_, hi, ?_, rfl⟩
            · rw [hv, Task.polled, hr]
            · rw [hv]
              rfl
      · exact absurd hc (by simp)

/-- A poll that inserts a timer is followed. -/
theorem Held.follow_inserted {c : Cx ω} {now : Nat} {t : Task σ ν} {o : Polled σ ω ν χ}
    (h : Held pollF inner stored chk c t.wrapper o) (hd : insertions o.acts ≠ [])
    (hs : (stored o.next).isSome) (ht : (stored t.wrapper).isSome = t.timer.isSome)
    (he : t.elapsed now) (lag : Nat) :
    ∃ t', (t.polled o).follow lag now o.acts = some t' ∧ wakers o.acts = []
      ∧ innerPolls o.acts = [] ∧ HeldBack inner o.next t t' := by
  cases h with
  | still sl hst ha => rw [ha] at hd; exact absurd rfl hd
  | woken pre xs d hpre ha hr hs' => rw [hs'] at hs; exact absurd hs (by simp)
  | polled pre xs ys hpre ha hr hs' => rw [hs'] at hs; exact absurd hs (by simp)
  | overflowed pre xs hpre ha =>
      have hq := (hpre.quiet xs []).2.1
      rw [List.append_nil] at hq
      rw [ha, hq] at hd
      exact absurd rfl hd
  | inserted pre xs d hpre ha hr hs' hi =>
      obtain ⟨hin, _, hwk⟩ := hpre.quiet xs [.sleepInserted d, .sleepPolled c.waker .pending]
      rw [ha, Task.follow_past hpre (t := t.polled o) ht he]
      refine ⟨_, rfl, hwk, hin, ?_, rfl, hi, rfl, rfl⟩
      rw [Task.polled, hr]
      rfl

/-- **A due task can be brought to a poll of its future**, in whatever context. -/
theorem gets_polled (hheld : ∀ s i, Held pollF inner stored false (cx i) s (poll s i))
    (hmake : ∀ x, stored (make x) = none) {c : Cx ω} {s : σ} (hgets : Gets cx poll stored c s) :
    ∀ {p : Pool σ ν} {t : Task σ ν}, PoolOk stored p → p.tasks[c.waker]? = some t →
      t.fate = .live → t.due = true → t.wrapper = s →
      ∃ as now t' es,
        (pool make cx poll).exec p as = some ({ p with now := now }.put c.waker t', es)
          ∧ es.flatMap PoolEvent.seen = [.polled c.waker c (pollF (inner t.wrapper) c).2]
          ∧ CameTo pollF inner c t t' := by
  induction hgets with
  | @now s i hc h =>
      intro p t hok ht hlive hdue hs
      obtain ⟨as, n, t₁, hrun, _, hready⟩ := due_readied make cx poll hok ht hlive hdue
      have hk : c.waker < { p with now := n }.tasks.length := (List.getElem?_eq_some_iff.mp ht).1
      have hw : (cx i).waker = c.waker := by rw [hc]
      have hheld₁ := hheld t₁.wrapper i
      rw [hc] at hheld₁
      have htimer : (stored t₁.wrapper).isSome = t₁.timer.isSome := by
        rw [hready.wrapper, hready.timer]
        exact (hok _ t ht).timer hlive
      have hpolls : innerPolls (poll t₁.wrapper i).acts ≠ [] := by
        rw [hready.wrapper, hs]
        exact h
      obtain ⟨t₂, hf, hwk, hin, hcame⟩ := hheld₁.follow_polled hpolls htimer hready.elapsed 0
      have hstep := pool_poll (p := { p with now := n }.put c.waker t₁) make cx poll
        (Pool.put_self hk t₁) (hready.fate.trans hlive) hready.queued hw hf hwk
      rw [Pool.put_at] at hstep
      refine ⟨_, _, t₂, _, Lts.exec_append.mpr ⟨_, _, _, hrun, Lts.exec_one hstep, rfl⟩, ?_, ?_⟩
      · rw [List.nil_append, List.flatMap_singleton, PoolEvent.seen, hin, hready.wrapper]
        rfl
      · obtain ⟨h1, h2, h3, h4⟩ := hcame
        rw [hready.wrapper] at h1 h2 h3
        rw [hready.kept] at h3
        exact ⟨h1, h2, h3, h4⟩
  | @later s i hc hd hst hnext ih =>
      intro p t hok ht hlive hdue hs
      obtain ⟨as, n, t₁, hrun, _, hready⟩ := due_readied make cx poll hok ht hlive hdue
      have hk : c.waker < { p with now := n }.tasks.length := (List.getElem?_eq_some_iff.mp ht).1
      have hw : (cx i).waker = c.waker := by rw [hc]
      have hwrap : t₁.wrapper = s := hready.wrapper.trans hs
      have hheld₁ := hheld t₁.wrapper i
      rw [hc] at hheld₁
      have htimer : (stored t₁.wrapper).isSome = t₁.timer.isSome := by
        rw [hready.wrapper, hready.timer]
        exact (hok _ t ht).timer hlive
      rw [← hwrap] at hd hst
      obtain ⟨t₂, hf, hwk, hin, hback⟩ := hheld₁.follow_inserted hd hst htimer hready.elapsed 0
      have hstep := pool_poll (p := { p with now := n }.put c.waker t₁) make cx poll
        (Pool.put_self hk t₁) (hready.fate.trans hlive) hready.queued hw hf hwk
      rw [Pool.put_at] at hstep
      have hrun₂ := Lts.exec_append.mpr ⟨_, _, _, hrun, Lts.exec_one hstep, rfl⟩
      have hok₂ : PoolOk stored _ := Lts.exec_inv
        (fun q b q' us hq hstep => (held_step hheld hq hstep).ok hmake hq) hok hrun₂
      obtain ⟨bs, m, t₃, es, hrun₃, hseen, hcame⟩ := ih hok₂ (Pool.put_self hk t₂) hback.fate
        hback.due (hback.wrapper.trans (by rw [hwrap]))
      rw [Pool.put_at] at hrun₃
      have hinner : inner t₂.wrapper = inner t.wrapper := by
        rw [hback.wrapper, hback.inner, hready.wrapper]
      refine ⟨_, m, t₃, _, Lts.exec_append.mpr ⟨_, _, _, hrun₂, hrun₃, rfl⟩, ?_, ?_⟩
      · rw [List.nil_append, List.flatMap_append, List.flatMap_singleton, PoolEvent.seen, hin,
          hseen, hinner]
        rfl
      · obtain ⟨h1, h2, h3, h4⟩ := hcame
        rw [hinner] at h1 h2 h3
        rw [hback.kept, hready.kept] at h3
        exact ⟨h1, h2, h3, h4⟩

/-- No task is left out. -/
def Task.never (_ : Task σ ν) : Prop := False

/-- The counterpart of a task of the bare pool. -/
theorem PoolsMatch.exact {p : Pool σ ν} {q : Pool φ ν} (h : PoolsMatch inner Task.never p q)
    {k : Nat} {u : Task φ ν} (hu : q.tasks[k]? = some u) :
    ∃ t, p.tasks[k]? = some t ∧ Matches inner t u := by
  obtain ⟨t, ht, hno | hpart⟩ := h.partner' hu
  · exact hno.elim
  · exact ⟨t, ht, hpart⟩

/-- The pools match, the bare one first. -/
def ReplayedBy (inner : σ → φ) (q : Pool φ ν) (p : Pool σ ν) : Prop :=
  PoolsMatch inner Task.never p q

/-- **Every run of the futures inside is one of the wrappers.** -/
theorem held_replays {I : σ → Prop} (hmakeI : ∀ x, I (make x))
    (hpollI : ∀ s i, I s → I (poll s i).next)
    (hgets : ∀ s c, I s → Gets cx poll stored c s)
    (hheld : ∀ s i, Held pollF inner stored false (cx i) s (poll s i))
    (hmake : ∀ x, stored (make x) = none) {bare : ψ → φ} (hinner : ∀ x, inner (make x) = bare x) :
    Lts.Simulation (barePool (χ := χ) bare pollF) (pool make cx poll) PoolEvent.seen PoolEvent.seen
      (ReplayedBy inner) := by
  refine ⟨⟨rfl, fun k t u ht => absurd ht (by simp [pool])⟩, ?_⟩
  intro q p a q' es hreach hreach' hrel hs
  have hrel : PoolsMatch inner Task.never p q := hrel
  have hok := held_reachable (bare_held pollF) (fun _ => rfl) hreach
  have hok' := held_reachable hheld hmake hreach'
  cases held_step (bare_held pollF) hok hs with
  | spawned x =>
      exact Lts.exec_match (R := ReplayedBy inner) (pool_spawn make cx poll p x) rfl
        (hrel.spawn (hinner x))
  | @polled k c lag u u' hu hlive hq hw h =>
      obtain ⟨t, ht, hpart⟩ := hrel.exact hu
      have hw : c.waker = k := hw
      subst hw
      have ht_live : t.fate = .live := hpart.fate.symm.trans hlive
      have hdue : t.due = true := (hpart.queued ht_live).symm.trans hq
      have hwr := hpart.wrapper ht_live
      obtain ⟨as, n, t', us, hrun, hseen, hcame⟩ := gets_polled hheld hmake
        (hgets t.wrapper c (pool_wrappers hmakeI hpollI hreach' _ t ht)) hok' ht ht_live hdue rfl
      refine ⟨as, _, us, hrun, ?_, hrel.put (.inr ?_)⟩
      · rw [hseen, List.flatMap_singleton, PoolEvent.seen, ← hwr]
        rfl
      · rw [bare_handled h]
        refine ⟨?_, fun _ => ?_, fun _ => ?_, fun _ => hcame.due.symm⟩
        · rw [hcame.fate, hwr]
        · rw [hcame.wrapper, hwr]
        · rw [hcame.kept, hpart.kept ht_live, hwr]
  | @woke k u hu hlive hk =>
      obtain ⟨t, ht, hpart⟩ := hrel.exact hu
      have ht_live : t.fate = .live := hpart.fate.symm.trans hlive
      have hstep := pool_wake make cx poll ht ht_live ((hpart.kept ht_live).symm.trans hk)
      refine Lts.exec_match (R := ReplayedBy inner) hstep rfl
        (hrel.put (m := p.now) (n := q.now) (.inr ?_))
      exact ⟨hpart.fate, hpart.wrapper, hpart.kept, fun _ => rfl⟩
  | @fired k u tm hu hlive htm hf hd =>
      -- a future that holds itself back has no timer
      have htimer := (hok k u hu).timer hlive
      rw [htm] at htimer
      exact absurd htimer (by simp)
  | ticked n => exact Lts.exec_stutter (R := ReplayedBy inner) rfl (hrel.clocks p.now (q.now + n))
  | @aborted k u hu hlive =>
      obtain ⟨t, ht, hpart⟩ := hrel.exact hu
      have ht_live : t.fate = .live := hpart.fate.symm.trans hlive
      refine Lts.exec_match (R := ReplayedBy inner) (pool_abort make cx poll ht ht_live) rfl
        (hrel.put (m := p.now) (n := q.now) (.inr ?_))
      exact ⟨rfl, fun h => absurd h (by simp), fun h => absurd h (by simp),
        fun h => absurd h (by simp)⟩

end

end Async
