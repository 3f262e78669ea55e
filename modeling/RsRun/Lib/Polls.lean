import Mathlib.Data.Bool.Count
import RsRun.Lib.Lists
import RsRun.Lib.Lts
import RsRun.Lib.Async

/-!
# Polling a wrapper to its end

The polls of a wrapper as the steps of a labelled system whose log is its turns, so
that what a run has done so far can be counted. A poll that panics takes the wrapper
with it, and a wrapper that has answered `ready` is not polled again; neither is a
step.
-/

namespace Async

variable {σ ι φ ω ν χ : Type*}

/-- A wrapper that is being polled. -/
structure Polling (σ : Type*) where
  wrapper : σ
  /-- Has it answered `ready`? -/
  done : Bool

/-- Poll a wrapper with one input after the other. -/
def polls (poll : σ → ι → Polled σ ω ν χ) (s : σ) : Lts (Polling σ) ι (Turn σ ι ω ν χ) where
  init := { wrapper := s, done := false }
  step p i :=
    if p.done then none
    else
      match (poll p.wrapper i).res with
      | .pending =>
          some ({ wrapper := (poll p.wrapper i).next, done := false },
            [⟨p.wrapper, i, poll p.wrapper i⟩])
      | .ready _ =>
          some ({ wrapper := (poll p.wrapper i).next, done := true },
            [⟨p.wrapper, i, poll p.wrapper i⟩])
      | .panicked _ => none

/-- What a step of `polls` is: a poll that returned, of a wrapper that was not done. -/
structure PollStep (poll : σ → ι → Polled σ ω ν χ) (p : Polling σ) (i : ι) (p' : Polling σ)
    (ts : List (Turn σ ι ω ν χ)) : Prop where
  live : p.done = false
  next : p'.wrapper = (poll p.wrapper i).next
  log : ts = [⟨p.wrapper, i, poll p.wrapper i⟩]
  returned : ∀ why, (poll p.wrapper i).res ≠ .panicked why
  done : p'.done = true ↔ ∃ v, (poll p.wrapper i).res = .ready v

variable {poll : σ → ι → Polled σ ω ν χ} {s : σ}

/-- **The inversion lemma.** -/
theorem polls_step {p p' : Polling σ} {i : ι} {ts : List (Turn σ ι ω ν χ)}
    (h : (polls poll s).step p i = some (p', ts)) : PollStep poll p i p' ts := by
  change (if p.done then none else _) = some (p', ts) at h
  split at h
  · exact absurd h (by simp)
  · rename_i hlive
    rw [Bool.not_eq_true] at hlive
    split at h
    · rename_i hr
      injection h with h; injection h with h1 h2
      subst h1; subst h2
      exact ⟨hlive, rfl, rfl, by rw [hr]; simp, by rw [hr]; simp⟩
    · rename_i v hr
      injection h with h; injection h with h1 h2
      subst h1; subst h2
      exact ⟨hlive, rfl, rfl, by rw [hr]; simp, by rw [hr]; simp⟩
    · exact absurd h (by simp)

/-- A poll that answers `pending` is a step. -/
theorem polls_pending {w w' : σ} {i : ι} {as : List (Act ω ν χ)}
    (h : poll w i = ⟨w', .pending, as⟩) :
    (polls poll s).step ⟨w, false⟩ i = some (⟨w', false⟩, [⟨w, i, ⟨w', .pending, as⟩⟩]) := by
  unfold polls
  simp only [Bool.false_eq_true, if_false, h]

/--
**The log rule for polls.**

What every poll that returns keeps, of the wrapper and the turns so far, holds after
every run.
-/
theorem polls_log {P : σ → List (Turn σ ι ω ν χ) → Prop} (h0 : P s [])
    (hstep : ∀ w i ts, P w ts → (∀ why, (poll w i).res ≠ .panicked why) →
      P (poll w i).next (ts ++ [⟨w, i, poll w i⟩]))
    {is : List ι} {p : Polling σ} {ts : List (Turn σ ι ω ν χ)}
    (h : (polls poll s).exec (polls poll s).init is = some (p, ts)) : P p.wrapper ts := by
  refine Lts.log_of_init (P := fun p ts => P p.wrapper ts) h0 ?_ h
  intro q i q' us ts' _ hp hs
  obtain ⟨_, hnext, hlog, hret, _⟩ := polls_step hs
  rw [hnext, hlog]
  exact hstep _ _ _ hp hret

/--
What every poll that a run comes to is like: the wrapper before it, its input, and the
turns so far. The last such poll need not return.
-/
def EachPoll (poll : σ → ι → Polled σ ω ν χ) (s : σ) (is : List ι)
    (Q : σ → ι → List (Turn σ ι ω ν χ) → Prop) : Prop :=
  ∀ is' i w ts, is' ++ [i] <+: is →
    (polls poll s).exec (polls poll s).init is' = some ({ wrapper := w, done := false }, ts) →
    Q w i ts

/-- An initial piece of a run comes to fewer polls. -/
theorem EachPoll.initial {is is' : List ι} {Q : σ → ι → List (Turn σ ι ω ν χ) → Prop}
    (h : EachPoll poll s is Q) (hpre : is' <+: is) : EachPoll poll s is' Q :=
  fun is₀ i w ts h₀ hrun => h is₀ i w ts (h₀.trans hpre) hrun

/-- A condition may be put in terms that agree with it on every wrapper a run leads to. -/
theorem EachPoll.congr {is : List ι} {Q R : σ → ι → List (Turn σ ι ω ν χ) → Prop}
    (h : ∀ is' i w ts, (polls poll s).exec (polls poll s).init is'
      = some ({ wrapper := w, done := false }, ts) → (Q w i ts ↔ R w i ts)) :
    EachPoll poll s is Q ↔ EachPoll poll s is R :=
  ⟨fun hq is' i w ts hpre hrun => (h is' i w ts hrun).mp (hq is' i w ts hpre hrun),
    fun hr is' i w ts hpre hrun => (h is' i w ts hrun).mpr (hr is' i w ts hpre hrun)⟩

/-- A wrapper that is done stays as it is. -/
theorem polls_exec_done {p q : Polling σ} {is : List ι} {ts : List (Turn σ ι ω ν χ)}
    (h : (polls poll s).exec p is = some (q, ts)) (hdone : p.done = true) : q.done = true := by
  cases is with
  | nil =>
      injection h with h; injection h with h _
      rw [← h]
      exact hdone
  | cons i is =>
      obtain ⟨p₁, t₁, t₂, hs, _, _⟩ := Lts.exec_cons.mp h
      exact absurd ((polls_step hs).live.symm.trans hdone) (by simp)

/-- Where polling began does not matter to the polls that follow. -/
theorem polls_exec_start (s s' : σ) (p : Polling σ) (is : List ι) :
    (polls poll s).exec p is = (polls poll s').exec p is := by
  induction is generalizing p with
  | nil => rfl
  | cons i is ih =>
      rw [Lts.exec, Lts.exec]
      simp only [ih]
      rfl

/-- The polls a run comes to are the first, and after a `pending` answer those of the rest. -/
theorem eachPoll_cons {i : ι} {is : List ι} {Q : σ → ι → Prop} :
    EachPoll poll s (i :: is) (fun w j _ => Q w j)
      ↔ Q s i ∧ ((poll s i).res = .pending →
        EachPoll poll (poll s i).next is (fun w j _ => Q w j)) := by
  constructor
  · intro h
    refine ⟨h [] i s [] ⟨is, rfl⟩ rfl, ?_⟩
    intro hp is' j w ts hpre hrun
    have hpoll : poll s i = ⟨(poll s i).next, .pending, (poll s i).acts⟩ := by rw [← hp]
    have hfirst := polls_pending (s := s) hpoll
    rw [polls_exec_start _ s] at hrun
    exact h (i :: is') j w _ ((List.prefix_cons_inj i).mpr hpre)
      (Lts.exec_cons.mpr ⟨_, _, ts, hfirst, hrun, rfl⟩)
  · rintro ⟨hfirst, hrest⟩ is' j w ts hpre hrun
    cases is' with
    | nil =>
        obtain ⟨rfl, _⟩ := List.cons_prefix_cons.mp hpre
        injection hrun with hrun; injection hrun with hw _
        injection hw with hw _
        exact hw ▸ hfirst
    | cons i' is' =>
        obtain ⟨rfl, hpre'⟩ := List.cons_prefix_cons.mp hpre
        obtain ⟨⟨w₁, done⟩, t₁, t₂, hs, hr, _⟩ := Lts.exec_cons.mp hrun
        obtain ⟨_, hnext, _, hret, hdone⟩ := polls_step hs
        -- it was not ready, or no other poll had followed
        have hlive : done = false := by
          cases done with
          | false => rfl
          | true => exact absurd (polls_exec_done hr rfl) (by simp)
        have hp : (poll s i').res = .pending := by
          cases hres : (poll s i').res with
          | pending => rfl
          | ready v => exact absurd (hlive.symm.trans (hdone.mpr ⟨v, hres⟩)) (by simp)
          | panicked why => exact absurd hres (hret why)
        dsimp only at hnext
        subst hlive hnext
        rw [polls_exec_start _ (poll s i').next] at hr
        exact hrest hp is' j w t₂ hpre' hr

/-- The turns of a run are the polls it comes to. -/
theorem drive_each {Q : Turn σ ι ω ν χ → Prop} {is : List ι} :
    (∀ t ∈ drive poll s is, Q t) ↔ EachPoll poll s is (fun w i _ => Q ⟨w, i, poll w i⟩) := by
  induction is generalizing s with
  | nil =>
      refine ⟨fun _ is' i w ts hpre _ => ?_, fun _ t ht => absurd ht List.not_mem_nil⟩
      exact absurd (List.prefix_nil.mp hpre) (by simp)
  | cons i is ih =>
      rw [eachPoll_cons]
      constructor
      · intro h
        exact ⟨h _ drive_head, fun hp => ih.mp fun t ht => h t (drive_tail hp ht)⟩
      · rintro ⟨hfirst, hrest⟩ t ht
        rw [drive] at ht
        split at ht
        · rename_i hp
          rcases List.mem_cons.mp ht with rfl | ht
          · exact hfirst
          · exact ih.mpr (hrest hp) t ht
        · rw [List.mem_singleton.mp ht]
          exact hfirst
/--
**The log rule for polls that all meet a condition.**
-/
theorem polls_guarded {P : σ → List (Turn σ ι ω ν χ) → Prop}
    {Q : σ → ι → List (Turn σ ι ω ν χ) → Prop} (h0 : P s [])
    (hstep : ∀ w i ts, P w ts → Q w i ts → (∀ why, (poll w i).res ≠ .panicked why) →
      P (poll w i).next (ts ++ [⟨w, i, poll w i⟩]))
    {is : List ι} (hall : EachPoll poll s is Q) {p : Polling σ} {ts : List (Turn σ ι ω ν χ)}
    (h : (polls poll s).exec (polls poll s).init is = some (p, ts)) : P p.wrapper ts := by
  refine Lts.log_of_guarded (P := fun p ts => P p.wrapper ts)
    (G := fun p ts i => p.done = false → Q p.wrapper i ts) h0 ?_ ?_ h
  · intro q i q' us ts' _ _ hp hq hs
    obtain ⟨hlive, hnext, hlog, hret, _⟩ := polls_step hs
    rw [hnext, hlog]
    exact hstep _ _ _ hp (hq hlive) hret
  · intro is' i q us hpre hrun hlive
    obtain ⟨w, done⟩ := q
    dsimp only at hlive
    subst hlive
    exact hall is' i w us hpre hrun

/-- Every input of a run is one turn of it. -/
theorem polls_length {is : List ι} : ∀ {p q : Polling σ} {ts : List (Turn σ ι ω ν χ)},
    (polls poll s).exec p is = some (q, ts) → ts.length = is.length := by
  induction is with
  | nil =>
      intro p q ts h
      injection h with h; injection h with _ h2
      subst h2
      rfl
  | cons i is ih =>
      intro p q ts h
      obtain ⟨p₁, t₁, t₂, hs, hr, rfl⟩ := Lts.exec_cons.mp h
      rw [List.length_append, (polls_step hs).log, ih hr, List.length_singleton, List.length_cons,
        Nat.add_comm]

/-- A wrapper that is done was polled to `ready` by the last turn of its run. -/
theorem polls_done {is : List ι} {p : Polling σ} {ts : List (Turn σ ι ω ν χ)}
    (h : (polls poll s).exec (polls poll s).init is = some (p, ts)) (hdone : p.done = true) :
    ∃ is' q i us v, (polls poll s).exec (polls poll s).init is' = some (q, us)
      ∧ ts = us ++ [⟨q.wrapper, i, poll q.wrapper i⟩] ∧ p.wrapper = (poll q.wrapper i).next
      ∧ (poll q.wrapper i).res = .ready v := by
  rcases List.eq_nil_or_concat is with hnil | ⟨is', i, his⟩
  · subst hnil
    injection h with h; injection h with h1 _
    subst h1
    exact absurd hdone (by simp [polls])
  · subst his
    rw [List.concat_eq_append] at h
    obtain ⟨q, us, us', hq, hlast, rfl⟩ := Lts.exec_append.mp h
    obtain ⟨p₁, t₁, t₂, hs, hr, rfl⟩ := Lts.exec_cons.mp hlast
    injection hr with hr; injection hr with h1 h2
    subst h1; subst h2
    obtain ⟨_, hnext, hlog, _, hd⟩ := polls_step hs
    obtain ⟨v, hv⟩ := hd.mp hdone
    exact ⟨is', q, i, us, v, hq, by rw [hlog, List.append_nil], hnext, hv⟩

/-! ## What a run has done so far -/

/-- The actions of all turns, in order. -/
def runActs (ts : List (Turn σ ι ω ν χ)) : List (Act ω ν χ) := ts.flatMap (fun t => t.out.acts)

theorem runActs_snoc (ts : List (Turn σ ι ω ν χ)) (t : Turn σ ι ω ν χ) :
    runActs (ts ++ [t]) = runActs ts ++ t.out.acts := Lists.flatMap_snoc _ ts t

/-- How often the inner future was polled and answered `pending`. -/
def pendings (as : List (Act ω ν χ)) : Nat :=
  as.countP (fun a => match a with
    | .innerPolled _ .pending => true
    | _ => false)

/-- The durations of the timers that were inserted. -/
def insertions (as : List (Act ω ν χ)) : List Nat :=
  as.filterMap (fun a => match a with
    | .sleepInserted d => some d
    | _ => none)

/-- The `pending` answers (`false`) and the insertions (`true`), in order. -/
def beats (as : List (Act ω ν χ)) : List Bool :=
  as.filterMap (fun a => match a with
    | .sleepInserted _ => some true
    | .innerPolled _ .pending => some false
    | _ => none)

/-- The bookkeeping, in order. -/
def owns (as : List (Act ω ν χ)) : List χ :=
  as.filterMap (fun a => match a with
    | .own x => some x
    | _ => none)

/-- What some actions come to. -/
structure Shows (as : List (Act ω ν χ)) (bs : List Bool) (ds : List Nat)
    (ps : List (Cx ω × Poll ν)) (xs : List χ) : Prop where
  beats : beats as = bs
  insertions : insertions as = ds
  innerPolls : innerPolls as = ps
  owns : owns as = xs

@[simp] theorem pendings_append (as bs : List (Act ω ν χ)) :
    pendings (as ++ bs) = pendings as + pendings bs := List.countP_append

@[simp] theorem insertions_append (as bs : List (Act ω ν χ)) :
    insertions (as ++ bs) = insertions as ++ insertions bs := List.filterMap_append

@[simp] theorem beats_append (as bs : List (Act ω ν χ)) :
    beats (as ++ bs) = beats as ++ beats bs := List.filterMap_append

@[simp] theorem owns_append (as bs : List (Act ω ν χ)) : owns (as ++ bs) = owns as ++ owns bs :=
  List.filterMap_append

/-- Every beat is a `pending` answer or an insertion. -/
theorem beats_counts (as : List (Act ω ν χ)) :
    (beats as).count false = pendings as ∧ (beats as).count true = (insertions as).length := by
  induction as with
  | nil => exact ⟨rfl, rfl⟩
  | cons a as ih =>
      obtain ⟨ih1, ih2⟩ := ih
      have hcons : a :: as = [a] ++ as := rfl
      rw [hcons, beats_append, pendings_append, insertions_append, List.count_append,
        List.count_append, List.length_append, ih1, ih2]
      cases a with
      | sleepInserted d => exact ⟨rfl, rfl⟩
      | sleepPolled w r => exact ⟨rfl, rfl⟩
      | woke w => exact ⟨rfl, rfl⟩
      | own x => exact ⟨rfl, rfl⟩
      | innerPolled cx r =>
          cases r with
          | ready v => exact ⟨rfl, rfl⟩
          | pending => exact ⟨rfl, rfl⟩

theorem length_beats (as : List (Act ω ν χ)) :
    (beats as).length = pendings as + (insertions as).length := by
  obtain ⟨h1, h2⟩ := beats_counts as
  have htotal := (beats as).count_true_add_count_false
  omega

/-- A timer that is polled first does not count. -/
theorem Shows.sleepPolled {as : List (Act ω ν χ)} {bs : List Bool} {ds : List Nat}
    {ps : List (Cx ω × Poll ν)} {xs : List χ} (h : Shows as bs ds ps xs) (w : Waker)
    (r : Poll Unit) : Shows (.sleepPolled w r :: as) bs ds ps xs :=
  ⟨h.beats, h.insertions, h.innerPolls, h.owns⟩

theorem Shows.pendings {as : List (Act ω ν χ)} {bs : List Bool} {ds : List Nat}
    {ps : List (Cx ω × Poll ν)} {xs : List χ} (h : Shows as bs ds ps xs) :
    pendings as = bs.count false := by
  rw [← (beats_counts as).1, h.beats]

/-- Without an insertion there is no `true` beat. -/
theorem not_mem_beats {as : List (Act ω ν χ)} (h : insertions as = []) : true ∉ beats as := by
  rw [← List.count_eq_zero, (beats_counts as).2, h]
  rfl

/-- Where the inner future was not polled there is no `false` beat. -/
theorem false_not_mem_beats {as : List (Act ω ν χ)} (h : innerPolls as = []) :
    false ∉ beats as := by
  induction as with
  | nil => simp [beats]
  | cons a as ih =>
      have hcons : a :: as = [a] ++ as := rfl
      rw [hcons, innerPolls_append, List.append_eq_nil_iff] at h
      rw [hcons, beats_append, List.mem_append]
      rintro (hhead | htail)
      · cases a with
        | innerPolled cx r => exact absurd h.1 (by simp)
        | sleepInserted d => exact absurd hhead (by simp [beats])
        | sleepPolled w r => exact absurd hhead (by simp [beats])
        | woke w => exact absurd hhead (by simp [beats])
        | own x => exact absurd hhead (by simp [beats])
      · exact ih h.2 htail

/-- Between two insertions the inner future was polled. -/
def BackoffsApart (as : List (Act ω ν χ)) : Prop :=
  ∀ pre d mid e post, as = pre ++ .sleepInserted d :: (mid ++ .sleepInserted e :: post) →
    innerPolls mid ≠ []

end Async
