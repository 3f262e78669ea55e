import Mathlib.Data.List.Basic

/-!
# Futures that wrap futures

A future is a state machine that is polled with a context and answers `ready v`
or `pending`. A *wrapper* is a state machine that holds such a future and is
polled in its place; what one poll of it does is a next state, an outcome, and
the list of visible actions in the order they happen.

Two things are worth saying about any wrapper, whatever it does in between:

* it is **transparent** when the inner future is polled at most once a turn, is
  changed by nothing else, and its answer is what the wrapper returns;
* it is **armed** when a turn that returns `pending` leaves something behind that
  wakes the task which polled it.

Both are contracts on a single turn. This file turns them into statements about
every run.
-/

namespace Async

/-- What a poll answers. -/
inductive Poll (ν : Type*) where
  | ready (v : ν)
  | pending
deriving DecidableEq, Repr

/-- Wakers are compared by the task they wake. -/
abbrev Waker := Nat

/-- The context of a poll: whom to wake, and what the outside world shows the polled future. -/
structure Cx (ω : Type*) where
  waker : Waker
  world : ω

/-- Why a poll did not return. -/
inductive Panic where
  /-- Arithmetic overflow, in a build that checks for it. -/
  | overflow
  /-- An `unwrap` found the wrong variant. -/
  | unwrap
deriving DecidableEq, Repr

/-- How a poll of a wrapper ends. -/
inductive Outcome (ν : Type*) where
  | ready (v : ν)
  | pending
  | panicked (why : Panic)
deriving DecidableEq, Repr

/-- Passing the inner future's answer on. -/
def Poll.outcome {ν : Type*} : Poll ν → Outcome ν
  | .ready v => .ready v
  | .pending => .pending

/-- A timer. It remembers the waker of the last poll it answered `pending` to. -/
structure Sleep where
  /-- How long it sleeps, in nanoseconds. -/
  duration : Nat
  /-- Whom it will wake. -/
  waker : Option Waker
deriving DecidableEq, Repr

/-- A timer nobody has polled. -/
def Sleep.new (d : Nat) : Sleep := { duration := d, waker := none }

/-- Poll a timer; `answer` is whether it has elapsed. -/
def Sleep.poll (s : Sleep) (w : Waker) (answer : Poll Unit) : Sleep × Poll Unit :=
  match answer with
  | .ready () => (s, .ready ())
  | .pending => ({ s with waker := some w }, .pending)

/-- The visible actions of one poll of a wrapper. -/
inductive Act (ω ν χ : Type*) where
  /-- A fresh timer of this duration was created. -/
  | sleepInserted (d : Nat)
  /-- A timer was polled. -/
  | sleepPolled (w : Waker) (answer : Poll Unit)
  /-- The inner future was polled. -/
  | innerPolled (cx : Cx ω) (answer : Poll ν)
  /-- A waker was called. -/
  | woke (w : Waker)
  /-- The wrapper's own bookkeeping. -/
  | own (x : χ)

/-- One poll of a wrapper, in full. -/
structure Polled (σ ω ν χ : Type*) where
  next : σ
  res : Outcome ν
  acts : List (Act ω ν χ)

section
variable {σ τ ι φ ω ν χ : Type*}

/-- The same poll, after `pre` has already been done in it. -/
def Polled.after (pre : List (Act ω ν χ)) (o : Polled σ ω ν χ) : Polled σ ω ν χ :=
  { o with acts := pre ++ o.acts }

/-- The same poll, seen through a part of the state. -/
def Polled.map (f : σ → τ) (o : Polled σ ω ν χ) : Polled τ ω ν χ :=
  { next := f o.next, res := o.res, acts := o.acts }

@[simp] theorem Polled.after_next (pre : List (Act ω ν χ)) (o : Polled σ ω ν χ) :
    (o.after pre).next = o.next := rfl

@[simp] theorem Polled.after_acts (pre : List (Act ω ν χ)) (o : Polled σ ω ν χ) :
    (o.after pre).acts = pre ++ o.acts := rfl

@[simp] theorem Polled.map_next (f : σ → τ) (o : Polled σ ω ν χ) : (o.map f).next = f o.next := rfl

/-! ## Polls of the inner future -/

/-- The polls of the inner future among some actions, with their answers. -/
def innerPolls : List (Act ω ν χ) → List (Cx ω × Poll ν)
  | [] => []
  | .innerPolled cx r :: as => (cx, r) :: innerPolls as
  | .sleepInserted _ :: as => innerPolls as
  | .sleepPolled _ _ :: as => innerPolls as
  | .woke _ :: as => innerPolls as
  | .own _ :: as => innerPolls as

@[simp] theorem innerPolls_nil : innerPolls ([] : List (Act ω ν χ)) = [] := rfl

@[simp] theorem innerPolls_innerPolled (cx : Cx ω) (r : Poll ν) (as : List (Act ω ν χ)) :
    innerPolls (.innerPolled cx r :: as) = (cx, r) :: innerPolls as := rfl

@[simp] theorem innerPolls_sleepInserted (d : Nat) (as : List (Act ω ν χ)) :
    innerPolls (.sleepInserted d :: as) = innerPolls as := rfl

@[simp] theorem innerPolls_sleepPolled (w : Waker) (r : Poll Unit) (as : List (Act ω ν χ)) :
    innerPolls (.sleepPolled w r :: as) = innerPolls as := rfl

@[simp] theorem innerPolls_woke (w : Waker) (as : List (Act ω ν χ)) :
    innerPolls (.woke w :: as) = innerPolls as := rfl

@[simp] theorem innerPolls_own (x : χ) (as : List (Act ω ν χ)) :
    innerPolls (.own x :: as) = innerPolls as := rfl

@[simp] theorem innerPolls_append (as bs : List (Act ω ν χ)) :
    innerPolls (as ++ bs) = innerPolls as ++ innerPolls bs := by
  induction as with
  | nil => rfl
  | cons a as ih => cases a <;> simp [ih]

/-- Poll a bare future with these contexts, one after the other, until it is ready. -/
def bare (pollF : φ → Cx ω → φ × Poll ν) : φ → List (Cx ω) → List (Poll ν)
  | _, [] => []
  | f, c :: cs =>
      match (pollF f c).2 with
      | .ready v => [.ready v]
      | .pending => .pending :: bare pollF (pollF f c).1 cs

/-- The state a bare future is left in. -/
def bareState (pollF : φ → Cx ω → φ × Poll ν) : φ → List (Cx ω) → φ
  | f, [] => f
  | f, c :: cs => bareState pollF (pollF f c).1 cs

/-! ## Driving a wrapper -/

/-- One poll of a run: the state before it, what it was polled with, and what it did. -/
structure Turn (σ ι ω ν χ : Type*) where
  before : σ
  input : ι
  out : Polled σ ω ν χ

/-- Poll a wrapper with one input after the other, until a poll does not answer `pending`. -/
def drive (poll : σ → ι → Polled σ ω ν χ) : σ → List ι → List (Turn σ ι ω ν χ)
  | _, [] => []
  | s, i :: is =>
      match (poll s i).res with
      | .pending => ⟨s, i, poll s i⟩ :: drive poll (poll s i).next is
      | _ => [⟨s, i, poll s i⟩]

/-- The state a run leaves behind. -/
def finish : σ → List (Turn σ ι ω ν χ) → σ
  | s, [] => s
  | _, t :: ts => finish t.out.next ts

/-- All polls of the inner future in a run. -/
def runPolls (ts : List (Turn σ ι ω ν χ)) : List (Cx ω × Poll ν) :=
  ts.flatMap (fun t => innerPolls t.out.acts)

@[simp] theorem runPolls_nil : runPolls ([] : List (Turn σ ι ω ν χ)) = [] := rfl

@[simp] theorem runPolls_cons (t : Turn σ ι ω ν χ) (ts : List (Turn σ ι ω ν χ)) :
    runPolls (t :: ts) = innerPolls t.out.acts ++ runPolls ts := rfl

/-- The first poll is a turn. -/
theorem drive_head {poll : σ → ι → Polled σ ω ν χ} {s : σ} {i : ι} {is : List ι} :
    ⟨s, i, poll s i⟩ ∈ drive poll s (i :: is) := by
  rw [drive]
  split
  · exact List.mem_cons_self
  · exact List.mem_cons_self

/-- After a `pending` answer come the turns of the rest. -/
theorem drive_tail {poll : σ → ι → Polled σ ω ν χ} {s : σ} {i : ι} {is : List ι}
    (hp : (poll s i).res = .pending) {t : Turn σ ι ω ν χ} (ht : t ∈ drive poll (poll s i).next is) :
    t ∈ drive poll s (i :: is) := by
  rw [drive, hp]
  exact List.mem_cons_of_mem _ ht

/--
**The turn rule.** What holds of every poll made in a state satisfying `I`, and
keeps `I`, holds of every turn of a run started in such a state.
-/
theorem drive_turns {poll : σ → ι → Polled σ ω ν χ} {I : σ → Prop} {Q : Turn σ ι ω ν χ → Prop}
    (h : ∀ s i, I s → Q ⟨s, i, poll s i⟩ ∧ I (poll s i).next) :
    ∀ {is : List ι} {s : σ}, I s → ∀ t ∈ drive poll s is, Q t := by
  intro is
  induction is with
  | nil => intro s _ t ht; exact absurd ht (by simp [drive])
  | cons i is ih =>
      intro s hs t ht
      obtain ⟨hq, hi⟩ := h s i hs
      rw [drive] at ht
      split at ht
      · rcases List.mem_cons.mp ht with rfl | ht
        · exact hq
        · exact ih hi t ht
      · rw [List.mem_singleton.mp ht]; exact hq

/-! ## Transparency -/

/-- The contract of one poll of a transparent wrapper that found the inner future at `f`. -/
structure TransparentPoll (pollF : φ → Cx ω → φ × Poll ν) (inner : σ → φ) (f : φ)
    (o : Polled σ ω ν χ) : Prop where
  /-- Either the inner future is left alone, or it is polled once and nothing else happens to it. -/
  moves :
    (innerPolls o.acts = [] ∧ inner o.next = f) ∨
      ∃ cx, innerPolls o.acts = [(cx, (pollF f cx).2)] ∧ inner o.next = (pollF f cx).1
  /-- It is ready exactly when the inner future was, in this poll. -/
  ready : ∀ v, o.res = .ready v ↔ ∃ cx, (cx, Poll.ready v) ∈ innerPolls o.acts
  /-- A timer that has not elapsed keeps the inner future from being polled. -/
  blocked : (∃ w, Act.sleepPolled w .pending ∈ o.acts) → innerPolls o.acts = []

/-- What transparency means for a whole run. -/
structure TransparentRun (pollF : φ → Cx ω → φ × Poll ν) (inner : σ → φ) (s : σ)
    (ts : List (Turn σ ι ω ν χ)) : Prop where
  /-- Every turn keeps the contract. -/
  turns : ∀ t ∈ ts, TransparentPoll pollF inner (inner t.before) t.out
  /-- No turn polls the inner future twice. -/
  once : ∀ t ∈ ts, (innerPolls t.out.acts).length ≤ 1
  /-- The inner future is where polling it directly would have left it. -/
  state : inner (finish s ts) = bareState pollF (inner s) ((runPolls ts).map Prod.fst)
  /-- Its answers are the first ones that polling it directly gives. -/
  answers : ∀ more : List (Cx ω),
    (runPolls ts).map Prod.snd <+: bare pollF (inner s) ((runPolls ts).map Prod.fst ++ more)
  /-- Once it has answered `ready` it is not polled again. -/
  done : ∀ r ∈ ((runPolls ts).map Prod.snd).dropLast, r = Poll.pending

section
variable {pollF : φ → Cx ω → φ × Poll ν} {inner : σ → φ} {f : φ} {o : Polled σ ω ν χ}

theorem TransparentPoll.once (h : TransparentPoll pollF inner f o) :
    (innerPolls o.acts).length ≤ 1 := by
  rcases h.moves with ⟨he, _⟩ | ⟨cx, he, _⟩
  · rw [he]; exact Nat.zero_le _
  · rw [he]; exact Nat.le_refl _

/-- A poll that answered `pending` did not get a `ready` out of the inner future. -/
theorem TransparentPoll.pending (h : TransparentPoll pollF inner f o) (hp : o.res = .pending)
    {cx : Cx ω} {r : Poll ν} (hm : (cx, r) ∈ innerPolls o.acts) : r = .pending := by
  cases r with
  | pending => rfl
  | ready v =>
      have hready := (h.ready v).mpr ⟨cx, hm⟩
      rw [hp] at hready
      exact absurd hready (by simp)

end

/-- The answers of a bare future are `pending` up to the last. -/
theorem bare_done {pollF : φ → Cx ω → φ × Poll ν} :
    ∀ (cs : List (Cx ω)) (f : φ), ∀ r ∈ (bare pollF f cs).dropLast, r = Poll.pending
  | [], _, r, h => by exact absurd h (by simp [bare])
  | c :: cs, f, r, h => by
      rw [bare] at h
      split at h
      · exact absurd h (by simp)
      · cases hb : bare pollF (pollF f c).1 cs with
        | nil => rw [hb] at h; exact absurd h (by simp)
        | cons x xs =>
            rw [hb, List.dropLast_cons_cons] at h
            rcases List.mem_cons.mp h with rfl | h
            · rfl
            · exact bare_done cs _ r (by rw [hb]; exact h)

theorem dropLast_of_isPrefix {α : Type*} {l m : List α} (h : l <+: m) :
    ∀ x ∈ l.dropLast, x ∈ m.dropLast := by
  obtain ⟨r, rfl⟩ := h
  intro x hx
  cases r with
  | nil => rw [List.append_nil]; exact hx
  | cons y ys =>
      rw [List.dropLast_append_of_ne_nil (by simp)]
      exact List.mem_append_left _ (l.dropLast_subset hx)

/-- **Transparency of every turn is transparency of the run.** -/
theorem transparent_drive {poll : σ → ι → Polled σ ω ν χ} {pollF : φ → Cx ω → φ × Poll ν}
    {inner : σ → φ} {is : List ι} {s : σ}
    (hturns : ∀ t ∈ drive poll s is, TransparentPoll pollF inner (inner t.before) t.out) :
    TransparentRun pollF inner s (drive poll s is) := by
  -- by induction on the inputs; a turn that polled and got `ready` is the last one
  have key : ∀ (is : List ι) (s : σ),
      (∀ t ∈ drive poll s is, TransparentPoll pollF inner (inner t.before) t.out) →
      inner (finish s (drive poll s is))
          = bareState pollF (inner s) ((runPolls (drive poll s is)).map Prod.fst)
        ∧ ∀ more : List (Cx ω), (runPolls (drive poll s is)).map Prod.snd
            <+: bare pollF (inner s) ((runPolls (drive poll s is)).map Prod.fst ++ more) := by
    intro is
    induction is with
    | nil => intro s _; exact ⟨rfl, fun more => List.nil_prefix⟩
    | cons i is ih =>
        intro s h
        have ht : TransparentPoll pollF inner (inner s) (poll s i) := h _ drive_head
        rw [drive]
        split
        · rename_i hp
          obtain ⟨ih1, ih2⟩ := ih (poll s i).next (fun t hmem => h t (drive_tail hp hmem))
          simp only [finish, runPolls_cons]
          rcases ht.moves with ⟨he, hn⟩ | ⟨cx, he, hn⟩
          · rw [he, ← hn]
            exact ⟨ih1, ih2⟩
          · have hr : (pollF (inner s) cx).2 = .pending :=
              ht.pending hp (by rw [he]; exact List.mem_singleton.mpr rfl)
            rw [he, List.singleton_append, List.map_cons, List.map_cons, hr]
            refine ⟨by rw [ih1, hn]; rfl, fun more => ?_⟩
            rw [List.cons_append, bare, hr, ← hn]
            exact (List.prefix_cons_inj _).mpr (ih2 more)
        · simp only [finish, runPolls_cons, runPolls_nil, List.append_nil]
          rcases ht.moves with ⟨he, hn⟩ | ⟨cx, he, hn⟩
          · rw [he, hn]
            exact ⟨rfl, fun more => List.nil_prefix⟩
          · rw [he, hn]
            refine ⟨rfl, fun more => ?_⟩
            simp only [List.map_cons, List.map_nil, List.singleton_append]
            rw [bare]
            split
            · rename_i hv; exact ⟨[], by rw [hv, List.append_nil]⟩
            · rename_i hv; rw [hv]; exact (List.prefix_cons_inj _).mpr List.nil_prefix
  obtain ⟨hstate, hanswers⟩ := key is s hturns
  refine ⟨hturns, fun t ht => (hturns t ht).once, hstate, hanswers, ?_⟩
  intro r hr
  exact bare_done _ _ r (dropLast_of_isPrefix (hanswers []) r hr)

/-- A poll that does nothing but poll the inner future at `f` and return its answer. -/
structure PassThrough (pollF : φ → Cx ω → φ × Poll ν) (cx : Cx ω) (f : φ)
    (o : Polled σ ω ν χ) : Prop where
  /-- The inner future is polled, once, with the wrapper's own context. -/
  polled : innerPolls o.acts = [(cx, (pollF f cx).2)]
  /-- Its answer is returned. -/
  answer : o.res = (pollF f cx).2.outcome
  /-- No timer is created. -/
  noSleep : ∀ d, Act.sleepInserted d ∉ o.acts

theorem PassThrough.returns {pollF : φ → Cx ω → φ × Poll ν} {cx : Cx ω} {f : φ}
    {o : Polled σ ω ν χ} (h : PassThrough pollF cx f o) : ∀ why, o.res ≠ .panicked why := by
  intro why
  rw [h.answer]
  cases (pollF f cx).2 with
  | ready v => simp [Poll.outcome]
  | pending => simp [Poll.outcome]

/-! ## Wake-ups -/

/-- What will wake the task after a poll that answered `pending`. -/
inductive WakeSource where
  /-- The timer that is stored in the wrapper. -/
  | storedSleep
  /-- The inner future. -/
  | inner
  /-- The poll itself, which has already called the waker. -/
  | itself
deriving DecidableEq, Repr

/-- The last thing a poll with waker `w` did was to arm `src`, and the stored timer agrees. -/
def ArmedBy (stored : σ → Option Sleep) (w : Waker) (o : Polled σ ω ν χ) : WakeSource → Prop
  | .storedSleep =>
      o.acts.getLast? = some (.sleepPolled w .pending)
        ∧ ∃ sl, stored o.next = some sl ∧ sl.waker = some w
  | .inner =>
      (∃ e, o.acts.getLast? = some (.innerPolled ⟨w, e⟩ .pending)) ∧ stored o.next = none
  | .itself =>
      (∃ pre, o.acts = pre ++ [.sleepPolled w (.ready ()), .woke w]) ∧ stored o.next = none

/-- The contract of one poll, with waker `w`, of a wrapper that never loses a wake-up. -/
structure ArmedPoll (stored : σ → Option Sleep) (w : Waker) (o : Polled σ ω ν χ) : Prop where
  /-- A `pending` answer leaves exactly one thing armed. -/
  armed : o.res = .pending → ∃! src, ArmedBy stored w o src
  /-- A stored timer was last polled with this poll's waker. -/
  fresh : ∀ sl, stored o.next = some sl → sl.waker = some w
  /-- No `unwrap` fails. -/
  noUnwrap : o.res ≠ .panicked .unwrap

/-- The three ways of being armed exclude each other. -/
theorem ArmedBy.unique {stored : σ → Option Sleep} {w : Waker} {o : Polled σ ω ν χ}
    {a b : WakeSource} (ha : ArmedBy stored w o a) (hb : ArmedBy stored w o b) : a = b := by
  have last : ∀ pre : List (Act ω ν χ), ∀ x y : Act ω ν χ,
      (pre ++ [x, y]).getLast? = some y := by intro pre x y; simp
  cases a <;> cases b <;> simp only [ArmedBy] at ha hb
  case storedSleep.storedSleep => rfl
  case inner.inner => rfl
  case itself.itself => rfl
  case storedSleep.inner =>
    obtain ⟨e, he⟩ := hb.1; rw [ha.1] at he; exact absurd he (by simp)
  case inner.storedSleep =>
    obtain ⟨e, he⟩ := ha.1; rw [hb.1] at he; exact absurd he (by simp)
  case storedSleep.itself =>
    obtain ⟨pre, hp⟩ := hb.1
    have := ha.1; rw [hp, last] at this; exact absurd this (by simp)
  case itself.storedSleep =>
    obtain ⟨pre, hp⟩ := ha.1
    have := hb.1; rw [hp, last] at this; exact absurd this (by simp)
  case inner.itself =>
    obtain ⟨e, he⟩ := ha.1; obtain ⟨pre, hp⟩ := hb.1
    rw [hp, last] at he; exact absurd he (by simp)
  case itself.inner =>
    obtain ⟨e, he⟩ := hb.1; obtain ⟨pre, hp⟩ := ha.1
    rw [hp, last] at he; exact absurd he (by simp)

/-- What never losing a wake-up means for a whole run. -/
structure ArmedRun (stored : σ → Option Sleep) (waker : ι → Waker) (s : σ)
    (ts : List (Turn σ ι ω ν χ)) : Prop where
  /-- Every turn keeps the contract. -/
  turns : ∀ t ∈ ts, ArmedPoll stored (waker t.input) t.out
  /-- A timer stored between polls was last polled with the waker of the last poll. -/
  between : ∀ sl, stored (finish s ts) = some sl →
    ∃ t, ts.getLast? = some t ∧ sl.waker = some (waker t.input)

/-- The state a run leaves behind is the one its last turn did. -/
theorem finish_eq (ts : List (Turn σ ι ω ν χ)) :
    ∀ s : σ, finish s ts = match ts.getLast? with
      | none => s
      | some t => t.out.next := by
  induction ts with
  | nil => intro s; rfl
  | cons t ts ih =>
      intro s
      rw [finish, ih, List.getLast?_cons]
      cases ts.getLast? <;> rfl

/-- **A wrapper whose every poll is armed is armed in every run.** -/
theorem armed_drive {poll : σ → ι → Polled σ ω ν χ} {stored : σ → Option Sleep}
    {waker : ι → Waker} (h : ∀ s i, ArmedPoll stored (waker i) (poll s i)) {s : σ}
    (h0 : stored s = none) (is : List ι) : ArmedRun stored waker s (drive poll s is) := by
  have hturns : ∀ t ∈ drive poll s is, ArmedPoll stored (waker t.input) t.out :=
    drive_turns (I := fun _ => True) (fun s i _ => ⟨h s i, trivial⟩) trivial
  refine ⟨hturns, ?_⟩
  intro sl hsl
  rw [finish_eq] at hsl
  cases hl : (drive poll s is).getLast? with
  | none => rw [hl] at hsl; dsimp only at hsl; rw [h0] at hsl; exact absurd hsl (by simp)
  | some t =>
      rw [hl] at hsl
      exact ⟨t, rfl, (hturns t (List.mem_of_getLast? hl)).fresh sl hsl⟩

end

end Async
