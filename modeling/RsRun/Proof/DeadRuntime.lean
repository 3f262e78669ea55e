import RsRun.BlockerSystem
import RsRun.Proof.KeepsExecutor

/-!
# When a runtime is alive

A tokio runtime that a blocker owns lasts until the signal of its dropper, and that is
sent with the last clone. But whether there is a blocker is decided by a spawn whose
result nobody looks at: when it fails, the closure and with it the tokio runtime are
dropped, and `build` returns `Ok` all the same.
-/

namespace RsRun.Proof

open BlockerSystem RefCount

/-! ## What the executors go through -/

/-- An executor that is to be alive while its signal has not been sent. -/
def Held (w : ExecutorSystem.World) (i : Nat) : Prop :=
  ∃ e, w.executors[i]? = some e ∧ (e.closeSent = false → e.blocked = true)

/-- One more executor, or another share of one, changes nothing for the others. -/
inductive ExecutorsMove (es : List Executor) : List Executor → Prop where
  | same : ExecutorsMove es es
  | push (e : Executor) : ExecutorsMove es (es ++ [e])
  | clone (i : Nat) : ExecutorsMove es (es.modify i Executor.clone)
  | drop (i : Nat) : ExecutorsMove es (es.modify i Executor.drop)

theorem executors_step {w w' : ExecutorSystem.World} {a : ExecutorSystem.Action}
    {t : List ExecutorSystem.Event} (h : ExecutorSystem.step w a = some (w', t)) :
    ExecutorsMove w.executors w'.executors := by
  cases a with
  | build b outcome =>
      rw [ExecutorSystem.step] at h
      split at h
      · injection h with h; injection h with h1 _
        subst h1
        exact .push _
      · injection h with h; injection h with h1 _
        subst h1
        exact .same
  | clone r =>
      rw [ExecutorSystem.step] at h
      split at h
      · injection h with h; injection h with h1 _
        subst h1
        exact .clone _
      · exact absurd h (by simp)
  | drop r =>
      rw [ExecutorSystem.step] at h
      split at h
      · injection h with h; injection h with h1 _
        subst h1
        exact .drop _
      · exact absurd h (by simp)
  | newTask interval initialDelay taskFn =>
      rw [ExecutorSystem.step] at h
      injection h with h; injection h with h1 _
      subst h1
      exact .same
  | start k r =>
      rw [ExecutorSystem.step] at h
      split at h
      · split at h
        · exact absurd h (by simp)
        · injection h with h; injection h with h1 _
          subst h1
          exact .drop _
      · exact absurd h (by simp)
  | stop k joined =>
      rw [ExecutorSystem.step] at h
      split at h
      · split at h
        · exact absurd h (by simp)
        · split at h
          · injection h with h; injection h with h1 _
            subst h1
            exact .same
          · injection h with h; injection h with h1 _
            subst h1
            exact .same
      · exact absurd h (by simp)
  | dropTask k =>
      rw [ExecutorSystem.step] at h
      split at h
      · split at h
        · exact absurd h (by simp)
        · injection h with h; injection h with h1 _
          subst h1
          exact .same
      · exact absurd h (by simp)

theorem executor_drop_held {e : Executor} (h : e.closeSent = false → e.blocked = true) :
    e.drop.closeSent = false → e.drop.blocked = true := by
  unfold Executor.drop
  dsimp only
  split
  · intro hsent
    exact absurd hsent (by simp)
  · exact h

theorem modify_kept {P : Executor → Prop} {es : List Executor} {f : Executor → Executor}
    {i : Nat} (hf : ∀ e, P e → P (f e)) (h : ∃ e, es[i]? = some e ∧ P e) (j : Nat) :
    ∃ e, (es.modify j f)[i]? = some e ∧ P e := by
  obtain ⟨e, he, hp⟩ := h
  by_cases hij : j = i
  · subst hij
    exact ⟨f e, by rw [List.getElem?_modify_eq, he]; rfl, hf e hp⟩
  · exact ⟨e, by rw [List.getElem?_modify_ne _ _ hij]; exact he, hp⟩

/-- What clones and drops keep, every operation of the program keeps. -/
theorem executors_kept {P : Executor → Prop} {es es' : List Executor} {i : Nat}
    (hclone : ∀ e, P e → P e.clone) (hdrop : ∀ e, P e → P e.drop) (hm : ExecutorsMove es es')
    (h : ∃ e, es[i]? = some e ∧ P e) : ∃ e, es'[i]? = some e ∧ P e := by
  cases hm with
  | same => exact h
  | push e' =>
      obtain ⟨e, he, hp⟩ := h
      exact ⟨e, Lists.getElem?_append_some he _, hp⟩
  | clone j => exact modify_kept hclone h j
  | drop j => exact modify_kept hdrop h j

theorem held_move {w w' : ExecutorSystem.World} {i : Nat} (h : Held w i)
    (hm : ExecutorsMove w.executors w'.executors) : Held w' i :=
  executors_kept (P := fun e => e.closeSent = false → e.blocked = true)
    (fun _ h => h) (fun _ h => executor_drop_held h) hm h

/-- What a blocker does: it gives up the tokio runtime whose signal was sent. -/
theorem release_step {w w' : ExecutorSystem.World} {i : Nat} {t : List ExecutorSystem.Event}
    (h : step w (.release i) = some (w', t)) :
    ∃ e, w.executors[i]? = some e ∧ e.closeSent = true ∧ t = []
      ∧ w' = { w with executors := w.executors.set i { e with blocked := false } } := by
  rw [step] at h
  split at h
  · rename_i e he
    split at h
    · rename_i hsent
      injection h with h; injection h with h1 h2
      rw [Bool.and_eq_true] at hsent
      exact ⟨e, he, hsent.2, h2.symm, h1.symm⟩
    · exact absurd h (by simp)
  · exact absurd h (by simp)

theorem programOk_release {w : ExecutorSystem.World} (h : ProgramOk w) {i : Nat} {e : Executor}
    (he : w.executors[i]? = some e) :
    ProgramOk { w with executors := w.executors.set i { e with blocked := false } } := by
  obtain ⟨⟨hexecutors, hruntimes⟩, hspawned⟩ := h
  refine ⟨⟨?_, ?_⟩, hspawned.grow rfl (Nat.le_of_eq List.length_set.symm)⟩
  · intro j e' he'
    dsimp only at he'
    by_cases hij : i = j
    · subst hij
      obtain ⟨hlt, _⟩ := List.getElem?_eq_some_iff.mp he
      rw [List.getElem?_set_self hlt] at he'
      injection he' with heq
      subst heq
      have hok := hexecutors i e he
      exact ⟨hok.droppers, hok.closeSent⟩
    · rw [List.getElem?_set_ne hij] at he'
      exact hexecutors j e' he'
  · intro runtime hmem
    dsimp only
    rw [List.length_set]
    exact hruntimes runtime hmem

theorem programOk_blocker_step {w w' : ExecutorSystem.World} {a : BlockerSystem.Action}
    {t : List ExecutorSystem.Event} (h : ProgramOk w) (hs : system.step w a = some (w', t)) :
    ProgramOk w' := by
  cases a with
  | program a => exact programOk_step h hs
  | release i =>
      obtain ⟨e, he, _, _, rfl⟩ := release_step hs
      exact programOk_release h he

theorem programOk_blocker {w : ExecutorSystem.World} (h : system.Reachable w) : ProgramOk w :=
  Lts.Reachable.inv (M := system) (P := ProgramOk) programOk_init
    (fun _ _ _ _ _ hp hs => programOk_blocker_step hp hs) h

theorem held_step {w w' : ExecutorSystem.World} {i : Nat} {a : BlockerSystem.Action}
    {t : List ExecutorSystem.Event} (h : Held w i) (hs : system.step w a = some (w', t)) :
    Held w' i := by
  cases a with
  | program a => exact held_move h (executors_step hs)
  | release j =>
      obtain ⟨e', he', hsent, _, rfl⟩ := release_step hs
      obtain ⟨e, he, hblocked⟩ := h
      unfold Held
      dsimp only
      by_cases hij : j = i
      · subst hij
        obtain ⟨hlt, _⟩ := List.getElem?_eq_some_iff.mp he'
        refine ⟨{ e' with blocked := false }, List.getElem?_set_self hlt, ?_⟩
        intro hunsent
        exact absurd (hsent.symm.trans hunsent) (by simp)
      · exact ⟨e, by rw [List.getElem?_set_ne hij]; exact he, hblocked⟩

/-! ## What `build` promises -/

/-- The tokio runtime behind `i` is alive while a clone is, and can be released after that. -/
structure KeptAlive (w : ExecutorSystem.World) (i : Nat) (e : Executor) : Prop where
  alive : SomeAlive w i → e.blocked = true
  signalled : ¬ SomeAlive w i → e.closeSent = true
  released : ¬ SomeAlive w i → e.blocked = true →
    ∃ w' e', step w (.release i) = some (w', []) ∧ w'.executors[i]? = some e' ∧ e'.blocked = false

theorem Held.keptAlive {w : ExecutorSystem.World} (hw : ProgramOk w) {i : Nat} (h : Held w i) :
    ∃ e, w.executors[i]? = some e ∧ KeptAlive w i e := by
  obtain ⟨e, he, hblocked⟩ := h
  have hpos := shares_pos executorOf i w.runtimes
  have hsent : e.closeSent = true ↔ ¬ SomeAlive w i := by
    rw [(hw.counted.executors i e he).closeSent]
    unfold SomeAlive
    rw [← hpos]
    omega
  refine ⟨e, he, ?_, hsent.mpr, ?_⟩
  · intro halive
    refine hblocked ?_
    rw [Bool.eq_false_iff]
    exact fun h => hsent.mp h halive
  · intro hgone hb
    have hlt : i < w.executors.length := (List.getElem?_eq_some_iff.mp he).1
    refine ⟨{ w with executors := w.executors.set i { e with blocked := false } },
      { e with blocked := false }, ?_, List.getElem?_set_self hlt, rfl⟩
    rw [step, he]
    dsimp only
    rw [hb, hsent.mpr hgone]
    rfl

/--
What `build` owes whoever calls it, when the calls that leave the crate end like this:
an `Ok` is kept alive through everything the program does later, and where the tokio
runtime cannot be built or kept there is an `Err`.
-/
def BuildSound (b : Builder) (outcome : BuildOutcome) : Prop :=
  ∀ w w' t, system.Reachable w → system.step w (.program (.build b outcome)) = some (w', t) →
    (∀ runtime, t = [.built (.ok runtime)] → ∀ as v u, system.exec w' as = some (v, u) →
      ∃ e, v.executors[executorOf runtime]? = some e ∧ KeptAlive v (executorOf runtime) e)
    ∧ (outcome.tokio ≠ .ok ∨ outcome.blocker ≠ .ok → t = [.built (.err .buildRuntime)])

/-- When the tokio runtime is built, `build` returns `Ok`; a blocker makes it last. -/
theorem build_tokio (w : ExecutorSystem.World) (b : Builder) {blocker : CallEnd}
    (h : blocker ≠ .panicked) :
    ∃ runtime w', system.step w (.program (.build b { tokio := .ok, blocker := blocker }))
        = some (w', [.built (.ok runtime)])
      ∧ (blocker = .ok → Held w' (executorOf runtime)) := by
  have hsucceeds : BuildOutcome.Succeeds { tokio := .ok, blocker := blocker } := ⟨rfl, h⟩
  refine ⟨b.runtime w.executors.length, { w with
    executors := w.executors ++ [BuildOutcome.executor { tokio := .ok, blocker := blocker }]
    runtimes := w.runtimes ++ [some (b.runtime w.executors.length)] }, ?_, ?_⟩
  · change ExecutorSystem.step w (.build b { tokio := .ok, blocker := blocker }) = _
    rw [ExecutorSystem.step, Builder.build_ok b hsucceeds]
  · intro hblocker
    exact ⟨_, List.getElem?_concat_length, fun _ => decide_eq_true hblocker⟩

/-- `build` returns the error of tokio before it comes to the spawn. -/
theorem buildSound_err (b : Builder) (blocker : CallEnd) :
    BuildSound b { tokio := .err, blocker := blocker } := by
  intro w w' t _ hs
  change some (w, [.built (.err .buildRuntime)]) = some (w', t) at hs
  injection hs with hs; injection hs with _ ht
  refine ⟨?_, fun _ => ht.symm⟩
  intro runtime hok
  rw [← ht] at hok
  exact absurd hok (by simp)

theorem buildSound_held (b : Builder) : BuildSound b { tokio := .ok, blocker := .ok } := by
  intro w w' t hw hs
  obtain ⟨runtime, w₁, hs', hheld⟩ := build_tokio w b (by simp : CallEnd.ok ≠ .panicked)
  rw [hs'] at hs
  injection hs with hs; injection hs with h1 h2
  subst h1; subst h2
  refine ⟨?_, fun h => absurd h (by simp)⟩
  intro runtime' hok as v u hexec
  injection hok with hok
  injection hok with hok
  injection hok with hok
  subst hok
  have hv : system.Reachable v := (hw.step hs').exec hexec
  refine Held.keptAlive (programOk_blocker hv) ?_
  exact Lts.exec_inv (P := fun w => Held w (executorOf runtime))
    (fun _ _ _ _ hp hstep => held_step hp hstep) (hheld rfl) hexec

/-- A call fails, and what `build` makes of it is no `Err`. -/
theorem not_buildSound {b : Builder} {outcome : BuildOutcome} {w' : ExecutorSystem.World}
    {res : Ret Runtime} (hfails : outcome.tokio ≠ .ok ∨ outcome.blocker ≠ .ok)
    (hs : system.step system.init (.program (.build b outcome)) = some (w', [.built res]))
    (hres : res ≠ .err .buildRuntime) : ¬ BuildSound b outcome := by
  intro h
  have herr := (h _ _ _ Lts.reachable_init hs).2 hfails
  injection herr with herr
  injection herr with herr
  exact hres herr

/--
**When `build` keeps what it promises.**

Exactly when tokio answers with an error, or builds its runtime and the blocker is spawned.
-/
theorem build_sound_iff (b : Builder) (outcome : BuildOutcome) :
    BuildSound b outcome
      ↔ outcome.tokio = .err ∨ (outcome.tokio = .ok ∧ outcome.blocker = .ok) := by
  obtain ⟨tokio, blocker⟩ := outcome
  cases tokio with
  | err => exact ⟨fun _ => .inl rfl, fun _ => buildSound_err b blocker⟩
  | panicked =>
      refine ⟨fun h => ?_, fun h => absurd h (by simp)⟩
      exact absurd h (not_buildSound (.inl (by simp)) rfl (by simp))
  | ok =>
      cases blocker with
      | ok => exact ⟨fun _ => .inr ⟨rfl, rfl⟩, fun _ => buildSound_held b⟩
      | panicked =>
          refine ⟨fun h => ?_, fun h => absurd h (by simp)⟩
          exact absurd h (not_buildSound (.inr (by simp)) rfl (by simp))
      | err =>
          -- an `Ok` for a tokio runtime that went with the closure of its blocker
          refine ⟨fun h => ?_, fun h => absurd h (by simp)⟩
          obtain ⟨runtime, w', hs, _⟩ := build_tokio system.init b (by simp : CallEnd.err ≠ .panicked)
          exact absurd h (not_buildSound (.inr (by simp)) hs (by simp))

/-- The tokio runtime is built, and the spawn of its blocker fails. -/
theorem not_build_sound :
    ¬ BuildSound (Builder.default 0) { tokio := .ok, blocker := .err } := by
  obtain ⟨runtime, w', hs, _⟩ :=
    build_tokio system.init (Builder.default 0) (by simp : CallEnd.err ≠ .panicked)
  exact not_buildSound (.inr (by simp)) hs (by simp)

end RsRun.Proof
