import RsRun.Proof.Closures
import RsRun.Proof.WholeCalls

/-!
# Initialisations that are ignored

In a history of whole calls the first one decides everything. After a first call of
`init_global_runtimes` every call returns normally, a second `init_global_runtimes`
included, and its options are ignored. After a first use the built-in runtimes are
served, and every `init_global_runtimes` panics.
-/

namespace RsRun.Proof

open Global Sync

/-! ## After the first call -/

/-- The statics after a first call of `init_global_runtimes`. -/
structure FilledBy (options : RuntimeOptions) (s : Statics) : Prop where
  start : s.start = .ready ()
  global : s.global = .ready (ofKinds (configured options 0))
    ∨ (s.global = .incomplete ∧ s.config = Mutex.new (full (configured options 0)))

/-- The statics after a first use of a global runtime. -/
structure NotFilled (s : Statics) : Prop where
  global : s.global = .ready (ofKinds (builtin 0))
  start : s.start = .poisoned ∨ (s.start = .incomplete ∧ s.config = Mutex.new taken)

/-- What a call returns when the configuration was filled from `options`. -/
def filledAnswer (options : RuntimeOptions) : Op → Answer
  | .init _ => .ok none
  | .use kind => .ok (some (configured options 0 kind))

/-- What a call returns when it was not. -/
def unfilledAnswer : Op → Answer
  | .init _ => .panicked
  | .use kind => .ok (some (builtin 0 kind))

theorem filledBy_first {options : RuntimeOptions} (hv : Valid options) :
    ∃ s, Statics.init.call (.init options) granted = some (s, .ok none) ∧ FilledBy options s := by
  have hrun : Statics.init.runInit options granted = _ :=
    locked_sound rfl (initClosure_granted hv granted_succeeds 0)
  unfold Statics.call
  dsimp only
  rw [show Statics.init.start = .incomplete from rfl]
  dsimp only
  rw [hrun]
  exact ⟨_, rfl, rfl, Or.inr ⟨rfl, rfl⟩⟩

theorem notFilled_first (kind : Kind) :
    ∃ s, Statics.init.call (.use kind) granted = some (s, .ok (some (builtin 0 kind)))
      ∧ NotFilled s := by
  have hrun : Statics.init.runGlobal granted = _ :=
    locked_sound rfl (globalClosure_granted granted_succeeds 0)
  unfold Statics.call
  dsimp only
  rw [show Statics.init.global = .incomplete from rfl]
  dsimp only
  rw [hrun]
  exact ⟨_, by rw [useAnswer, get_ofKinds], rfl, Or.inr ⟨rfl, rfl⟩⟩

/-- **A call on a filled configuration** returns normally, and leaves it filled. -/
theorem filledBy_call {options : RuntimeOptions} {s : Statics} (h : FilledBy options s) (op : Op) :
    ∃ s', s.call op granted = some (s', filledAnswer options op) ∧ FilledBy options s' := by
  obtain ⟨hstart, hglobal⟩ := h
  cases op with
  | init options' =>
      refine ⟨s, ?_, hstart, hglobal⟩
      unfold Statics.call
      rw [hstart]
      rfl
  | use kind =>
      unfold Statics.call
      rcases hglobal with hready | ⟨hinc, hconfig⟩
      · rw [hready]
        exact ⟨s, by dsimp only; rw [useAnswer, get_ofKinds]; rfl, hstart, Or.inl hready⟩
      · rw [hinc]
        dsimp only
        have hrun : s.runGlobal granted = _ :=
          locked_sound hconfig (globalClosure_full (configured options 0) granted s.handles)
        rw [hrun]
        refine ⟨{ s with
          config := Mutex.new taken
          global := .ready (ofKinds (configured options 0))
          handles := s.handles + 4 }, ?_, hstart, Or.inl rfl⟩
        dsimp only
        rw [useAnswer, get_ofKinds]
        rfl

/-- **A call after a first use**: uses are served, and initialisations panic. -/
theorem notFilled_call {s : Statics} (h : NotFilled s) (op : Op) :
    ∃ s', s.call op granted = some (s', unfilledAnswer op) ∧ NotFilled s' := by
  obtain ⟨hglobal, hstart⟩ := h
  cases op with
  | init options =>
      unfold Statics.call
      rcases hstart with hpoisoned | ⟨hinc, hconfig⟩
      · rw [hpoisoned]
        exact ⟨s, rfl, hglobal, Or.inl hpoisoned⟩
      · rw [hinc]
        dsimp only
        have hrun : s.runInit options granted = _ :=
          locked_sound hconfig (initClosure_already rfl options granted s.handles)
        rw [hrun]
        exact ⟨_, rfl, hglobal, Or.inl rfl⟩
  | use kind =>
      unfold Statics.call
      rw [hglobal]
      exact ⟨s, by dsimp only; rw [useAnswer, get_ofKinds]; rfl, hglobal, hstart⟩

/-! ## Histories -/

/-- Statics that every call keeps, a whole history keeps. -/
theorem replay_keeps {P : Statics → Prop} {answer : Op → Answer}
    (hcall : ∀ s op, P s → ∃ s', s.call op granted = some (s', answer op) ∧ P s')
    (ops : List Op) : ∀ {s : Statics}, P s → ∃ s', s.replay ops = some s' ∧ P s' := by
  induction ops with
  | nil =>
      intro s hs
      exact ⟨s, rfl, hs⟩
  | cons op ops ih =>
      intro s hs
      obtain ⟨s₁, h₁, hs₁⟩ := hcall s op hs
      obtain ⟨s₂, h₂, hs₂⟩ := ih hs₁
      refine ⟨s₂, ?_, hs₂⟩
      rw [Statics.replay, h₁]
      exact h₂

/-- What is answered after a history whose first call brought the statics under `P`. -/
theorem answerAfter_cons {P : Statics → Prop} {answer : Op → Answer}
    (hcall : ∀ s op, P s → ∃ s', s.call op granted = some (s', answer op) ∧ P s')
    {first : Op} {a : Answer}
    (hfirst : ∃ s, Statics.init.call first granted = some (s, a) ∧ P s) (mid : List Op) (op : Op) :
    answerAfter (first :: mid) op = some (answer op) := by
  obtain ⟨s, hs, hP⟩ := hfirst
  obtain ⟨s₁, h₁, hP₁⟩ := replay_keeps hcall mid hP
  obtain ⟨s₂, h₂, _⟩ := hcall s₁ op hP₁
  unfold answerAfter
  rw [Statics.replay, hs]
  dsimp only
  rw [h₁]
  dsimp only
  rw [h₂]

theorem answerAfter_init {options : RuntimeOptions} (hv : Valid options) (mid : List Op) (op : Op) :
    answerAfter (.init options :: mid) op = some (filledAnswer options op) :=
  answerAfter_cons (fun _ op h => filledBy_call h op) (filledBy_first hv) mid op

theorem answerAfter_use (kind : Kind) (mid : List Op) (op : Op) :
    answerAfter (.use kind :: mid) op = some (unfilledAnswer op) :=
  answerAfter_cons (fun _ op h => notFilled_call h op) (notFilled_first kind) mid op

theorem answerAfter_nil {options : RuntimeOptions} (hv : Valid options) :
    answerAfter [] (.init options) = some (.ok none) := by
  obtain ⟨s, hs, _⟩ := filledBy_first hv
  unfold answerAfter
  rw [Statics.replay]
  dsimp only
  rw [hs]

/-! ## Exactly when no initialisation is ignored -/

/-- A call of `init_global_runtimes` after `before` returns normally. -/
def ReturnsNormally (before : List Op) (options : RuntimeOptions) : Prop :=
  answerAfter before (.init options) = some (.ok none)

/-- Is the call one of `init_global_runtimes`? -/
def isInit : Op → Bool
  | .init _ => true
  | .use _ => false

/-- The number of workers that the options, or the constant for `hb`, give a runtime. -/
def sizeOf (options : RuntimeOptions) : Kind → Nat
  | .read => options.readRtSize
  | .write => options.writeRtSize
  | .bg => options.bgRtSize
  | .hb => hbWorkers

/-- The call of `init_global_runtimes` that comes between `before` and `after` is heeded. -/
structure Heeded (before : List Op) (options : RuntimeOptions) (after : List Op) : Prop where
  /-- It returns normally if it is the first and no global runtime was used. -/
  normal : ReturnsNormally before options ↔
    (∀ pre o post, before = pre ++ .init o :: post → ¬ ReturnsNormally pre o)
      ∧ ∀ kind, Op.use kind ∉ before
  /-- It panics otherwise. -/
  panics : ReturnsNormally before options ∨ answerAfter before (.init options) = some .panicked
  /-- Once it has returned normally, the runtimes that are used are of its sizes. -/
  served : ReturnsNormally before options → ∀ mid kind post, after = mid ++ .use kind :: post →
    kind ≠ .hb →
    ∃ runtime, answerAfter (before ++ .init options :: mid) (.use kind) = some (.ok (some runtime))
      ∧ runtime.handle.workerThreads = some (sizeOf options kind)

/-- No initialisation of the history is silently ignored. -/
def NeverIgnored (history : List Op) : Prop :=
  ∀ before options after, history = before ++ .init options :: after →
    Heeded before options after

/-- After a first use nothing returns normally. -/
theorem not_returnsNormally_use (kind : Kind) (mid : List Op) (options : RuntimeOptions) :
    ¬ ReturnsNormally (.use kind :: mid) options := by
  unfold ReturnsNormally
  rw [answerAfter_use]
  simp [unfilledAnswer]

/-- A history without a call of `init_global_runtimes` is empty or begins with a use. -/
theorem uses_cases {before : List Op} (h : before.countP isInit = 0) :
    before = [] ∨ ∃ kind mid, before = .use kind :: mid := by
  cases before with
  | nil => exact Or.inl rfl
  | cons op mid =>
      cases op with
      | use kind => exact Or.inr ⟨kind, mid, rfl⟩
      | init options =>
          rw [List.countP_cons_of_pos rfl] at h
          omega

/-- **A call of `init_global_runtimes` after a first use** panics, as it should. -/
theorem heeded_after_use (kind : Kind) (mid : List Op) (options : RuntimeOptions)
    (after : List Op) : Heeded (.use kind :: mid) options after where
  normal := by
    constructor
    · intro h
      exact absurd h (not_returnsNormally_use kind mid options)
    · intro h
      exact absurd List.mem_cons_self (h.2 kind)
  panics := Or.inr (answerAfter_use kind mid (.init options))
  served := by
    intro h
    exact absurd h (not_returnsNormally_use kind mid options)

/-- **A first call of `init_global_runtimes`** returns normally, and its sizes are served. -/
theorem heeded_first {options : RuntimeOptions} (hv : Valid options) (after : List Op) :
    Heeded [] options after where
  normal := by
    constructor
    · intro _
      refine ⟨?_, ?_⟩
      · intro pre o post heq
        exact absurd heq.symm (by simp)
      · intro k
        exact List.not_mem_nil
    · intro _
      exact answerAfter_nil hv
  panics := Or.inl (answerAfter_nil hv)
  served := by
    intro _ mid k post _ _
    refine ⟨configured options 0 k, answerAfter_init hv mid (.use k), ?_⟩
    cases k <;> rfl

/--
**No initialisation is ignored exactly in the histories that begin with a use of a
global runtime or contain at most one initialisation.**
-/
theorem never_ignored_iff (history : List Op)
    (hv : ∀ options, Op.init options ∈ history → Valid options) :
    NeverIgnored history ↔
      (∃ kind rest, history = .use kind :: rest) ∨ history.countP isInit ≤ 1 := by
  constructor
  · intro h
    cases history with
    | nil => exact Or.inr (Nat.zero_le 1)
    | cons op rest =>
        cases op with
        | use kind => exact Or.inl ⟨kind, rest, rfl⟩
        | init options =>
            have hvalid := hv options List.mem_cons_self
            refine Or.inr ?_
            by_contra hmany
            -- a second one returns normally although the first one did
            rw [List.countP_cons_of_pos rfl] at hmany
            have hpos : 0 < rest.countP isInit := by omega
            obtain ⟨op', hmem, hop'⟩ := List.countP_pos_iff.mp hpos
            cases op' with
            | use kind => exact absurd hop' (by simp [isInit])
            | init options' =>
                obtain ⟨mid, post, hrest⟩ := List.append_of_mem hmem
                subst hrest
                have hsecond : ReturnsNormally (.init options :: mid) options' :=
                  answerAfter_init hvalid mid (.init options')
                have hclaim := (h (.init options :: mid) options' post rfl).normal.mp hsecond
                exact hclaim.1 [] options mid rfl (answerAfter_nil hvalid)
  · intro h before options after heq
    subst heq
    have hvalid := hv options (List.mem_append_right _ List.mem_cons_self)
    rcases h with ⟨kind, rest, hfirst⟩ | hone
    · cases before with
      | nil =>
          injection hfirst with hop _
          exact absurd hop (by simp)
      | cons op mid =>
          injection hfirst with hop _
          subst hop
          exact heeded_after_use kind mid options after
    · have hzero : before.countP isInit = 0 := by
        rw [List.countP_append, List.countP_cons_of_pos rfl] at hone
        omega
      rcases uses_cases hzero with hnil | ⟨kind, mid, hbefore⟩
      · subst hnil
        exact heeded_first hvalid after
      · subst hbefore
        exact heeded_after_use kind mid options after

/-- One initialisation, and a use of what it configured. -/
theorem never_ignored_once :
    NeverIgnored [.init { readRtSize := 3, writeRtSize := 2, bgRtSize := 1 }, .use .read] := by
  refine (never_ignored_iff _ ?_).mpr (Or.inr (by decide))
  intro options hmem
  rcases List.mem_cons.mp hmem with heq | hmem
  · injection heq with heq
    subst heq
    exact ⟨by decide, by decide, by decide⟩
  · exact absurd (List.mem_singleton.mp hmem) (by simp)

/-- The second of two initialisations returns normally, and its options are ignored. -/
theorem ignored_second :
    ¬ NeverIgnored [.init { readRtSize := 2, writeRtSize := 2, bgRtSize := 2 },
      .init { readRtSize := 4, writeRtSize := 4, bgRtSize := 4 }] := by
  intro h
  have hheeded := h [.init { readRtSize := 2, writeRtSize := 2, bgRtSize := 2 }] _ [] rfl
  have hsecond := hheeded.normal.mp rfl
  exact hsecond.1 [] _ [] rfl rfl

end RsRun.Proof
