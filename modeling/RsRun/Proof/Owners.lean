import RsRun.OwnerSystem
import RsRun.Proof.Configure
import RsRun.Proof.KeepsExecutor

/-!
# The droppers count the owners

Wherever a `Runtime` is kept, its dropper counts it: in a variable of the program, in the
configuration, or in `GLOBAL_RUNTIMES`. The closures move runtimes from one place to the
next and create new ones on the way; what a panic leaves behind in the poisoned
configuration is still owned there.
-/

namespace RsRun.Proof

open Global OwnerSystem RefCount Sync

variable {ψ : Type*}

/-! ## What the steps of the statics do -/

/-- The slots that the statics keep runtimes in. -/
def staticSlots (s : Statics) : List (Option Runtime) := s.config.val.slots ++ s.globalSlots

/-- The shares that the statics have in executor `i`. -/
def staticShares (s : Statics) (i : Nat) : Nat := shares executorOf i (staticSlots s)

/-- The statics keep what they keep, and at most tell a call what was decided. -/
structure Quiet (w w' : Global.World) (t : List Global.Event) : Prop where
  start : w'.statics.start.decided = w.statics.start.decided
  config : w'.statics.config = w.statics.config
  handles : w'.statics.handles = w.statics.handles
  global : w'.statics.global.decided = w.statics.global.decided
  calls : KeepsCalls w w'
  told : t = [] ∨ ∃ c op answer, t = [.answered c answer] ∧ IsCall w c op ∧ Told w.statics op answer

theorem ops_answer {w : Global.World} {c : Nat} {op : Op} {was : Option Answer}
    (hc : w.calls[c]? = some { op := op, answer := was }) (answer : Answer) :
    (w.answer c op answer).1.calls.map Call.op = w.calls.map Call.op := by
  obtain ⟨hlt, heq⟩ := List.getElem?_eq_some_iff.mp hc
  unfold World.answer
  dsimp only
  refine List.ext_getElem? (fun d => ?_)
  rw [List.map_set, List.getElem?_map]
  by_cases hd : c = d
  · subst hd
    rw [List.getElem?_set_self (by rw [List.length_map]; exact hlt), hc]
    rfl
  · rw [List.getElem?_set_ne hd, List.getElem?_map]

/-- Calls that come to a static, and those that publish its value. -/
theorem enter_quiet {w w' : Global.World} {c : Nat} {t : List Global.Event}
    (h : Global.step w (.enter c) = some (w', t)) :
    Quiet w w' t ∧ w'.calls.map Call.op = w.calls.map Call.op := by
  rw [Global.step] at h
  split at h
  · rename_i options hc
    split at h
    · exact absurd h (by simp)
    · rename_i start hs
      obtain ⟨hdec, _⟩ := OneShot.enter_decided hs
      injection h with h; injection h with h1 h2
      subst h1; subst h2
      exact ⟨⟨hdec, rfl, rfl, rfl, keepsCalls_refl w, .inl rfl⟩, rfl⟩
    · rename_i start res hs
      obtain ⟨_, hres⟩ := OneShot.enter_decided hs
      injection h with h; injection h with h1 h2
      subst h1; subst h2
      exact ⟨⟨rfl, rfl, rfl, rfl, keepsCalls_answer hc _,
        .inr ⟨c, _, _, rfl, ⟨none, hc⟩, res, hres res rfl, rfl⟩⟩, ops_answer hc _⟩
  · rename_i kind hc
    split at h
    · exact absurd h (by simp)
    · rename_i global hs
      obtain ⟨hdec, _⟩ := OneShot.enter_decided hs
      injection h with h; injection h with h1 h2
      subst h1; subst h2
      exact ⟨⟨rfl, rfl, rfl, hdec, keepsCalls_refl w, .inl rfl⟩, rfl⟩
    · rename_i global res hs
      obtain ⟨_, hres⟩ := OneShot.enter_decided hs
      injection h with h; injection h with h1 h2
      subst h1; subst h2
      exact ⟨⟨rfl, rfl, rfl, rfl, keepsCalls_answer hc _,
        .inr ⟨c, _, _, rfl, ⟨none, hc⟩, res, hres res rfl, rfl⟩⟩, ops_answer hc _⟩
  · exact absurd h (by simp)

theorem leave_quiet {w w' : Global.World} {c : Nat} {t : List Global.Event}
    (h : Global.step w (.leave c) = some (w', t)) :
    Quiet w w' t ∧ w'.calls.map Call.op = w.calls.map Call.op := by
  rw [Global.step] at h
  split at h
  · rename_i options hc
    split at h
    · exact absurd h (by simp)
    · rename_i start res hs
      obtain ⟨hbefore, hafter⟩ := OneShot.leave_decided hs
      injection h with h; injection h with h1 h2
      subst h1; subst h2
      exact ⟨⟨hafter.trans hbefore.symm, rfl, rfl, rfl, keepsCalls_answer (w := w) hc _,
        .inr ⟨c, _, _, rfl, ⟨none, hc⟩, res, hbefore, rfl⟩⟩, ops_answer (w := w) hc _⟩
  · rename_i kind hc
    split at h
    · exact absurd h (by simp)
    · rename_i global res hs
      obtain ⟨hbefore, hafter⟩ := OneShot.leave_decided hs
      injection h with h; injection h with h1 h2
      subst h1; subst h2
      exact ⟨⟨rfl, rfl, rfl, hafter.trans hbefore.symm, keepsCalls_answer (w := w) hc _,
        .inr ⟨c, _, _, rfl, ⟨none, hc⟩, res, hbefore, rfl⟩⟩, ops_answer (w := w) hc _⟩
  · exact absurd h (by simp)

/-- What running a closure is: that of `START`, or that of `GLOBAL_RUNTIMES`. -/
inductive Runs (w : Global.World) (c : Nat) (outcome : Kind → BuildOutcome) :
    Global.World → List Global.Event → Prop where
  | init (options : RuntimeOptions) (start : OneShot Unit)
      (call : w.calls[c]? = some { op := .init options, answer := none })
      (before : w.statics.start.decided = none)
      (after : start.decided = some (w.statics.runInit options outcome).2.2) :
      Runs w c outcome
        { w with statics := { (w.statics.runInit options outcome).1 with start := start } }
        (createdBy c (w.statics.runInit options outcome).2.1)
  | global (kind : Kind) (global : OneShot GlobalRuntimes)
      (call : w.calls[c]? = some { op := .use kind, answer := none })
      (before : w.statics.global.decided = none)
      (after : global.decided = some (w.statics.runGlobal outcome).2.2) :
      Runs w c outcome
        { w with statics := { (w.statics.runGlobal outcome).1 with global := global } }
        (createdBy c (w.statics.runGlobal outcome).2.1)

theorem run_runs {w w' : Global.World} {c : Nat} {outcome : Kind → BuildOutcome}
    {t : List Global.Event} (h : Global.step w (.run c outcome) = some (w', t)) :
    Runs w c outcome w' t := by
  rw [Global.step] at h
  split at h
  · rename_i options hc
    split at h
    rename_i statics made res hrun
    split at h
    · exact absurd h (by simp)
    · rename_i start hs
      obtain ⟨hbefore, hafter⟩ := OneShot.close_decided hs
      injection h with h; injection h with h1 h2
      subst h1; subst h2
      have hstep := Runs.init options start hc hbefore
        (by rw [hrun]; exact hafter)
      rw [hrun] at hstep
      exact hstep
  · rename_i kind hc
    split at h
    rename_i statics made res hrun
    split at h
    · exact absurd h (by simp)
    · rename_i global hs
      obtain ⟨hbefore, hafter⟩ := OneShot.close_decided hs
      injection h with h; injection h with h1 h2
      subst h1; subst h2
      have hstep := Runs.global kind global hc hbefore
        (by rw [hrun]; exact hafter)
      rw [hrun] at hstep
      exact hstep
  · exact absurd h (by simp)

/-! ## What the closures own -/

theorem staticShares_eq (s : Statics) (i : Nat) :
    staticShares s i = shares executorOf i s.config.val.slots + shares executorOf i s.globalSlots :=
  List.countP_append

theorem owners_eq (w : OwnerSystem.World ψ) (i : Nat) :
    w.owners i = shares executorOf i w.runtimes + staticShares w.global.statics i := by
  unfold World.owners World.slots staticShares staticSlots
  rw [List.append_assoc]
  exact List.countP_append

/-- Nothing is in `GLOBAL_RUNTIMES` unless its closure came to an end. -/
theorem globalSlots_nil {s : Statics} (h : ∀ g, s.global.decided ≠ some (some g)) :
    s.globalSlots = [] := by
  unfold Statics.globalSlots
  split
  · rename_i g hg
    exact absurd hg (h g)
  · rfl

theorem globalSlots_ofKinds {s : Statics} {f : Kind → Runtime}
    (h : s.global.decided = some (some (ofKinds f))) : s.globalSlots = (full f).slots := by
  unfold Statics.globalSlots
  rw [h]
  rfl

theorem shares_default (i : Nat) : shares executorOf i ConfigRuntimes.default.slots = 0 := rfl

theorem shares_taken (i : Nat) : shares executorOf i taken.slots = 0 := rfl

/-- The executors of what a closure created. -/
def madeIds (m : Made) : List Nat := m.map (fun x => executorOf x.2)

theorem shares_full (f : Kind → Runtime) (i : Nat) :
    shares executorOf i (full f).slots = (madeIds (allMade f)).count i := shares_eq_count ..

/-- What `init_global_runtimes` created is in the configuration, even after a panic. -/
theorem initClosure_given (options : RuntimeOptions) (outcome : Kind → BuildOutcome) (n : Nat) :
    (initClosure ConfigRuntimes.default options outcome n).1.slots.filterMap id
      = (initClosure ConfigRuntimes.default options outcome n).2.1.map Prod.snd := by
  unfold initClosure
  rw [if_neg (by decide)]
  split
  · rfl
  · split
    · rfl
    · split
      · rfl
      · split <;> rfl

theorem initClosure_slots (options : RuntimeOptions) (outcome : Kind → BuildOutcome) (n i : Nat) :
    shares executorOf i (initClosure ConfigRuntimes.default options outcome n).1.slots
      = (madeIds (initClosure ConfigRuntimes.default options outcome n).2.1).count i := by
  rw [shares_eq_count, initClosure_given, List.map_map]
  rfl

/-- The four creations are numbered in order. -/
structure Numbered (m : Made) (id : Nat) : Prop where
  sorted : (madeIds m).Pairwise (· < ·)
  low : ∀ x ∈ m, id ≤ executorOf x.2
  high : ∀ x ∈ m, executorOf x.2 < id + 4

theorem numbered_of_initial {m : Made} {f : Kind → Runtime} {id : Nat}
    (hf : madeIds (allMade f) = [id, id + 1, id + 2, id + 3]) (h : m <+: allMade f) :
    Numbered m id := by
  have hmem : ∀ x ∈ m, executorOf x.2 ∈ [id, id + 1, id + 2, id + 3] := by
    intro x hx
    rw [← hf]
    exact List.mem_map_of_mem (h.subset hx)
  refine ⟨?_, ?_, ?_⟩
  · have hsub : (madeIds m).Sublist (madeIds (allMade f)) := h.sublist.map _
    refine List.Pairwise.sublist hsub ?_
    rw [hf]
    simp
  · intro x hx
    have := hmem x hx
    simp only [List.mem_cons, List.not_mem_nil, or_false] at this
    omega
  · intro x hx
    have := hmem x hx
    simp only [List.mem_cons, List.not_mem_nil, or_false] at this
    omega

/-- What running a closure means for the owners of every executor. -/
structure ClosedUp (s s' : Statics) (m : Made) (gone : List Nat) : Prop where
  numbered : Numbered m s.handles
  shares : ∀ i, staticShares s' i + gone.count i = staticShares s i + (madeIds m).count i
  handles : s.handles ≤ s'.handles
  room : m ≠ [] → s.handles + 4 ≤ s'.handles

theorem numbered_nil (id : Nat) : Numbered [] id :=
  ⟨List.Pairwise.nil, by simp, by simp⟩

/-- A closure that neither creates nor drops anything. -/
theorem ClosedUp.still {s s' : Statics} (h : ∀ i, staticShares s' i = staticShares s i)
    (hle : s.handles ≤ s'.handles) : ClosedUp s s' [] [] :=
  ⟨numbered_nil _, h, hle, fun hne => absurd rfl hne⟩

theorem unwound_poisoned {s : Statics} (h : s.config.poisoned = true)
    (outcome : Kind → BuildOutcome) : s.unwound outcome = [] := by
  unfold Statics.unwound
  rw [if_pos h]

theorem unwound_sound {s : Statics} {c : ConfigRuntimes} (h : s.config = Mutex.new c)
    {outcome : Kind → BuildOutcome} {m : Made} {res : Option GlobalRuntimes}
    (hcl : (globalClosure c outcome s.handles).2 = (m, res)) :
    s.unwound outcome = if res.isSome then [] else c.slots.filterMap id ++ m.map Prod.snd := by
  unfold Statics.unwound
  rw [h]
  dsimp only [Mutex.new]
  rw [hcl]
  cases res <;> rfl

/-- Statics that keep nothing in `GLOBAL_RUNTIMES`. -/
theorem staticShares_config {s : Statics} {c : ConfigRuntimes} (hc : s.config.val = c)
    (hg : ∀ g, s.global.decided ≠ some (some g)) (i : Nat) :
    staticShares s i = shares executorOf i c.slots := by
  rw [staticShares_eq, globalSlots_nil hg, hc]
  rfl

/-- Statics that keep one of each kind there, and nothing in the configuration. -/
theorem staticShares_ofKinds {s : Statics} {f : Kind → Runtime} (hc : s.config.val = taken)
    (hg : s.global.decided = some (some (ofKinds f))) (i : Nat) :
    staticShares s i = shares executorOf i (full f).slots := by
  rw [staticShares_eq, globalSlots_ofKinds hg, hc, shares_taken, Nat.zero_add]

/-- The closure of `START` begins with nothing, or changes nothing. -/
theorem runInit_cases {w : Global.World} {m : List (Nat × Kind × Runtime)} (h : Configured w m)
    (options : RuntimeOptions) (outcome : Kind → BuildOutcome)
    (before : w.statics.start.decided = none) :
    (m = [] ∧ w.statics.config = Mutex.new ConfigRuntimes.default
        ∧ w.statics.global.decided = none)
      ∨ ((w.statics.runInit options outcome).1.config.val = w.statics.config.val
        ∧ w.statics.handles ≤ (w.statics.runInit options outcome).1.handles
        ∧ (w.statics.runInit options outcome).2.1 = []) := by
  have hpoisoned : w.statics.config.poisoned = true →
      (w.statics.runInit options outcome).1.config.val = w.statics.config.val
        ∧ w.statics.handles ≤ (w.statics.runInit options outcome).1.handles
        ∧ (w.statics.runInit options outcome).2.1 = [] := by
    intro hp
    have hrun : w.statics.runInit options outcome = _ := locked_poisoned hp _
    rw [hrun]
    exact ⟨rfl, Nat.le_refl _, rfl⟩
  cases h with
  | untouched _ config global => exact .inl ⟨rfl, config, global⟩
  | filled _ _ _ _ hstart => rw [hstart] at before; exact absurd before (by simp)
  | served _ _ _ _ hstart => rw [hstart] at before; exact absurd before (by simp)
  | unconfigured _ _ _ _ _ config _ =>
      by_cases hp : w.statics.config.poisoned = true
      · exact .inr (hpoisoned hp)
      · -- the assertion fails
        have hnew := config_eq_new (Bool.eq_false_iff.mpr hp)
        rw [config] at hnew
        have hrun : w.statics.runInit options outcome = _ :=
          locked_sound hnew (initClosure_already rfl options outcome _)
        rw [hrun, config]
        exact .inr ⟨rfl, Nat.le_add_right _ _, rfl⟩
  | broken _ _ _ config _ => exact .inr (hpoisoned config)

/-- **The closure of `START`.** -/
theorem closedUp_runInit {w : Global.World} {m : List (Nat × Kind × Runtime)} (h : Configured w m)
    (options : RuntimeOptions) (outcome : Kind → BuildOutcome) (start : OneShot Unit)
    (before : w.statics.start.decided = none) :
    ClosedUp w.statics { (w.statics.runInit options outcome).1 with start := start }
      (w.statics.runInit options outcome).2.1 [] := by
  generalize hs' : ({ (w.statics.runInit options outcome).1 with start := start } : Statics) = s'
  have hconfig : s'.config = (w.statics.runInit options outcome).1.config := by rw [← hs']
  have hhandles : s'.handles = (w.statics.runInit options outcome).1.handles := by rw [← hs']
  have hglobal : s'.global = w.statics.global := by rw [← hs']; exact locked_global _ _
  rcases runInit_cases h options outcome before with ⟨_, config, global⟩ | ⟨hval, hle, hnone⟩
  · have hslots := initClosure_slots options outcome w.statics.handles
    have hpre : (initClosure ConfigRuntimes.default options outcome w.statics.handles).2.1
        <+: allMade (configured options w.statics.handles) := by
      rcases initClosure_cases options outcome w.statics.handles with hall | ⟨_, hpre⟩
      · simp [hall]
      · exact hpre
    rcases hcl : initClosure ConfigRuntimes.default options outcome w.statics.handles with
      ⟨c', m', res⟩
    have hrun : w.statics.runInit options outcome = _ := locked_sound config hcl
    rw [hcl] at hslots hpre
    rw [hrun] at hconfig hhandles ⊢
    have hno : ∀ g, w.statics.global.decided ≠ some (some g) := by
      rw [global]
      simp
    have hval : w.statics.config.val = ConfigRuntimes.default := by rw [config]; rfl
    refine ⟨numbered_of_initial rfl hpre, ?_, ?_, fun _ => Nat.le_of_eq hhandles.symm⟩
    · intro i
      rw [staticShares_config (congrArg Mutex.val hconfig) (by rw [hglobal]; exact hno),
        staticShares_config hval hno, shares_default, hslots, Nat.zero_add]
      rfl
    · rw [hhandles]
      exact Nat.le_add_right _ _
  · rw [hnone]
    refine .still (fun i => ?_) (by rw [hhandles]; exact hle)
    unfold staticShares staticSlots Statics.globalSlots
    rw [hconfig, hglobal, hval]

/-- **The closure of `GLOBAL_RUNTIMES`.** -/
theorem closedUp_runGlobal {w : Global.World} {m : List (Nat × Kind × Runtime)}
    (h : Configured w m) (outcome : Kind → BuildOutcome) (global : OneShot GlobalRuntimes)
    (before : w.statics.global.decided = none)
    (after : global.decided = some (w.statics.runGlobal outcome).2.2) :
    ClosedUp w.statics { (w.statics.runGlobal outcome).1 with global := global }
      (w.statics.runGlobal outcome).2.1 ((w.statics.unwound outcome).map executorOf) := by
  generalize hs' : ({ (w.statics.runGlobal outcome).1 with global := global } : Statics) = s'
  have hconfig : s'.config = (w.statics.runGlobal outcome).1.config := by rw [← hs']
  have hhandles : s'.handles = (w.statics.runGlobal outcome).1.handles := by rw [← hs']
  have hglobal : s'.global.decided = some (w.statics.runGlobal outcome).2.2 := by
    rw [← hs']
    exact after
  have hno : ∀ g, w.statics.global.decided ≠ some (some g) := by
    rw [before]
    simp
  cases h with
  | untouched _ config _ =>
      have hval : w.statics.config.val = ConfigRuntimes.default := by rw [config]; rfl
      rcases globalClosure_cases outcome w.statics.handles with hall | ⟨hnone, hpre⟩
      · have hrun : w.statics.runGlobal outcome = _ := locked_sound config hall
        rw [unwound_sound config (congrArg Prod.snd hall)]
        rw [hrun] at hconfig hhandles hglobal ⊢
        refine ⟨numbered_of_initial rfl (List.prefix_refl _), ?_, ?_,
          fun _ => Nat.le_of_eq hhandles.symm⟩
        · intro i
          rw [staticShares_ofKinds (congrArg Mutex.val hconfig) hglobal,
            staticShares_config hval hno, shares_full, shares_default, Nat.zero_add]
          rfl
        · rw [hhandles]
          exact Nat.le_add_right _ _
      · -- everything that was created is dropped again
        rcases hcl : globalClosure ConfigRuntimes.default outcome w.statics.handles with
          ⟨c', m', res⟩
        rw [hcl] at hnone hpre
        dsimp only at hnone hpre
        subst hnone
        have hrun : w.statics.runGlobal outcome = _ := locked_sound config hcl
        have htaken : c' = taken := (congrArg Prod.fst hcl).symm
        rw [unwound_sound config (congrArg Prod.snd hcl)]
        rw [hrun] at hconfig hhandles hglobal ⊢
        refine ⟨numbered_of_initial rfl hpre, ?_, ?_, fun _ => Nat.le_of_eq hhandles.symm⟩
        · intro i
          have hmade : madeIds m' = (m'.map Prod.snd).map executorOf := by
            rw [List.map_map]
            rfl
          rw [staticShares_config (congrArg Mutex.val hconfig) (by rw [hglobal]; simp),
            staticShares_config hval hno, htaken, shares_taken, shares_default, hmade]
          rfl
        · rw [hhandles]
          exact Nat.le_add_right _ _
  | filled c options id _ _ config _ =>
      have hcl := globalClosure_full (configured options id) outcome w.statics.handles
      have hrun : w.statics.runGlobal outcome = _ := locked_sound config hcl
      have hval : w.statics.config.val = full (configured options id) := by rw [config]; rfl
      rw [unwound_sound config (congrArg Prod.snd hcl)]
      rw [hrun] at hconfig hhandles hglobal ⊢
      refine .still (fun i => ?_) (by rw [hhandles]; exact Nat.le_add_right _ _)
      rw [staticShares_ofKinds (congrArg Mutex.val hconfig) hglobal, staticShares_config hval hno]
  | served _ _ _ _ _ hglobal => rw [hglobal] at before; exact absurd before (by simp)
  | unconfigured _ _ _ _ _ _ hglobal => rw [hglobal] at before; exact absurd before (by simp)
  | broken _ _ _ config _ =>
      have hrun : w.statics.runGlobal outcome = _ := locked_poisoned config _
      rw [unwound_poisoned config]
      rw [hrun] at hconfig hhandles hglobal ⊢
      refine .still (fun i => ?_) (Nat.le_of_eq hhandles.symm)
      rw [staticShares_config (congrArg Mutex.val hconfig) (by rw [hglobal]; simp),
        staticShares_config rfl hno]

/-! ## What one step does -/

/-- What the statics showed. -/
def globals (t : List (OwnerSystem.Event ψ)) : List Global.Event :=
  t.filterMap (fun e => match e with
    | .global e => some e
    | _ => none)

theorem globals_map (es : List Global.Event) :
    globals (es.map .global : List (OwnerSystem.Event ψ)) = es := by
  induction es with
  | nil => rfl
  | cons e es ih => exact congrArg (e :: ·) ih

/-- Every call of the statics is that of the request made with it. -/
def Aligned (w : OwnerSystem.World ψ) : Prop :=
  w.requests.map Request.op = w.global.calls.map Call.op

/-- What is shown of a runtime is true of the runtimes there are. -/
def Routed (w : OwnerSystem.World ψ) : OwnerSystem.Event ψ → Prop
  | .cloned kind runtime =>
      ∃ g, w.global.statics.global.decided = some (some g) ∧ runtime = g.get kind
  | .served kind s =>
      ∃ g, w.global.statics.global.decided = some (some g) ∧ s.executor = executorOf (g.get kind)
  | .submitted s => ∃ runtime, some runtime ∈ w.runtimes ∧ s.executor = executorOf runtime
  | .global _ => True
  | .built _ => True

/-- What a step does to the runtimes and their owners. -/
inductive OwnerMoves (w w' : OwnerSystem.World ψ) (t : List Global.Event) : Prop where
  | still (global : Quiet w.global w'.global t) (executors : w'.executors = w.executors)
      (runtimes : w'.runtimes = w.runtimes)
  | gained (runtime : Runtime) (own : some runtime ∈ w.slots)
      (global : Quiet w.global w'.global t)
      (executors : w'.executors = tell Executor.clone w.executors (executorOf runtime))
      (runtimes : w'.runtimes = w.runtimes ++ [some runtime])
  | lost (r : Nat) (runtime : Runtime) (own : w.runtimes[r]? = some (some runtime))
      (global : Quiet w.global w'.global t)
      (executors : w'.executors = tell Executor.drop w.executors (executorOf runtime))
      (runtimes : w'.runtimes = w.runtimes.set r none)
  | built (runtime : Runtime) (blocked : Bool) (id : executorOf runtime = w.global.statics.handles)
      (global : w'.global = w.bump) (log : t = [])
      (executors : w'.executors = put w.executors (executorOf runtime,
        { blocked := blocked, droppers := 1, closeSent := false }))
      (runtimes : w'.runtimes = w.runtimes ++ [some runtime])
  | released (i : Nat) (e : Executor) (there : w.executors i = some e) (sent : e.closeSent = true)
      (global : Quiet w.global w'.global t)
      (executors : w'.executors = tell Executor.released w.executors i)
      (runtimes : w'.runtimes = w.runtimes)
  | ran (c : Nat) (outcome : Kind → BuildOutcome) (runs : Runs w.global c outcome w'.global t)
      (executors : w'.executors = tellAll Executor.drop (putAll w.executors
          ((OwnerSystem.creations t).map (fun x => (executorOf x.2, (outcome x.1).executor))))
        ((w.unwound c outcome).map executorOf))
      (runtimes : w'.runtimes = w.runtimes)

/-- All there is to know about a step. -/
structure OwnerStep (w w' : OwnerSystem.World ψ) (t : List (OwnerSystem.Event ψ)) : Prop where
  moves : OwnerMoves w w' (globals t)
  aligned : Aligned w'
  routed : ∀ e ∈ t, Routed w e

theorem Quiet.refl (w : Global.World) : Quiet w w [] :=
  ⟨rfl, rfl, rfl, rfl, keepsCalls_refl w, .inl rfl⟩

theorem mem_globalSlots {s : Statics} {g : GlobalRuntimes}
    (h : s.global.decided = some (some g)) (kind : Kind) : some (g.get kind) ∈ s.globalSlots := by
  unfold Statics.globalSlots
  rw [h]
  cases kind <;> simp [GlobalRuntimes.get]

theorem mem_slots_of_global {w : OwnerSystem.World ψ} {g : GlobalRuntimes}
    (h : w.global.statics.global.decided = some (some g)) (kind : Kind) :
    some (g.get kind) ∈ w.slots :=
  List.mem_append_right _ (mem_globalSlots h kind)

theorem Aligned.request {w : OwnerSystem.World ψ} (h : Aligned w) {c : Nat} {op : Op}
    (hc : IsCall w.global c op) : ∃ q, w.requests[c]? = some q ∧ q.op = op := by
  obtain ⟨answer, hc⟩ := hc
  have hop : (w.requests.map Request.op)[c]? = some op := by
    rw [h, List.getElem?_map, hc]
    rfl
  rw [List.getElem?_map, Option.map_eq_some_iff] at hop
  exact hop

/-- What is shown after an answer is all that needs a proof. -/
theorem routed_after {w : OwnerSystem.World ψ} (e : Global.Event) {e' : OwnerSystem.Event ψ}
    (h : Routed w e') : ∀ x ∈ [.global e, e'], Routed w x := by
  intro x hx
  rcases List.mem_cons.mp hx with hx | hx
  · rw [hx]
    trivial
  · rw [List.mem_singleton.mp hx]
    exact h

theorem answered_step {w : OwnerSystem.World ψ} {global : Global.World} {es : List Global.Event}
    (hw : Aligned w) (hq : Quiet w.global global es)
    (hops : global.calls.map Call.op = w.global.calls.map Call.op) :
    OwnerStep w (({ w with global := global } : OwnerSystem.World ψ).answered es).1
      (({ w with global := global } : OwnerSystem.World ψ).answered es).2 := by
  have haligned : ∀ w' : OwnerSystem.World ψ, w'.global = global → w'.requests = w.requests →
      Aligned w' := by
    intro w' hg hr
    unfold Aligned
    rw [hg, hr, hops]
    exact hw
  -- nothing is done with the answer
  have hstill : ∀ t : List (OwnerSystem.Event ψ), globals t = es → (∀ e ∈ t, Routed w e) →
      OwnerStep w { w with global := global } t := by
    intro t ht hrouted
    exact ⟨.still (by rw [ht]; exact hq) rfl rfl, haligned _ rfl rfl, hrouted⟩
  rcases hq.told with hnil | ⟨c, op, answer, hes, hcall, htold⟩
  · subst hnil
    exact hstill [] rfl (by simp)
  · subst hes
    obtain ⟨q, hreq, hop⟩ := hw.request hcall
    cases op with
    | init options =>
        obtain ⟨res, _, ha⟩ := htold
        subst ha
        cases res <;> exact hstill [_] rfl (by simp [Routed])
    | use kind =>
        obtain ⟨res, hdec, ha⟩ := htold
        subst ha
        cases res with
        | none => exact hstill [_] rfl (by simp [Routed])
        | some g =>
            unfold World.answered useAnswer
            dsimp only
            rw [hreq]
            dsimp only
            cases q with
            | init options => exact absurd hop (by simp [Request.op])
            | runtime k =>
                injection hop with hk
                subst hk
                exact ⟨.gained (g.get k) (mem_slots_of_global hdec k) hq rfl rfl,
                  haligned _ rfl rfl, routed_after _ ⟨g, hdec, rfl⟩⟩
            | spawn k future =>
                injection hop with hk
                subst hk
                exact hstill _ rfl (routed_after _ ⟨g, hdec, rfl⟩)
            | spawnBlocking k func =>
                injection hop with hk
                subst hk
                exact hstill _ rfl (routed_after _ ⟨g, hdec, rfl⟩)
            | blockOn k future =>
                injection hop with hk
                subst hk
                exact hstill _ rfl (routed_after _ ⟨g, hdec, rfl⟩)

/-- The events of the statics need no proof. -/
theorem routed_globals (w : OwnerSystem.World ψ) (es : List Global.Event) :
    ∀ e ∈ es.map OwnerSystem.Event.global, Routed w e := by
  intro e he
  obtain ⟨_, _, h⟩ := List.mem_map.mp he
  rw [← h]
  trivial

theorem submit_step {w w' : OwnerSystem.World ψ} {r : Nat} {work : Runtime → Submission ψ}
    {t : List (OwnerSystem.Event ψ)} (hw : Aligned w)
    (hwork : ∀ runtime, (work runtime).executor = executorOf runtime)
    (h : w.submit r work = some (w', t)) : OwnerStep w w' t := by
  unfold World.submit at h
  split at h
  · rename_i runtime hr
    injection h with h; injection h with h1 h2
    subst h1; subst h2
    refine ⟨.still (.refl _) rfl rfl, hw, ?_⟩
    intro e he
    rw [List.mem_singleton.mp he]
    exact ⟨runtime, List.mem_of_getElem? hr, hwork runtime⟩
  · exact absurd h (by simp)

/-- **The inversion lemma.** -/
theorem owner_step {w w' : OwnerSystem.World ψ} {a : OwnerSystem.Action ψ}
    {t : List (OwnerSystem.Event ψ)} (hw : Aligned w)
    (h : (OwnerSystem.system ψ).step w a = some (w', t)) : OwnerStep w w' t := by
  change OwnerSystem.step w a = some (w', t) at h
  cases a with
  | call q =>
      injection h with h; injection h with h1 h2
      subst h1; subst h2
      refine ⟨.still ⟨rfl, rfl, rfl, rfl, ?_, .inl rfl⟩ rfl rfl, ?_, by simp⟩
      · intro c op hc
        obtain ⟨answer, hc⟩ := hc
        exact ⟨answer, Lists.getElem?_append_some hc _⟩
      · unfold Aligned at hw ⊢
        rw [List.map_append, List.map_append, hw]
        rfl
  | enter c =>
      rw [OwnerSystem.step] at h
      split at h
      · exact absurd h (by simp)
      · rename_i global es hg
        injection h with h
        have hstep := answered_step hw (enter_quiet hg).1 (enter_quiet hg).2
        rw [h] at hstep
        exact hstep
  | leave c =>
      rw [OwnerSystem.step] at h
      split at h
      · exact absurd h (by simp)
      · rename_i global es hg
        injection h with h
        have hstep := answered_step hw (leave_quiet hg).1 (leave_quiet hg).2
        rw [h] at hstep
        exact hstep
  | run c outcome =>
      rw [OwnerSystem.step] at h
      split at h
      · exact absurd h (by simp)
      · rename_i global es hg
        injection h with h; injection h with h1 h2
        subst h1; subst h2
        have hruns := run_runs hg
        refine ⟨?_, ?_, routed_globals w es⟩
        · rw [globals_map]
          exact .ran c outcome hruns rfl rfl
        · cases hruns with
          | init options start call before after => exact hw
          | global kind global call before after => exact hw
  | build b outcome =>
      rw [OwnerSystem.step] at h
      by_cases hsucceeds : outcome.Succeeds
      · rw [Builder.build_ok b hsucceeds] at h
        injection h with h; injection h with h1 h2
        subst h1; subst h2
        refine ⟨.built _ (outcome.blocker = .ok) rfl rfl rfl rfl rfl, hw, by simp [Routed]⟩
      · rcases Builder.build_not_ok b hsucceeds w.global.statics.handles with hres | hres
        · rw [hres] at h
          injection h with h; injection h with h1 h2
          subst h1; subst h2
          exact ⟨.still (.refl _) rfl rfl, hw, by simp [Routed]⟩
        · rw [hres] at h
          injection h with h; injection h with h1 h2
          subst h1; subst h2
          exact ⟨.still (.refl _) rfl rfl, hw, by simp [Routed]⟩
  | clone r =>
      rw [OwnerSystem.step] at h
      split at h
      · rename_i runtime hr
        injection h with h; injection h with h1 h2
        subst h1; subst h2
        have hmem : some runtime ∈ w.slots :=
          List.mem_append_left _ (List.mem_append_left _ (List.mem_of_getElem? hr))
        exact ⟨.gained runtime hmem (.refl _) rfl rfl, hw, by simp⟩
      · exact absurd h (by simp)
  | drop r =>
      rw [OwnerSystem.step] at h
      split at h
      · rename_i runtime hr
        injection h with h; injection h with h1 h2
        subst h1; subst h2
        exact ⟨.lost r runtime hr (.refl _) rfl rfl, hw, by simp⟩
      · exact absurd h (by simp)
  | spawn r future => exact submit_step hw (fun _ => rfl) h
  | spawnBlocking r func => exact submit_step hw (fun _ => rfl) h
  | blockOn r future => exact submit_step hw (fun _ => rfl) h
  | release i =>
      rw [OwnerSystem.step] at h
      split at h
      · rename_i e he
        split at h
        · rename_i hc
          injection h with h; injection h with h1 h2
          subst h1; subst h2
          rw [Bool.and_eq_true] at hc
          exact ⟨.released i e he hc.2 (.refl _) rfl rfl, hw, by simp⟩
        · exact absurd h (by simp)
      · exact absurd h (by simp)

/-! ## The invariant -/

theorem executor_rules : Rules ExecutorOk Executor.clone Executor.drop :=
  ⟨fun _ _ hpos h => executorOk_clone h hpos, fun _ _ h => executorOk_drop h⟩

/-- The droppers count the owners, at every stage of the statics. -/
structure OwnersOk (w : OwnerSystem.World ψ) (m : List (Nat × Kind × Runtime)) : Prop where
  stage : Configured w.global m
  aligned : Aligned w
  tracks : Tracks ExecutorOk w.executors w.owners w.global.statics.handles

theorem ownersOk_init : OwnersOk (OwnerSystem.system ψ).init [] where
  stage := .untouched rfl rfl rfl
  aligned := rfl
  tracks :=
    { counted := fun _ _ h => absurd h (by simp [OwnerSystem.system])
      there := fun _ h => absurd h (Nat.lt_irrefl 0)
      fresh := fun _ _ => rfl }

/-- A step that tells at most an answer creates nothing. -/
theorem Quiet.creations {w w' : Global.World} {t : List Global.Event} (h : Quiet w w' t) :
    Proof.creations t = [] := by
  rcases h.told with h | ⟨_, _, _, h, _⟩
  · rw [h]
    rfl
  · rw [h]
    rfl

theorem Quiet.shares {w w' : Global.World} {t : List Global.Event} (h : Quiet w w' t) (i : Nat) :
    staticShares w'.statics i = staticShares w.statics i := by
  unfold staticShares staticSlots Statics.globalSlots
  rw [h.config, h.global]

theorem creations_made (c : Nat) (m : Made) : OwnerSystem.creations (createdBy c m) = m := by
  induction m with
  | nil => rfl
  | cons x m ih => exact congrArg (x :: ·) ih

/-- What is owned has owners. -/
theorem owners_pos {w : OwnerSystem.World ψ} {runtime : Runtime} (h : some runtime ∈ w.slots) :
    0 < w.owners (executorOf runtime) :=
  (shares_pos executorOf _ _).mpr ⟨runtime, h, rfl⟩

/-- A closure that was run. -/
theorem tracks_closedUp {w w' : OwnerSystem.World ψ} {m : Made} {outcome : Kind → BuildOutcome}
    {gone : List Nat} (h : Tracks ExecutorOk w.executors w.owners w.global.statics.handles)
    (hset : ClosedUp w.global.statics w'.global.statics m gone)
    (hex : w'.executors = tellAll Executor.drop (putAll w.executors
      (m.map (fun x => (executorOf x.2, (outcome x.1).executor)))) gone)
    (hrt : w'.runtimes = w.runtimes) :
    Tracks ExecutorOk w'.executors w'.owners w'.global.statics.handles := by
  have hids : (m.map (fun x => (executorOf x.2, (outcome x.1).executor))).map Prod.fst
      = madeIds m := by
    rw [List.map_map]
    rfl
  have hmade : Tracks ExecutorOk (putAll w.executors
      (m.map (fun x => (executorOf x.2, (outcome x.1).executor))))
      (fun i => w.owners i + (madeIds m).count i) w'.global.statics.handles := by
    refine h.putAll (by rw [hids]; exact hset.numbered.sorted) ?_ ?_ hset.handles ?_
      (fun i => by rw [hids])
    · intro x hx
      obtain ⟨y, hy, hxy⟩ := List.mem_map.mp hx
      rw [← hxy]
      exact hset.numbered.low y hy
    · intro x hx
      obtain ⟨y, hy, hxy⟩ := List.mem_map.mp hx
      rw [← hxy]
      exact Nat.lt_of_lt_of_le (hset.numbered.high y hy) (hset.room (List.ne_nil_of_mem hy))
    · intro x hx
      obtain ⟨y, hy, hxy⟩ := List.mem_map.mp hx
      rw [← hxy]
      exact ⟨rfl, by simp [BuildOutcome.executor]⟩
  rw [hex]
  refine hmade.allGo executor_rules (fun i => ?_)
  have hshares := hset.shares i
  rw [owners_eq, owners_eq, hrt]
  omega

/-- **The step lemma.** -/
theorem ownersOk_step {w w' : OwnerSystem.World ψ} {m : List (Nat × Kind × Runtime)}
    {t : List (OwnerSystem.Event ψ)} (h : OwnersOk w m) (hs : OwnerStep w w' t) :
    OwnersOk w' (m ++ Proof.creations (globals t)) := by
  obtain ⟨hmoves, haligned, _⟩ := hs
  -- a step that leaves the statics alone
  have hquiet : Quiet w.global w'.global (globals t) →
      Tracks ExecutorOk w'.executors w'.owners w.global.statics.handles →
      OwnersOk w' (m ++ Proof.creations (globals t)) := by
    intro hq htracks
    rw [hq.creations, List.append_nil]
    exact ⟨h.stage.frame hq.start hq.config hq.global hq.calls, haligned, hq.handles ▸ htracks⟩
  cases hmoves with
  | still global executors runtimes =>
      refine hquiet global ?_
      rw [executors]
      refine h.tracks.same (fun i => ?_)
      rw [owners_eq, owners_eq, runtimes, global.shares]
  | gained runtime own global executors runtimes =>
      refine hquiet global ?_
      rw [executors]
      refine h.tracks.comes executor_rules (owners_pos own) (fun i => ?_)
      rw [owners_eq, owners_eq, runtimes, global.shares, shares_push]
      omega
  | lost r runtime own global executors runtimes =>
      refine hquiet global ?_
      rw [executors]
      refine h.tracks.goes executor_rules (fun i => ?_)
      have hrelease := shares_release executorOf i own
      rw [owners_eq, owners_eq, runtimes, global.shares]
      omega
  | built runtime blocked id global log executors runtimes =>
      have hstatics : w'.global.statics = { w.global.statics with
          handles := w.global.statics.handles + 1 } := by rw [global]; rfl
      rw [log]
      refine ⟨?_, haligned, ?_⟩
      · rw [show Proof.creations [] = [] from rfl, List.append_nil, global]
        exact h.stage.frame rfl rfl rfl (keepsCalls_refl _)
      · rw [executors]
        refine h.tracks.put (Nat.le_of_eq id.symm) ?_ ⟨rfl, by simp⟩ (fun i => ?_)
        · rw [id, hstatics]
          exact Nat.lt_succ_self _
        · rw [owners_eq, owners_eq, runtimes, hstatics, shares_push]
          unfold staticShares staticSlots Statics.globalSlots
          dsimp only
          omega
  | released i e there sent global executors runtimes =>
      refine hquiet global ?_
      rw [executors]
      refine Tracks.told (fun _ _ hok => ⟨hok.droppers, hok.closeSent⟩) ?_ i
      refine h.tracks.same (fun i => ?_)
      rw [owners_eq, owners_eq, runtimes, global.shares]
  | ran c outcome runs executors runtimes =>
      obtain ⟨global', requests', executors', runtimes'⟩ := w'
      generalize globals t = es at runs executors ⊢
      cases runs with
      | init options start call before after =>
          have hgone : (w.unwound c outcome).map executorOf = [] := by
            unfold World.unwound
            rw [call]
            rfl
          rw [creations_createdBy]
          rw [hgone, creations_made] at executors
          exact ⟨configured_runInit h.stage ⟨none, call⟩ before after, haligned,
            tracks_closedUp h.tracks (closedUp_runInit h.stage options outcome start before)
              executors runtimes⟩
      | global kind global call before after =>
          have hgone : w.unwound c outcome = w.global.statics.unwound outcome := by
            unfold World.unwound
            rw [call]
          rw [creations_createdBy]
          rw [hgone, creations_made] at executors
          exact ⟨configured_runGlobal h.stage ⟨none, call⟩ before after, haligned,
            tracks_closedUp h.tracks (closedUp_runGlobal h.stage outcome global before after)
              executors runtimes⟩

theorem globals_append (t u : List (OwnerSystem.Event ψ)) :
    globals (t ++ u) = globals t ++ globals u := List.filterMap_append

/-- **Over a run.** -/
theorem ownersOk_exec {as : List (OwnerSystem.Action ψ)} {w : OwnerSystem.World ψ}
    {t : List (OwnerSystem.Event ψ)}
    (h : (OwnerSystem.system ψ).exec (OwnerSystem.system ψ).init as = some (w, t)) :
    OwnersOk w (Proof.creations (globals t)) := by
  refine Lts.log_of_init (P := fun w t => OwnersOk w (Proof.creations (globals t)))
    ownersOk_init ?_ h
  intro v a v' u t' _ hp hs
  rw [globals_append, creations_append]
  exact ownersOk_step hp (owner_step hp.aligned hs)

theorem ownersOk_reachable {w : OwnerSystem.World ψ} (h : (OwnerSystem.system ψ).Reachable w) :
    ∃ m, OwnersOk w m := by
  obtain ⟨as, t, hrun⟩ := h
  exact ⟨_, ownersOk_exec hrun⟩

theorem OwnersOk.there {w : OwnerSystem.World ψ} {m : List (Nat × Kind × Runtime)}
    (h : OwnersOk w m) {runtime : Runtime} (hmem : some runtime ∈ w.slots) :
    ∃ e, w.executors (executorOf runtime) = some e ∧ e.closeSent = false := by
  have hpos := owners_pos hmem
  obtain ⟨e, he⟩ := Option.isSome_iff_exists.mp (h.tracks.there _ hpos)
  refine ⟨e, he, Bool.eq_false_iff.mpr (fun hsent => ?_)⟩
  have hnone := (h.tracks.counted _ e he).closeSent.mp hsent
  omega

theorem OwnersOk.accounted {w : OwnerSystem.World ψ} {m : List (Nat × Kind × Runtime)}
    (h : OwnersOk w m) : Accounted w where
  droppers := fun i e he => (h.tracks.counted i e he).droppers
  closeSent := by
    intro i e he
    rw [(h.tracks.counted i e he).closeSent]
    constructor
    · intro hnone runtime hmem hid
      have hpos := owners_pos hmem
      rw [show executorOf runtime = i from hid] at hpos
      omega
    · intro hno
      by_contra hne
      obtain ⟨runtime, hmem, hid⟩ := (shares_pos executorOf i w.slots).mp (Nat.pos_of_ne_zero hne)
      exact hno runtime hmem hid
  there := fun _ hmem => h.there hmem

/-- Work goes to a runtime that somebody owns. -/
theorem OwnersOk.hands {w w' : OwnerSystem.World ψ} {m : List (Nat × Kind × Runtime)}
    {t : List (OwnerSystem.Event ψ)} (h : OwnersOk w m) (hs : OwnerStep w w' t)
    {s : Submission ψ} (hh : Hands t s) :
    ∃ e, w.executors s.executor = some e ∧ e.closeSent = false := by
  rcases hh with hmem | ⟨kind, hmem⟩
  · obtain ⟨runtime, hown, hs⟩ := hs.routed _ hmem
    rw [hs]
    exact h.there (List.mem_append_left _ (List.mem_append_left _ hown))
  · obtain ⟨g, hdec, hs⟩ := hs.routed _ hmem
    rw [hs]
    exact h.there (mem_slots_of_global hdec kind)

/--
**An executor is told to shut down once nobody owns it any more, and not before.**

Whatever the program does with its own runtimes and with clones of the global ones, and
wherever a closure panics: the droppers count the owners in its variables, in the
configuration and in `GLOBAL_RUNTIMES`; and no work is ever handed to an executor that has
been told to shut down.
-/
theorem executors_owned (ψ : Type*) :
    (∀ w, (OwnerSystem.system ψ).Reachable w → Accounted w)
      ∧ ∀ w a w' t s, (OwnerSystem.system ψ).Reachable w →
        (OwnerSystem.system ψ).step w a = some (w', t) → Hands t s →
        ∃ e, w.executors s.executor = some e ∧ e.closeSent = false := by
  refine ⟨?_, ?_⟩
  · intro w h
    obtain ⟨m, hok⟩ := ownersOk_reachable h
    exact hok.accounted
  · intro w a w' t s h hs hh
    obtain ⟨m, hok⟩ := ownersOk_reachable h
    exact hok.hands (owner_step hok.aligned hs) hh

end RsRun.Proof
