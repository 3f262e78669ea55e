import RsRun.Lib.Lists
import RsRun.GlobalSystem
import RsRun.Proof.Closures

/-!
# All or nothing

At every moment of every run the statics are in one of five stages. Nothing was made
yet; a call of `init_global_runtimes` has filled the configuration; the global runtimes
have taken it from there; they were made without one; or some closure panicked, and the
poisoned mutex keeps everybody out for good.

Entering a static and publishing its value decide nothing, so only the two closures
move from one stage to another.
-/

namespace RsRun.Proof

open Global Sync

/-! ## What one step does -/

/-- Who created what, in order. -/
def creations (t : List Event) : List (Nat × Kind × Runtime) :=
  t.filterMap (fun e => match e with
    | .created c kind runtime => some (c, kind, runtime)
    | .answered _ _ => none)

theorem creations_append (t u : List Event) : creations (t ++ u) = creations t ++ creations u :=
  List.filterMap_append

theorem creations_createdBy (c : Nat) (m : Made) :
    creations (createdBy c m) = m.map (fun x => (c, x.1, x.2)) := by
  induction m with
  | nil => rfl
  | cons x m ih =>
      show (c, x.1, x.2) :: creations (createdBy c m) = _
      rw [ih]
      rfl

/-- Call `c` of the world is a call of `op`. -/
def IsCall (w : World) (c : Nat) (op : Op) : Prop :=
  ∃ answer, w.calls[c]? = some { op := op, answer := answer }

/-- No call is forgotten, and none changes what it is a call of. -/
def KeepsCalls (w w' : World) : Prop :=
  ∀ c op, IsCall w c op → IsCall w' c op

/-- An answer that says what was decided. -/
def Told (s : Statics) : Op → Answer → Prop
  | .init _, a => ∃ res, s.start.decided = some res ∧ a = initAnswer res
  | .use kind, a => ∃ res, s.global.decided = some res ∧ a = useAnswer kind res

/-- What an action does to the statics, one constructor for each way. -/
inductive Steps (w : World) : World → List Event → Prop where
  /-- A call is made, enters a static or publishes its value: nothing is decided by it. -/
  | quiet (w' : World) (t : List Event)
      (start : w'.statics.start.decided = w.statics.start.decided)
      (config : w'.statics.config = w.statics.config)
      (global : w'.statics.global.decided = w.statics.global.decided)
      (ready : ∀ g, w.statics.global = .ready g → w'.statics.global = .ready g)
      (calls : KeepsCalls w w') (log : creations t = [])
      (answers : ∀ c a, Event.answered c a ∈ t → ∃ op, IsCall w c op ∧ Told w.statics op a) :
      Steps w w' t
  /-- A call of `init_global_runtimes` runs its closure. -/
  | runInit (c : Nat) (options : RuntimeOptions) (outcome : Kind → BuildOutcome)
      (start : OneShot Unit) (call : IsCall w c (.init options))
      (before : w.statics.start.decided = none)
      (after : start.decided = some (w.statics.runInit options outcome).2.2) :
      Steps w
        { w with statics := { (w.statics.runInit options outcome).1 with start := start } }
        (createdBy c (w.statics.runInit options outcome).2.1)
  /-- The first call that asks for a global runtime runs the closure. -/
  | runGlobal (c : Nat) (kind : Kind) (outcome : Kind → BuildOutcome)
      (global : OneShot GlobalRuntimes) (call : IsCall w c (.use kind))
      (before : w.statics.global.decided = none)
      (after : global.decided = some (w.statics.runGlobal outcome).2.2) :
      Steps w
        { w with statics := { (w.statics.runGlobal outcome).1 with global := global } }
        (createdBy c (w.statics.runGlobal outcome).2.1)

theorem keepsCalls_answer {w : World} {c : Nat} {op : Op}
    (hc : w.calls[c]? = some { op := op, answer := none }) (answer : Answer) :
    KeepsCalls w (w.answer c op answer).1 := by
  intro d op' hd
  obtain ⟨answer', hd⟩ := hd
  by_cases hcd : c = d
  · subst hcd
    rw [hc] at hd
    injection hd with hd; injection hd with hop _
    subst hop
    obtain ⟨hlt, _⟩ := List.getElem?_eq_some_iff.mp hc
    exact ⟨some answer, List.getElem?_set_self hlt⟩
  · exact ⟨answer', by rw [World.answer]; dsimp only; rw [List.getElem?_set_ne hcd]; exact hd⟩

theorem keepsCalls_refl (w : World) : KeepsCalls w w := fun _ _ h => h

theorem answers_one {w : World} {c : Nat} {op : Op} {answer : Answer}
    (hc : w.calls[c]? = some { op := op, answer := none }) (ht : Told w.statics op answer) :
    ∀ d a, Event.answered d a ∈ [Event.answered c answer] →
      ∃ op', IsCall w d op' ∧ Told w.statics op' a := by
  intro d a hmem
  injection List.mem_singleton.mp hmem with hd ha
  subst hd; subst ha
  exact ⟨op, ⟨none, hc⟩, ht⟩

theorem answers_none (w : World) :
    ∀ d a, Event.answered d a ∈ [] → ∃ op, IsCall w d op ∧ Told w.statics op a :=
  fun _ _ hmem => absurd hmem List.not_mem_nil

/-- **The inversion lemma.** -/
theorem step_steps {w w' : World} {a : Action} {t : List Event}
    (h : system.step w a = some (w', t)) : Steps w w' t := by
  change Global.step w a = some (w', t) at h
  cases a with
  | call op =>
      rw [Global.step] at h
      injection h with h; injection h with h1 h2
      subst h1; subst h2
      refine .quiet _ _ rfl rfl rfl (fun _ h => h) ?_ rfl (answers_none w)
      intro c op' hc
      obtain ⟨answer, hc⟩ := hc
      exact ⟨answer, Lists.getElem?_append_some hc _⟩
  | enter c =>
      rw [Global.step] at h
      split at h
      · rename_i options hc
        split at h
        · exact absurd h (by simp)
        · rename_i start hs
          obtain ⟨hdec, _⟩ := OneShot.enter_decided hs
          injection h with h; injection h with h1 h2
          subst h1; subst h2
          exact .quiet _ _ hdec rfl rfl (fun _ h => h) (keepsCalls_refl w) rfl (answers_none w)
        · rename_i start res hs
          obtain ⟨_, hres⟩ := OneShot.enter_decided hs
          injection h with h; injection h with h1 h2
          subst h1; subst h2
          exact .quiet _ _ rfl rfl rfl (fun _ h => h) (keepsCalls_answer hc _) rfl
            (answers_one hc ⟨res, hres res rfl, rfl⟩)
      · rename_i kind hc
        split at h
        · exact absurd h (by simp)
        · rename_i global hs
          obtain ⟨hdec, _⟩ := OneShot.enter_decided hs
          injection h with h; injection h with h1 h2
          subst h1; subst h2
          refine .quiet _ _ rfl rfl hdec ?_ (keepsCalls_refl w) rfl (answers_none w)
          intro g hg
          rw [hg] at hs
          exact (OneShot.enter_ready hs).1
        · rename_i global res hs
          obtain ⟨_, hres⟩ := OneShot.enter_decided hs
          injection h with h; injection h with h1 h2
          subst h1; subst h2
          exact .quiet _ _ rfl rfl rfl (fun _ h => h) (keepsCalls_answer hc _) rfl
            (answers_one hc ⟨res, hres res rfl, rfl⟩)
      · exact absurd h (by simp)
  | run c outcome =>
      rw [Global.step] at h
      split at h
      · rename_i options hc
        split at h
        rename_i statics made res hrun
        split at h
        · exact absurd h (by simp)
        · rename_i start hs
          obtain ⟨hbefore, hafter⟩ := OneShot.close_decided hs
          injection h with h; injection h with h1 h2
          subst h1; subst h2
          have hstep := Steps.runInit c options outcome start ⟨none, hc⟩ hbefore
            (by rw [hrun]; exact hafter)
          rw [hrun] at hstep
          exact hstep
      · rename_i kind hc
        split at h
        rename_i statics made res hrun
        split at h
        · exact absurd h (by simp)
        · rename_i global hs
          obtain ⟨hbefore, hafter⟩ := OneShot.close_decided hs
          injection h with h; injection h with h1 h2
          subst h1; subst h2
          have hstep := Steps.runGlobal c kind outcome global ⟨none, hc⟩ hbefore
            (by rw [hrun]; exact hafter)
          rw [hrun] at hstep
          exact hstep
      · exact absurd h (by simp)
  | leave c =>
      rw [Global.step] at h
      split at h
      · rename_i options hc
        split at h
        · exact absurd h (by simp)
        · rename_i start res hs
          obtain ⟨hbefore, hafter⟩ := OneShot.leave_decided hs
          injection h with h; injection h with h1 h2
          subst h1; subst h2
          exact .quiet _ _ (hafter.trans hbefore.symm) rfl rfl (fun _ h => h)
            (keepsCalls_answer (w := w) hc _) rfl (answers_one hc ⟨res, hbefore, rfl⟩)
      · rename_i kind hc
        split at h
        · exact absurd h (by simp)
        · rename_i global res hs
          obtain ⟨hbefore, hafter⟩ := OneShot.leave_decided hs
          injection h with h; injection h with h1 h2
          subst h1; subst h2
          refine .quiet _ _ rfl rfl (hafter.trans hbefore.symm) ?_
            (keepsCalls_answer (w := w) hc _) rfl (answers_one hc ⟨res, hbefore, rfl⟩)
          intro g hg
          rw [hg, OneShot.leave_ready] at hs
          exact absurd hs (by simp)
      · exact absurd h (by simp)

/-! ## The stages -/

/-- All four creations of call `c`. -/
def allMadeBy (c : Nat) (f : Kind → Runtime) : List (Nat × Kind × Runtime) :=
  (allMade f).map (fun x => (c, x.1, x.2))

/-- The stages of the statics, with the creations there have been. -/
inductive Configured (w : World) : List (Nat × Kind × Runtime) → Prop where
  | untouched (start : w.statics.start.decided = none)
      (config : w.statics.config = Mutex.new ConfigRuntimes.default)
      (global : w.statics.global.decided = none) : Configured w []
  | filled (c : Nat) (options : RuntimeOptions) (id : Nat) (call : IsCall w c (.init options))
      (start : w.statics.start.decided = some (some ()))
      (config : w.statics.config = Mutex.new (full (configured options id)))
      (global : w.statics.global.decided = none) :
      Configured w (allMadeBy c (configured options id))
  | served (c : Nat) (options : RuntimeOptions) (id : Nat) (call : IsCall w c (.init options))
      (start : w.statics.start.decided = some (some ()))
      (global : w.statics.global.decided = some (some (ofKinds (configured options id)))) :
      Configured w (allMadeBy c (configured options id))
  | unconfigured (c : Nat) (kind : Kind) (id : Nat) (call : IsCall w c (.use kind))
      (start : w.statics.start.decided ≠ some (some ()))
      (config : w.statics.config.val = taken)
      (global : w.statics.global.decided = some (some (ofKinds (builtin id)))) :
      Configured w (allMadeBy c (builtin id))
  | broken (m : List (Nat × Kind × Runtime)) (hm : m.map (fun x => x.2.1) <+: kinds)
      (start : w.statics.start.decided ≠ some (some ()))
      (config : w.statics.config.poisoned = true)
      (global : ∀ g, w.statics.global.decided ≠ some (some g)) : Configured w m

theorem configured_init : Configured system.init (creations []) :=
  .untouched rfl rfl rfl

/-- A step that decides nothing and leaves the configuration alone stays at its stage. -/
theorem Configured.frame {w w' : World} {m : List (Nat × Kind × Runtime)} (h : Configured w m)
    (hstart : w'.statics.start.decided = w.statics.start.decided)
    (hconfig : w'.statics.config = w.statics.config)
    (hglobal : w'.statics.global.decided = w.statics.global.decided) (hcalls : KeepsCalls w w') :
    Configured w' m := by
  cases h with
  | untouched start config global =>
      exact .untouched (hstart.trans start) (hconfig.trans config) (hglobal.trans global)
  | filled c options id call start config global =>
      exact .filled c options id (hcalls _ _ call) (hstart.trans start) (hconfig.trans config)
        (hglobal.trans global)
  | served c options id call start global =>
      exact .served c options id (hcalls _ _ call) (hstart.trans start) (hglobal.trans global)
  | unconfigured c kind id call start config global =>
      exact .unconfigured c kind id (hcalls _ _ call) (by rw [hstart]; exact start)
        (by rw [hconfig]; exact config) (hglobal.trans global)
  | broken _ hm start config global =>
      exact .broken m hm (by rw [hstart]; exact start) (by rw [hconfig]; exact config)
        (by rw [hglobal]; exact global)

/-- An initial piece of the four creations names an initial piece of the four kinds. -/
theorem kinds_of_initial {c : Nat} {m : Made} {f : Kind → Runtime} (h : m <+: allMade f) :
    (m.map (fun x => (c, x.1, x.2))).map (fun x => x.2.1) <+: kinds := by
  rw [List.map_map]
  have hall : (allMade f).map (fun x => x.1) = kinds := rfl
  rw [← hall]
  exact h.map _

/-- A call of `init_global_runtimes` that runs its closure. -/
theorem configured_runInit {w : World} {m : List (Nat × Kind × Runtime)} (h : Configured w m)
    {c : Nat} {options : RuntimeOptions} {outcome : Kind → BuildOutcome} {start : OneShot Unit}
    (call : IsCall w c (.init options)) (before : w.statics.start.decided = none)
    (after : start.decided = some (w.statics.runInit options outcome).2.2) :
    Configured
      { w with statics := { (w.statics.runInit options outcome).1 with start := start } }
      (m ++ (w.statics.runInit options outcome).2.1.map (fun x => (c, x.1, x.2))) := by
  cases h with
  | untouched _ config global =>
      rcases initClosure_cases options outcome w.statics.handles with hall | ⟨hnone, hpre⟩
      · have hrun : w.statics.runInit options outcome = _ := locked_sound config hall
        rw [hrun] at after ⊢
        exact .filled c options w.statics.handles call after rfl global
      · rcases hcl : initClosure ConfigRuntimes.default options outcome w.statics.handles with
          ⟨c', m', res⟩
        rw [hcl] at hnone hpre
        dsimp only at hnone hpre
        subst hnone
        have hrun : w.statics.runInit options outcome = _ := locked_sound config hcl
        rw [hrun] at after ⊢
        refine .broken _ (kinds_of_initial hpre) ?_ rfl ?_
        · rw [after]; simp
        · intro g hg
          rw [show w.statics.global.decided = _ from global] at hg
          exact absurd hg (by simp)
  | filled _ _ _ _ hstart => rw [hstart] at before; exact absurd before (by simp)
  | served _ _ _ _ hstart => rw [hstart] at before; exact absurd before (by simp)
  | unconfigured d kind id hcall hstart config global =>
      -- the assertion fails, or the lock was poisoned by an earlier failure of it
      by_cases hp : w.statics.config.poisoned = true
      · have hrun : w.statics.runInit options outcome = _ := locked_poisoned hp _
        rw [hrun] at after ⊢
        rw [List.map_nil, List.append_nil]
        exact .unconfigured d kind id hcall (by rw [after]; simp) config global
      · have hnew := config_eq_new (Bool.eq_false_iff.mpr hp)
        rw [config] at hnew
        have hrun : w.statics.runInit options outcome = _ :=
          locked_sound hnew (initClosure_already rfl options outcome _)
        rw [hrun] at after ⊢
        rw [List.map_nil, List.append_nil]
        exact .unconfigured d kind id hcall (by rw [after]; simp) rfl global
  | broken _ hm hstart config global =>
      have hrun : w.statics.runInit options outcome = _ := locked_poisoned config _
      rw [hrun] at after ⊢
      rw [List.map_nil, List.append_nil]
      exact .broken m hm (by rw [after]; simp) config global

/-- A first use of the global runtimes that runs the closure. -/
theorem configured_runGlobal {w : World} {m : List (Nat × Kind × Runtime)} (h : Configured w m)
    {c : Nat} {kind : Kind} {outcome : Kind → BuildOutcome} {global : OneShot GlobalRuntimes}
    (call : IsCall w c (.use kind)) (before : w.statics.global.decided = none)
    (after : global.decided = some (w.statics.runGlobal outcome).2.2) :
    Configured
      { w with statics := { (w.statics.runGlobal outcome).1 with global := global } }
      (m ++ (w.statics.runGlobal outcome).2.1.map (fun x => (c, x.1, x.2))) := by
  cases h with
  | untouched start config _ =>
      have hstart : w.statics.start.decided ≠ some (some ()) := by rw [start]; simp
      rcases globalClosure_cases outcome w.statics.handles with hall | ⟨hnone, hpre⟩
      · have hrun : w.statics.runGlobal outcome = _ := locked_sound config hall
        rw [hrun] at after ⊢
        exact .unconfigured c kind w.statics.handles call hstart rfl after
      · rcases hcl : globalClosure ConfigRuntimes.default outcome w.statics.handles with
          ⟨c', m', res⟩
        rw [hcl] at hnone hpre
        dsimp only at hnone hpre
        subst hnone
        have hrun : w.statics.runGlobal outcome = _ := locked_sound config hcl
        rw [hrun] at after ⊢
        refine .broken _ (kinds_of_initial hpre) hstart rfl ?_
        intro g hg
        rw [show global.decided = _ from after] at hg
        exact absurd hg (by simp)
  | filled d options id hcall start config _ =>
      have hrun : w.statics.runGlobal outcome = _ :=
        locked_sound config (globalClosure_full (configured options id) outcome _)
      rw [hrun] at after ⊢
      rw [List.map_nil, List.append_nil]
      exact .served d options id hcall start after
  | served _ _ _ _ _ hglobal => rw [hglobal] at before; exact absurd before (by simp)
  | unconfigured _ _ _ _ _ _ hglobal => rw [hglobal] at before; exact absurd before (by simp)
  | broken _ hm start config _ =>
      have hrun : w.statics.runGlobal outcome = _ := locked_poisoned config _
      rw [hrun] at after ⊢
      rw [List.map_nil, List.append_nil]
      refine .broken m hm start config ?_
      intro g hg
      rw [show global.decided = _ from after] at hg
      exact absurd hg (by simp)

/-- **The step lemma**: one step stays at its stage, or moves on with what it created. -/
theorem configured_step {w w' : World} {t : List Event} {m : List (Nat × Kind × Runtime)}
    (h : Configured w m) (hs : Steps w w' t) : Configured w' (m ++ creations t) := by
  cases hs with
  | quiet _ _ start config global _ calls log _ =>
      rw [log, List.append_nil]
      exact h.frame start config global calls
  | runInit c options outcome start call before after =>
      rw [creations_createdBy]
      exact configured_runInit h call before after
  | runGlobal c kind outcome global call before after =>
      rw [creations_createdBy]
      exact configured_runGlobal h call before after

/-- **Every reachable world is at a stage.** -/
theorem configured_run {as : List Action} {w : World} {t : List Event}
    (h : system.exec system.init as = some (w, t)) : Configured w (creations t) := by
  refine Lts.log_of_init (P := fun w t => Configured w (creations t)) configured_init ?_ h
  intro v a v' u t' _ hp hs
  rw [creations_append]
  exact configured_step hp (step_steps hs)

/-! ## All or nothing -/

/-- The kinds created so far are an initial piece of the four. -/
theorem Configured.kinds {w : World} {m : List (Nat × Kind × Runtime)} (h : Configured w m) :
    m.map (fun x => x.2.1) <+: kinds := by
  cases h with
  | untouched => exact List.nil_prefix
  | filled => exact kinds_of_initial (List.prefix_refl _)
  | served => exact kinds_of_initial (List.prefix_refl _)
  | unconfigured => exact kinds_of_initial (List.prefix_refl _)
  | broken _ hm => exact hm

/-- How often a runtime of a kind was created. -/
def createdCount (kind : Kind) (t : List Event) : Nat :=
  ((creations t).map (fun x => x.2.1)).count kind

theorem createdCount_le {as : List Action} {w : World} {t : List Event} (kind : Kind)
    (h : system.exec system.init as = some (w, t)) : createdCount kind t ≤ 1 := by
  have hpre := (configured_run h).kinds
  have hle : createdCount kind t ≤ kinds.count kind := hpre.sublist.count_le kind
  have hone : kinds.count kind ≤ 1 := by cases kind <;> decide
  omega

theorem created_mem {c : Nat} {f : Kind → Runtime} {t : List Event}
    (h : creations t = allMadeBy c f) (k : Kind) : Event.created c k (f k) ∈ t := by
  have hmem : (c, k, f k) ∈ creations t := by
    rw [h]
    cases k <;> simp [allMadeBy, allMade, Proof.kinds]
  obtain ⟨e, he, heq⟩ := List.mem_filterMap.mp hmem
  cases e with
  | created c' kind runtime =>
      injection heq with heq
      injection heq with hc hrest
      injection hrest with hk hr
      subst hc; subst hk; subst hr
      exact he
  | answered => exact absurd heq (by simp)

theorem ready_step {w w' : World} {t : List Event} (hs : Steps w w' t) {g : GlobalRuntimes}
    (hg : w.statics.global = .ready g) : w'.statics.global = .ready g := by
  cases hs with
  | quiet _ _ _ _ _ ready => exact ready g hg
  | runInit c options outcome start call before after =>
      exact (locked_global w.statics _).trans hg
  | runGlobal c kind outcome global call before after =>
      rw [hg] at before
      exact absurd before (by simp [OneShot.decided])

/-- Where the four global runtimes come from: one call made them all. -/
def AllFrom (w : World) (t : List Event) (g : GlobalRuntimes) (c : Nat) (op : Op)
    (f : Kind → Runtime) : Prop :=
  IsCall w c op ∧ ∀ k, g.get k = f k ∧ Event.created c k (g.get k) ∈ t

/-- **Global runtimes that are there all come from one call.** -/
theorem allFrom_run {as : List Action} {w : World} {t : List Event} {g : GlobalRuntimes}
    (h : system.exec system.init as = some (w, t)) (hg : w.statics.global = .ready g) :
    (∃ c options id, AllFrom w t g c (.init options) (configured options id))
      ∨ ∃ c kind id, AllFrom w t g c (.use kind) (builtin id) := by
  have hdec : w.statics.global.decided = some (some g) := by rw [hg]; rfl
  have hst := configured_run h
  generalize hm : creations t = m at hst
  cases hst with
  | untouched _ _ global => rw [hdec] at global; exact absurd global (by simp)
  | filled _ _ _ _ _ _ global => rw [hdec] at global; exact absurd global (by simp)
  | served c options id call _ global =>
      rw [hdec] at global
      injection global with global; injection global with global
      subst global
      refine Or.inl ⟨c, options, id, call, ?_⟩
      intro k
      rw [get_ofKinds]
      exact ⟨rfl, created_mem hm k⟩
  | unconfigured c kind id call _ _ global =>
      rw [hdec] at global
      injection global with global; injection global with global
      subst global
      refine Or.inr ⟨c, kind, id, call, ?_⟩
      intro k
      rw [get_ofKinds]
      exact ⟨rfl, created_mem hm k⟩
  | broken _ _ _ _ global => exact absurd hdec (global g)

/--
**The global configuration is all or nothing.**

Whatever the threads do in whatever order, and wherever a creation panics: when the
global runtimes are there, either one call of `init_global_runtimes` made all four
from its own options, or one first use made all four built-in ones; they never change
again; and no kind of runtime is ever created twice.
-/
theorem all_or_nothing :
    (∀ as w t g, system.exec system.init as = some (w, t) → w.statics.global = .ready g →
        (∃ c options id, AllFrom w t g c (.init options) (configured options id))
          ∨ ∃ c kind id, AllFrom w t g c (.use kind) (builtin id))
      ∧ (∀ w as w' t g, w.statics.global = .ready g → system.exec w as = some (w', t) →
          w'.statics.global = .ready g)
      ∧ ∀ as w t kind, system.exec system.init as = some (w, t) → createdCount kind t ≤ 1 := by
  refine ⟨?_, ?_, ?_⟩
  · intro as w t g h hg
    exact allFrom_run h hg
  · intro w as w' t g hg hr
    refine Lts.exec_inv (P := fun w => w.statics.global = .ready g) ?_ hg hr
    intro v a v' u hv hs
    exact ready_step (step_steps hs) hv
  · intro as w t kind h
    exact createdCount_le kind h

end RsRun.Proof
