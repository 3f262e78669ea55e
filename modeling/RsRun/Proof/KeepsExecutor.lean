import RsRun.Lib.Lists
import RsRun.Lib.RefCount
import RsRun.ExecutorSystem

/-!
# Who keeps an executor

The strong count of a dropper is the number of `Runtime`s alive that share it, so its
signal is sent when the last of them is gone. A started task is none of them: `start`
consumes the clone it is given. Its executor therefore lasts exactly as long as some
other clone does.
-/

namespace RsRun.Proof

open ExecutorSystem RefCount

/-- The executor a `Runtime` leads to. -/
def executorOf (runtime : Runtime) : Nat := runtime.handle.id

/-- A dropper that is counted right, and has sent its signal if nobody shares it. -/
structure ExecutorOk (n : Nat) (e : Executor) : Prop where
  droppers : e.droppers = n
  closeSent : e.closeSent = true ↔ n = 0

/-- The counts are those of the `Runtime`s alive, and these lead somewhere. -/
structure Counted (w : ExecutorSystem.World) : Prop where
  executors : ∀ i e, w.executors[i]? = some e → ExecutorOk (shares executorOf i w.runtimes) e
  runtimes : ∀ runtime, some runtime ∈ w.runtimes → executorOf runtime < w.executors.length

theorem counted_init : Counted ExecutorSystem.system.init where
  executors := by intro i e h; simp [ExecutorSystem.system] at h
  runtimes := by intro runtime h; simp [ExecutorSystem.system] at h

theorem executorOk_clone {n : Nat} {e : Executor} (h : ExecutorOk n e) (hpos : 0 < n) :
    ExecutorOk (n + 1) e.clone where
  droppers := by show e.droppers + 1 = n + 1; rw [h.droppers]
  closeSent := by
    show e.closeSent = true ↔ n + 1 = 0
    rw [h.closeSent]
    omega

theorem executorOk_drop {n : Nat} {e : Executor} (h : ExecutorOk (n + 1) e) :
    ExecutorOk n e.drop := by
  have hsent : e.closeSent = false := by
    have := h.closeSent
    cases hc : e.closeSent with
    | false => rfl
    | true => rw [hc] at this; have := this.mp rfl; omega
  have hcount : e.droppers - 1 = n := by rw [h.droppers]; omega
  unfold Executor.drop
  dsimp only
  rw [hcount]
  by_cases hn : n = 0
  · rw [if_pos hn]
    exact ⟨rfl, by simp [hn]⟩
  · rw [if_neg hn]
    exact ⟨rfl, by simp [hn, hsent]⟩

theorem length_release (w : ExecutorSystem.World) (r : Nat) (runtime : Runtime) :
    (w.release r runtime).executors.length = w.executors.length :=
  List.length_modify ..

theorem counted_release {w : ExecutorSystem.World} (h : Counted w) {r : Nat} {runtime : Runtime}
    (hr : w.runtimes[r]? = some (some runtime)) : Counted (w.release r runtime) where
  executors := by
    intro i e he
    have hshares := shares_release executorOf i hr
    obtain ⟨e₀, he₀, hcase⟩ := Lists.getElem?_modify_cases he
    have hok := h.executors i e₀ he₀
    rw [← hshares] at hok
    rcases hcase with ⟨hi, heq⟩ | ⟨hi, heq⟩
    · rw [if_pos (show executorOf runtime = i from hi)] at hok
      rw [heq]
      exact executorOk_drop hok
    · rw [if_neg (show ¬ executorOf runtime = i from hi)] at hok
      rw [heq]
      exact hok
  runtimes := by
    intro runtime' hmem
    rw [length_release]
    rcases List.mem_or_eq_of_mem_set hmem with hmem | heq
    · exact h.runtimes runtime' hmem
    · exact absurd heq (by simp)

theorem counted_clone {w : ExecutorSystem.World} (h : Counted w) {r : Nat} {runtime : Runtime}
    (hr : w.runtimes[r]? = some (some runtime)) :
    Counted { w with
      executors := w.executors.modify runtime.handle.id Executor.clone
      runtimes := w.runtimes ++ [some runtime] } where
  executors := by
    intro i e he
    obtain ⟨e₀, he₀, hcase⟩ := Lists.getElem?_modify_cases he
    have hok := h.executors i e₀ he₀
    dsimp only
    rw [shares_push]
    rcases hcase with ⟨hi, heq⟩ | ⟨hi, heq⟩
    · have hpos : 0 < shares executorOf i w.runtimes :=
        (shares_pos executorOf i w.runtimes).mpr ⟨runtime, List.mem_of_getElem? hr, hi⟩
      rw [if_pos (show executorOf runtime = i from hi), heq]
      exact executorOk_clone hok hpos
    · rw [if_neg (show ¬ executorOf runtime = i from hi), heq]
      exact hok
  runtimes := by
    intro runtime' hmem
    dsimp only
    rw [List.length_modify]
    rcases List.mem_append.mp hmem with hmem | hmem
    · exact h.runtimes runtime' hmem
    · injection List.mem_singleton.mp hmem with heq
      rw [heq]
      exact h.runtimes runtime (List.mem_of_getElem? hr)

theorem counted_build {w : ExecutorSystem.World} (h : Counted w) {b : Builder}
    {outcome : BuildOutcome} {runtime : Runtime} {executor : Executor}
    (hb : b.build outcome w.executors.length = (.ok runtime, some executor)) :
    Counted { w with
      executors := w.executors ++ [executor]
      runtimes := w.runtimes ++ [some runtime] } := by
  obtain ⟨hruntime, hexecutor⟩ := Builder.build_some hb
  have hid : executorOf runtime = w.executors.length := by rw [hruntime]; rfl
  subst hexecutor
  -- no runtime alive leads to the new executor yet
  have hnone : shares executorOf w.executors.length w.runtimes = 0 := by
    by_contra hne
    obtain ⟨runtime', hmem, heq⟩ := (shares_pos executorOf _ _).mp (Nat.pos_of_ne_zero hne)
    have hlt := h.runtimes runtime' hmem
    omega
  refine ⟨?_, ?_⟩
  · intro i e he
    dsimp only
    rw [shares_push]
    by_cases hi : w.executors.length = i
    · subst hi
      rw [List.getElem?_concat_length] at he
      injection he with he
      subst he
      rw [hnone, if_pos hid]
      exact ⟨rfl, by simp [BuildOutcome.executor]⟩
    · have hlt : i < w.executors.length := by
        obtain ⟨hlt, _⟩ := List.getElem?_eq_some_iff.mp he
        rw [List.length_append, List.length_singleton] at hlt
        omega
      rw [List.getElem?_append_left hlt] at he
      rw [if_neg (by rw [hid]; exact hi)]
      exact h.executors i e he
  · intro runtime' hmem
    dsimp only
    rw [List.length_append, List.length_singleton]
    rcases List.mem_append.mp hmem with hmem | hmem
    · have hlt := h.runtimes runtime' hmem
      omega
    · injection List.mem_singleton.mp hmem with heq
      rw [heq, hid]
      omega

theorem Counted.tasks {w : ExecutorSystem.World} (h : Counted w) (tasks : List TaskSlot) :
    Counted { w with tasks := tasks } :=
  ⟨h.executors, h.runtimes⟩

/-! ## The tasks -/

/-- A task that says it was started was spawned on an executor that exists. -/
def Spawned (w : ExecutorSystem.World) : Prop :=
  ∀ slot ∈ w.tasks, slot.task.started = true →
    ∃ i, slot.spawnedOn = some i ∧ i < w.executors.length

theorem start_started (task : RepeatedTask) (handle : JoinHandle) :
    (task.start handle).2.2.isSome = true ∨ (task.start handle).1.started = task.started := by
  unfold RepeatedTask.start
  split
  · exact Or.inr rfl
  · split
    · exact Or.inr rfl
    · split
      · exact Or.inr rfl
      · exact Or.inl rfl

theorem stopSection_started (task : RepeatedTask) (h : task.stopSection.1.started = true) :
    task.started = true := by
  unfold RepeatedTask.stopSection at h
  split at h
  · exact h
  · split at h
    · exact h
    · dsimp only at h
      split at h
      · exact absurd h (by simp [RepeatedTask.poison])
      · exact absurd h (by simp)

theorem drop_started (task : RepeatedTask) : task.drop.started = task.started := by
  unfold RepeatedTask.drop
  split
  · rfl
  · split <;> rfl

/-- An executor that exists stays, whatever becomes of the `Runtime`s. -/
theorem Spawned.grow {w w' : ExecutorSystem.World} (h : Spawned w) (htasks : w'.tasks = w.tasks)
    (hlen : w.executors.length ≤ w'.executors.length) : Spawned w' := by
  intro slot hslot hstarted
  rw [htasks] at hslot
  obtain ⟨i, hi, hlt⟩ := h slot hslot hstarted
  exact ⟨i, hi, Nat.lt_of_lt_of_le hlt hlen⟩

theorem Spawned.set {w : ExecutorSystem.World} (h : Spawned w) (k : Nat) {slot : TaskSlot}
    (hslot : slot.task.started = true →
      ∃ i, slot.spawnedOn = some i ∧ i < w.executors.length) :
    Spawned { w with tasks := w.tasks.set k slot } := by
  intro x hx hstarted
  rcases List.mem_or_eq_of_mem_set hx with hmem | heq
  · exact h x hmem hstarted
  · subst heq
    exact hslot hstarted

/-- What every operation of the program keeps. -/
structure ProgramOk (w : ExecutorSystem.World) : Prop where
  counted : Counted w
  spawned : Spawned w

theorem programOk_init : ProgramOk ExecutorSystem.system.init where
  counted := counted_init
  spawned := by intro slot h; simp [ExecutorSystem.system] at h

/-- **One operation keeps the counts, and what the tasks were spawned on.** -/
theorem programOk_step {w w' : ExecutorSystem.World} {a : ExecutorSystem.Action}
    {t : List ExecutorSystem.Event} (h : ProgramOk w)
    (hs : ExecutorSystem.system.step w a = some (w', t)) : ProgramOk w' := by
  change ExecutorSystem.step w a = some (w', t) at hs
  obtain ⟨hc, hsp⟩ := h
  cases a with
  | build b outcome =>
      rw [ExecutorSystem.step] at hs
      split at hs
      · rename_i runtime executor hb
        injection hs with hs; injection hs with h1 _
        subst h1
        refine ⟨counted_build hc hb, hsp.grow rfl ?_⟩
        dsimp only
        rw [List.length_append]
        omega
      · injection hs with hs; injection hs with h1 _
        subst h1
        exact ⟨hc, hsp⟩
  | clone r =>
      rw [ExecutorSystem.step] at hs
      split at hs
      · rename_i runtime hr
        injection hs with hs; injection hs with h1 _
        subst h1
        exact ⟨counted_clone hc hr, hsp.grow rfl (Nat.le_of_eq (List.length_modify ..).symm)⟩
      · exact absurd hs (by simp)
  | drop r =>
      rw [ExecutorSystem.step] at hs
      split at hs
      · rename_i runtime hr
        injection hs with hs; injection hs with h1 _
        subst h1
        exact ⟨counted_release hc hr, hsp.grow rfl (Nat.le_of_eq (length_release ..).symm)⟩
      · exact absurd hs (by simp)
  | newTask interval initialDelay taskFn =>
      rw [ExecutorSystem.step] at hs
      injection hs with hs; injection hs with h1 _
      subst h1
      refine ⟨hc.tasks _, Lists.forall_mem_snoc hsp ?_⟩
      intro hstarted
      exact absurd hstarted (by simp [RepeatedTask.new, RepeatedTask.withInitialDelay])
  | start k r =>
      rw [ExecutorSystem.step] at hs
      split at hs
      · rename_i slot runtime hk hr
        split at hs
        · exact absurd hs (by simp)
        · rcases hstart : slot.task.start k with ⟨task, res, spawned⟩
          rw [hstart] at hs
          injection hs with hs; injection hs with h1 _
          subst h1
          have hid : executorOf runtime < w.executors.length :=
            hc.runtimes runtime (List.mem_of_getElem? hr)
          refine ⟨counted_release (hc.tasks _) hr,
            (hsp.set k ?_).grow rfl (Nat.le_of_eq (length_release ..).symm)⟩
          intro hnew
          have hcase := start_started slot.task k
          rw [hstart] at hcase
          by_cases hspawn : spawned.isSome = true
          · exact ⟨runtime.handle.id, by dsimp only; rw [if_pos hspawn], hid⟩
          · have hsame := hcase.resolve_left hspawn
            dsimp only at hnew hsame ⊢
            rw [if_neg hspawn]
            rw [hsame] at hnew
            exact hsp slot (List.mem_of_getElem? hk) hnew
      · exact absurd hs (by simp)
  | stop k joined =>
      rw [ExecutorSystem.step] at hs
      split at hs
      · rename_i slot hk
        have hstop : ∀ task next, slot.task.stopSection = (task, next) →
            ProgramOk { w with tasks := w.tasks.set k { slot with task := task } } := by
          intro task next hsection
          refine ⟨hc.tasks _, hsp.set k ?_⟩
          intro hstarted
          refine hsp slot (List.mem_of_getElem? hk) ?_
          exact stopSection_started slot.task (by rw [hsection]; exact hstarted)
        split at hs
        · exact absurd hs (by simp)
        · split at hs
          · rename_i task res hsection
            injection hs with hs; injection hs with h1 _
            subst h1
            exact hstop task _ hsection
          · rename_i task handle hsection
            injection hs with hs; injection hs with h1 _
            subst h1
            exact hstop task _ hsection
      · exact absurd hs (by simp)
  | dropTask k =>
      rw [ExecutorSystem.step] at hs
      split at hs
      · rename_i slot hk
        split at hs
        · exact absurd hs (by simp)
        · injection hs with hs; injection hs with h1 _
          subst h1
          refine ⟨hc.tasks _, hsp.set k ?_⟩
          intro hstarted
          rw [drop_started] at hstarted
          exact hsp slot (List.mem_of_getElem? hk) hstarted
      · exact absurd hs (by simp)

theorem programOk_reachable {w : ExecutorSystem.World}
    (h : ExecutorSystem.system.Reachable w) : ProgramOk w :=
  h.inv programOk_init (fun _ _ _ _ _ hp hs => programOk_step hp hs)

/-! ## Who keeps the executor of a running task -/

/-- Some `Runtime` that leads to executor `i` is alive. -/
def SomeAlive (w : ExecutorSystem.World) (i : Nat) : Prop :=
  ∃ runtime, some runtime ∈ w.runtimes ∧ executorOf runtime = i

/--
A task that was started, and neither stopped nor dropped, was spawned on an executor,
and `Q` holds of that executor.
-/
def KeepsExecutor (Q : ExecutorSystem.World → Nat → Executor → Prop) : Prop :=
  ∀ w, ExecutorSystem.system.Reachable w → ∀ slot ∈ w.tasks,
    slot.task.started = true → slot.dropped = false →
    ∃ i e, slot.spawnedOn = some i ∧ w.executors[i]? = some e ∧ Q w i e

/--
**A task does not keep its executor; the other clones do.**

The signal to the executor of a running task has been sent exactly when no `Runtime`
that leads to it is alive any more.
-/
theorem running_task_executor :
    KeepsExecutor (fun w i e => e.closeSent = true ↔ ¬ SomeAlive w i) := by
  intro w hw slot hslot hstarted _
  obtain ⟨hcounted, hspawned⟩ := programOk_reachable hw
  obtain ⟨i, hi, hlt⟩ := hspawned slot hslot hstarted
  have he : w.executors[i]? = some (w.executors.get ⟨i, hlt⟩) := List.getElem?_eq_getElem hlt
  refine ⟨i, _, hi, he, ?_⟩
  have hok := hcounted.executors i _ he
  have hpos := shares_pos executorOf i w.runtimes
  dsimp only
  rw [hok.closeSent]
  unfold SomeAlive
  rw [← hpos]
  omega

/-- The only clone of a runtime goes into `start`, and is dropped there. -/
theorem only_clone_started : ¬ KeepsExecutor (fun _ _ e => e.closeSent = false) := by
  intro h
  obtain ⟨i, e, hi, he, hsent⟩ := h _
    ⟨[.build (Builder.default 0) { tokio := .ok, blocker := .ok }, .newTask 100 none ⟨"tick"⟩,
      .start 0 0], _, rfl⟩ _ List.mem_cons_self rfl rfl
  injection hi with hi
  subst hi
  injection he with he
  subst he
  exact absurd hsent (by decide)

end RsRun.Proof
