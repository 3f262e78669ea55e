import RsRun.Proof.Owners

/-!
# The global runtimes are never told to shut down

`GLOBAL_RUNTIMES` owns what its closure came to, for good. What `init_global_runtimes`
created is handed on to it, or stays in the poisoned configuration. Only what a first use
created and lost to a panic is told to shut down.
-/

namespace RsRun.Proof

open Global OwnerSystem RefCount Sync

variable {ψ : Type*}

section
variable {w w' : OwnerSystem.World ψ} {m : List (Nat × Kind × Runtime)} {i : Nat}

/-! ## What an executor keeps -/

/-- What a closure creates has a number that was free. -/
theorem OwnersOk.made_fresh (h : OwnersOk w m) {c : Nat} {outcome : Kind → BuildOutcome}
    {global : Global.World} {t : List Global.Event} (hruns : Runs w.global c outcome global t)
    (hi : (w.executors i).isSome = true) :
    i ∉ ((OwnerSystem.creations t).map
      (fun x => (executorOf x.2, (outcome x.1).executor))).map Prod.fst := by
  have hlt : i < w.global.statics.handles := by
    by_contra hle
    rw [h.tracks.fresh i (Nat.le_of_not_lt hle)] at hi
    exact absurd hi (by simp)
  have hlow : ∀ x ∈ OwnerSystem.creations t, w.global.statics.handles ≤ executorOf x.2 := by
    cases hruns with
    | init options start call before after =>
        rw [creations_made]
        exact (closedUp_runInit h.stage options outcome start before).numbered.low
    | global kind global call before after =>
        rw [creations_made]
        exact (closedUp_runGlobal h.stage outcome global before after).numbered.low
  intro hmem
  rw [List.map_map] at hmem
  obtain ⟨x, hx, hid⟩ := List.mem_map.mp hmem
  have hle := hlow x hx
  rw [show executorOf x.2 = i from hid] at hle
  omega

/-- What clones, drops and the blocker thread keep of an executor, every step keeps. -/
theorem OwnersOk.keeps {t : List Global.Event} {P : Executor → Prop} (h : OwnersOk w m)
    (hs : OwnerMoves w w' t) (hclone : ∀ e, P e → P e.clone) (hdrop : ∀ e, P e → P e.drop)
    (hreleased : ∀ e, e.closeSent = true → P e → P e.released)
    (he : ∃ e, w.executors i = some e ∧ P e) : ∃ e, w'.executors i = some e ∧ P e := by
  have hsome : (w.executors i).isSome = true := by
    obtain ⟨e, he, _⟩ := he
    rw [he]
    rfl
  cases hs with
  | still global executors runtimes =>
      rw [executors]
      exact he
  | gained runtime own global executors runtimes =>
      rw [executors]
      exact tell_keeps hclone he
  | lost r runtime own global executors runtimes =>
      rw [executors]
      exact tell_keeps hdrop he
  | built runtime blocked id global log executors runtimes =>
      have hne : i ≠ executorOf runtime := by
        intro heq
        rw [heq, h.tracks.fresh _ (Nat.le_of_eq id.symm)] at hsome
        exact absurd hsome (by simp)
      obtain ⟨e, he, hp⟩ := he
      rw [executors]
      exact ⟨e, (Function.update_of_ne hne _ _).trans he, hp⟩
  | released j e₀ there sent global executors runtimes =>
      obtain ⟨e, he, hp⟩ := he
      rw [executors]
      by_cases hj : i = j
      · subst hj
        have hee : e₀ = e := Option.some.inj (there.symm.trans he)
        exact ⟨e.released, tell_self he, hreleased e (hee ▸ sent) hp⟩
      · exact ⟨e, (tell_of_ne hj).trans he, hp⟩
  | ran c outcome runs executors runtimes =>
      obtain ⟨e, he, hp⟩ := he
      rw [executors]
      exact tellAll_keeps hdrop
        ⟨e, (putAll_of_not_mem (h.made_fresh runs hsome)).trans he, hp⟩

theorem OwnersOk.closed {t : List Global.Event} (h : OwnersOk w m) (hs : OwnerMoves w w' t)
    (he : ∃ e, w.executors i = some e ∧ e.closeSent = true) :
    ∃ e, w'.executors i = some e ∧ e.closeSent = true := by
  refine h.keeps hs (fun _ hsent => hsent) (fun e hsent => ?_) (fun _ _ hsent => hsent) he
  unfold Executor.drop
  dsimp only
  split
  · rfl
  · exact hsent

theorem OwnersOk.blocked {t : List Global.Event} {b : Bool} (h : OwnersOk w m)
    (hs : OwnerMoves w w' t)
    (he : ∃ e, w.executors i = some e ∧ (e.closeSent = false → e.blocked = b)) :
    ∃ e, w'.executors i = some e ∧ (e.closeSent = false → e.blocked = b) := by
  refine h.keeps hs (fun _ hb => hb) (fun e hb => ?_) (fun e hsent _ hno => ?_) he
  · unfold Executor.drop
    dsimp only
    split
    · exact fun hno => absurd hno (by simp)
    · exact hb
  · rw [show e.released.closeSent = e.closeSent from rfl, hsent] at hno
    exact absurd hno (by simp)

theorem OwnerMoves.decided {t : List Global.Event} (hs : OwnerMoves w w' t)
    {res : Option GlobalRuntimes} (hdec : w.global.statics.global.decided = some res) :
    w'.global.statics.global.decided = some res := by
  cases hs with
  | still global => exact global.global.trans hdec
  | gained _ _ global => exact global.global.trans hdec
  | lost _ _ _ global => exact global.global.trans hdec
  | built _ _ _ global =>
      rw [global]
      exact hdec
  | released _ _ _ _ global => exact global.global.trans hdec
  | ran c outcome runs =>
      obtain ⟨global', requests', executors', runtimes'⟩ := w'
      cases runs with
      | init options start call before after =>
          exact (congrArg OneShot.decided (locked_global _ _)).trans hdec
      | global kind global call before after =>
          rw [hdec] at before
          exact absurd before (by simp)

end

/-- A global runtime, once there is one: where it leads to, and whether a blocker holds it. -/
structure Serves (w : OwnerSystem.World ψ) (runtime : Runtime) (blocked : Bool) : Prop where
  owned : some runtime ∈ w.global.statics.globalSlots
  held : ∃ e, w.executors runtime.handle.id = some e ∧ e.closeSent = false ∧ e.blocked = blocked

/-- What is kept of the executor of a kind, over a run. -/
theorem serves_exec {w w' : OwnerSystem.World ψ} {as : List (OwnerSystem.Action ψ)}
    {t : List (OwnerSystem.Event ψ)} {g : GlobalRuntimes} {m : List (Nat × Kind × Runtime)}
    (hok : OwnersOk w m) (hdec : w.global.statics.global.decided = some (some g))
    (hrun : (OwnerSystem.system ψ).exec w as = some (w', t)) (kind : Kind) :
    w'.global.statics.global.decided = some (some g)
      ∧ ∃ blocked, Serves w (g.get kind) blocked ∧ Serves w' (g.get kind) blocked := by
  obtain ⟨e, he, hopen⟩ := hok.there (mem_slots_of_global hdec kind)
  have hkept : (∃ m, OwnersOk w' m) ∧ w'.global.statics.global.decided = some (some g)
      ∧ ∃ e', w'.executors (executorOf (g.get kind)) = some e'
        ∧ (e'.closeSent = false → e'.blocked = e.blocked) := by
    refine Lts.exec_inv (P := fun v => (∃ m, OwnersOk v m)
      ∧ v.global.statics.global.decided = some (some g)
      ∧ ∃ e', v.executors (executorOf (g.get kind)) = some e'
        ∧ (e'.closeSent = false → e'.blocked = e.blocked)) ?_
      ⟨⟨m, hok⟩, hdec, e, he, fun _ => rfl⟩ hrun
    intro v a v' u hv hs
    obtain ⟨⟨m, hok⟩, hdec, he⟩ := hv
    have hstep := owner_step hok.aligned hs
    exact ⟨⟨_, ownersOk_step hok hstep⟩, hstep.moves.decided hdec, hok.blocked hstep.moves he⟩
  obtain ⟨⟨m', hok'⟩, hdec', e', he', hb⟩ := hkept
  obtain ⟨e₁, he₁, hopen'⟩ := hok'.there (mem_slots_of_global hdec' kind)
  have hee : e' = e₁ := Option.some.inj (he'.symm.trans he₁)
  subst hee
  exact ⟨hdec', e.blocked, ⟨mem_globalSlots hdec kind, e, he, hopen, rfl⟩,
    ⟨mem_globalSlots hdec' kind, e', he', hopen', hb hopen'⟩⟩

/--
**The global runtimes outlive everything.**

Once the closure of `GLOBAL_RUNTIMES` has come to an end, the four runtimes it came to stay
where they are, are never told to shut down, and are held by their blocker threads as long
as these were spawned at all, whatever the program does with its clones.
-/
theorem global_runtimes_kept {w w' : OwnerSystem.World ψ} {as : List (OwnerSystem.Action ψ)}
    {t : List (OwnerSystem.Event ψ)} {g : GlobalRuntimes}
    (hreach : (OwnerSystem.system ψ).Reachable w)
    (hdec : w.global.statics.global.decided = some (some g))
    (hrun : (OwnerSystem.system ψ).exec w as = some (w', t)) :
    w'.global.statics.global.decided = some (some g)
      ∧ ∀ kind, ∃ blocked, Serves w (g.get kind) blocked ∧ Serves w' (g.get kind) blocked := by
  obtain ⟨m, hok⟩ := ownersOk_reachable hreach
  exact ⟨(serves_exec hok hdec hrun .read).1, fun kind => (serves_exec hok hdec hrun kind).2⟩

/-- A first use that asks for a clone of the runtime for reads. -/
def askForRead : List (OwnerSystem.Action Unit) :=
  [.call (.runtime .read), .enter 0, .run 0 granted, .leave 0]

/-- Work is spawned on the clone, and it is dropped. -/
def useAndDrop : List (OwnerSystem.Action Unit) := [.spawn 0 (), .drop 0]

theorem global_runtimes_kept_dropped :
    ∃ w w' t g,
      (OwnerSystem.system Unit).exec (OwnerSystem.system Unit).init askForRead = some (w, t)
      ∧ w.global.statics.global.decided = some (some g)
      ∧ ∃ t', (OwnerSystem.system Unit).exec w useAndDrop = some (w', t')
        ∧ w'.runtimes = [none] ∧ w'.global.statics.global.decided = some (some g)
        ∧ ∀ kind, ∃ blocked, Serves w (g.get kind) blocked ∧ Serves w' (g.get kind) blocked := by
  have hkept := @global_runtimes_kept Unit _ _ useAndDrop _ _ ⟨askForRead, _, rfl⟩ rfl rfl
  exact ⟨_, _, _, _, rfl, rfl, _, rfl, rfl, hkept⟩

/-! ## Where requests go -/

/-- What was shown of the global runtimes is true of those that were decided. -/
def RoutedAll (w : OwnerSystem.World ψ) (t : List (OwnerSystem.Event ψ)) : Prop :=
  ∀ e ∈ t, (∀ route, RoutedBy route e)
    ∨ ∃ g, w.global.statics.global.decided = some (some g) ∧ RoutedBy g.get e

theorem routedAll_step {w w' : OwnerSystem.World ψ} {u t : List (OwnerSystem.Event ψ)}
    (h : RoutedAll w u) (hs : OwnerStep w w' t) : RoutedAll w' (u ++ t) := by
  intro e he
  rcases List.mem_append.mp he with he | he
  · rcases h e he with hfree | ⟨g, hdec, hroute⟩
    · exact .inl hfree
    · exact .inr ⟨g, hs.moves.decided hdec, hroute⟩
  · have hrouted := hs.routed e he
    cases e with
    | global e => exact .inl (fun _ => trivial)
    | built r => exact .inl (fun _ => trivial)
    | submitted s => exact .inl (fun _ => trivial)
    | cloned kind runtime =>
        obtain ⟨g, hdec, hruntime⟩ := hrouted
        exact .inr ⟨g, hs.moves.decided hdec, hruntime⟩
    | served kind s =>
        obtain ⟨g, hdec, hserved⟩ := hrouted
        exact .inr ⟨g, hs.moves.decided hdec, hserved⟩

/-- The four runtimes of a call lead to four executors. -/
theorem configured_apart (options : RuntimeOptions) (id : Nat) {k k' : Kind}
    (h : executorOf (configured options id k) = executorOf (configured options id k')) :
    k = k' := by
  cases k <;> cases k' <;> simp [configured, made, executorOf] at h ⊢

theorem builtin_apart (id : Nat) {k k' : Kind}
    (h : executorOf (builtin id k) = executorOf (builtin id k')) : k = k' := by
  cases k <;> cases k' <;> simp [builtin, made, executorOf] at h ⊢

theorem apart_of_ready {w : OwnerSystem.World ψ} {m : List (Nat × Kind × Runtime)}
    (h : OwnersOk w m) {g : GlobalRuntimes}
    (hdec : w.global.statics.global.decided = some (some g)) {k k' : Kind}
    (hk : executorOf (g.get k) = executorOf (g.get k')) : k = k' := by
  cases h.stage with
  | untouched _ _ global => rw [hdec] at global; exact absurd global (by simp)
  | filled _ _ _ _ _ _ global => rw [hdec] at global; exact absurd global (by simp)
  | served c options id call start global =>
      rw [hdec] at global
      injection global with global; injection global with global
      rw [global, get_ofKinds, get_ofKinds] at hk
      exact configured_apart options id hk
  | unconfigured c kind id call start config global =>
      rw [hdec] at global
      injection global with global; injection global with global
      rw [global, get_ofKinds, get_ofKinds] at hk
      exact builtin_apart id hk
  | broken _ _ _ _ global => exact absurd hdec (global g)

/--
**Everything that asks for one kind gets the same runtime.**

In every run, whatever is configured, panics and interleaves: all clones that
`read_runtime()` returns, and all work handed over by `spawn_read`, `spawn_blocking_read`
and `block_on_read`, lead to one executor, and each kind has its own.
-/
theorem requests_routed {w : OwnerSystem.World ψ} {as : List (OwnerSystem.Action ψ)}
    {t : List (OwnerSystem.Event ψ)}
    (hrun : (OwnerSystem.system ψ).exec (OwnerSystem.system ψ).init as = some (w, t)) :
    ∃ route : Kind → Runtime, (∀ k k', (route k).handle.id = (route k').handle.id → k = k')
      ∧ ∀ e ∈ t, RoutedBy route e := by
  have hok := ownersOk_exec hrun
  have hall : RoutedAll w t := by
    have hboth := Lts.log_of_init (P := fun w t => (∃ m, OwnersOk w m) ∧ RoutedAll w t)
      ⟨⟨_, ownersOk_init⟩, by simp [RoutedAll]⟩ ?_ hrun
    · exact hboth.2
    · intro v a v' u t' _ hp hs
      obtain ⟨⟨m, hok⟩, hall⟩ := hp
      have hstep := owner_step hok.aligned hs
      exact ⟨⟨_, ownersOk_step hok hstep⟩, routedAll_step hall hstep⟩
  by_cases hdec : ∃ g, w.global.statics.global.decided = some (some g)
  · obtain ⟨g, hdec⟩ := hdec
    refine ⟨g.get, fun k k' hk => apart_of_ready hok hdec hk, fun e he => ?_⟩
    rcases hall e he with hfree | ⟨g', hdec', hroute⟩
    · exact hfree _
    · rw [hdec] at hdec'
      injection hdec' with hdec'; injection hdec' with hgg
      rw [hgg]
      exact hroute
  · -- nothing was asked for yet
    refine ⟨builtin 0, fun k k' hk => builtin_apart 0 hk, fun e he => ?_⟩
    rcases hall e he with hfree | ⟨g', hdec', _⟩
    · exact hfree _
    · exact absurd ⟨g', hdec'⟩ hdec

/-- A clone for reads, then work handed over through the statics. -/
def askAndSpawn : List (OwnerSystem.Action Unit) :=
  askForRead ++ [.call (.spawn .read ()), .enter 1, .call (.blockOn .write ()), .enter 2]

theorem requests_routed_read :
    ∃ w t, (OwnerSystem.system Unit).exec (OwnerSystem.system Unit).init askAndSpawn = some (w, t)
      ∧ .served .read ⟨0, .spawn ()⟩ ∈ t ∧ .served .write ⟨1, .blockOn ()⟩ ∈ t
      ∧ ∃ route : Kind → Runtime, (∀ k k', (route k).handle.id = (route k').handle.id → k = k')
        ∧ ∀ e ∈ t, RoutedBy route e := by
  have hrouted := @requests_routed Unit _ askAndSpawn _ rfl
  exact ⟨_, _, rfl, by decide, by decide, hrouted⟩

/-! ## What a panic leaves behind -/

/-- What has become of a runtime that call `c` created for the statics. -/
inductive Placed (w : OwnerSystem.World ψ) (c : Nat) (runtime : Runtime) : Prop where
  /-- `init_global_runtimes` created it, and the statics have it. -/
  | configured (options : RuntimeOptions) (call : IsCall w.global c (.init options))
      (own : some runtime ∈ staticSlots w.global.statics)
  /-- A first use created it, and `GLOBAL_RUNTIMES` has it. -/
  | served (kind : Kind) (call : IsCall w.global c (.use kind)) (g : GlobalRuntimes)
      (decided : w.global.statics.global.decided = some (some g))
      (own : some runtime ∈ staticSlots w.global.statics)
  /-- A first use created it, and lost it to a panic. -/
  | lost (kind : Kind) (call : IsCall w.global c (.use kind))
      (decided : w.global.statics.global.decided = some none)
      (closed : ∃ e, w.executors (executorOf runtime) = some e ∧ e.closeSent = true)

/-- All of them. -/
def AllPlaced (w : OwnerSystem.World ψ) (m : List (Nat × Kind × Runtime)) : Prop :=
  ∀ x ∈ m, Placed w x.1 x.2.2

section
variable {w w' : OwnerSystem.World ψ} {m : List (Nat × Kind × Runtime)} {t : List Global.Event}
  {c : Nat} {runtime : Runtime}

/-- A step that leaves the statics alone leaves everything in its place. -/
theorem Placed.quiet (hok : OwnersOk w m) (hs : OwnerMoves w w' t)
    (hcalls : KeepsCalls w.global w'.global)
    (hslots : staticSlots w'.global.statics = staticSlots w.global.statics)
    (h : Placed w c runtime) : Placed w' c runtime := by
  cases h with
  | configured options call own => exact .configured options (hcalls _ _ call) (hslots ▸ own)
  | served kind call g decided own =>
      exact .served kind (hcalls _ _ call) g (hs.decided decided) (hslots ▸ own)
  | lost kind call decided closed =>
      exact .lost kind (hcalls _ _ call) (hs.decided decided) (hok.closed hs closed)

/-- What is in the slots of a configuration, as the closure of `START` made it. -/
theorem mem_initClosure_slots (options : RuntimeOptions) (outcome : Kind → BuildOutcome) (n : Nat)
    {x : Kind × Runtime} (h : x ∈ (initClosure ConfigRuntimes.default options outcome n).2.1) :
    some x.2 ∈ (initClosure ConfigRuntimes.default options outcome n).1.slots := by
  have hmem :
      x.2 ∈ (initClosure ConfigRuntimes.default options outcome n).1.slots.filterMap id := by
    rw [initClosure_given]
    exact List.mem_map_of_mem h
  obtain ⟨slot, hslot, heq⟩ := List.mem_filterMap.mp hmem
  exact heq ▸ hslot

theorem slots_of_same {s s' : Statics} (hval : s'.config.val = s.config.val)
    (hdec : s'.global.decided = s.global.decided) : staticSlots s' = staticSlots s := by
  unfold staticSlots Statics.globalSlots
  rw [hval, hdec]

theorem allPlaced_runInit (hok : OwnersOk w m) (h : AllPlaced w m) (hs : OwnerMoves w w' t)
    {options : RuntimeOptions} {outcome : Kind → BuildOutcome} {start : OneShot Unit}
    (call : IsCall w.global c (.init options)) (before : w.global.statics.start.decided = none)
    (hw' : w'.global = { w.global with
      statics := { (w.global.statics.runInit options outcome).1 with start := start } }) :
    AllPlaced w'
      (m ++ (w.global.statics.runInit options outcome).2.1.map (fun x => (c, x.1, x.2))) := by
  have hstatics : w'.global.statics
      = { (w.global.statics.runInit options outcome).1 with start := start } := by rw [hw']
  have hcalls : KeepsCalls w.global w'.global := by
    rw [hw']
    exact keepsCalls_refl w.global
  have hglobal : w'.global.statics.global = w.global.statics.global := by
    rw [hstatics]
    exact locked_global _ _
  rcases runInit_cases hok.stage options outcome before with ⟨hm, config, _⟩ | ⟨hval, _, hnone⟩
  · -- what it made is in the configuration
    subst hm
    intro x hx
    rw [List.nil_append] at hx
    obtain ⟨y, hy, hxy⟩ := List.mem_map.mp hx
    rcases hcl : initClosure ConfigRuntimes.default options outcome w.global.statics.handles with
      ⟨c', m', res⟩
    have hrun : w.global.statics.runInit options outcome = _ := locked_sound config hcl
    have hmem := mem_initClosure_slots options outcome w.global.statics.handles (x := y)
    rw [hcl] at hmem
    rw [hrun] at hy hstatics
    rw [← hxy]
    refine .configured options (hcalls _ _ call) (List.mem_append_left _ ?_)
    rw [hstatics]
    exact hmem hy
  · rw [hnone, List.map_nil, List.append_nil]
    refine fun x hx => (h x hx).quiet hok hs hcalls (slots_of_same ?_ (by rw [hglobal]))
    rw [hstatics]
    exact hval

/-- What was created before anything was decided is still in the configuration. -/
theorem Placed.undecided (before : w.global.statics.global.decided = none)
    (h : Placed w c runtime) : ∃ options, IsCall w.global c (.init options)
      ∧ some runtime ∈ w.global.statics.config.val.slots := by
  cases h with
  | configured options call own =>
      refine ⟨options, call, ?_⟩
      rcases List.mem_append.mp own with own | own
      · exact own
      · rw [globalSlots_nil (by rw [before]; simp)] at own
        exact absurd own List.not_mem_nil
  | served kind call g decided own => rw [decided] at before; exact absurd before (by simp)
  | lost kind call decided closed => rw [decided] at before; exact absurd before (by simp)

theorem mem_full_slots (f : Kind → Runtime) {x : Kind × Runtime} (h : x ∈ allMade f) :
    some x.2 ∈ (full f).slots := by
  obtain ⟨k, _, hx⟩ := List.mem_map.mp h
  rw [← hx]
  cases k <;> simp [full, ConfigRuntimes.slots]

/-- An executor that has just been put there, and that nobody owns. -/
theorem closed_of_lost {m' : Made} {outcome : Kind → BuildOutcome}
    {ms : List (Nat × Kind × Runtime)} (hok : OwnersOk w m) (hok' : OwnersOk w' ms)
    (hex : w'.executors = tellAll Executor.drop (putAll w.executors
      (m'.map (fun x => (executorOf x.2, (outcome x.1).executor)))) (madeIds m'))
    (hup : ClosedUp w.global.statics w'.global.statics m' (madeIds m'))
    (hrt : w'.runtimes = w.runtimes) {x : Kind × Runtime} (hx : x ∈ m') :
    ∃ e, w'.executors (executorOf x.2) = some e ∧ e.closeSent = true := by
  have hthere : (w'.executors (executorOf x.2)).isSome = true := by
    rw [hex, tellAll_isSome]
    refine putAll_isSome (.inl ?_)
    rw [List.map_map]
    exact List.mem_map_of_mem (f := fun y : Kind × Runtime => executorOf y.2) hx
  obtain ⟨e, he⟩ := Option.isSome_iff_exists.mp hthere
  refine ⟨e, he, (hok'.tracks.counted _ e he).closeSent.mpr ?_⟩
  have hfree := hok.tracks.unowned (hup.numbered.low x hx)
  have hshares := hup.shares (executorOf x.2)
  rw [owners_eq] at hfree
  rw [owners_eq, hrt]
  omega

theorem allPlaced_runGlobal {ms : List (Nat × Kind × Runtime)} (hok : OwnersOk w m)
    (hok' : OwnersOk w' ms) (h : AllPlaced w m) {kind : Kind} {outcome : Kind → BuildOutcome}
    {global : OneShot GlobalRuntimes} (call : IsCall w.global c (.use kind))
    (before : w.global.statics.global.decided = none)
    (after : global.decided = some (w.global.statics.runGlobal outcome).2.2)
    (hw' : w'.global = { w.global with
      statics := { (w.global.statics.runGlobal outcome).1 with global := global } })
    (hex : w'.executors = tellAll Executor.drop (putAll w.executors
      ((w.global.statics.runGlobal outcome).2.1.map
        (fun x => (executorOf x.2, (outcome x.1).executor))))
      ((w.global.statics.unwound outcome).map executorOf))
    (hrt : w'.runtimes = w.runtimes) :
    AllPlaced w' (m ++ (w.global.statics.runGlobal outcome).2.1.map (fun x => (c, x.1, x.2))) := by
  have hstatics : w'.global.statics
      = { (w.global.statics.runGlobal outcome).1 with global := global } := by rw [hw']
  have hconfig : w'.global.statics.config = (w.global.statics.runGlobal outcome).1.config := by
    rw [hstatics]
  have hcalls : KeepsCalls w.global w'.global := by
    rw [hw']
    exact keepsCalls_refl w.global
  have hdec : w'.global.statics.global.decided = some (w.global.statics.runGlobal outcome).2.2 := by
    rw [hstatics]
    exact after
  have hup := closedUp_runGlobal hok.stage outcome global before after
  rw [← hstatics] at hup
  cases hok.stage with
  | untouched _ config _ =>
      intro x hx
      rw [List.nil_append] at hx
      obtain ⟨y, hy, hxy⟩ := List.mem_map.mp hx
      rw [← hxy]
      rcases globalClosure_cases outcome w.global.statics.handles with hall | ⟨hnone, _⟩
      · have hrun : w.global.statics.runGlobal outcome = _ := locked_sound config hall
        rw [hrun] at hdec hy
        refine .served kind (hcalls _ _ call) _ hdec (List.mem_append_right _ ?_)
        rw [globalSlots_ofKinds hdec]
        exact mem_full_slots _ hy
      · -- nobody is left who owns it
        rcases hcl : globalClosure ConfigRuntimes.default outcome w.global.statics.handles with
          ⟨c', m', res⟩
        rw [hcl] at hnone
        dsimp only at hnone
        subst hnone
        have hrun : w.global.statics.runGlobal outcome = _ := locked_sound config hcl
        have hgone : (w.global.statics.unwound outcome).map executorOf = madeIds m' := by
          rw [unwound_sound config (congrArg Prod.snd hcl)]
          exact List.map_map
        rw [hgone, hrun] at hex hup
        rw [hrun] at hdec hy
        exact .lost kind (hcalls _ _ call) hdec (closed_of_lost hok hok' hex hup hrt hy)
  | filled d options id hcall start config _ =>
      have hcl := globalClosure_full (configured options id) outcome w.global.statics.handles
      have hrun : w.global.statics.runGlobal outcome = _ := locked_sound config hcl
      rw [hrun] at hdec ⊢
      rw [List.map_nil, List.append_nil]
      intro x hx
      obtain ⟨options', hinit, hmem⟩ := (h x hx).undecided before
      refine .configured options' (hcalls _ _ hinit) (List.mem_append_right _ ?_)
      rw [globalSlots_ofKinds hdec]
      rw [config] at hmem
      exact hmem
  | served _ _ _ _ _ hglobal => rw [hglobal] at before; exact absurd before (by simp)
  | unconfigured _ _ _ _ _ _ hglobal => rw [hglobal] at before; exact absurd before (by simp)
  | broken _ _ _ config _ =>
      have hrun : w.global.statics.runGlobal outcome = _ := locked_poisoned config _
      rw [hrun] at hconfig ⊢
      rw [List.map_nil, List.append_nil]
      intro x hx
      obtain ⟨options', hinit, hmem⟩ := (h x hx).undecided before
      refine .configured options' (hcalls _ _ hinit) (List.mem_append_left _ ?_)
      rw [hconfig]
      exact hmem

/-- **The step lemma.** -/
theorem allPlaced_step {t : List (OwnerSystem.Event ψ)} (hok : OwnersOk w m) (h : AllPlaced w m)
    (hs : OwnerStep w w' t) : AllPlaced w' (m ++ Proof.creations (globals t)) := by
  have hok' := ownersOk_step hok hs
  have hmoves := hs.moves
  -- a step that leaves the statics alone
  have hquiet : Quiet w.global w'.global (globals t) →
      AllPlaced w' (m ++ Proof.creations (globals t)) := by
    intro hq
    rw [hq.creations, List.append_nil]
    exact fun x hx =>
      (h x hx).quiet hok hmoves hq.calls (slots_of_same (by rw [hq.config]) hq.global)
  cases hs.moves with
  | still global executors runtimes => exact hquiet global
  | gained runtime own global executors runtimes => exact hquiet global
  | lost r runtime own global executors runtimes => exact hquiet global
  | released i e there sent global executors runtimes => exact hquiet global
  | built runtime blocked id global log executors runtimes =>
      have hcalls : KeepsCalls w.global w'.global := by
        rw [global]
        exact keepsCalls_refl w.global
      rw [log, show Proof.creations [] = [] from rfl, List.append_nil]
      refine fun x hx => (h x hx).quiet hok hmoves hcalls (slots_of_same ?_ ?_)
      · rw [global]
        rfl
      · rw [global]
        rfl
  | ran c outcome runs executors runtimes =>
      generalize globals t = es at runs executors hok' hmoves ⊢
      generalize hg : w'.global = global' at runs
      cases runs with
      | init options start call before after =>
          rw [creations_createdBy]
          exact allPlaced_runInit hok h hmoves ⟨none, call⟩ before hg
      | global kind global call before after =>
          have hgone : w.unwound c outcome = w.global.statics.unwound outcome := by
            unfold World.unwound
            rw [call]
          rw [hgone, creations_made] at executors
          rw [creations_createdBy]
          exact allPlaced_runGlobal hok hok' h ⟨none, call⟩ before after hg executors runtimes

end

theorem allPlaced_exec {as : List (OwnerSystem.Action ψ)} {w : OwnerSystem.World ψ}
    {t : List (OwnerSystem.Event ψ)}
    (h : (OwnerSystem.system ψ).exec (OwnerSystem.system ψ).init as = some (w, t)) :
    OwnersOk w (Proof.creations (globals t)) ∧ AllPlaced w (Proof.creations (globals t)) := by
  refine Lts.log_of_init (P := fun w t => OwnersOk w (Proof.creations (globals t))
    ∧ AllPlaced w (Proof.creations (globals t))) ⟨ownersOk_init, by simp [AllPlaced, globals,
      Proof.creations]⟩ ?_ h
  intro v a v' u t' _ hp hs
  have hstep := owner_step hp.1.aligned hs
  rw [globals_append, creations_append]
  exact ⟨ownersOk_step hp.1 hstep, allPlaced_step hp.1 hp.2 hstep⟩

/-- Whether a call is a first use that failed, by what the statics know of it. -/
theorem failedUse_iff {w : OwnerSystem.World ψ} (hw : Aligned w) {c : Nat} {op : Op}
    (hc : IsCall w.global c op) :
    FailedUse w c ↔ (∃ kind, op = .use kind) ∧ w.global.statics.global.decided = some none := by
  obtain ⟨q, hq, hop⟩ := hw.request hc
  unfold FailedUse
  constructor
  · intro h
    obtain ⟨⟨q', hq', kind, hkind⟩, hdec⟩ := h
    rw [hq] at hq'
    injection hq' with hqq
    exact ⟨⟨kind, by rw [← hop, hqq]; exact hkind⟩, hdec⟩
  · intro h
    obtain ⟨⟨kind, hkind⟩, hdec⟩ := h
    exact ⟨⟨q, hq, kind, hop.trans hkind⟩, hdec⟩

/--
**What a panic leaves behind.**

A runtime that was created for the global statics has been told to shut down exactly if a
first use created it, and the closure of `GLOBAL_RUNTIMES` panicked afterwards. What
`init_global_runtimes` creates never is: it is global for good, or is left in the poisoned
configuration, with all its threads.
-/
theorem statics_closed_iff {w : OwnerSystem.World ψ} {as : List (OwnerSystem.Action ψ)}
    {t : List (OwnerSystem.Event ψ)}
    (hrun : (OwnerSystem.system ψ).exec (OwnerSystem.system ψ).init as = some (w, t)) {c : Nat}
    {kind : Kind} {runtime : Runtime} (hmade : .global (.created c kind runtime) ∈ t) :
    ∃ e, w.executors runtime.handle.id = some e ∧ (e.closeSent = true ↔ FailedUse w c) := by
  obtain ⟨hok, hall⟩ := allPlaced_exec hrun
  have hmem : (c, kind, runtime) ∈ Proof.creations (globals t) :=
    List.mem_filterMap.mpr ⟨_, List.mem_filterMap.mpr ⟨_, hmade, rfl⟩, rfl⟩
  -- what the statics own has not been told to shut down
  have howned : some runtime ∈ staticSlots w.global.statics → ¬ FailedUse w c →
      ∃ e, w.executors runtime.handle.id = some e ∧ (e.closeSent = true ↔ FailedUse w c) := by
    intro hown hno
    have hslot : some runtime ∈ w.slots := by
      unfold World.slots
      rw [List.append_assoc]
      exact List.mem_append_right _ hown
    obtain ⟨e, he, hopen⟩ := hok.there hslot
    exact ⟨e, he, by rw [hopen]; simp [hno]⟩
  cases hall _ hmem with
  | configured options call own =>
      refine howned own (fun hfailed => ?_)
      obtain ⟨⟨k, hk⟩, _⟩ := (failedUse_iff hok.aligned call).mp hfailed
      exact absurd hk (by simp)
  | served k call g decided own =>
      refine howned own (fun hfailed => ?_)
      have hdec := ((failedUse_iff hok.aligned call).mp hfailed).2
      rw [decided] at hdec
      exact absurd hdec (by simp)
  | lost k call decided closed =>
      obtain ⟨e, he, hsent⟩ := closed
      refine ⟨e, he, ?_⟩
      rw [hsent]
      exact ⟨fun _ => (failedUse_iff hok.aligned call).mpr ⟨⟨k, rfl⟩, decided⟩, fun _ => rfl⟩

/-- The runtime for writes cannot be built. -/
def noWrites (kind : Kind) : BuildOutcome := 
  { tokio := if kind = .write then .err else .ok, blocker := .ok }

/-- `init_global_runtimes` dies of it; then somebody asks for a runtime. -/
def initAndAsk : List (OwnerSystem.Action Unit) :=
  [.call (.init { readRtSize := 2, writeRtSize := 2, bgRtSize := 1 }), .enter 0, .run 0 noWrites,
    .leave 0, .call (.runtime .read), .enter 1, .run 1 noWrites, .leave 1]

theorem statics_closed_iff_leaked :
    ∃ w t, (OwnerSystem.system Unit).exec (OwnerSystem.system Unit).init initAndAsk = some (w, t)
      ∧ .global (.created 0 .read (made "global-read" "global-read-worker" 0 2)) ∈ t
      ∧ w.global.statics.global = .poisoned
      ∧ ∃ e, w.executors 0 = some e ∧ (e.closeSent = true ↔ FailedUse w 0) := by
  have hclosed := @statics_closed_iff Unit _ initAndAsk _ rfl 0 .read
    (made "global-read" "global-read-worker" 0 2) (by decide)
  exact ⟨_, _, rfl, by decide, rfl, hclosed⟩

end RsRun.Proof
