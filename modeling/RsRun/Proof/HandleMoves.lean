import RsRun.PendingFuture.HandleSystem
import RsRun.Proof.LimiterMoves

/-!
# What becomes of the memories behind the handles

A step makes one memory, rewrites one, or leaves them all alone; and it adds a clone,
takes one away, or keeps their number. A poll rewrites the memory of its future, but of
the flag and the counter it changes only the counter, and only where it finds the stored
back-off elapsed.
-/

namespace RsRun.Proof

open Async ModeRatelimiter HandleSystem

variable {φ ω ν L : Type*}

/-! ## What a poll does to its memory -/

/-- The poll finds the stored back-off elapsed. -/
def FindsElapsed (this : PendingFuture φ) (env : Env ω) : Prop :=
  this.state ≠ .common ∧ env.stored = .ready ()

/-- A poll rewrites the limiter at most, once it has settled the back-off. -/
theorem poll_memory (chk : Bool) (pollF : φ → Cx ω → φ × Poll ν) (tryWait : Limiter L)
    (sh : Shared L) (this : PendingFuture φ) (env : Env ω) :
    (¬ PastBackoff this.state env.stored ∧ (poll chk pollF tryWait sh this env).next.1 = sh)
      ∨ (PastBackoff this.state env.stored ∧ ∃ limiter,
          (poll chk pollF tryWait sh this env).next.1
            = { settled sh this with limiter := limiter }) := by
  cases limiter_moves chk pollF tryWait sh this env with
  | waiting state hstay _ hn _ => exact .inl ⟨hstay, by rw [hn]⟩
  | refused _ _ limiter _ hpast _ _ _ hn _ => exact .inr ⟨hpast, limiter, by rw [hn]⟩
  | pending _ _ limiter _ hpast _ _ _ _ hn _ => exact .inr ⟨hpast, limiter, by rw [hn]⟩
  | ready _ _ limiter _ hpast _ _ _ hn _ => exact .inr ⟨hpast, limiter, by rw [hn]⟩
  | askPanics _ hpast _ _ _ hn _ => exact .inr ⟨hpast, (settled sh this).limiter, by rw [hn]⟩
  | answerPanics _ _ limiter _ hpast _ _ _ _ hn _ => exact .inr ⟨hpast, limiter, by rw [hn]⟩

section
variable {chk : Bool} {pollF : φ → Cx ω → φ × Poll ν} {tryWait : Limiter L} {sh : Shared L}
  {this : PendingFuture φ} {env : Env ω}

theorem poll_stop : (poll chk pollF tryWait sh this env).next.1.stop = sh.stop := by
  rcases poll_memory chk pollF tryWait sh this env with ⟨_, h⟩ | ⟨_, limiter, h⟩
  · rw [h]
  · rw [h]
    change (settle _ sh).stop = sh.stop
    rw [settle]
    split <;> rfl

theorem poll_counter (h : ¬ FindsElapsed this env) :
    (poll chk pollF tryWait sh this env).next.1.counter = sh.counter := by
  rcases poll_memory chk pollF tryWait sh this env with ⟨_, hn⟩ | ⟨hpast, limiter, hn⟩
  · rw [hn]
  · rw [hn]
    change (settle this.state.stored.isSome sh).counter = sh.counter
    cases hstate : this.state with
    | common => rfl
    | backoff sleep =>
        exact absurd ⟨by rw [hstate]; simp, hpast sleep hstate⟩ h

/-- Where the back-off is found elapsed, one is taken off. -/
theorem poll_counter_taken (h : FindsElapsed this env) :
    (poll chk pollF tryWait sh this env).next.1.counter = Word.fetchSub 64 sh.counter 1 := by
  obtain ⟨hstate, hstored⟩ := h
  rcases poll_memory chk pollF tryWait sh this env with ⟨hstay, _⟩ | ⟨_, limiter, hn⟩
  · exact absurd (fun _ _ => hstored) hstay
  · rw [hn]
    change (settle this.state.stored.isSome sh).counter = _
    cases hst : this.state with
    | common => exact absurd hst hstate
    | backoff sleep => rfl

end

/-! ## One step of the program -/

/-- What a step does, action by action. -/
inductive HandleMoves (chk : Bool) (pollF : φ → Cx ω → φ × Poll ν) (tryWait : Limiter L)
    (w : World L φ) : Action L φ ω → World L φ → Prop where
  | new (p : Priority) (limiter : L) : HandleMoves chk pollF tryWait w (.new p limiter)
      { memories := w.memories ++ [Shared.new limiter]
        slots := w.slots ++ [some (.handle w.memories.length (RateLimiterRuntimeHandle.new p))] }
  | clone (r m : Nat) (handle : RateLimiterRuntimeHandle)
      (hr : w.slots[r]? = some (some (.handle m handle))) :
      HandleMoves chk pollF tryWait w (.clone r)
        { w with slots := w.slots ++ [some (.handle m handle)] }
  | wrap (r m : Nat) (handle : RateLimiterRuntimeHandle) (future : φ)
      (hr : w.slots[r]? = some (some (.handle m handle))) :
      HandleMoves chk pollF tryWait w (.wrap r future)
        { w with slots := w.slots.set r (some (.future m (PendingFuture.new handle future))) }
  | poll (r m : Nat) (env : Env ω) (this : PendingFuture φ) (sh : Shared L)
      (hr : w.slots[r]? = some (some (.future m this))) (hm : w.memories[m]? = some sh) :
      HandleMoves chk pollF tryWait w (.poll r env)
        { memories := w.memories.set m (poll chk pollF tryWait sh this env).next.1
          slots := w.slots.set r
            (some (.future m (poll chk pollF tryWait sh this env).next.2)) }
  | refill (m : Nat) (limiter : L) (sh : Shared L) (hm : w.memories[m]? = some sh) :
      HandleMoves chk pollF tryWait w (.refill m limiter)
        { w with memories := w.memories.set m { sh with limiter := limiter } }
  | drop (r : Nat) (slot : Slot φ) (hr : w.slots[r]? = some (some slot)) :
      HandleMoves chk pollF tryWait w (.drop r) (w.release r slot)

section
variable {chk : Bool} {pollF : φ → Cx ω → φ × Poll ν} {tryWait : Limiter L} {sh : Shared L}
  {w w' : World L φ} {a : Action L φ ω} {t : List (Act ω ν TryWait)}

/-- **The inversion lemma.** -/
theorem handle_moves (h : (system chk pollF tryWait).step w a = some (w', t)) :
    HandleMoves chk pollF tryWait w a w' := by
  change HandleSystem.step chk pollF tryWait w a = some (w', t) at h
  cases a with
  | new p limiter =>
      injection h with h; injection h with h1 _
      subst h1
      exact .new p limiter
  | clone r =>
      rw [HandleSystem.step] at h
      split at h
      · rename_i m handle hr
        injection h with h; injection h with h1 _
        subst h1
        exact .clone r m handle hr
      · exact absurd h (by simp)
  | wrap r future =>
      rw [HandleSystem.step] at h
      split at h
      · rename_i m handle hr
        injection h with h; injection h with h1 _
        subst h1
        exact .wrap r m handle future hr
      · exact absurd h (by simp)
  | poll r env =>
      rw [HandleSystem.step] at h
      split at h
      · rename_i m this hr
        split at h
        · exact absurd h (by simp)
        · rename_i sh hm
          injection h with h; injection h with h1 _
          subst h1
          exact .poll r m env this sh hr hm
      · exact absurd h (by simp)
  | refill m limiter =>
      rw [HandleSystem.step] at h
      split at h
      · exact absurd h (by simp)
      · rename_i sh hm
        injection h with h; injection h with h1 _
        subst h1
        exact .refill m limiter sh hm
  | drop r =>
      rw [HandleSystem.step] at h
      split at h
      · rename_i slot hr
        injection h with h; injection h with h1 _
        subst h1
        exact .drop r slot hr
      · exact absurd h (by simp)

theorem step_poll {r m : Nat} {env : Env ω} {this : PendingFuture φ}
    (hr : w.slots[r]? = some (some (.future m this))) (hm : w.memories[m]? = some sh) :
    (system chk pollF tryWait).step w (.poll r env)
      = some ({ memories := w.memories.set m (poll chk pollF tryWait sh this env).next.1
                slots := w.slots.set r
                  (some (.future m (poll chk pollF tryWait sh this env).next.2)) },
        (poll chk pollF tryWait sh this env).acts) := by
  change HandleSystem.step chk pollF tryWait w (.poll r env) = _
  rw [HandleSystem.step, hr]
  dsimp only
  rw [hm]

theorem step_drop {r : Nat} {slot : Slot φ} (hr : w.slots[r]? = some (some slot)) :
    (system (ω := ω) chk pollF tryWait).step w (.drop r) = some (w.release r slot, []) := by
  change HandleSystem.step chk pollF tryWait w (.drop r) = _
  rw [HandleSystem.step, hr]

/-! ## The clones -/

theorem clones_push (w : World L φ) (m : Nat) (slot : Slot φ) (memories : List (Shared L)) :
    World.clones { memories := memories, slots := w.slots ++ [some slot] } m
      = w.clones m + if slot.memory = m then 1 else 0 :=
  RefCount.shares_push Slot.memory m w.slots slot

theorem clones_replace {r : Nat} {slot slot' : Slot φ} (hr : w.slots[r]? = some (some slot))
    (hslot : slot'.memory = slot.memory) (m : Nat) (memories : List (Shared L)) :
    World.clones { memories := memories, slots := w.slots.set r (some slot') } m = w.clones m :=
  RefCount.shares_replace Slot.memory m hr hslot

theorem clones_release {r : Nat} {slot : Slot φ} (hr : w.slots[r]? = some (some slot)) (m : Nat) :
    (w.release r slot).clones m + (if slot.memory = m then 1 else 0) = w.clones m :=
  RefCount.shares_release Slot.memory m hr

theorem clones_pos {r : Nat} {slot : Slot φ} (hr : w.slots[r]? = some (some slot)) :
    0 < w.clones slot.memory :=
  (RefCount.shares_pos Slot.memory _ w.slots).mpr ⟨slot, List.mem_of_getElem? hr, rfl⟩

/-- Every clone refers to a memory that exists. -/
def InRange (w : World L φ) : Prop := ∀ m, 0 < w.clones m → m < w.memories.length

theorem InRange.memory (h : InRange w) {r : Nat} {slot : Slot φ}
    (hr : w.slots[r]? = some (some slot)) : ∃ sh, w.memories[slot.memory]? = some sh :=
  ⟨_, List.getElem?_eq_getElem (h _ (clones_pos hr))⟩

theorem inRange_step (h : InRange w) (hs : (system chk pollF tryWait).step w a = some (w', t)) :
    InRange w' := by
  intro m hpos
  cases handle_moves hs with
  | new p limiter =>
      rw [clones_push] at hpos
      change 0 < w.clones m + (if w.memories.length = m then 1 else 0) at hpos
      rw [List.length_append, List.length_singleton]
      have hold := h m
      split at hpos <;> omega
  | clone r m' handle hr =>
      rw [clones_push] at hpos
      have hold := h m
      have hsame := h m' (clones_pos hr)
      change 0 < w.clones m + (if m' = m then 1 else 0) at hpos
      split at hpos
      · rename_i heq
        exact heq ▸ hsame
      · exact hold hpos
  | wrap r m' handle future hr =>
      rw [clones_replace hr] at hpos
      · exact h m hpos
      · rfl
  | poll r m' env this sh hr hm =>
      rw [clones_replace hr] at hpos
      · rw [List.length_set]
        exact h m hpos
      · rfl
  | refill m' limiter sh hm =>
      rw [List.length_set]
      exact h m hpos
  | drop r slot hr =>
      have hless := clones_release hr m
      have hlen : (w.release r slot).memories.length = w.memories.length := List.length_modify ..
      rw [hlen]
      exact h m (by omega)

theorem inRange_exec {as : List (Action L φ ω)}
    (h : (system chk pollF tryWait).exec (system chk pollF tryWait).init as = some (w, t)) :
    InRange w := by
  refine Lts.log_of_init (P := fun w _ => InRange w) ?_ ?_ h
  · intro m hpos
    exact absurd hpos (by simp [system, World.clones, RefCount.shares])
  · exact fun w a w' u t _ hw hs => inRange_step hw hs

end

end RsRun.Proof
