import Mathlib.Algebra.Group.Action.Defs
import Mathlib.Algebra.Order.BigOperators.Group.List
import RsRun.Proof.CountCadence

/-!
# How much `mode_count` holds back at each priority

Two futures that are pending equally often pay for equally many back-offs, whatever
their schedules. A back-off lasts the base of its priority and up to nine
milliseconds more, so a priority pays at least what another one does where its base
exceeds the other one's by nine.
-/

namespace RsRun.Proof

open Async ModeCount Cadence

variable {φ ψ ω ω' ν ν' : Type*}

/-- A run to the completion of a future that is pending `n` times before it is ready. -/
structure CountFinished (chk : Bool) (pollF : φ → Cx ω → φ × Poll ν) (p : Priority) (future : φ)
    (n : Nat) (ts : List (Turn (PendingFuture φ) (Env ω) ω ν OneFutureRecord)) : Prop where
  ran : ∃ envs s, (countPolls chk pollF p future).exec (countPolls chk pollF p future).init envs
    = some (s, ts) ∧ s.done = true
  pendings : pendings (runActs ts) = n

section
variable {chk : Bool} {pollF : φ → Cx ω → φ × Poll ν} {p : Priority} {future : φ} {n : Nat}
  {ts : List (Turn (PendingFuture φ) (Env ω) ω ν OneFutureRecord)}

/-- Every back-off is the base of the priority and a jitter. -/
theorem insertion_of_priority {envs : List (Env ω)} {s : Polling (PendingFuture φ)}
    (h : (countPolls chk pollF p future).exec (countPolls chk pollF p future).init envs
      = some (s, ts)) :
    ∀ d ∈ insertions (runActs ts), ∃ base, p.fixedIntervalCount = some base
      ∧ ∃ jitter : Fin 10, d = fromMillis (base + jitter) := by
  have hrun := polls_log (P := fun w ts => w.handle = ⟨p⟩ ∧ ∀ d ∈ insertions (runActs ts),
    ∃ base, p.fixedIntervalCount = some base ∧ ∃ jitter : Fin 10, d = fromMillis (base + jitter))
    ⟨rfl, fun d hd => absurd hd List.not_mem_nil⟩ ?_ h
  · exact hrun.2
  · intro w env us hp hret
    obtain ⟨hhandle, hall⟩ := hp
    rw [runActs_snoc, insertions_append]
    cases modeCount_moves w env hret with
    | waiting state _ hn hs => rw [hn, hs.insertions, List.append_nil]; exact ⟨hhandle, hall⟩
    | pending _ _ hn hs => rw [hn, hs.insertions, List.append_nil]; exact ⟨hhandle, hall⟩
    | ready v _ _ hn hs => rw [hn, hs.insertions, List.append_nil]; exact ⟨hhandle, hall⟩
    | backoff base state hb _ _ hn hs =>
        rw [hn, hs.insertions]
        change w.handle.priority.fixedIntervalCount = some base at hb
        rw [hhandle] at hb
        exact ⟨hhandle, Lists.forall_mem_snoc hall ⟨base, hb, env.jitter, rfl⟩⟩

/-- What the back-offs come to lies between their number and nine more for each of them. -/
theorem millis_bounds (h : CountFinished chk pollF p future n ts) {base : Nat}
    (hb : p.fixedIntervalCount = some base) :
    (insertions (runActs ts)).length * base ≤ millis (insertions (runActs ts))
      ∧ millis (insertions (runActs ts)) ≤ (insertions (runActs ts)).length * (base + 9) := by
  obtain ⟨envs, s, hrun, _⟩ := h.ran
  have hmem : ∀ ms ∈ (insertions (runActs ts)).map (fun d => d / 1000000),
      base ≤ ms ∧ ms ≤ base + 9 := by
    intro ms hms
    obtain ⟨d, hd, rfl⟩ := List.mem_map.mp hms
    obtain ⟨base', hb', jitter, rfl⟩ := insertion_of_priority hrun d hd
    rw [hb] at hb'
    injection hb' with hb'
    rw [fromMillis_div]
    have := jitter.isLt
    omega
  have hlow := List.card_nsmul_le_sum _ base (fun ms hms => (hmem ms hms).1)
  have hhigh := List.sum_le_card_nsmul _ (base + 9) (fun ms hms => (hmem ms hms).2)
  rw [List.length_map, smul_eq_mul] at hlow hhigh
  exact ⟨hlow, hhigh⟩

theorem millis_unthrottled (h : CountFinished chk pollF p future n ts)
    (hb : p.fixedIntervalCount = none) : millis (insertions (runActs ts)) = 0 := by
  obtain ⟨envs, s, hrun, _⟩ := h.ran
  have hnil : insertions (runActs ts) = [] := by
    rw [List.eq_nil_iff_forall_not_mem]
    intro d hd
    obtain ⟨base, hb', _⟩ := insertion_of_priority hrun d hd
    rw [hb] at hb'
    exact absurd hb' (by simp)
  rw [hnil]
  rfl

end

section
variable {chk chk' : Bool} {pollF : φ → Cx ω → φ × Poll ν} {pollF' : ψ → Cx ω' → ψ × Poll ν'}
  {lower higher : Priority} {future : φ} {future' : ψ} {n : Nat}
  {ts : List (Turn (PendingFuture φ) (Env ω) ω ν OneFutureRecord)}
  {ts' : List (Turn (PendingFuture ψ) (Env ω') ω' ν' OneFutureRecord)}

/-- Equally many `Pending` answers cost equally many back-offs. -/
theorem insertions_eq (h : CountFinished chk pollF lower future n ts)
    (h' : CountFinished chk' pollF' higher future' n ts') (hlow : lower ≠ .veryHigh)
    (hhigh : higher ≠ .veryHigh) :
    (insertions (runActs ts')).length = (insertions (runActs ts)).length := by
  obtain ⟨envs, s, hrun, hdone⟩ := h.ran
  obtain ⟨envs', s', hrun', hdone'⟩ := h'.ran
  have hdue : dueBeat higher = dueBeat lower := by
    funext i
    unfold dueBeat
    rw [fixedIntervalCount_isSome hlow, fixedIntervalCount_isSome hhigh]
  -- both runs follow one pattern of beats, and stop where no back-off is due
  have hfollows' := (countRun_exec hrun').cadence
  have hstop' := countRun_done hrun' hdone'
  rw [hdue] at hfollows' hstop'
  have hcount : (beats (runActs ts')).count false = (beats (runActs ts)).count false := by
    rw [(beats_counts _).1, (beats_counts _).1, h.pendings, h'.pendings]
  have hbeats := hfollows'.eq_of_count (countRun_exec hrun).cadence hcount hstop'
    (countRun_done hrun hdone)
  rw [← (beats_counts _).2, ← (beats_counts _).2, hbeats]

theorem throttled_of_base {p : Priority} {base : Nat} (hb : p.fixedIntervalCount = some base) :
    p ≠ .veryHigh := by
  rintro rfl
  exact absurd hb (by simp [Priority.fixedIntervalCount])

/-- What the bases of two priorities leave open is left open for every back-off. -/
theorem millis_le (h : CountFinished chk pollF lower future n ts)
    (h' : CountFinished chk' pollF' higher future' n ts') {base base' slack : Nat}
    (hb : lower.fixedIntervalCount = some base) (hb' : higher.fixedIntervalCount = some base')
    (hle : base' + 9 ≤ base + slack) :
    millis (insertions (runActs ts'))
      ≤ millis (insertions (runActs ts)) + slack * (insertions (runActs ts)).length := by
  have hlen := insertions_eq h h' (throttled_of_base hb) (throttled_of_base hb')
  calc millis (insertions (runActs ts'))
      ≤ (insertions (runActs ts')).length * (base' + 9) := (millis_bounds h' hb').2
    _ ≤ (insertions (runActs ts)).length * (base + slack) := by
        rw [hlen]
        exact Nat.mul_le_mul_left _ hle
    _ = (insertions (runActs ts)).length * base + slack * (insertions (runActs ts)).length := by
        ring
    _ ≤ millis (insertions (runActs ts)) + slack * (insertions (runActs ts)).length :=
        Nat.add_le_add_right (millis_bounds h hb).1 _

/-- The jitter is smaller than the step from one base to a lower one, but for two steps. -/
theorem base_dominates (hlt : lower.index < higher.index)
    (hlm : ¬ (lower = .low ∧ higher = .middle)) (hmh : ¬ (lower = .middle ∧ higher = .high)) :
    ∃ base, lower.fixedIntervalCount = some base ∧ (higher.fixedIntervalCount = none
      ∨ ∃ base', higher.fixedIntervalCount = some base' ∧ base' + 9 ≤ base) := by
  cases lower <;> cases higher <;>
    first
    | exact absurd hlt (by decide)
    | exact absurd ⟨rfl, rfl⟩ hlm
    | exact absurd ⟨rfl, rfl⟩ hmh
    | exact ⟨_, rfl, .inl rfl⟩
    | exact ⟨_, rfl, .inr ⟨_, rfl, by decide⟩⟩

/--
**How the priorities are ordered.**

A lower priority is held back at least as long as a higher one, for all but two pairs
of neighbours: from `Low` to `Middle` the jitter can turn the order around by two
milliseconds, and from `Middle` to `High` by six, for each of their back-offs.
-/
theorem count_ordered (hlt : lower.index < higher.index)
    (h : CountFinished chk pollF lower future n ts)
    (h' : CountFinished chk' pollF' higher future' n ts') :
    (¬ (lower = .low ∧ higher = .middle) → ¬ (lower = .middle ∧ higher = .high) →
        millis (insertions (runActs ts')) ≤ millis (insertions (runActs ts)))
      ∧ (higher ≠ .veryHigh →
        (insertions (runActs ts')).length = (insertions (runActs ts)).length)
      ∧ (lower = .low → higher = .middle → millis (insertions (runActs ts'))
        ≤ millis (insertions (runActs ts)) + 2 * (insertions (runActs ts)).length)
      ∧ (lower = .middle → higher = .high → millis (insertions (runActs ts'))
        ≤ millis (insertions (runActs ts)) + 6 * (insertions (runActs ts)).length) := by
  refine ⟨?_, ?_, ?_, ?_⟩
  · intro hlm hmh
    obtain ⟨base, hb, hnone | ⟨base', hb', hle⟩⟩ := base_dominates hlt hlm hmh
    · rw [millis_unthrottled h' hnone]
      exact Nat.zero_le _
    · have hzero : base' + 9 ≤ base + 0 := hle
      have := millis_le h h' hb hb' hzero
      rwa [Nat.zero_mul] at this
  · intro hhigh
    refine insertions_eq h h' ?_ hhigh
    rintro rfl
    cases higher <;> exact absurd hlt (by decide)
  · rintro rfl rfl
    exact millis_le h h' rfl rfl (by decide)
  · rintro rfl rfl
    exact millis_le h h' rfl rfl (by decide)

end

/-- Four `Pending` answers, and one back-off with this jitter. -/
def fourPending (jitter : Fin 10) : List (Env Unit) :=
  List.replicate 5 (countEnv .pending .pending jitter) ++ [countEnv (.ready ()) .pending jitter]

/-- `VeryLow` with the shortest back-off against `Low` with the longest. -/
theorem count_ordered_low :
    ∃ ts ts', CountFinished true countdown .veryLow 4 4 ts
      ∧ CountFinished true countdown .low 4 4 ts'
      ∧ millis (insertions (runActs ts')) ≤ millis (insertions (runActs ts)) := by
  have h : CountFinished true countdown .veryLow 4 4 _ := ⟨⟨fourPending 0, _, rfl, rfl⟩, rfl⟩
  have h' : CountFinished true countdown .low 4 4 _ := ⟨⟨fourPending 9, _, rfl, rfl⟩, rfl⟩
  exact ⟨_, _, h, h', (count_ordered (by decide) h h').1 (by decide) (by decide)⟩

/-- A `Low` back-off without jitter is shorter than a `Middle` one with the longest jitter. -/
theorem not_count_ordered :
    Priority.index .low < Priority.index .middle
      ∧ ∃ ts ts', CountFinished true countdown .low 4 4 ts
        ∧ CountFinished true countdown .middle 4 4 ts'
        ∧ millis (insertions (runActs ts)) = 20 ∧ millis (insertions (runActs ts')) = 22 := by
  have h : CountFinished true countdown .low 4 4 _ := ⟨⟨fourPending 0, _, rfl, rfl⟩, rfl⟩
  have h' : CountFinished true countdown .middle 4 4 _ := ⟨⟨fourPending 9, _, rfl, rfl⟩, rfl⟩
  exact ⟨by decide, _, _, h, h', by decide, by decide⟩

end RsRun.Proof
