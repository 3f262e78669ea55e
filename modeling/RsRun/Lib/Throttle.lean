import RsRun.Lib.Async

/-!
# Wrappers that hold their inner future back

A throttling wrapper stores at most one timer. One poll of it can go in four ways,
and `Throttled` says of each what was done and what is left behind. Both contracts
of `Async` follow from that alone, so a wrapper is taken apart once.
-/

namespace Async

variable {σ τ ι φ ω ν χ : Type*}

/-- Actions that neither poll the inner future nor find a timer still running. -/
def Quiet (as : List (Act ω ν χ)) : Prop :=
  innerPolls as = [] ∧ ∀ w, Act.sleepPolled w .pending ∉ as

theorem Quiet.nil : Quiet ([] : List (Act ω ν χ)) := ⟨rfl, by simp⟩

theorem Quiet.append {as bs : List (Act ω ν χ)} (ha : Quiet as) (hb : Quiet bs) :
    Quiet (as ++ bs) := by
  refine ⟨by rw [innerPolls_append, ha.1, hb.1]; rfl, ?_⟩
  intro w hw
  rcases List.mem_append.mp hw with h | h
  · exact ha.2 w h
  · exact hb.2 w h

/--
The four ways a poll of a throttling wrapper can go, if it was given the context
`cx` and found the inner future at `f`. `chk` says whether overflow panics.
-/
inductive Throttled (pollF : φ → Cx ω → φ × Poll ν) (inner : σ → φ)
    (stored : σ → Option Sleep) (chk : Bool) (cx : Cx ω) (f : φ) (o : Polled σ ω ν χ) : Prop where
  /-- It waits for the timer it stores. -/
  | waiting (pre : List (Act ω ν χ)) (sl : Sleep) (hq : Quiet pre)
      (ha : o.acts = pre ++ [.sleepPolled cx.waker .pending]) (hr : o.res = .pending)
      (hs : stored o.next = some sl) (hw : sl.waker = some cx.waker) (hi : inner o.next = f)
  /-- Its new timer was ready at once, and it woke its own task. -/
  | woken (pre : List (Act ω ν χ)) (hq : Quiet pre)
      (ha : o.acts = pre ++ [.sleepPolled cx.waker (.ready ()), .woke cx.waker])
      (hr : o.res = .pending) (hs : stored o.next = none) (hi : inner o.next = f)
  /-- It polled the inner future and passed the answer on. -/
  | polled (pre : List (Act ω ν χ)) (own : List χ) (hq : Quiet pre)
      (ha : o.acts = pre ++ .innerPolled cx (pollF f cx).2 :: own.map .own)
      (hown : o.res = .pending → own = [])
      (hr : o.res = (pollF f cx).2.outcome ∨ (o.res = .panicked .overflow ∧ chk = true))
      (hs : stored o.next = none) (hi : inner o.next = (pollF f cx).1)
  /-- It panicked before it came to any of these. -/
  | overflowed (hq : Quiet o.acts) (hr : o.res = .panicked .overflow) (hc : chk = true)
      (hs : stored o.next = none) (hi : inner o.next = f)

/-- A poll that comes straight to the inner future. -/
structure InnerPolled (pollF : φ → Cx ω → φ × Poll ν) (inner : σ → φ)
    (stored : σ → Option Sleep) (chk : Bool) (cx : Cx ω) (f : φ) (o : Polled σ ω ν χ) : Prop where
  /-- What it did, up to bookkeeping at the end of a poll that is not pending. -/
  acts : ∃ own : List χ, o.acts = .innerPolled cx (pollF f cx).2 :: own.map .own
    ∧ (o.res = .pending → own = [])
  /-- It passed the answer on, or overflowed. -/
  res : o.res = (pollF f cx).2.outcome ∨ (o.res = .panicked .overflow ∧ chk = true)
  stored : stored o.next = none
  inner : inner o.next = (pollF f cx).1

section
variable {pollF : φ → Cx ω → φ × Poll ν} {inner : σ → φ} {stored : σ → Option Sleep}
  {chk : Bool} {cx : Cx ω} {f : φ} {o : Polled σ ω ν χ}

theorem InnerPolled.throttled (h : InnerPolled pollF inner stored chk cx f o) :
    Throttled pollF inner stored chk cx f o := by
  obtain ⟨own, ha, hown⟩ := h.acts
  exact .polled [] own .nil ha hown h.res h.stored h.inner

theorem innerPolls_own_map (xs : List χ) :
    innerPolls (xs.map (Act.own : χ → Act ω ν χ)) = [] := by
  induction xs with
  | nil => rfl
  | cons x xs ih => exact ih

theorem InnerPolled.polled (h : InnerPolled pollF inner stored chk cx f o) :
    innerPolls o.acts = [(cx, (pollF f cx).2)] := by
  obtain ⟨own, ha, _⟩ := h.acts
  rw [ha, innerPolls_innerPolled, innerPolls_own_map]

/-- Coming straight to the inner future is passing through, unless it panics. -/
theorem InnerPolled.passThrough (h : InnerPolled pollF inner stored chk cx f o)
    (hret : ∀ why, o.res ≠ .panicked why) : PassThrough pollF cx f o := by
  obtain ⟨own, ha, _⟩ := h.acts
  rcases h.res with hr | ⟨hr, _⟩
  · refine ⟨h.polled, hr, ?_⟩
    intro d hd
    rw [ha] at hd
    exact absurd hd (by simp)
  · exact absurd hr (hret _)

/-- What quietly happened before does not matter. -/
theorem Throttled.after (h : Throttled pollF inner stored chk cx f o) {pre : List (Act ω ν χ)}
    (hpre : Quiet pre) : Throttled pollF inner stored chk cx f (o.after pre) := by
  cases h with
  | waiting p sl hq ha hr hs hw hi =>
      refine .waiting (pre ++ p) sl (hpre.append hq) ?_ hr hs hw hi
      rw [Polled.after_acts, ha, List.append_assoc]
  | woken p hq ha hr hs hi =>
      refine .woken (pre ++ p) (hpre.append hq) ?_ hr hs hi
      rw [Polled.after_acts, ha, List.append_assoc]
  | polled p own hq ha hown hr hs hi =>
      refine .polled (pre ++ p) own (hpre.append hq) ?_ hown hr hs hi
      rw [Polled.after_acts, ha, List.append_assoc]
  | overflowed hq hr hc hs hi => exact .overflowed (hpre.append hq) hr hc hs hi

/-- Seen through a part of the state that holds the inner future and the timer. -/
theorem Throttled.map {g : τ → σ} {o : Polled τ ω ν χ}
    (h : Throttled pollF (fun s => inner (g s)) (fun s => stored (g s)) chk cx f o) :
    Throttled pollF inner stored chk cx f (o.map g) := by
  cases h with
  | waiting p sl hq ha hr hs hw hi => exact .waiting p sl hq ha hr hs hw hi
  | woken p hq ha hr hs hi => exact .woken p hq ha hr hs hi
  | polled p own hq ha hown hr hs hi => exact .polled p own hq ha hown hr hs hi
  | overflowed hq hr hc hs hi => exact .overflowed hq hr hc hs hi

/-- Only overflow panics, and only in a build that checks for it. -/
theorem Throttled.panic (h : Throttled pollF inner stored chk cx f o) {why : Panic}
    (hp : o.res = .panicked why) : why = .overflow ∧ chk = true := by
  cases h with
  | waiting _ _ _ _ hr => rw [hr] at hp; exact absurd hp (by simp)
  | woken _ _ _ hr => rw [hr] at hp; exact absurd hp (by simp)
  | polled _ _ _ _ _ hr =>
      rcases hr with hr | ⟨hr, hc⟩
      · rw [hr] at hp
        cases hv : (pollF f cx).2 with
        | ready v => rw [hv] at hp; exact absurd hp (by simp [Poll.outcome])
        | pending => rw [hv] at hp; exact absurd hp (by simp [Poll.outcome])
      · rw [hr] at hp; injection hp with hp; exact ⟨hp.symm, hc⟩
  | overflowed _ hr hc => rw [hr] at hp; injection hp with hp; exact ⟨hp.symm, hc⟩

/-- A `ready` answer of the inner future is the answer of the poll. -/
def Delivers (o : Polled σ ω ν χ) : Prop :=
  ∀ c v, (c, Poll.ready v) ∈ innerPolls o.acts → o.res = .ready v

theorem delivers_of_unpolled (h : innerPolls o.acts = []) : Delivers o := by
  intro c v hm
  rw [h] at hm
  exact absurd hm List.not_mem_nil

theorem delivers_of_pending {c : Cx ω} (h : innerPolls o.acts = [(c, .pending)]) : Delivers o := by
  intro c' v hm
  rw [h] at hm
  exact absurd (congrArg Prod.snd (List.mem_singleton.mp hm)) (by simp)

theorem delivers_of_ready {c : Cx ω} {v : ν} (h : innerPolls o.acts = [(c, .ready v)])
    (hr : o.res = .ready v) : Delivers o := by
  intro c' v' hm
  rw [h] at hm
  have hv : Poll.ready v' = Poll.ready v := congrArg Prod.snd (List.mem_singleton.mp hm)
  injection hv with hv
  rw [hv]
  exact hr

theorem Delivers.after (h : Delivers o) {pre : List (Act ω ν χ)} (hpre : innerPolls pre = []) :
    Delivers (o.after pre) := by
  intro c v hm
  rw [Polled.after_acts, innerPolls_append, hpre] at hm
  exact h c v hm

/-- Where nothing panics, every answer is delivered. -/
theorem Throttled.delivers (h : Throttled pollF inner stored chk cx f o)
    (hret : ∀ why, o.res ≠ .panicked why) : Delivers o := by
  cases h with
  | waiting p sl hq ha hr hs hw hi =>
      exact delivers_of_unpolled (by rw [ha, innerPolls_append, hq.1]; rfl)
  | woken p hq ha hr hs hi =>
      exact delivers_of_unpolled (by rw [ha, innerPolls_append, hq.1]; rfl)
  | overflowed hq hr hc hs hi => exact delivers_of_unpolled hq.1
  | polled p own hq ha hown hr hs hi =>
      intro c v hm
      rw [ha, innerPolls_append, hq.1, innerPolls_innerPolled, innerPolls_own_map] at hm
      have hv : (pollF f cx).2 = .ready v := (congrArg Prod.snd (List.mem_singleton.mp hm)).symm
      rcases hr with hr | ⟨hr, _⟩
      · rw [hr, hv]; rfl
      · exact absurd hr (hret _)

/-- **A throttling wrapper that delivers is transparent.** -/
theorem Throttled.transparent_iff (h : Throttled pollF inner stored chk cx f o) :
    TransparentPoll pollF inner f o ↔ Delivers o := by
  refine ⟨fun ht c v hm => (ht.ready v).mpr ⟨c, hm⟩, fun hd => ?_⟩
  -- three of the four cases leave the inner future alone and are not ready
  have idle : innerPolls o.acts = [] → inner o.next = f → (∀ v, o.res ≠ .ready v) →
      TransparentPoll pollF inner f o := by
    intro hacts hi hres
    refine ⟨.inl ⟨hacts, hi⟩, fun v => ⟨fun hv => absurd hv (hres v), ?_⟩, fun _ => hacts⟩
    rintro ⟨c, hc⟩
    rw [hacts] at hc; exact absurd hc (by simp)
  cases h with
  | waiting p sl hq ha hr hs hw hi =>
      exact idle (by rw [ha, innerPolls_append, hq.1]; rfl) hi (by rw [hr]; simp)
  | woken p hq ha hr hs hi =>
      exact idle (by rw [ha, innerPolls_append, hq.1]; rfl) hi (by rw [hr]; simp)
  | overflowed hq hr hc hs hi => exact idle hq.1 hi (by rw [hr]; simp)
  | polled p own hq ha hown hr hs hi =>
      have hacts : innerPolls o.acts = [(cx, (pollF f cx).2)] := by
        rw [ha, innerPolls_append, hq.1, innerPolls_innerPolled, innerPolls_own_map]; rfl
      refine ⟨.inr ⟨cx, hacts, hi⟩, fun v => ⟨fun hv => ?_, fun ⟨c, hc⟩ => hd c v hc⟩, ?_⟩
      · refine ⟨cx, ?_⟩
        rw [hacts]
        rcases hr with hr | ⟨hr, _⟩
        · rw [hr] at hv
          cases hres : (pollF f cx).2 with
          | ready x =>
              rw [hres] at hv
              injection hv with hv
              rw [hv]
              exact List.mem_cons_self
          | pending => rw [hres] at hv; exact absurd hv (by simp [Poll.outcome])
        · rw [hr] at hv; exact absurd hv (by simp)
      · rintro ⟨w, hw⟩
        rw [ha] at hw
        rcases List.mem_append.mp hw with hw | hw
        · exact absurd hw (hq.2 w)
        · exact absurd hw (by simp)

/-- **A throttling wrapper never loses a wake-up.** -/
theorem Throttled.armed (h : Throttled pollF inner stored chk cx f o) :
    ArmedPoll stored cx.waker o := by
  have hun : o.res ≠ .panicked .unwrap := fun hp => absurd (h.panic hp).1 (by simp)
  have of : ∀ src, ArmedBy stored cx.waker o src → ∃! s, ArmedBy stored cx.waker o s :=
    fun src harm => ⟨src, harm, fun _ h' => h'.unique harm⟩
  have none_fresh : stored o.next = none →
      ∀ sl, stored o.next = some sl → sl.waker = some cx.waker := by
    intro hn sl hsl; rw [hn] at hsl; exact absurd hsl (by simp)
  cases h with
  | waiting p sl hq ha hr hs hw hi =>
      refine ⟨fun _ => of .storedSleep ⟨by rw [ha]; simp, sl, hs, hw⟩, ?_, hun⟩
      intro sl' h'
      rw [hs] at h'; injection h' with h'
      exact h' ▸ hw
  | woken p hq ha hr hs hi =>
      exact ⟨fun _ => of .itself ⟨⟨p, ha⟩, hs⟩, none_fresh hs, hun⟩
  | overflowed hq hr hc hs hi =>
      exact ⟨fun hp => absurd hp (by rw [hr]; simp), none_fresh hs, hun⟩
  | polled p own hq ha hown hr hs hi =>
      refine ⟨fun hp => of .inner ⟨⟨cx.world, ?_⟩, hs⟩, none_fresh hs, hun⟩
      have hv : (pollF f cx).2 = .pending := by
        rcases hr with hr | ⟨hr, _⟩
        · rw [hr] at hp
          cases hv : (pollF f cx).2 with
          | ready v => rw [hv] at hp; exact absurd hp (by simp [Poll.outcome])
          | pending => rfl
        · rw [hr] at hp; exact absurd hp (by simp)
      rw [ha, hown hp, hv]; simp

end

end Async
