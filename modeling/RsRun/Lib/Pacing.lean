import Mathlib.Algebra.Ring.Nat
import Mathlib.Tactic.Ring
import RsRun.Lib.Lists

/-!
# Activities one after the other, with a pause in between

`bs` are the moments at which activities began and `es` those at which they ended. If
the next one begins no earlier than a `pause` after the last one ended, and the first
no earlier than `first`, then every one of them begins no earlier than `first`, the
pauses before it and the time that was taken by those before it.
-/

namespace Pacing

/-- The time taken by the activities that have ended. -/
def busy (bs es : List Nat) : Nat := ((bs.zip es).map (fun c => c.2 - c.1)).sum

/-- Every activity begins late enough. -/
def Paced (first pause : Nat) (bs es : List Nat) : Prop :=
  ∀ k b, bs[k]? = some b → first + k * pause + busy (bs.take k) (es.take k) ≤ b

/-- What has happened by `now`. -/
structure History (first pause now : Nat) (bs es : List Nat) : Prop where
  paced : Paced first pause bs es
  /-- An activity ends after it began. -/
  ended : ∀ (k b e : Nat), bs[k]? = some b → es[k]? = some e → b ≤ e
  /-- The next one begins after it ended. -/
  apart : ∀ (k e b : Nat), es[k]? = some e → bs[k + 1]? = some b → e ≤ b
  begins : ∀ b ∈ bs, b ≤ now
  ends : ∀ e ∈ es, e ≤ now

variable {first pause now now' : Nat} {bs es : List Nat}

theorem history_nil : History first pause now [] [] where
  paced := by intro k b h; exact absurd h (by simp)
  ended := by intro k b e h; exact absurd h (by simp)
  apart := by intro k e b h; exact absurd h (by simp)
  begins := by intro b h; exact absurd h List.not_mem_nil
  ends := by intro e h; exact absurd h List.not_mem_nil

/-- Time goes on. -/
theorem History.mono (h : History first pause now bs es) (hle : now ≤ now') :
    History first pause now' bs es where
  paced := h.paced
  ended := h.ended
  apart := h.apart
  begins := fun b hb => Nat.le_trans (h.begins b hb) hle
  ends := fun e he => Nat.le_trans (h.ends e he) hle

theorem busy_snoc (hlen : bs.length = es.length) (b e : Nat) :
    busy (bs ++ [b]) (es ++ [e]) = busy bs es + (e - b) := by
  unfold busy
  rw [List.zip_append hlen, List.map_append, List.sum_append]
  rfl

/-- An activity begins, when it is due. -/
theorem History.begin (h : History first pause now bs es) (hlen : bs.length = es.length)
    (hdue : first + bs.length * pause + busy bs es ≤ now) :
    History first pause now (bs ++ [now]) es where
  paced := by
    intro k b hb
    rcases Lists.getElem?_snoc_cases hb with hold | ⟨hk, hnow⟩
    · obtain ⟨hlt, _⟩ := List.getElem?_eq_some_iff.mp hold
      rw [List.take_append_of_le_length (Nat.le_of_lt hlt)]
      exact h.paced k b hold
    · rw [hk, hnow, List.take_left, hlen, List.take_length, ← hlen]
      exact hdue
  ended := by
    intro k b e hb he
    rcases Lists.getElem?_snoc_cases hb with hold | ⟨hk, _⟩
    · exact h.ended k b e hold he
    · obtain ⟨hlt, _⟩ := List.getElem?_eq_some_iff.mp he
      omega
  apart := by
    intro k e b he hb
    rcases Lists.getElem?_snoc_cases hb with hold | ⟨_, hnow⟩
    · exact h.apart k e b he hold
    · rw [hnow]
      exact h.ends e (List.mem_of_getElem? he)
  begins := Lists.forall_mem_snoc h.begins (Nat.le_refl now)
  ends := h.ends

/-- The activity that is going on ends. -/
theorem History.finish (h : History first pause now bs es) (hlen : bs.length = es.length + 1) :
    History first pause now bs (es ++ [now]) where
  paced := by
    intro k b hb
    obtain ⟨hlt, _⟩ := List.getElem?_eq_some_iff.mp hb
    rw [List.take_append_of_le_length (by omega)]
    exact h.paced k b hb
  ended := by
    intro k b e hb he
    rcases Lists.getElem?_snoc_cases he with hold | ⟨_, hnow⟩
    · exact h.ended k b e hb hold
    · rw [hnow]
      exact h.begins b (List.mem_of_getElem? hb)
  apart := by
    intro k e b he hb
    rcases Lists.getElem?_snoc_cases he with hold | ⟨hk, _⟩
    · exact h.apart k e b hold hb
    · obtain ⟨hlt, _⟩ := List.getElem?_eq_some_iff.mp hb
      omega
  begins := h.begins
  ends := Lists.forall_mem_snoc h.ends (Nat.le_refl now)

/-- From then on the next one is due a pause later. -/
theorem History.due (h : History first pause now bs es) (hlen : bs.length = es.length + 1) :
    first + bs.length * pause + busy bs (es ++ [now]) ≤ now + pause := by
  obtain ⟨bs', b, rfl⟩ : ∃ bs' b, bs = bs' ++ [b] := by
    rcases List.eq_nil_or_concat bs with rfl | ⟨bs', b, hbs⟩
    · exact absurd hlen (by simp)
    · exact ⟨bs', b, by rw [hbs, List.concat_eq_append]⟩
  have hlen' : bs'.length = es.length := by
    rw [List.length_append, List.length_singleton] at hlen
    omega
  have hpaced := h.paced bs'.length b (by simp)
  rw [List.take_left, hlen', List.take_length] at hpaced
  have hpast : b ≤ now := h.begins b (by simp)
  rw [busy_snoc hlen', List.length_append, List.length_singleton, hlen', Nat.add_mul, Nat.one_mul]
  omega

end Pacing
