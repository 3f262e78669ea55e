import RsRun.Lib.Lts
import RsRun.Lib.RefCount
import RsRun.PendingFuture.ModeRatelimiter

/-!
# Clones of rate-limiter handles, and the futures they are moved into

A program makes `RateLimiterRuntimeHandle`s, clones them, moves clones into
`PendingFuture`s, polls these, and drops both. A variable holds a clone, or a future with
the clone that was moved into it; `PendingFuture::new` takes the handle by value, so the
future stands where the clone stood. A future that completes or is aborted is dropped by
whoever polled it, and its clone with it.

The inner futures may be of different types: `φ` is whatever holds them all. The limiters
are parameters as in `ModeRatelimiter`, and their own time passes between the steps.
-/

namespace RsRun.HandleSystem

open Async ModeRatelimiter

variable {φ ω ν L : Type*}

/-- What a variable holds, and the memory its handle refers to. -/
inductive Slot (φ : Type*) where
  | handle (memory : Nat) (handle : RateLimiterRuntimeHandle)
  | future (memory : Nat) (this : PendingFuture φ)

/-- The memory that the clone in a slot refers to. -/
def Slot.memory : Slot φ → Nat
  | .handle memory _ => memory
  | .future memory _ => memory

/-- The memory of every `new` so far, and the program's variables. -/
structure World (L φ : Type*) where
  memories : List (Shared L)
  slots : List (Option (Slot φ))

/-- How many clones refer to a memory. -/
def World.clones (w : World L φ) (m : Nat) : Nat := RefCount.shares Slot.memory m w.slots

/-- What can happen. -/
inductive Action (L φ ω : Type*) where
  /-- `RateLimiterRuntimeHandle::new`, with a limiter that starts like this. -/
  | new (p : Priority) (limiter : L)
  | clone (r : Nat)
  /-- `PendingFuture::new` with the handle in slot `r`. -/
  | wrap (r : Nat) (future : φ)
  | poll (r : Nat) (env : Env ω)
  /-- Time passes for the limiter of a memory. -/
  | refill (m : Nat) (limiter : L)
  /-- What is in slot `r` goes out of scope, and a clone with it. -/
  | drop (r : Nat)

/-- The variable `r` goes out of scope. -/
def World.release (w : World L φ) (r : Nat) (slot : Slot φ) : World L φ :=
  { memories := w.memories.modify slot.memory Shared.drop
    slots := w.slots.set r none }

/-- One step. -/
def step (chk : Bool) (pollF : φ → Cx ω → φ × Poll ν) (tryWait : Limiter L) (w : World L φ) :
    Action L φ ω → Option (World L φ × List (Act ω ν TryWait))
  | .new p limiter =>
      some ({ memories := w.memories ++ [Shared.new limiter]
              slots := w.slots
                ++ [some (.handle w.memories.length (RateLimiterRuntimeHandle.new p))] }, [])
  | .clone r =>
      match w.slots[r]? with
      | some (some (.handle m handle)) =>
          some ({ w with slots := w.slots ++ [some (.handle m handle)] }, [])
      | _ => none
  | .wrap r future =>
      match w.slots[r]? with
      | some (some (.handle m handle)) =>
          some ({ w with
            slots := w.slots.set r (some (.future m (PendingFuture.new handle future))) }, [])
      | _ => none
  | .poll r env =>
      match w.slots[r]? with
      | some (some (.future m this)) =>
          match w.memories[m]? with
          | none => none
          | some sh =>
              let o := poll chk pollF tryWait sh this env
              some ({ memories := w.memories.set m o.next.1
                      slots := w.slots.set r (some (.future m o.next.2)) }, o.acts)
      | _ => none
  | .refill m limiter =>
      match w.memories[m]? with
      | none => none
      | some sh => some ({ w with memories := w.memories.set m { sh with limiter := limiter } }, [])
  | .drop r =>
      match w.slots[r]? with
      | some (some slot) => some (w.release r slot, [])
      | _ => none

/-- A program that has done nothing yet. -/
def system (chk : Bool) (pollF : φ → Cx ω → φ × Poll ν) (tryWait : Limiter L) :
    Lts (World L φ) (Action L φ ω) (Act ω ν TryWait) where
  init := { memories := [], slots := [] }
  step := step chk pollF tryWait

end RsRun.HandleSystem
