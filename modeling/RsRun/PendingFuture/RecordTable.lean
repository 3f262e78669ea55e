import Mathlib.Algebra.Field.Rat
import Mathlib.Logic.Function.Basic
import RsRun.Lib.Lts
import RsRun.Lib.Window
import RsRun.PendingFuture.ModeCount

/-!
# `EACH_FUTURE_RECORD`: the records of completed futures

A map from the type of a future to a rate and a window of records, each behind an `Arc`.
A completing poll looks its type up under the read lock. If there is an entry, it goes
on to update it under the mutex of the window, still with the read lock; if not, it lets
go of the read lock and inserts an entry under the write lock. Rates are exact.
-/

namespace RsRun.RecordTable

open ModeCount

/-- An entry: the `Arc<AtomicF64>`, and the `Arc<Mutex<VecDeque<OneFutureRecord>>>`. -/
structure Cell where
  rate : ℚ
  deque : List OneFutureRecord
  /-- The completing poll that holds the mutex. -/
  holder : Option Nat
deriving DecidableEq

/-- How far a completing poll has come. -/
inductive Phase where
  /-- Its record is made. -/
  | called
  /-- It holds the read lock, and has cloned the entry. -/
  | found (i : Nat)
  /-- It holds the mutex as well. -/
  | locked (i : Nat)
  /-- It has pushed its record, and not published the rate yet. -/
  | pushed (i : Nat)
  /-- There was no entry, and it let go of the read lock. -/
  | missed
  | done
deriving DecidableEq, Repr

/-- The entry that is being worked on, as long as the read lock is held. -/
def Phase.entry : Phase → Option Nat
  | .found i => some i
  | .locked i => some i
  | .pushed i => some i
  | _ => none

/-- Is the record in a window? -/
def Phase.recorded : Phase → Bool
  | .pushed _ => true
  | .done => true
  | _ => false

/-- A completing poll of a future of type `ty`. -/
structure Completion (τ : Type*) where
  ty : τ
  record : OneFutureRecord
  phase : Phase
deriving DecidableEq

/-- The map, the entries there have ever been, and all completing polls so far. -/
structure World (τ : Type*) where
  table : τ → Option Nat
  cells : List Cell
  completions : List (Completion τ)

/-- What can happen; a completing poll is known by the position it began in. -/
inductive Action (τ : Type*) where
  | complete (ty : τ) (record : OneFutureRecord)
  /-- `read`, and `get`. -/
  | look (c : Nat)
  /-- `records_.1.lock()`. -/
  | lock (c : Nat)
  /-- `push_back`, and `pop_front` when there are more than ten. -/
  | push (c : Nat)
  /-- `swap`, and the end of both locks. -/
  | publish (c : Nat)
  /-- `write`, and `insert`. -/
  | insert (c : Nat)

/-- A record of a future of type `ty` goes into a window. -/
structure Event (τ : Type*) where
  ty : τ
  record : OneFutureRecord
deriving DecidableEq

/-- `v.cpu_micro as f64 / v.total_micro as f64`. -/
def cpuRate (record : OneFutureRecord) : ℚ := (record.cpuMicro : ℚ) / (record.totalMicro : ℚ)

/-- `records.iter().map(cpu_rate).sum() / records.len()`. -/
def meanRate (records : List OneFutureRecord) : ℚ :=
  (records.map cpuRate).sum / (records.length : ℚ)

section
variable {τ : Type*}

/-- A completing poll goes on to `phase`. -/
def World.goto (w : World τ) (c : Nat) (x : Completion τ) (phase : Phase) : World τ :=
  { w with completions := w.completions.set c { x with phase := phase } }

/-- One entry is rewritten. -/
def World.setCell (w : World τ) (i : Nat) (cell : Cell) : World τ :=
  { w with cells := w.cells.set i cell }

/-- Nobody holds the read lock. -/
def World.noReader (w : World τ) : Bool := w.completions.all (fun x => x.phase.entry.isNone)

/-- One step. -/
def step [DecidableEq τ] (w : World τ) : Action τ → Option (World τ × List (Event τ))
  | .complete ty record =>
      some ({ w with completions := w.completions ++
        [{ ty := ty, record := record, phase := .called }] }, [])
  | .look c =>
      match w.completions[c]? with
      | some x =>
          if x.phase = .called then
            match w.table x.ty with
            | some i => some (w.goto c x (.found i), [])
            -- `drop(each_future_record)`
            | none => some (w.goto c x .missed, [])
          else none
      | none => none
  | .lock c =>
      match w.completions[c]? with
      | some x =>
          match x.phase with
          | .found i =>
              match w.cells[i]? with
              | some cell =>
                  if cell.holder = none then
                    some ((w.setCell i { cell with holder := some c }).goto c x (.locked i), [])
                  else none
              | none => none
          | _ => none
      | none => none
  | .push c =>
      match w.completions[c]? with
      | some x =>
          match x.phase with
          | .locked i =>
              match w.cells[i]? with
              | some cell =>
                  some ((w.setCell i { cell with
                    deque := Window.push 10 cell.deque x.record }).goto c x (.pushed i),
                    [{ ty := x.ty, record := x.record }])
              | none => none
          | _ => none
      | none => none
  | .publish c =>
      match w.completions[c]? with
      | some x =>
          match x.phase with
          | .pushed i =>
              match w.cells[i]? with
              | some cell =>
                  some ((w.setCell i { cell with
                    rate := meanRate cell.deque
                    holder := none }).goto c x .done, [])
              | none => none
          | _ => none
      | none => none
  | .insert c =>
      match w.completions[c]? with
      | some x =>
          -- the write lock waits for every reader
          if x.phase = .missed ∧ w.noReader = true then
            some ({ w.goto c x .done with
              table := Function.update w.table x.ty (some w.cells.length)
              cells := w.cells ++
                [{ rate := cpuRate x.record, deque := [x.record], holder := none }] },
              [{ ty := x.ty, record := x.record }])
          else none
      | none => none

/-- All completions there can be, of futures of any types. -/
def system (τ : Type*) [DecidableEq τ] : Lts (World τ) (Action τ) (Event τ) where
  init := { table := fun _ => none, cells := [], completions := [] }
  step := step

end

end RsRun.RecordTable
