import Mathlib.Data.List.Basic

/-!
# Errors
-/

namespace RsRun

/-- Why a joined task did not return. -/
inductive JoinError where
  | panic
  | cancelled
deriving DecidableEq, Repr

/-- `Error`, without the source locations. -/
inductive Error where
  | buildRuntime
  | illegalState (name : String)
  | waitGcTaskStop (name : String) (error : JoinError)
deriving DecidableEq, Repr

/-- The text an error is displayed as. -/
def Error.display : Error → String
  | .buildRuntime => "Failed to build runtime"
  | .illegalState name => "Repeated task " ++ name ++ " is already started"
  | .waitGcTaskStop name _ => "Failed to wait for repeated task " ++ name ++ " to stop"

/-- How a call ends: it returns a value or an error, or it panics. -/
inductive Ret (α : Type*) where
  | ok (val : α)
  | err (error : Error)
  | panicked
deriving DecidableEq, Repr

end RsRun
