import Mathlib.Tactic.TypeStar

/-!
# `util/observedroutines.go`: reports of the running goroutines

`RoutineReport.Report` offers an error on the unbuffered channel `Send_error_c` and gives up after
100 ms.  The persistor is handed a closure that does the same send without the timeout.
-/

namespace Jens

/-- `util.ErrorLevel`. -/
inductive ErrorLevel
  | info
  | warn
  | fatal
  deriving DecidableEq, Repr

/-- A goroutine standing at its send on `Send_error_c`. -/
structure Report where
  level : ErrorLevel
  /-- Offered by `RoutineReport.Report`, which gives up after 100 ms. -/
  timesOut : Bool
  deriving DecidableEq, Repr

end Jens
