/-
**`detail/backoff.hpp`: the exponential backoff of the spin phases.**

`run_with_exponential_backoff_until` calls a functor until it succeeds or the backoff has doubled up
to `spin_limit`. The functor's own atomic operations are steps of its caller, so the helper is the
loop around one call: `afterCall` says what the loop does with the functor's result.
-/

import Mathlib.Tactic.Common

namespace NovaSync.Detail

/-- `exponential_backoff`: the number of pauses of the next `run`. -/
structure ExponentialBackoff where
  backoff : ℕ := 2
deriving DecidableEq, Repr

/-- `exponential_backoff::spin_limit`, `1 << 14`. -/
def spinLimit : ℕ := 1 <<< 14

/-- `exponential_backoff::run`: pause and double, or yield once the limit is reached. -/
def ExponentialBackoff.run (state : ExponentialBackoff) : ExponentialBackoff :=
  if state.backoff < spinLimit then { backoff := state.backoff * 2 } else state

/-- `backoff_result`. -/
inductive BackoffResult
  | success
  | retry
  | retryWithoutBackoff
deriving DecidableEq, Repr

/-- What `run_with_exponential_backoff_until` does after a call of its functor. -/
inductive SpinLoop
  | returned (success : Bool)
  | again (state : ExponentialBackoff)
deriving DecidableEq, Repr

/-- The `while` test at the foot of the loop; `continue` reaches it too. -/
def spinTest (state : ExponentialBackoff) : SpinLoop :=
  if state.backoff < spinLimit then .again state else .returned false

/-- The `switch` over the functor's result. -/
def afterCall (state : ExponentialBackoff) : BackoffResult → SpinLoop
  | .success => .returned true
  | .retryWithoutBackoff => spinTest state
  | .retry => spinTest state.run

/-- The helper returns `true` only on a call that succeeded. -/
theorem afterCall_returned_true {state : ExponentialBackoff} {result : BackoffResult}
    (returned : afterCall state result = .returned true) : result = .success := by
  cases result with
  | success => rfl
  | retry =>
    simp only [afterCall, spinTest] at returned
    split at returned <;> cases returned
  | retryWithoutBackoff =>
    simp only [afterCall, spinTest] at returned
    split at returned <;> cases returned

end NovaSync.Detail
