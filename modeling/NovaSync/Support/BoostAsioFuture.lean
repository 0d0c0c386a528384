/-
**`async_acquire(ioc, mtx)` with a future: who holds the promise.**

The operation is a closure in `*do_wait` that starts a wait, and the completion handler of the wait that
is outstanding. The closure hands its promise to each handler it makes; a handler whose `try_acquire`
fails calls the closure again and is then destroyed. A promise that is destroyed unset breaks its
future.

* `run_retries_moved` — a closure that moves the promise away has none for the second handler, and the
  destruction of the first handler breaks the future.
* `asyncAcquire_fulfils_iff` — the future is fulfilled after `k` failed attempts only for `k = 0`.
* `copiedPointer_fulfils` — the closures of the event and semaphore operations without
  `std::move_only_function` copy a shared pointer, and fulfil their futures for every `k`.
-/

import Mathlib.Tactic.Common

namespace NovaSync.BoostAsioFuture

/-! ### The operation -/

/-- What a `do_wait` closure gives to a completion handler. -/
inductive Capture
  /-- `promise = std::move( promise )`, a `std::promise`. -/
  | promise
  /-- `promise = std::move( promise )`, a `std::shared_ptr` to the promise. -/
  | movedPointer
  /-- `promise`, a copy of a `std::shared_ptr` to the promise. -/
  | copiedPointer
deriving DecidableEq, Repr

/-- The two implementations of `async_acquire( ioc, mtx )`, with `std::move_only_function` and with
`std::function`. -/
inductive Branch
  | moveOnlyFunction
  | function
deriving DecidableEq, Repr

def Branch.capture : Branch → Capture
  | .moveOnlyFunction => .promise
  | .function => .movedPointer

/-- The state that the promise shares with the future. -/
inductive SharedState
  | unset
  | value
  | broken
deriving DecidableEq, Repr

/-- Who holds `mtx` on behalf of the operation: nobody, the running handler, or the `unique_lock` in the
shared state. -/
inductive Owner
  | nobody
  | handler
  | future
deriving DecidableEq, Repr

/-- How `set_value` fails: on a moved-from promise, through a moved-from pointer, on a promise that is
already satisfied. -/
inductive Fault
  | noState
  | nullPointer
  | alreadySatisfied
deriving DecidableEq, Repr

/-- `closure` and `handler` say whether the closure in `*do_wait` and the handler of the outstanding wait
hold the promise, or a pointer to it; `guard` whether the `async_waiter_guard` is active. `fulfilled` is
a history variable: the successful calls of `set_value`. -/
structure Operation where
  closure : Bool
  handler : Option Bool
  guard : Bool := true
  state : SharedState := .unset
  owner : Owner := .nobody
  fulfilled : ℕ := 0
  fault : Option Fault := none
deriving DecidableEq, Repr

/-- How a wait completes: with an error, or without one and `try_acquire` fails or succeeds. -/
inductive Fire
  | error
  | retry
  | acquired
deriving DecidableEq, Repr

namespace Operation

/-- `std::invoke( *do_wait )`: a new handler takes what the closure has; a moved-from closure keeps
nothing. -/
def invokeDoWait (capture : Capture) (operation : Operation) : Operation :=
  { operation with
    handler := some operation.closure
    closure := match capture with
      | .promise | .movedPointer => false
      | .copiedPointer => operation.closure }

/-- A holder is destroyed; if it was the last one of an unset promise, the promise is broken. -/
def destroy (held : Bool) (operation : Operation) : Operation :=
  if held ∧ operation.closure = false ∧ operation.handler ≠ some true ∧ operation.state = .unset then
    { operation with state := .broken }
  else operation

/-- `promise.set_value( std::unique_lock( mtx, std::adopt_lock ) )`. When it throws, the `unique_lock` is
destroyed and unlocks. -/
def setValue (capture : Capture) (held : Bool) (operation : Operation) : Operation :=
  if held then
    match operation.state with
    | .unset =>
        { operation with state := .value, owner := .future, fulfilled := operation.fulfilled + 1 }
    | .value | .broken => { operation with owner := .nobody, fault := some .alreadySatisfied }
  else
    match capture with
    | .promise => { operation with owner := .nobody, fault := some .noState }
    | .movedPointer | .copiedPointer => { operation with fault := some .nullPointer }

/-- The completion handler runs, and is destroyed. It resets `*do_wait` unless it waits again or
throws. -/
def callback (capture : Capture) (operation : Operation) (fire : Fire) : Option Operation :=
  operation.handler.map fun held =>
    let running := { operation with handler := none }
    match fire with
    | .error => { running with guard := false, closure := false }.destroy (held || operation.closure)
    | .retry => (running.invokeDoWait capture).destroy held
    | .acquired =>
        let set := { running with guard := false, owner := .handler }.setValue capture held
        if set.fault = none then { set with closure := false } else set.destroy held

end Operation

/-- The operation after `async_acquire` has returned; `acquired` says whether its first `try_lock`
succeeded. -/
def asyncAcquire (capture : Capture) (acquired : Bool) : Operation :=
  if acquired then
    { closure := false, handler := none, guard := false, state := .value, owner := .future,
      fulfilled := 1 }
  else { closure := true, handler := none : Operation }.invokeDoWait capture

/-- The operation after its waits have completed as the list says; the `io_context` runs each handler
once. -/
def run (capture : Capture) (fires : List Fire) : Option Operation :=
  fires.foldlM (Operation.callback capture) (asyncAcquire capture false)

/-- **The future is fulfilled after `k` failed attempts**: the outstanding handler holds the promise, and
the attempt that succeeds sets it, once, to a `unique_lock` that owns `mtx`. -/
def Fulfils (capture : Capture) (k : ℕ) : Prop :=
  ∃ before after, run capture (List.replicate k .retry) = some before ∧ before.handler = some true ∧
    before.callback capture .acquired = some after ∧ after.state = .value ∧ after.owner = .future ∧
    after.fulfilled = 1 ∧ after.fault = none

/-! ### Retries -/

theorem run_replicate_succ (capture : Capture) (k : ℕ) :
    run capture (List.replicate (k + 1) .retry) =
      (run capture (List.replicate k .retry)).bind fun operation =>
        operation.callback capture .retry := by
  unfold run
  rw [List.replicate_succ', List.foldlM_append]
  simp

/-- **A moved promise is gone after the first retry**: no handler has it any more, and the future is
broken. -/
theorem run_retries_moved {capture : Capture} (moves : capture ≠ .copiedPointer) (k : ℕ) :
    run capture (List.replicate (k + 1) .retry) =
      some { closure := false, handler := some false, state := .broken } := by
  induction k with
  | zero =>
    cases capture with
    | promise | movedPointer => rfl
    | copiedPointer => exact absurd rfl moves
  | succ k ih =>
    rw [run_replicate_succ, ih, Option.bind_some]
    cases capture with
    | promise | movedPointer => rfl
    | copiedPointer => exact absurd rfl moves

/-- A copied pointer is with the closure and with every handler. -/
theorem run_retries_copied (k : ℕ) : run .copiedPointer (List.replicate k .retry) =
    some { closure := true, handler := some true } := by
  induction k with
  | zero => rfl
  | succ k ih =>
    rw [run_replicate_succ, ih, Option.bind_some]
    rfl

theorem not_fulfils_succ {capture : Capture} (moves : capture ≠ .copiedPointer) (k : ℕ) :
    ¬ Fulfils capture (k + 1) := by
  rintro ⟨before, after, reached, held, -⟩
  rw [run_retries_moved moves k] at reached
  cases reached
  cases held

theorem Branch.capture_ne (branch : Branch) : branch.capture ≠ .copiedPointer := by
  cases branch <;> nofun

/-- **The future of `async_acquire( ioc, mtx )` survives no retry**, in either implementation. -/
theorem asyncAcquire_fulfils_iff (branch : Branch) (k : ℕ) : Fulfils branch.capture k ↔ k = 0 := by
  constructor
  · intro fulfils
    cases k with
    | zero => rfl
    | succ k => exact absurd fulfils (not_fulfils_succ branch.capture_ne k)
  · rintro rfl
    cases branch with
    | moveOnlyFunction => exact ⟨_, _, rfl, rfl, rfl, rfl, rfl, rfl, rfl⟩
    | function => exact ⟨_, _, rfl, rfl, rfl, rfl, rfl, rfl, rfl⟩

/-- **One spurious wakeup breaks the promise.** -/
theorem asyncAcquire_promise_broken : ¬ ∀ (branch : Branch) (k : ℕ), Fulfils branch.capture k := by
  intro fulfils
  exact not_fulfils_succ (Branch.capture_ne .function) 0 (fulfils .function 1)

/-- What the successful attempt then does: it throws `no_state` and unlocks, or goes through a null
pointer. -/
example : ((run .promise [.retry, .acquired]).map fun operation => (operation.fault, operation.owner)) =
    some (some .noState, .nobody) := by decide

/-- **A copied pointer fulfils the future after any number of retries.** -/
theorem copiedPointer_fulfils (k : ℕ) : Fulfils .copiedPointer k :=
  ⟨_, _, run_retries_copied k, rfl, rfl, rfl, rfl, rfl, rfl⟩

end NovaSync.BoostAsioFuture
