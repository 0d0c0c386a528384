/-
**The Qt operations that cannot be cancelled: who keeps them alive until the handler is called.**

`start()` tries once, and hands the object on to a posted functor or to the connection of a notifier; an
activation of the notifier tries again, and posts the functor or enables the notifier once more. There is no
handle: the object lives as long as the running call, the connection or the functor holds a `shared_ptr`.
Where the native handle is duplicated for the notifier, a `dup` that fails ends `start()` with neither.

* `Operation` — the object, its notifier, and the functors on their way to the handler.
* `Sound` — the invariant: the duty to call the handler lies with exactly one of them, unless a `dup` has
  failed.
* `qtOperation_calls_handler_once` — when the last pointer goes the handler has been called once, if and only
  if no `dup` has failed; `qtOperation_dropped_by_dup` is a run in which it has not been called.
-/

import NovaSync.Concurrency.Transition

set_option linter.unusedSectionVars false

namespace NovaSync.QtOperations

open Concurrency

/-! ### The operations -/

/-- `qt_acquire_op`, `qt_semaphore_acquire_op`, `qt_event_wait_op`. -/
inductive Kind
  | mutex
  | semaphore
  | event
deriving DecidableEq, Repr

/-- Linux and macOS duplicate the handle for a `QSocketNotifier`; Windows gives it to a
`QWinEventNotifier` as it is. -/
inductive Platform
  | posix
  | windows
deriving DecidableEq, Repr

/-- The next access of the running call.

* `startAttempt`: the attempt of `start()`; `register`: `waiter_guard_.emplace`; `arm`:
  `create_and_arm_notifier()`.
* `disable`, `attempt`, `rearm`: `on_notified()`; `unregister`: the `release()` at the end of the guard's
  `try_acquire()`; `drop`: the deletion of the notifier.
* `post`: the `invokeMethod` of `deliver_success()`. -/
inductive Point
  | idle
  | startAttempt
  | register
  | arm
  | disable
  | attempt
  | unregister
  | rearm
  | drop
  | post
deriving DecidableEq, Repr

/-- `notifier` is whether `notifier_` is enabled, if there is one; `waiterGuard` is whether the guard is
active, if there is one; `waiters` counts its registrations with the mutex; `posted` counts the functors
that will call the handler. `calls` and `dupFailed` are history: the calls of the handler, and a `dup` that
has failed. -/
structure Operation where
  running : Point := .startAttempt
  notifier : Option Bool := none
  waiterGuard : Option Bool := none
  waiters : ℕ := 0
  posted : ℕ := 0
  destroyed : Bool := false
  calls : ℕ := 0
  dupFailed : Bool := false
deriving DecidableEq, Repr

/-- No `shared_ptr` to the object is left: not in a call that runs, a connection or a functor. -/
def Unreferenced (op : Operation) : Prop :=
  op.running = .idle ∧ op.notifier = none ∧ op.posted = 0

instance (op : Operation) : Decidable (Unreferenced op) := inferInstanceAs (Decidable (_ ∧ _ ∧ _))

/-- The running call takes its next access (an attempt succeeds, and `dup` works, if `lucky`), the enabled
notifier fires, a functor calls the handler, or the last pointer goes. -/
inductive Action
  | step (lucky : Bool)
  | activate
  | runHandler
  | destroy
deriving DecidableEq, Repr

/-- `async_waiter_guard::release`. -/
def release (op : Operation) : Operation :=
  if op.waiterGuard = some true then
    { op with waiterGuard := some false, waiters := op.waiters - 1 }
  else op

/-- `create_and_arm_notifier()`. -/
def createAndArmNotifier (platform : Platform) (lucky : Bool) (op : Operation) : Operation :=
  if platform = .posix ∧ lucky = false then
    { op with dupFailed := true, running := .idle }
  else { op with notifier := some true, running := .idle }

/-- The next access of the running call. -/
def advance (kind : Kind) (platform : Platform) (lucky : Bool) (op : Operation) : Option Operation :=
  match op.running with
  | .idle => none
  | .startAttempt =>
      some { op with running :=
        if lucky then .post else if kind = .mutex then .register else .arm }
  | .register => some { op with waiterGuard := some true, waiters := op.waiters + 1, running := .arm }
  | .arm => some (createAndArmNotifier platform lucky op)
  | .disable => some { op with notifier := op.notifier.map fun _ => false, running := .attempt }
  | .attempt =>
      some { op with running :=
        if lucky then if kind = .mutex then .unregister else .drop else .rearm }
  | .unregister => some { release op with running := .drop }
  | .rearm => some { op with notifier := op.notifier.map fun _ => true, running := .idle }
  | .drop => some { op with notifier := none, running := .post }
  | .post => some { op with posted := op.posted + 1, running := .idle }

/-- The operation after an action. A functor may run inside the call that posts it or later. -/
def next (kind : Kind) (platform : Platform) (op : Operation) : Action → Option Operation
  | .step lucky => advance kind platform lucky op
  | .activate =>
      if op.running = .idle ∧ op.notifier = some true then some { op with running := .disable } else none
  | .runHandler =>
      if 0 < op.posted then some { op with posted := op.posted - 1, calls := op.calls + 1 } else none
  | .destroy =>
      if Unreferenced op ∧ op.destroyed = false then
        some { release op with waiterGuard := none, destroyed := true }
      else none

/-- An operation whose `start()` is about to run. -/
def system (kind : Kind) (platform : Platform) : System Operation Action where
  start := {}
  next := next kind platform

/-! ### The invariant -/

variable {kind : Kind} {platform : Platform}

/-- `start()` has handed the object to nobody yet. -/
def Point.starting : Point → Bool
  | .startAttempt | .register | .arm => true
  | _ => false

/-- The attempt has succeeded, and the functor is not posted yet. -/
def Point.inHand : Point → Bool
  | .unregister | .drop | .post => true
  | _ => false

/-- The running call is one of `on_notified()`, before the notifier is deleted. -/
def Point.notified : Point → Bool
  | .disable | .attempt | .unregister | .rearm | .drop => true
  | _ => false

/-- The notifier will fire, or has fired and not succeeded. -/
def Operation.watching (op : Operation) : Bool := op.notifier.isSome && !op.running.inHand

/-- **The duty to call the handler lies with one, or was lost in `dup`.** -/
structure Sound (kind : Kind) (platform : Platform) (op : Operation) : Prop where
  duty : op.running.starting.toNat + op.watching.toNat + op.running.inHand.toNat + op.posted + op.calls +
    op.dupFailed.toNat = 1
  notified : op.running.notified = true → op.notifier ≠ none
  dropped : op.running = .post → op.notifier = none
  unguarded : op.running = .startAttempt ∨ op.running = .register → op.waiterGuard = none
  registered : op.waiters = (decide (op.waiterGuard = some true)).toNat
  duplicated : platform = .windows → op.dupFailed = false
  gone : op.destroyed = true → Unreferenced op ∧ op.waiterGuard = none

theorem sound_start : Sound kind platform (system kind platform).start where
  duty := rfl
  notified running := by cases running
  dropped running := by cases running
  unguarded _ := rfl
  registered := rfl
  duplicated _ := rfl
  gone destroyed := by cases destroyed

/-- A running call keeps the object. -/
theorem Sound.alive {op : Operation} (sound : Sound kind platform op) (running : op.running ≠ .idle) :
    op.destroyed ≠ true :=
  fun destroyed => running (sound.gone destroyed).1.1

/-- `start()` has made no notifier while it runs. -/
theorem Sound.unnotified {op : Operation} (sound : Sound kind platform op)
    (starting : op.running.starting = true) : op.notifier = none := by
  have duty := sound.duty
  have quiet : op.running.inHand = false := by
    cases here : op.running <;> rw [here] at starting <;> first | rfl | cases starting
  rw [starting, Operation.watching, quiet] at duty
  cases there : op.notifier with
  | none => rfl
  | some enabled =>
    rw [there] at duty
    simp at duty
    omega

/-- `release` takes the registration away with the guard, and touches nothing else. -/
theorem Sound.release {op : Operation} (sound : Sound kind platform op) :
    ∃ waiterGuard, release op = { op with waiterGuard := waiterGuard, waiters := 0 } ∧
      waiterGuard ≠ some true := by
  have registered := sound.registered
  unfold QtOperations.release
  split
  · rename_i active
    rw [active] at registered
    refine ⟨some false, ?_, by simp⟩
    rw [registered]
    rfl
  · rename_i inactive
    refine ⟨op.waiterGuard, ?_, inactive⟩
    rw [decide_eq_false inactive] at registered
    rw [← Bool.toNat_false, ← registered]

/-- **A call that goes on**, with the duty where it was. -/
theorem Sound.moves {op : Operation} (sound : Sound kind platform op) (running : op.running ≠ .idle)
    {point : Point} {notifier waiterGuard : Option Bool} {waiters : ℕ}
    (duty : point.starting.toNat + (notifier.isSome && !point.inHand).toNat + point.inHand.toNat =
      op.running.starting.toNat + op.watching.toNat + op.running.inHand.toNat)
    (notified : point.notified = true → notifier ≠ none)
    (dropped : point = .post → notifier = none)
    (unguarded : point = .startAttempt ∨ point = .register → waiterGuard = none)
    (registered : waiters = (decide (waiterGuard = some true)).toNat) :
    Sound kind platform { op with
      running := point, notifier := notifier, waiterGuard := waiterGuard, waiters := waiters } := by
  refine { sound with
    duty := ?_
    notified := notified
    dropped := dropped
    unguarded := unguarded
    registered := registered
    gone := fun destroyed => absurd destroyed (sound.alive running) }
  have before := sound.duty
  simp only [Operation.watching] at duty before ⊢
  omega

/-- **Every access of the running call keeps the invariant.** -/
theorem Sound.advance {op after : Operation} (sound : Sound kind platform op) {lucky : Bool}
    (stepped : advance kind platform lucky op = some after) : Sound kind platform after := by
  have duty := sound.duty
  have registered := sound.registered
  have watching : op.watching = (op.notifier.isSome && !op.running.inHand) := rfl
  unfold QtOperations.advance at stepped
  cases here : op.running with
  | idle =>
    rw [here] at stepped
    cases stepped
  | startAttempt =>
    rw [here] at stepped
    cases stepped
    have none := sound.unnotified (by rw [here]; rfl)
    have free := sound.unguarded (Or.inl here)
    rw [none] at watching
    refine { sound.moves (by rw [here]; decide) ?_ ?_ ?_ (fun _ => free) registered with }
    all_goals rw [none]; cases lucky <;> cases kind <;> simp [here, watching] <;> decide
  | register =>
    rw [here] at stepped
    cases stepped
    rw [sound.unguarded (Or.inr here)] at registered
    refine sound.moves (by rw [here]; decide) ?_ (fun after => by cases after)
      (fun after => by cases after) (fun after => by rcases after with after | after <;> cases after)
      (by rw [registered]; rfl)
    rw [watching, here]
    rfl
  | arm =>
    rw [here] at stepped
    cases stepped
    have none := sound.unnotified (by rw [here]; rfl)
    rw [none, here] at watching
    rw [watching, here] at duty
    unfold createAndArmNotifier
    split
    · rename_i failed
      refine { sound with
        duty := ?_
        notified := fun after => by cases after
        dropped := fun after => by cases after
        unguarded := fun after => by rcases after with after | after <;> cases after
        duplicated := fun windows => by rw [windows] at failed; cases failed.1
        gone := fun destroyed => absurd destroyed (sound.alive (by rw [here]; decide)) }
      rw [Operation.watching, none]
      simp only [Point.starting, Point.inHand] at duty ⊢
      simp at duty ⊢
      omega
    · refine sound.moves (by rw [here]; decide) ?_ (fun after => by cases after)
        (fun after => by cases after) (fun after => by rcases after with after | after <;> cases after)
        registered
      rw [watching, here]
      rfl
  | disable =>
    rw [here] at stepped
    cases stepped
    have present := sound.notified (by rw [here]; rfl)
    refine sound.moves (by rw [here]; decide) ?_ (fun _ => ?_) (fun after => by cases after)
      (fun after => by rcases after with after | after <;> cases after) registered
    · rw [watching, here, Option.isSome_map]
      rfl
    · simpa using present
  | attempt =>
    rw [here] at stepped
    cases stepped
    have present := sound.notified (by rw [here]; rfl)
    rw [Option.ne_none_iff_isSome.mp present, here] at watching
    refine { sound.moves (by rw [here]; decide) ?_ (fun _ => present) ?_ ?_ registered with }
    · rw [Option.ne_none_iff_isSome.mp present, watching, here]
      cases lucky <;> cases kind <;> rfl
    · cases lucky <;> cases kind <;> simp
    · cases lucky <;> cases kind <;> simp
  | unregister =>
    rw [here] at stepped
    cases stepped
    obtain ⟨waiterGuard, released, inactive⟩ := sound.release
    rw [released]
    refine sound.moves (by rw [here]; decide) ?_ (fun _ => sound.notified (by rw [here]; rfl))
      (fun after => by cases after) (fun after => by rcases after with after | after <;> cases after)
      (by rw [decide_eq_false inactive]; rfl)
    rw [watching, here]
    rfl
  | rearm =>
    rw [here] at stepped
    cases stepped
    refine sound.moves (by rw [here]; decide) ?_ (fun after => by cases after)
      (fun after => by cases after) (fun after => by rcases after with after | after <;> cases after)
      registered
    rw [watching, here, Option.isSome_map]
    rfl
  | drop =>
    rw [here] at stepped
    cases stepped
    refine sound.moves (by rw [here]; decide) ?_ (fun after => by cases after) (fun _ => rfl)
      (fun after => by rcases after with after | after <;> cases after) registered
    rw [watching, here]
    cases op.notifier <;> rfl
  | post =>
    rw [here] at stepped
    cases stepped
    have none := sound.dropped here
    rw [none, here] at watching
    rw [watching, here] at duty
    refine { sound with
      duty := ?_
      notified := fun after => by cases after
      dropped := fun after => by cases after
      unguarded := fun after => by rcases after with after | after <;> cases after
      gone := fun destroyed => absurd destroyed (sound.alive (by rw [here]; decide)) }
    rw [Operation.watching, none]
    simp only [Point.starting, Point.inHand] at duty ⊢
    simp at duty ⊢
    omega

/-- **Every action keeps the invariant.** -/
theorem Sound.next {op after : Operation} (sound : Sound kind platform op) {action : Action}
    (taken : next kind platform op action = some after) : Sound kind platform after := by
  have duty := sound.duty
  cases action with
  | step lucky => exact sound.advance taken
  | activate =>
    simp only [QtOperations.next, Option.ite_none_right_eq_some, Option.some.injEq] at taken
    obtain ⟨⟨idle, enabled⟩, rfl⟩ := taken
    have armed : op.notifier ≠ none := by
      rw [enabled]
      simp
    refine { sound with
      duty := ?_
      notified := fun _ => armed
      dropped := fun after => by cases after
      unguarded := fun after => by rcases after with after | after <;> cases after
      gone := fun destroyed => absurd (sound.gone destroyed).1.2.1 armed }
    rw [Operation.watching, idle] at duty
    exact duty
  | runHandler =>
    simp only [QtOperations.next, Option.ite_none_right_eq_some, Option.some.injEq] at taken
    obtain ⟨positive, rfl⟩ := taken
    refine { sound with
      duty := ?_
      gone := fun destroyed => ?_ }
    · simp only [Operation.watching] at duty ⊢
      omega
    · have none := (sound.gone destroyed).1.2.2
      omega
  | destroy =>
    simp only [QtOperations.next, Option.ite_none_right_eq_some, Option.some.injEq] at taken
    obtain ⟨⟨last, -⟩, rfl⟩ := taken
    obtain ⟨waiterGuard, released, -⟩ := sound.release
    rw [released]
    exact { sound with
      unguarded := fun _ => rfl
      registered := rfl
      gone := fun _ => ⟨last, rfl⟩ }

theorem sound_of_reachable {op : Operation} (reached : (system kind platform).Reachable op) :
    Sound kind platform op :=
  reached.invariant sound_start fun _ _ _ _ sound _ taken => sound.next taken

/-! ### The call of the handler -/

/-- **Dropped only by `dup`.** In every run the handler is called at most once, and when the last pointer to
the operation goes it has been called once, if and only if no `dup` has failed; the mutex has no registration
of a destroyed operation. On Windows no `dup` is made. -/
theorem qtOperation_calls_handler_once {op : Operation} (reached : (system kind platform).Reachable op) :
    op.calls ≤ 1 ∧
    (Unreferenced op → (op.calls = 1 ↔ op.dupFailed = false)) ∧
    (op.destroyed = true → Unreferenced op ∧ op.waiters = 0) ∧
    (platform = .windows → op.dupFailed = false) := by
  have sound := sound_of_reachable reached
  have duty := sound.duty
  refine ⟨by omega, fun last => ?_, fun destroyed => ?_, sound.duplicated⟩
  · obtain ⟨idle, notifier, posted⟩ := last
    rw [Operation.watching, idle, notifier, posted] at duty
    have account : op.calls + op.dupFailed.toNat = 1 := by
      simpa [Point.starting, Point.inHand] using duty
    cases lost : op.dupFailed with
    | false =>
      rw [lost] at account
      exact iff_of_true account rfl
    | true =>
      rw [lost, Bool.toNat_true] at account
      exact iff_of_false (by omega) (by decide)
  · obtain ⟨last, unguarded⟩ := sound.gone destroyed
    refine ⟨last, ?_⟩
    rw [sound.registered, unguarded]
    rfl

/-- A failed attempt, an activation that finds nothing, and one that takes the lock. -/
theorem qtOperation_calls_handler_once_notified :
    ∃ op, (system .mutex .posix).Reachable op ∧ op.destroyed = true ∧ op.dupFailed = false ∧
      op.calls = 1 ∧ op.waiters = 0 := by
  obtain ⟨op, reached, computed⟩ := System.exists_reachable_of_run (system .mutex .posix)
    [.step false, .step true, .step true, .activate, .step true, .step false, .step true, .activate,
      .step true, .step true, .step true, .step true, .step true, .runHandler, .destroy]
    (fun op => decide (op.destroyed = true ∧ op.dupFailed = false)) (by decide +kernel)
  obtain ⟨destroyed, duplicated⟩ := of_decide_eq_true computed
  obtain ⟨-, called, gone, -⟩ := qtOperation_calls_handler_once reached
  obtain ⟨last, waiters⟩ := gone destroyed
  exact ⟨op, reached, destroyed, duplicated, (called last).mpr duplicated, waiters⟩

/-- The attempt fails, and `dup` fails: the operation is destroyed, and its handler was never called. -/
theorem qtOperation_dropped_by_dup :
    ∃ op, (system .event .posix).Reachable op ∧ Unreferenced op ∧ op.destroyed = true ∧ op.calls = 0 := by
  obtain ⟨op, reached, computed⟩ := System.exists_reachable_of_run (system .event .posix)
    [.step false, .step false, .destroy]
    (fun op => decide (Unreferenced op ∧ op.destroyed = true ∧ op.calls = 0)) (by decide +kernel)
  exact ⟨op, reached, of_decide_eq_true computed⟩

end NovaSync.QtOperations
