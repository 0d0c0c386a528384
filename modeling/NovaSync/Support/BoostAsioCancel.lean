/-
**Cancelling a Boost.Asio operation: the wait callback against `cancel()`.**

One thread runs the callbacks of the operation's waits, another one executes `cancel()`: a store to
`cancellation_requested_`, then `sd_->cancel()`, which aborts the wait that is pending at that moment and
no other. A wait is pending, then queued as aborted or fired, then its callback runs; a callback whose
attempt fails starts the next wait. The three operations differ in how they deliver: the mutex operation
releases its guard, the event and semaphore operations exchange `handler_invoked_` first, and the event
operation looks at the flag once more.

* `Live` — the operation has one wait, or one running callback, or has called its handler.
* `cancel_reaches_handler` — after `cancel()` the wait is not left armed, in the runs in which no callback
  starts a wait after `sd_->cancel()`; the handler is called at most once in any case.
* `cancel_misses_wait` — a callback that has seen the flag clear, and whose attempt fails, starts its wait
  after `cancel()` has returned.
-/

import NovaSync.Concurrency.Transition

namespace NovaSync.BoostAsioCancel

open Concurrency

/-! ### The operations -/

/-- `async_acquire_op`, `async_event_wait_cancellable_op`, `async_semaphore_acquire_cancellable_op`. -/
inductive Kind
  | mutex
  | event
  | semaphore
deriving DecidableEq, Repr

/-- What the handler is called with. -/
inductive Outcome
  | acquired
  | cancelled
deriving DecidableEq, Repr

/-- The operation's wait: none, pending at the descriptor, or completed with its callback queued. -/
inductive Wait
  | none
  | pending
  | queued (aborted : Bool)
deriving DecidableEq, Repr

/-- The next access of the running callback.

* `checkFlag aborted`: the first `is_cancelled()`; `aborted` is the error code it was called with.
* `tryAcquire`: `try_acquire()` or `try_wait()`; `recheck`: the second `is_cancelled()` of the event
  operation, which decides nothing.
* `release`: `waiter_guard_.release()`; `exchange`: the `compare_exchange_strong` of `handler_invoked_`.
* `invoke`: the call of the handler; `restart`: `start_wait()`. -/
inductive Callback
  | idle
  | checkFlag (aborted : Bool)
  | tryAcquire
  | recheck
  | release
  | exchange (outcome : Outcome)
  | invoke (outcome : Outcome)
  | restart
deriving DecidableEq, Repr

/-- Where the thread that cancels is: before `cancel()`, between its two steps, or after it. -/
inductive Canceller
  | before
  | requested
  | returned
deriving DecidableEq, Repr

/-- `guard` is the `waiter_guard_` of the mutex operation, and has no meaning in the others; `delivered` is
a history variable: the calls of the handler. -/
structure Operation where
  wait : Wait := .pending
  callback : Callback := .idle
  canceller : Canceller := .before
  cancellationRequested : Bool := false
  handlerInvoked : Bool := false
  guard : Bool := true
  delivered : List Outcome := []
deriving DecidableEq, Repr

/-- The descriptor becomes readable, a queued callback is run, the callback takes its next step (its
attempt succeeds if `acquired`), or `cancel()` takes one of its two. -/
inductive Action
  | fire
  | dispatch
  | step (acquired : Bool)
  | store
  | cancel
deriving DecidableEq, Repr

/-- How an operation goes about to call its handler. -/
def deliver : Kind → Outcome → Callback
  | .mutex, .acquired => .invoke .acquired
  | .mutex, .cancelled => .release
  | .event, outcome | .semaphore, outcome => .exchange outcome

/-- The next step of the callback. -/
def callbackStep (kind : Kind) (acquired : Bool) (op : Operation) : Option Operation :=
  match op.callback with
  | .idle => none
  | .checkFlag aborted =>
      some { op with callback :=
        if op.cancellationRequested || aborted then deliver kind .cancelled else .tryAcquire }
  | .tryAcquire =>
      some (if acquired then
        { op with
          guard := false
          callback := if kind = .event then .recheck else deliver kind .acquired }
        else { op with callback := .restart })
  | .recheck => some { op with callback := deliver kind .acquired }
  | .release => some { op with guard := false, callback := .invoke .cancelled }
  | .exchange outcome =>
      some (if op.handlerInvoked then { op with callback := .idle }
        else { op with handlerInvoked := true, callback := .invoke outcome })
  | .invoke outcome => some { op with delivered := outcome :: op.delivered, callback := .idle }
  | .restart => some { op with wait := .pending, callback := .idle }

/-- The operation after an action. -/
def next (kind : Kind) (op : Operation) : Action → Option Operation
  | .fire => if op.wait = .pending then some { op with wait := .queued false } else none
  | .dispatch =>
      match op.wait, op.callback with
      | .queued aborted, .idle => some { op with wait := .none, callback := .checkFlag aborted }
      | _, _ => none
  | .step acquired => callbackStep kind acquired op
  | .store =>
      if op.canceller = .before then
        some { op with cancellationRequested := true, canceller := .requested }
      else none
  | .cancel =>
      if op.canceller = .requested then
        some { op with
          wait := if op.wait = .pending then .queued true else op.wait
          canceller := .returned }
      else none

/-- An operation whose first wait has been started. -/
def system (kind : Kind) : System Operation Action where
  start := {}
  next := next kind

/-! ### One wait, one callback, or one call of the handler -/

variable {kind : Kind}

/-- **The operation is in one place**: its wait, its callback, or its handler; and `handler_invoked_` is set
by whoever calls the handler. -/
structure Live (op : Operation) : Prop where
  place : (op.wait ≠ .none ∧ op.callback = .idle ∧ op.delivered = []) ∨
    (op.wait = .none ∧ op.callback ≠ .idle ∧ op.delivered = []) ∨
    (op.wait = .none ∧ op.callback = .idle ∧ op.delivered.length = 1)
  invoked : op.handlerInvoked = true → op.delivered = [] → ∃ outcome, op.callback = .invoke outcome

/-- A running callback is the only place of the operation. -/
theorem Live.running {op : Operation} (live : Live op) (running : op.callback ≠ .idle) :
    op.wait = .none ∧ op.delivered = [] := by
  rcases live.place with ⟨-, idle, -⟩ | ⟨wait, -, delivered⟩ | ⟨-, idle, -⟩
  · exact absurd idle running
  · exact ⟨wait, delivered⟩
  · exact absurd idle running

/-- The callback runs and has not come to call the handler. -/
def Callback.decides : Callback → Bool
  | .idle | .invoke _ => false
  | _ => true

/-- Nobody has exchanged `handler_invoked_` before such a callback does. -/
theorem Live.fresh {op : Operation} (live : Live op) (decides : op.callback.decides = true) :
    op.wait = .none ∧ op.delivered = [] ∧ op.handlerInvoked = false := by
  have running : op.callback ≠ .idle := by
    intro idle
    rw [idle] at decides
    cases decides
  obtain ⟨wait, delivered⟩ := live.running running
  refine ⟨wait, delivered, Bool.eq_false_iff.mpr fun invoked => ?_⟩
  obtain ⟨outcome, here⟩ := live.invoked invoked delivered
  rw [here] at decides
  cases decides

/-- A callback that goes on to another access, which is not the handler's call. -/
theorem Live.moves {op : Operation} (live : Live op) (decides : op.callback.decides = true)
    {callback : Callback} (guard : Bool) (inside : callback ≠ .idle) :
    Live { op with callback := callback, guard := guard } := by
  obtain ⟨wait, delivered, fresh⟩ := live.fresh decides
  refine ⟨Or.inr (Or.inl ⟨wait, inside, delivered⟩), fun invoked => ?_⟩
  exact absurd invoked (Bool.eq_false_iff.mp fresh)

theorem deliver_ne_idle (kind : Kind) (outcome : Outcome) : deliver kind outcome ≠ .idle := by
  cases kind <;> cases outcome <;> decide

theorem Live.callbackStep {op after : Operation} (live : Live op) {acquired : Bool}
    (stepped : callbackStep kind acquired op = some after) : Live after := by
  unfold BoostAsioCancel.callbackStep at stepped
  split at stepped
  · cases stepped
  · rename_i aborted here
    cases stepped
    refine live.moves (by rw [here]; rfl) op.guard ?_
    split
    · exact deliver_ne_idle kind .cancelled
    · decide
  · rename_i here
    cases stepped
    cases acquired with
    | false => exact live.moves (by rw [here]; rfl) op.guard (by decide)
    | true =>
      refine live.moves (by rw [here]; rfl) false ?_
      split
      · decide
      · exact deliver_ne_idle kind .acquired
  · rename_i here
    cases stepped
    exact live.moves (by rw [here]; rfl) op.guard (deliver_ne_idle kind .acquired)
  · rename_i here
    cases stepped
    exact live.moves (by rw [here]; rfl) false (by decide)
  · rename_i outcome here
    obtain ⟨wait, delivered, fresh⟩ := live.fresh (by rw [here]; rfl)
    rw [if_neg (Bool.eq_false_iff.mp fresh)] at stepped
    cases stepped
    refine ⟨Or.inr (Or.inl ⟨wait, ?_, delivered⟩), fun _ _ => ⟨outcome, rfl⟩⟩
    intro idle
    cases idle
  · rename_i outcome here
    cases stepped
    have running : op.callback ≠ .idle := by
      intro idle
      rw [here] at idle
      cases idle
    obtain ⟨wait, delivered⟩ := live.running running
    refine ⟨Or.inr (Or.inr ⟨wait, rfl, ?_⟩), fun _ none => ?_⟩
    · rw [delivered]
      rfl
    · cases none
  · rename_i here
    cases stepped
    obtain ⟨-, delivered, fresh⟩ := live.fresh (by rw [here]; rfl)
    refine ⟨Or.inl ⟨show Wait.pending ≠ .none by decide, rfl, delivered⟩, fun invoked => ?_⟩
    exact absurd invoked (Bool.eq_false_iff.mp fresh)

/-- What happens to the wait or in `cancel()` keeps the operation where it is. -/
theorem Live.waits {op : Operation} (live : Live op) {wait : Wait} (requested : Bool)
    (canceller : Canceller) (same : wait = .none ↔ op.wait = .none) :
    Live { op with
      wait := wait, cancellationRequested := requested, canceller := canceller } := by
  refine ⟨?_, live.invoked⟩
  rcases live.place with ⟨waiting, rest⟩ | ⟨none, rest⟩ | ⟨none, rest⟩
  · exact Or.inl ⟨fun none => waiting (same.mp none), rest⟩
  · exact Or.inr (Or.inl ⟨same.mpr none, rest⟩)
  · exact Or.inr (Or.inr ⟨same.mpr none, rest⟩)

theorem Live.next {op after : Operation} (live : Live op) {action : Action}
    (taken : next kind op action = some after) : Live after := by
  cases action with
  | fire =>
    simp only [BoostAsioCancel.next] at taken
    split at taken
    · rename_i pending
      cases taken
      exact live.waits op.cancellationRequested op.canceller (by rw [pending]; simp)
    · cases taken
  | dispatch =>
    simp only [BoostAsioCancel.next] at taken
    split at taken
    · rename_i aborted queued idle
      cases taken
      have delivered : op.delivered = [] := by
        rcases live.place with ⟨-, -, none⟩ | ⟨-, running, -⟩ | ⟨none, -⟩
        · exact none
        · exact absurd idle running
        · rw [queued] at none
          cases none
      refine ⟨Or.inr (Or.inl ⟨rfl, nofun, delivered⟩), fun invoked _ => ?_⟩
      obtain ⟨outcome, elsewhere⟩ := live.invoked invoked delivered
      rw [idle] at elsewhere
      cases elsewhere
    · cases taken
  | step acquired => exact live.callbackStep taken
  | store =>
    simp only [BoostAsioCancel.next] at taken
    split at taken
    · cases taken
      exact live.waits true .requested Iff.rfl
    · cases taken
  | cancel =>
    simp only [BoostAsioCancel.next] at taken
    split at taken
    · cases taken
      refine live.waits op.cancellationRequested .returned ?_
      split
      · rename_i pending
        rw [pending]
        simp
      · exact Iff.rfl
    · cases taken

theorem live_of_reach {allowed : Operation → Action → Prop} {op : Operation}
    (reached : (system kind).Reach allowed op) : Live op :=
  reached.invariant ⟨Or.inl ⟨nofun, rfl, rfl⟩, nofun⟩
    fun _ _ _ _ live _ taken => live.next taken

/-! ### Cancelling -/

/-- **No callback starts a wait after `sd_->cancel()`**: `cancel()` does not fall between a callback's look
at the flag and its `start_wait()`. -/
def Unmissed (op : Operation) : Action → Prop
  | .step _ => op.callback = .restart → op.canceller ≠ .returned
  | _ => True

instance (op : Operation) : DecidablePred (Unmissed op)
  | .step _ => inferInstanceAs (Decidable (_ → _))
  | .fire | .dispatch | .store | .cancel => inferInstanceAs (Decidable True)

/-- A callback's step starts a wait, or leaves the wait, and leaves the canceller. -/
theorem callbackStep_wait {op after : Operation} {acquired : Bool}
    (stepped : callbackStep kind acquired op = some after) :
    after.canceller = op.canceller ∧ (after.wait = op.wait ∨ op.callback = .restart) := by
  unfold callbackStep at stepped
  split at stepped
  case h_8 here =>
    cases stepped
    exact ⟨rfl, Or.inr here⟩
  case h_3 =>
    cases stepped
    cases acquired <;> exact ⟨rfl, Or.inl rfl⟩
  case h_6 =>
    cases stepped
    split <;> exact ⟨rfl, Or.inl rfl⟩
  all_goals
    cases stepped
    try exact ⟨rfl, Or.inl rfl⟩

/-- **After `cancel()` no wait is pending.** -/
theorem not_pending_of_reach {op : Operation} (reached : (system kind).Reach Unmissed op) :
    op.canceller = .returned → op.wait ≠ .pending := by
  refine reached.invariant (P := fun op => op.canceller = .returned → op.wait ≠ .pending) ?_
    fun op action after _ aborted met taken => ?_
  · intro returned
    cases returned
  · cases action with
    | fire | dispatch | store =>
      simp only [system, next] at taken
      split at taken
      · cases taken
        nofun
      · cases taken
    | step acquired =>
      obtain ⟨same, left | restarts⟩ := callbackStep_wait taken
      · rw [same, left]
        exact aborted
      · intro returned
        rw [same] at returned
        exact absurd returned (met restarts)
    | cancel =>
      simp only [system, next] at taken
      split at taken
      · cases taken
        rintro - pending
        simp only at pending
        split at pending
        · cases pending
        · rename_i other
          exact other pending
      · cases taken

/-- **Cancelling reaches the handler**, in runs in which no callback starts a wait after `sd_->cancel()`:
once `cancel()` has returned and while the handler has not been called, the wait is not left armed, but a
callback is queued or running. The handler is called at most once. -/
theorem cancel_reaches_handler {op : Operation} (reached : (system kind).Reach Unmissed op) :
    (op.canceller = .returned → op.delivered = [] →
      op.wait ≠ .pending ∧ ((∃ aborted, op.wait = .queued aborted) ∨ op.callback ≠ .idle)) ∧
    op.delivered.length ≤ 1 := by
  have live := live_of_reach reached
  refine ⟨fun returned undelivered => ?_, ?_⟩
  · have unarmed := not_pending_of_reach reached returned
    refine ⟨unarmed, ?_⟩
    rcases live.place with ⟨waiting, -⟩ | ⟨-, running, -⟩ | ⟨-, -, once⟩
    · cases wait : op.wait with
      | none => exact absurd wait waiting
      | pending => exact absurd wait unarmed
      | queued aborted => exact Or.inl ⟨aborted, rfl⟩
    · exact Or.inr running
    · rw [undelivered] at once
      cases once
  · rcases live.place with ⟨-, -, none⟩ | ⟨-, -, none⟩ | ⟨-, -, once⟩
    · rw [none]
      exact Nat.zero_le 1
    · rw [none]
      exact Nat.zero_le 1
    · exact Nat.le_of_eq once

/-- A pending wait is aborted. -/
theorem cancel_reaches_handler_pending :
    ∃ op, (system .mutex).Reach Unmissed op ∧ op.canceller = .returned ∧ op.delivered = [] ∧
      op.wait ≠ .pending ∧ ((∃ aborted, op.wait = .queued aborted) ∨ op.callback ≠ .idle) := by
  obtain ⟨op, reached, cancelled⟩ := System.exists_reach_of_run (system .mutex) Unmissed
    [.fire, .dispatch, .step false, .step false, .step false, .store, .cancel]
    (fun op => decide (op.canceller = .returned ∧ op.delivered = [])) (by decide +kernel)
  obtain ⟨returned, undelivered⟩ := of_decide_eq_true cancelled
  exact ⟨op, reached, returned, undelivered, (cancel_reaches_handler reached).1 returned undelivered⟩

/-- **A wait is started after it could be cancelled.** The callback sees the flag clear and its attempt
fails; `cancel()` sets the flag and finds no wait to abort; the callback starts its wait, which nothing
aborts. It happens in all three operations. -/
theorem cancel_misses_wait :
    ¬ ∃ kind, ∀ op, (system kind).Reachable op →
      (op.canceller = .returned → op.delivered = [] →
        op.wait ≠ .pending ∧ ((∃ aborted, op.wait = .queued aborted) ∨ op.callback ≠ .idle)) ∧
      op.delivered.length ≤ 1 := by
  rintro ⟨kind, reaches⟩
  obtain ⟨op, reached, missed⟩ := System.exists_reachable_of_run (system kind)
    [.fire, .dispatch, .step false, .step false, .store, .cancel, .step false]
    (fun op => decide (op.canceller = .returned ∧ op.delivered = [] ∧ op.wait = .pending))
    (by cases kind <;> decide +kernel)
  obtain ⟨returned, undelivered, pending⟩ := of_decide_eq_true missed
  exact ((reaches op reached).1 returned undelivered).1 pending

end NovaSync.BoostAsioCancel
