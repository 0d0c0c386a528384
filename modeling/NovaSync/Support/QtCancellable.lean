/-
**The cancellable Qt operations: one call of the handler, and no lock or token lost.**

The context thread runs `start()`, the activations of the notifier and the posted functors one at a time;
any number of `cancel()` calls run beside it, each a store to `cancellation_requested_` and then the posting
of a functor; others lock and release as they like. The two operations differ in two places: the mutex
operation keeps an `async_waiter_guard`, and looks at the flag once more after it has taken the lock in
`on_notified()`.

* `Operation` — the object, the functors on their way to it, and the supply that it shares with others.
* `Unreferenced` — nobody holds a `shared_ptr` to the object: not the handle, a `cancel()` call, a functor,
  the notifier's connection, or the call that is running.
* `Sound` — the invariant. `handler_invoked_` is clear while a notifier exists and in every call that can
  take the lock, so that an exchange for a success never fails.
* `qtCancellable_delivers_once` — the handler is called at most once, and exactly once when the object is
  destroyed; what it was told agrees with what was taken and given back.
-/

import NovaSync.Concurrency.Transition

namespace NovaSync.QtCancellable

open Concurrency

/-! ### The operations -/

/-- `qt_acquire_cancellable_op`, `qt_semaphore_acquire_cancellable_op`. -/
inductive Kind
  | mutex
  | semaphore
deriving DecidableEq, Repr

/-- What can be taken before anyone has taken anything: the one lock, or the tokens. -/
def Kind.units : Kind → ℕ → ℕ
  | .mutex, _ => 1
  | .semaphore, tokens => tokens

/-- What the handler is called with: the lock or token, or `operation_canceled`. -/
inductive Outcome
  | acquired
  | cancelled
deriving DecidableEq, Repr

/-- The next access of the context thread.

* `startFlag`, `startAttempt`, `startRecheck`, `startGiveBack`: the checks and the attempt of `start()`;
  `register`: `waiter_guard_.emplace`; `arm`: `create_and_arm_notifier()`.
* `disable`, `flag`, `attempt`, `rearm`: `on_notified()`; `resetGuard`: its `waiter_guard_.reset()`;
  `unregister`: the `release()` at the end of the guard's `try_acquire()`; `recheck`, `giveBack`: its look
  at the flag after the lock is taken.
* `drop`: the deletion of the notifier, before either delivery and in the functor of `cancel()`.
* `mark`: `try_mark_invoked()`; `post`: the `invokeMethod` of the delivery. -/
inductive Point
  | idle
  | startFlag
  | startAttempt
  | startRecheck
  | startGiveBack
  | register
  | arm
  | disable
  | flag
  | resetGuard
  | attempt
  | unregister
  | recheck
  | giveBack
  | rearm
  | drop (outcome : Outcome)
  | mark (outcome : Outcome)
  | post (outcome : Outcome)
deriving DecidableEq, Repr

/-- `notifier` is whether `notifier_` is enabled, if there is one; `waiterGuard` is whether the guard is
active, if there is one; `waiters` counts its registrations with the mutex. `cancelFunctors`, `successes`
and `cancellations` count the posted functors. `cancelling` counts the `cancel()` calls that have stored
the flag and not posted yet; `cancelled` says that one has posted. `available` is the shared supply.

The rest is history: `taken` and `given` by others, `obtained` and `returned` by the operation, and the
calls of the handler. -/
structure Operation where
  running : Point := .startFlag
  cancellationRequested : Bool := false
  handlerInvoked : Bool := false
  notifier : Option Bool := none
  waiterGuard : Option Bool := none
  waiters : ℕ := 0
  cancelFunctors : ℕ := 0
  successes : ℕ := 0
  cancellations : ℕ := 0
  cancelling : ℕ := 0
  cancelled : Bool := false
  handle : Bool := true
  destroyed : Bool := false
  available : ℕ := 0
  taken : ℕ := 0
  given : ℕ := 0
  obtained : ℕ := 0
  returned : ℕ := 0
  delivered : List Outcome := []
deriving DecidableEq, Repr

/-- No `shared_ptr` to the object is left. -/
structure Unreferenced (op : Operation) : Prop where
  handle : op.handle = false
  cancelling : op.cancelling = 0
  cancelFunctors : op.cancelFunctors = 0
  successes : op.successes = 0
  cancellations : op.cancellations = 0
  notifier : op.notifier = none
  running : op.running = .idle

theorem unreferenced_iff (op : Operation) :
    Unreferenced op ↔ op.handle = false ∧ op.cancelling = 0 ∧ op.cancelFunctors = 0 ∧
      op.successes = 0 ∧ op.cancellations = 0 ∧ op.notifier = none ∧ op.running = .idle :=
  ⟨fun ⟨handle, calls, functors, successes, cancellations, notifier, running⟩ =>
      ⟨handle, calls, functors, successes, cancellations, notifier, running⟩,
    fun ⟨handle, calls, functors, successes, cancellations, notifier, running⟩ =>
      ⟨handle, calls, functors, successes, cancellations, notifier, running⟩⟩

instance (op : Operation) : Decidable (Unreferenced op) := decidable_of_iff' _ (unreferenced_iff op)

/-- The context thread takes its next access (an attempt finds the lock or a token, and `dup` works, if
`lucky`), the notifier fires, or a functor is run; a `cancel()` stores the flag or posts its functor; the
handle lets go of the object after its `cancel()`; the last pointer goes; another one takes or gives. -/
inductive Action
  | step (lucky : Bool)
  | activate
  | runCancel
  | runHandler (outcome : Outcome)
  | cancel
  | post
  | dropHandle
  | destroy
  | take
  | give
deriving DecidableEq, Repr

/-- `async_waiter_guard::release`. -/
def release (op : Operation) : Operation :=
  if op.waiterGuard = some true then
    { op with waiterGuard := some false, waiters := op.waiters - 1 }
  else op

/-- The attempt of `start()` or `on_notified()`. -/
def tryAcquire (lucky : Bool) (op : Operation) (found missed : Point) : Operation :=
  if lucky = true ∧ 0 < op.available then
    { op with available := op.available - 1, obtained := op.obtained + 1, running := found }
  else { op with running := missed }

/-- `unlock()` or `release()`. -/
def unlock (op : Operation) (next : Point) : Operation :=
  { op with available := op.available + 1, returned := op.returned + 1, running := next }

/-- The next access of the context thread. -/
def advance (kind : Kind) (lucky : Bool) (op : Operation) : Option Operation :=
  match op.running with
  | .idle => none
  | .startFlag =>
      some { op with running := if op.cancellationRequested then .mark .cancelled else .startAttempt }
  | .startAttempt =>
      some (tryAcquire lucky op .startRecheck (if kind = .mutex then .register else .arm))
  | .startRecheck =>
      some { op with running := if op.cancellationRequested then .startGiveBack else .mark .acquired }
  | .startGiveBack => some (unlock op (.mark .cancelled))
  | .register => some { op with waiterGuard := some true, waiters := op.waiters + 1, running := .arm }
  | .arm => some { op with notifier := if lucky then some true else none, running := .idle }
  | .disable => some { op with notifier := op.notifier.map fun _ => false, running := .flag }
  | .flag =>
      some { op with running :=
        if op.cancellationRequested then
          if kind = .mutex then .resetGuard else .drop .cancelled
        else .attempt }
  | .resetGuard => some { release op with waiterGuard := none, running := .drop .cancelled }
  | .attempt =>
      some (tryAcquire lucky op (if kind = .mutex then .unregister else .drop .acquired) .rearm)
  | .unregister => some { release op with running := .recheck }
  | .recheck =>
      some { op with running := if op.cancellationRequested then .giveBack else .drop .acquired }
  | .giveBack => some (unlock op (.drop .cancelled))
  | .rearm => some { op with notifier := op.notifier.map fun _ => true, running := .idle }
  | .drop outcome => some { op with notifier := none, running := .mark outcome }
  | .mark outcome =>
      some (if op.handlerInvoked then { op with running := .idle }
        else { op with handlerInvoked := true, running := .post outcome })
  | .post .acquired => some { op with successes := op.successes + 1, running := .idle }
  | .post .cancelled => some { op with cancellations := op.cancellations + 1, running := .idle }

/-- The operation after an action. A lock is given back by one who holds it; tokens are given by anyone. -/
def next (kind : Kind) (op : Operation) : Action → Option Operation
  | .step lucky => advance kind lucky op
  | .activate =>
      if op.running = .idle ∧ op.notifier = some true then some { op with running := .disable } else none
  | .runCancel =>
      if op.running = .idle ∧ 0 < op.cancelFunctors then
        some { op with cancelFunctors := op.cancelFunctors - 1, running := .drop .cancelled }
      else none
  | .runHandler .acquired =>
      if op.running = .idle ∧ 0 < op.successes then
        some { op with successes := op.successes - 1, delivered := .acquired :: op.delivered }
      else none
  | .runHandler .cancelled =>
      if op.running = .idle ∧ 0 < op.cancellations then
        some { op with cancellations := op.cancellations - 1, delivered := .cancelled :: op.delivered }
      else none
  | .cancel =>
      if op.handle = true then
        some { op with cancellationRequested := true, cancelling := op.cancelling + 1 }
      else none
  | .post =>
      if 0 < op.cancelling then
        some { op with
          cancelling := op.cancelling - 1
          cancelFunctors := op.cancelFunctors + 1
          cancelled := true }
      else none
  | .dropHandle =>
      if op.handle = true ∧ op.cancelled = true then some { op with handle := false } else none
  | .destroy =>
      if Unreferenced op ∧ op.destroyed = false then
        some { release op with waiterGuard := none, destroyed := true }
      else none
  | .take =>
      if 0 < op.available then
        some { op with available := op.available - 1, taken := op.taken + 1 }
      else none
  | .give =>
      if kind = .mutex → op.given < op.taken + op.delivered.count .acquired then
        some { op with available := op.available + 1, given := op.given + 1 }
      else none

/-- An operation whose `start()` is about to run. -/
def system (kind : Kind) (tokens : ℕ) : System Operation Action where
  start := { available := kind.units tokens }
  next := next kind

/-! ### The invariant -/

variable {kind : Kind} {tokens : ℕ}

/-- `start()` has not registered yet. -/
def Point.early : Point → Bool
  | .startFlag | .startAttempt | .register => true
  | _ => false

/-- There is no notifier: `start()` has not made it, or it has been deleted. -/
def Point.unarmed : Point → Bool
  | .startFlag | .startAttempt | .startRecheck | .startGiveBack | .register | .arm => true
  | .mark _ | .post _ => true
  | _ => false

/-- The call is one of `start()` or `on_notified()`, and has not come to a delivery that another one may
have been ahead of. -/
def Point.fresh : Point → Bool
  | .idle | .drop .cancelled | .mark .cancelled | .post _ => false
  | _ => true

/-- The running call holds the lock or a token. -/
def Point.inHand : Point → Bool
  | .startRecheck | .startGiveBack | .unregister | .recheck | .giveBack => true
  | .drop .acquired | .mark .acquired | .post .acquired => true
  | _ => false

/-- The running call has exchanged `handler_invoked_`. -/
def Point.posting : Point → Bool
  | .post _ => true
  | _ => false

theorem Point.not_posting_of_fresh {point : Point} (fresh : point.fresh = true) :
    point.posting = false := by
  cases point with
  | post outcome => cases fresh
  | _ => rfl

/-- **Who may call the handler, who holds what, and who keeps the object.** -/
structure Sound (kind : Kind) (tokens : ℕ) (op : Operation) : Prop where
  fresh : op.running.fresh = true → op.handlerInvoked = false
  armed : op.notifier ≠ none → op.handlerInvoked = false
  unarmed : op.running.unarmed = true → op.notifier = none
  once : op.running.posting.toNat + op.successes + op.cancellations + op.delivered.length =
    op.handlerInvoked.toNat
  ledger : op.obtained =
    op.returned + op.running.inHand.toNat + op.successes + op.delivered.count .acquired
  supply : op.available + op.taken + op.obtained = kind.units tokens + op.given + op.returned
  lent : kind = .mutex → op.given ≤ op.taken + op.delivered.count .acquired
  requested : op.cancellationRequested = true → 0 < op.cancelling ∨ op.cancelled = true
  reaches : op.cancelled = true → 0 < op.cancelFunctors ∨ op.running = .drop .cancelled ∨
    op.running = .mark .cancelled ∨ op.handlerInvoked = true
  dropped : op.handle = false → op.cancelled = true
  unguarded : op.running.early = true → op.waiterGuard = none
  registered : op.waiters = (decide (op.waiterGuard = some true)).toNat
  gone : op.destroyed = true → Unreferenced op ∧ op.waiterGuard = none

theorem sound_start : Sound kind tokens (system kind tokens).start where
  fresh _ := rfl
  armed _ := rfl
  unarmed _ := rfl
  once := rfl
  ledger := rfl
  supply := rfl
  lent _ := Nat.zero_le _
  requested requested := by cases requested
  reaches cancelled := by cases cancelled
  dropped dropped := by cases dropped
  unguarded _ := rfl
  registered := rfl
  gone destroyed := by cases destroyed

/-- A running call keeps the object. -/
theorem Sound.alive {op : Operation} (sound : Sound kind tokens op) (running : op.running ≠ .idle) :
    op.destroyed ≠ true :=
  fun destroyed => running (sound.gone destroyed).1.running

/-- While no delivery has been begun, a functor of a `cancel()` that has posted is still queued. -/
theorem Sound.queued {op : Operation} (sound : Sound kind tokens op)
    (fresh : op.running.fresh = true) (cancelled : op.cancelled = true) : 0 < op.cancelFunctors := by
  rcases sound.reaches cancelled with queued | here | here | invoked
  · exact queued
  · rw [here] at fresh
    cases fresh
  · rw [here] at fresh
    cases fresh
  · rw [sound.fresh fresh] at invoked
    cases invoked

/-- `release` takes the registration away with the guard, and touches nothing else. -/
theorem Sound.release {op : Operation} (sound : Sound kind tokens op) :
    ∃ waiterGuard, release op = { op with waiterGuard := waiterGuard, waiters := 0 } ∧
      waiterGuard ≠ some true := by
  have registered := sound.registered
  unfold QtCancellable.release
  split
  · rename_i active
    rw [active] at registered
    refine ⟨some false, ?_, by simp⟩
    rw [registered]
    rfl
  · rename_i inactive
    refine ⟨op.waiterGuard, ?_, inactive⟩
    rw [decide_eq_false inactive] at registered
    rw [← Bool.toNat_false, ← registered]

/-- **A call that goes on**, and has not come to its delivery: it may take or give back, and change the
notifier and the guard. -/
theorem Sound.moves {op : Operation} (sound : Sound kind tokens op) (fresh : op.running.fresh = true)
    {point : Point} {notifier waiterGuard : Option Bool} {waiters available obtained returned : ℕ}
    (posting : point.posting = false) (unarmed : point.unarmed = true → notifier = none)
    (unguarded : point.early = true → waiterGuard = none)
    (registered : waiters = (decide (waiterGuard = some true)).toNat)
    (ledger : obtained + op.returned + op.running.inHand.toNat =
      op.obtained + returned + point.inHand.toNat)
    (supply : available + obtained + op.returned = op.available + op.obtained + returned) :
    Sound kind tokens { op with
      running := point, notifier := notifier, waiterGuard := waiterGuard, waiters := waiters,
      available := available, obtained := obtained, returned := returned } where
  fresh _ := sound.fresh fresh
  armed _ := sound.fresh fresh
  unarmed := unarmed
  once := by
    have once := sound.once
    rw [Point.not_posting_of_fresh fresh] at once
    show point.posting.toNat + _ + _ + _ = _
    rw [posting]
    exact once
  ledger := by
    have before := sound.ledger
    dsimp only
    omega
  supply := by
    have before := sound.supply
    dsimp only
    omega
  lent := sound.lent
  requested := sound.requested
  reaches cancelled := Or.inl (sound.queued fresh cancelled)
  dropped := sound.dropped
  unguarded := unguarded
  registered := registered
  gone destroyed := by
    refine absurd destroyed (sound.alive fun idle => ?_)
    rw [idle] at fresh
    cases fresh

/-- From an access of a call that is not a delivery to another one: nothing is posted, no notifier appears
and `start()` is not begun again. -/
def Point.onward (before after : Point) : Bool :=
  before.fresh && !after.posting && (!after.unarmed || before.unarmed) && (!after.early || before.early)

theorem Sound.onward {op : Operation} (sound : Sound kind tokens op) {point : Point}
    (onward : op.running.onward point = true) :
    op.running.fresh = true ∧ point.posting = false ∧ (point.unarmed = true → op.notifier = none) ∧
      (point.early = true → op.waiterGuard = none) := by
  simp only [Point.onward, Bool.and_eq_true, Bool.or_eq_true, Bool.not_eq_true'] at onward
  obtain ⟨⟨⟨fresh, posting⟩, unarmed⟩, early⟩ := onward
  refine ⟨fresh, posting, fun after => sound.unarmed ?_, fun after => sound.unguarded ?_⟩
  · exact unarmed.resolve_left (by simp [after])
  · exact early.resolve_left (by simp [after])

/-- A call that goes on and changes nothing else. -/
theorem Sound.goes {op : Operation} (sound : Sound kind tokens op) {point : Point}
    (onward : op.running.onward point = true) (hand : point.inHand = op.running.inHand) :
    Sound kind tokens { op with running := point } := by
  obtain ⟨fresh, posting, unarmed, unguarded⟩ := sound.onward onward
  exact sound.moves fresh posting unarmed unguarded sound.registered (by rw [hand]) rfl

/-- An attempt takes the lock or a token, or goes on without. -/
theorem Sound.tryAcquire {op : Operation} (sound : Sound kind tokens op) {lucky : Bool}
    {found missed : Point} (onward : op.running.onward found = true ∧ op.running.onward missed = true)
    (hands : op.running.inHand = false ∧ found.inHand = true ∧ missed.inHand = false) :
    Sound kind tokens (tryAcquire lucky op found missed) := by
  obtain ⟨empty, hand, unheld⟩ := hands
  unfold QtCancellable.tryAcquire
  split
  · rename_i taken
    have positive := taken.2
    obtain ⟨fresh, posting, unarmed, unguarded⟩ := sound.onward onward.1
    refine sound.moves fresh posting unarmed unguarded sound.registered ?_ (by omega)
    rw [empty, hand, Bool.toNat_false, Bool.toNat_true]
    omega
  · exact sound.goes onward.2 (unheld.trans empty.symm)

/-- A call that has seen the flag gives back what it took. -/
theorem Sound.unlock {op : Operation} (sound : Sound kind tokens op) {point : Point}
    (onward : op.running.onward point = true)
    (hands : op.running.inHand = true ∧ point.inHand = false) :
    Sound kind tokens (unlock op point) := by
  obtain ⟨fresh, posting, unarmed, unguarded⟩ := sound.onward onward
  refine sound.moves fresh posting unarmed unguarded sound.registered ?_ (by omega)
  rw [hands.1, hands.2, Bool.toNat_false, Bool.toNat_true]
  omega

/-- `on_notified()` or `start()` sets the notifier. -/
theorem Sound.notifies {op : Operation} (sound : Sound kind tokens op) {point : Point}
    (onward : op.running.onward point = true) (hand : point.inHand = op.running.inHand)
    (armed : point.unarmed = false) (notifier : Option Bool) :
    Sound kind tokens { op with notifier := notifier, running := point } := by
  obtain ⟨fresh, posting, -, unguarded⟩ := sound.onward onward
  refine sound.moves fresh posting (fun unarmed => ?_) unguarded sound.registered (by rw [hand]) rfl
  rw [armed] at unarmed
  cases unarmed

/-! ### Deliveries -/

/-- The notifier is deleted before the exchange. -/
theorem Sound.drops {op : Operation} (sound : Sound kind tokens op) {outcome : Outcome}
    (here : op.running = .drop outcome) :
    Sound kind tokens { op with notifier := none, running := .mark outcome } := by
  cases outcome with
  | acquired =>
    refine sound.moves (by rw [here]; rfl) rfl (fun _ => rfl) (fun early => ?_) sound.registered
      (by rw [here]; rfl) rfl
    cases early
  | cancelled =>
    have ledger := sound.ledger
    have once := sound.once
    rw [here] at ledger once
    refine { sound with
      fresh := fun fresh => ?_
      armed := fun armed => absurd rfl armed
      unarmed := fun _ => rfl
      once := once
      ledger := ledger
      reaches := fun _ => Or.inr (Or.inr (Or.inl rfl))
      unguarded := fun early => ?_
      gone := fun destroyed => ?_ }
    · cases fresh
    · cases early
    · refine absurd destroyed (sound.alive fun idle => ?_)
      rw [here] at idle
      cases idle

/-- **The exchange.** It fails only for a cancellation, in a call that holds nothing. -/
theorem Sound.marks {op : Operation} (sound : Sound kind tokens op) {outcome : Outcome}
    (here : op.running = .mark outcome) :
    Sound kind tokens (if op.handlerInvoked then { op with running := .idle }
      else { op with handlerInvoked := true, running := .post outcome }) := by
  have once := sound.once
  have ledger := sound.ledger
  have unarmed := sound.unarmed (by rw [here]; rfl)
  have alive : op.destroyed ≠ true := by
    refine sound.alive fun idle => ?_
    rw [here] at idle
    cases idle
  rw [here] at once ledger
  split
  · rename_i invoked
    cases outcome with
    | acquired =>
      have fresh := sound.fresh (by rw [here]; rfl)
      rw [fresh] at invoked
      cases invoked
    | cancelled =>
      refine { sound with
        fresh := fun fresh => ?_
        unarmed := fun _ => unarmed
        once := once
        ledger := ledger
        reaches := fun _ => Or.inr (Or.inr (Or.inr invoked))
        unguarded := fun early => ?_
        gone := fun destroyed => absurd destroyed alive }
      · cases fresh
      · cases early
  · rename_i clear
    refine { sound with
      fresh := fun fresh => ?_
      armed := fun armed => absurd unarmed armed
      unarmed := fun _ => unarmed
      once := ?_
      ledger := ?_
      reaches := fun _ => Or.inr (Or.inr (Or.inr rfl))
      unguarded := fun early => ?_
      gone := fun destroyed => absurd destroyed alive }
    · cases fresh
    · rw [Bool.eq_false_iff.mpr clear] at once
      simp only [Point.posting, Bool.toNat_false, Bool.toNat_true] at once ⊢
      omega
    · cases outcome with
      | acquired | cancelled => exact ledger
    · cases early

/-- The posting puts the outcome into the queue. -/
theorem Sound.posts {op : Operation} (sound : Sound kind tokens op) {outcome : Outcome}
    (here : op.running = .post outcome) {lucky : Bool} {after : Operation}
    (stepped : advance kind lucky op = some after) : Sound kind tokens after := by
  have once := sound.once
  have ledger := sound.ledger
  have invoked : op.handlerInvoked = true := by
    by_contra clear
    rw [here, Bool.eq_false_iff.mpr clear] at once
    simp only [Point.posting, Bool.toNat_false, Bool.toNat_true] at once
    omega
  have alive : op.destroyed ≠ true := by
    refine sound.alive fun idle => ?_
    rw [here] at idle
    cases idle
  have unarmed := sound.unarmed (by rw [here]; rfl)
  rw [here] at once ledger
  unfold advance at stepped
  rw [here] at stepped
  cases outcome with
  | acquired | cancelled =>
    cases stepped
    simp only [Point.posting, Point.inHand, Bool.toNat_false, Bool.toNat_true] at once ledger
    refine { sound with
      fresh := fun fresh => ?_
      unarmed := fun _ => unarmed
      once := ?_
      ledger := ?_
      reaches := fun _ => Or.inr (Or.inr (Or.inr invoked))
      unguarded := fun early => ?_
      gone := fun destroyed => absurd destroyed alive }
    · cases fresh
    · simp only [Point.posting, Bool.toNat_false]
      omega
    · simp only [Point.inHand, Bool.toNat_false]
      omega
    · cases early

/-! ### Every step -/

/-- **The context thread keeps the invariant.** -/
theorem Sound.advance {op after : Operation} (sound : Sound kind tokens op) {lucky : Bool}
    (stepped : advance kind lucky op = some after) : Sound kind tokens after := by
  have posts : ∀ outcome, op.running = .post outcome → Sound kind tokens after :=
    fun outcome here => sound.posts here stepped
  unfold QtCancellable.advance at stepped
  cases here : op.running with
  | idle =>
    rw [here] at stepped
    cases stepped
  | startFlag | startRecheck | recheck =>
    rw [here] at stepped
    cases stepped
    refine sound.goes ?_ ?_ <;> rw [here] <;> split <;> rfl
  | flag =>
    rw [here] at stepped
    cases stepped
    refine sound.goes ?_ ?_ <;> rw [here] <;> cases kind <;> split <;> rfl
  | startAttempt | attempt =>
    rw [here] at stepped
    cases stepped
    refine sound.tryAcquire ?_ ?_ <;> rw [here] <;> cases kind <;> decide
  | startGiveBack | giveBack =>
    rw [here] at stepped
    cases stepped
    refine sound.unlock ?_ ?_ <;> rw [here] <;> decide
  | arm | disable | rearm =>
    rw [here] at stepped
    cases stepped
    refine sound.notifies ?_ ?_ rfl _ <;> rw [here] <;> rfl
  | register =>
    rw [here] at stepped
    cases stepped
    have registered := sound.registered
    rw [sound.unguarded (by rw [here]; rfl)] at registered
    have onward : op.running.onward .arm = true := by
      rw [here]
      rfl
    obtain ⟨fresh, posting, unarmed, -⟩ := sound.onward onward
    refine sound.moves fresh posting unarmed (fun early => ?_) ?_ (by rw [here]; rfl) rfl
    · cases early
    · rw [registered]
      rfl
  | resetGuard =>
    rw [here] at stepped
    cases stepped
    obtain ⟨waiterGuard, released, -⟩ := sound.release
    rw [released]
    refine sound.moves (by rw [here]; rfl) rfl (fun unarmed => ?_) (fun _ => rfl) rfl
      (by rw [here]; rfl) rfl
    cases unarmed
  | unregister =>
    rw [here] at stepped
    cases stepped
    obtain ⟨waiterGuard, released, inactive⟩ := sound.release
    rw [released]
    refine sound.moves (by rw [here]; rfl) rfl (fun unarmed => ?_) (fun early => ?_) ?_
      (by rw [here]; rfl) rfl
    · cases unarmed
    · cases early
    · rw [decide_eq_false inactive]
      rfl
  | drop outcome =>
    rw [here] at stepped
    cases stepped
    exact sound.drops here
  | mark outcome =>
    rw [here] at stepped
    cases stepped
    exact sound.marks here
  | post outcome => exact posts outcome here

/-- An idle context thread that starts a call. -/
theorem Sound.calls {op : Operation} (sound : Sound kind tokens op) (idle : op.running = .idle)
    {point : Point} (quiet : point.inHand = false ∧ point.posting = false)
    (unarmed : point.unarmed = false) (early : point.early = false)
    (fresh : point.fresh = true → op.notifier ≠ none) {cancelFunctors : ℕ}
    (reaches : op.cancelled = true → 0 < cancelFunctors ∨ point = .drop .cancelled ∨
      point = .mark .cancelled ∨ op.handlerInvoked = true)
    (alive : op.destroyed ≠ true) :
    Sound kind tokens { op with cancelFunctors := cancelFunctors, running := point } := by
  have once := sound.once
  have ledger := sound.ledger
  rw [idle] at once ledger
  refine { sound with
    fresh := fun after => sound.armed (fresh after)
    unarmed := fun after => ?_
    once := ?_
    ledger := ?_
    reaches := reaches
    unguarded := fun after => ?_
    gone := fun destroyed => absurd destroyed alive }
  · change point.unarmed = true at after
    rw [unarmed] at after
    cases after
  · show point.posting.toNat + _ + _ + _ = _
    rw [quiet.2]
    exact once
  · show _ = _ + point.inHand.toNat + _ + _
    rw [quiet.1]
    exact ledger
  · change point.early = true at after
    rw [early] at after
    cases after

/-- The functors that call the handler. -/
theorem Sound.runHandler {op after : Operation} (sound : Sound kind tokens op) {outcome : Outcome}
    (taken : next kind op (.runHandler outcome) = some after) : Sound kind tokens after := by
  have once := sound.once
  have ledger := sound.ledger
  cases outcome with
  | acquired =>
    simp only [next, Option.ite_none_right_eq_some, Option.some.injEq] at taken
    obtain ⟨⟨-, positive⟩, rfl⟩ := taken
    refine { sound with
      once := ?_
      ledger := ?_
      lent := fun mutex => ?_
      gone := fun destroyed => ?_ }
    · simp only [List.length_cons]
      omega
    · simp only [List.count_cons_self]
      omega
    · have before := sound.lent mutex
      simp only [List.count_cons_self]
      omega
    · have none := (sound.gone destroyed).1.successes
      omega
  | cancelled =>
    simp only [next, Option.ite_none_right_eq_some, Option.some.injEq] at taken
    obtain ⟨⟨-, positive⟩, rfl⟩ := taken
    refine { sound with
      once := ?_
      ledger := ?_
      lent := fun mutex => ?_
      gone := fun destroyed => ?_ }
    · simp only [List.length_cons]
      omega
    · rw [List.count_cons_of_ne (by decide)]
      exact ledger
    · rw [List.count_cons_of_ne (by decide)]
      exact sound.lent mutex
    · have none := (sound.gone destroyed).1.cancellations
      omega

/-- What others take and give changes the supply only. -/
theorem Sound.trades {op : Operation} (sound : Sound kind tokens op) {available taken given : ℕ}
    (same : available + taken + op.given = op.available + op.taken + given)
    (lent : kind = .mutex → given ≤ taken + op.delivered.count .acquired) :
    Sound kind tokens { op with available := available, taken := taken, given := given } := by
  have supply := sound.supply
  refine { sound with
    supply := ?_
    lent := lent
    gone := fun destroyed => ?_ }
  · dsimp only
    omega
  · obtain ⟨last, unguarded⟩ := sound.gone destroyed
    exact ⟨{ last with }, unguarded⟩

/-- **Every action keeps the invariant.** -/
theorem Sound.next {op after : Operation} (sound : Sound kind tokens op) {action : Action}
    (taken : next kind op action = some after) : Sound kind tokens after := by
  cases action with
  | step lucky => exact sound.advance taken
  | runHandler outcome => exact sound.runHandler taken
  | activate =>
    simp only [QtCancellable.next, Option.ite_none_right_eq_some, Option.some.injEq] at taken
    obtain ⟨⟨idle, enabled⟩, rfl⟩ := taken
    have armed : op.notifier ≠ none := by
      rw [enabled]
      simp
    refine sound.calls idle ⟨rfl, rfl⟩ rfl rfl (fun _ => armed) (fun cancelled => ?_) fun destroyed => ?_
    · rcases sound.reaches cancelled with queued | here | here | invoked
      · exact Or.inl queued
      · rw [idle] at here
        cases here
      · rw [idle] at here
        cases here
      · exact Or.inr (Or.inr (Or.inr invoked))
    · exact armed (sound.gone destroyed).1.notifier
  | runCancel =>
    simp only [QtCancellable.next, Option.ite_none_right_eq_some, Option.some.injEq] at taken
    obtain ⟨⟨idle, positive⟩, rfl⟩ := taken
    refine sound.calls idle ⟨rfl, rfl⟩ rfl rfl (fun fresh => ?_) (fun _ => ?_) fun destroyed => ?_
    · cases fresh
    · exact Or.inr (Or.inl rfl)
    · have none := (sound.gone destroyed).1.cancelFunctors
      omega
  | cancel =>
    simp only [QtCancellable.next, Option.ite_none_right_eq_some, Option.some.injEq] at taken
    obtain ⟨handle, rfl⟩ := taken
    refine { sound with
      requested := fun _ => Or.inl (Nat.succ_pos _)
      gone := fun destroyed => ?_ }
    rw [(sound.gone destroyed).1.handle] at handle
    cases handle
  | post =>
    simp only [QtCancellable.next, Option.ite_none_right_eq_some, Option.some.injEq] at taken
    obtain ⟨calling, rfl⟩ := taken
    refine { sound with
      requested := fun _ => Or.inr rfl
      reaches := fun _ => Or.inl (Nat.succ_pos _)
      dropped := fun _ => rfl
      gone := fun destroyed => ?_ }
    have none := (sound.gone destroyed).1.cancelling
    omega
  | dropHandle =>
    simp only [QtCancellable.next, Option.ite_none_right_eq_some, Option.some.injEq] at taken
    obtain ⟨⟨handle, cancelled⟩, rfl⟩ := taken
    refine { sound with
      dropped := fun _ => cancelled
      gone := fun destroyed => ?_ }
    rw [(sound.gone destroyed).1.handle] at handle
    cases handle
  | destroy =>
    simp only [QtCancellable.next, Option.ite_none_right_eq_some, Option.some.injEq] at taken
    obtain ⟨⟨last, -⟩, rfl⟩ := taken
    obtain ⟨waiterGuard, released, -⟩ := sound.release
    rw [released]
    exact { sound with
      unguarded := fun _ => rfl
      registered := rfl
      gone := fun _ => ⟨{ last with }, rfl⟩ }
  | take =>
    simp only [QtCancellable.next, Option.ite_none_right_eq_some, Option.some.injEq] at taken
    obtain ⟨positive, rfl⟩ := taken
    refine sound.trades (by omega) fun mutex => ?_
    have before := sound.lent mutex
    omega
  | give =>
    simp only [QtCancellable.next, Option.ite_none_right_eq_some, Option.some.injEq] at taken
    obtain ⟨owed, rfl⟩ := taken
    exact sound.trades (by omega) owed

theorem sound_of_reachable {op : Operation} (reached : (system kind tokens).Reachable op) :
    Sound kind tokens op :=
  reached.invariant sound_start fun _ _ _ _ sound _ taken => sound.next taken

/-! ### One call of the handler -/

/-- Nothing is left to be run on the context thread, and no `cancel()` is about to post. -/
def Settled (op : Operation) : Prop :=
  op.running = .idle ∧ op.cancelling = 0 ∧ op.cancelFunctors = 0 ∧ op.successes = 0 ∧
    op.cancellations = 0

theorem Unreferenced.settled {op : Operation} (last : Unreferenced op) : Settled op :=
  ⟨last.running, last.cancelling, last.cancelFunctors, last.successes, last.cancellations⟩

/-- A handler that is called with `operation_canceled` is not called with a success. -/
theorem Sound.count_acquired {op : Operation} (sound : Sound kind tokens op) :
    (.acquired ∈ op.delivered → op.delivered.count .acquired = 1) ∧
    (.cancelled ∈ op.delivered → op.delivered.count .acquired = 0) := by
  have once := sound.once
  have least := Bool.toNat_le op.handlerInvoked
  match delivered : op.delivered with
  | [] => simp
  | [outcome] => cases outcome <;> simp
  | first :: second :: rest =>
    rw [delivered] at once
    simp only [List.length_cons] at once
    omega

/-- A call of the handler leaves nothing in hand and nothing queued. -/
theorem Sound.empty {op : Operation} (sound : Sound kind tokens op) (called : op.delivered ≠ []) :
    op.running.inHand = false ∧ op.successes = 0 := by
  have once := sound.once
  have least := Bool.toNat_le op.handlerInvoked
  have positive := List.length_pos_iff.mpr called
  have invoked : op.handlerInvoked = true := by
    by_contra clear
    rw [Bool.eq_false_iff.mpr clear, Bool.toNat_false] at once
    omega
  refine ⟨?_, by omega⟩
  have stale : op.running.fresh ≠ true := by
    intro fresh
    rw [sound.fresh fresh] at invoked
    cases invoked
  cases here : op.running with
  | post outcome =>
    rw [here] at once
    simp only [Point.posting, Bool.toNat_true] at once
    omega
  | idle => rfl
  | drop outcome | mark outcome =>
    cases outcome with
    | acquired => exact absurd (by rw [here]; rfl) stale
    | cancelled => rfl
  | _ => exact absurd (by rw [here]; rfl) stale

/-- Once the flag is set, the handler has been called when all has settled. -/
theorem Sound.called {op : Operation} (sound : Sound kind tokens op)
    (requested : op.cancellationRequested = true ∨ op.cancelled = true) (settled : Settled op) :
    op.delivered.length = 1 := by
  obtain ⟨idle, calls, functors, successes, cancellations⟩ := settled
  have cancelled : op.cancelled = true := by
    rcases requested with requested | cancelled
    · exact (sound.requested requested).resolve_left (by omega)
    · exact cancelled
  have invoked : op.handlerInvoked = true := by
    rcases sound.reaches cancelled with queued | here | here | invoked
    · omega
    · rw [idle] at here
      cases here
    · rw [idle] at here
      cases here
    · exact invoked
  have once := sound.once
  rw [idle, successes, cancellations, invoked] at once
  simpa [Point.posting] using once

/-- **Delivered once, and nothing lost.** In every run of a cancellable operation:

* the handler is called at most once, and once `cancel()` has stored the flag and all has settled, or the
  object is destroyed, it has been called; a destroyed object has no registration with the mutex left;
* a handler that was told of success owns the one thing that the operation took and did not give back, and
  for one that was told of the cancellation all has been given back; the supply is what others and the
  operation have left in it;
* the exchange before a success does not fail; when the lock is on its way to the handler no one else
  holds it. -/
theorem qtCancellable_delivers_once {op : Operation} (reached : (system kind tokens).Reachable op) :
    (op.delivered.length ≤ 1 ∧
      (op.cancellationRequested = true → Settled op → op.delivered.length = 1) ∧
      (op.destroyed = true → op.delivered.length = 1 ∧ op.waiters = 0)) ∧
    ((.acquired ∈ op.delivered → op.obtained = op.returned + 1) ∧
      (.cancelled ∈ op.delivered → op.obtained = op.returned) ∧
      op.available + op.taken + op.obtained = kind.units tokens + op.given + op.returned) ∧
    (op.running = .mark .acquired → op.handlerInvoked = false) ∧
    (kind = .mutex → 0 < op.successes → op.available = 0 ∧ op.taken = op.given) := by
  have sound := sound_of_reachable reached
  have once := sound.once
  have ledger := sound.ledger
  have least := Bool.toNat_le op.handlerInvoked
  refine ⟨⟨by omega, fun requested => sound.called (Or.inl requested), fun destroyed => ?_⟩,
    ⟨fun called => ?_, fun called => ?_, sound.supply⟩, fun here => ?_, fun mutex positive => ?_⟩
  · obtain ⟨last, unguarded⟩ := sound.gone destroyed
    refine ⟨sound.called (Or.inr (sound.dropped last.handle)) last.settled, ?_⟩
    rw [sound.registered, unguarded]
    rfl
  · obtain ⟨hand, successes⟩ := sound.empty (List.ne_nil_of_mem called)
    rw [hand, successes, sound.count_acquired.1 called] at ledger
    exact ledger
  · obtain ⟨hand, successes⟩ := sound.empty (List.ne_nil_of_mem called)
    rw [hand, successes, sound.count_acquired.2 called] at ledger
    exact ledger
  · exact sound.fresh (by rw [here]; rfl)
  · have supply := sound.supply
    have lent := sound.lent mutex
    have none : op.delivered = [] := List.length_eq_zero_iff.mp (by omega)
    rw [mutex] at supply
    rw [none] at ledger lent
    simp only [Kind.units, List.count_nil] at supply ledger lent
    omega

/-- A notifier fires, the lock is taken, and `cancel()` stores the flag before the operation looks again:
it gives the lock back, tells the handler, and is destroyed. -/
theorem qtCancellable_delivers_once_late_cancel :
    ∃ op, (system .mutex 0).Reachable op ∧ op.obtained = 1 ∧ op.delivered = [.cancelled] ∧
      op.destroyed = true ∧ op.obtained = op.returned ∧ op.waiters = 0 := by
  obtain ⟨op, reached, computed⟩ := System.exists_reachable_of_run (system .mutex 0)
    [.take, .step true, .step true, .step true, .step true, .give, .activate, .step true, .step true,
      .step true, .step true, .cancel, .step true, .step true, .step true, .step true, .step true,
      .post, .runHandler .cancelled, .runCancel, .step true, .step true, .dropHandle, .destroy]
    (fun op => decide (op.obtained = 1 ∧ op.delivered = [.cancelled] ∧ op.destroyed = true))
    (by decide +kernel)
  obtain ⟨obtained, delivered, destroyed⟩ := of_decide_eq_true computed
  obtain ⟨⟨-, -, gone⟩, ⟨-, returned, -⟩, -⟩ := qtCancellable_delivers_once reached
  exact ⟨op, reached, obtained, delivered, destroyed, returned (by simp [delivered]), (gone destroyed).2⟩

end NovaSync.QtCancellable
