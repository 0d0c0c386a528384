/-
**The cancellable libdispatch operations: one delivery, and who touches the source.**

`start()` runs before the caller has the handle. Then the event handler and the cancel handler of the dispatch
source run one at a time, any number of `cancel()` calls run beside them, and others lock and release as they
like. A `cancel()` stores the flag, tests `src_`, reads it again, and calls `dispatch_source_cancel` on what it has
read. The event handler looks at the flag once more after it has taken the lock; with a semaphore or an event it does
not. The cancel handler releases the source, and clears `src_` afterwards; nobody else writes `src_` by then, so that
its own test and its own reads are one access.

* `Operation` — the object, its dispatch source, the blocks on their way to the queue, and the supply that it
  shares with others.
* `Source` — a cancelled source runs its event handler no more, and its cancel handler once, after the event
  handler that is running.
* `Delivery` — who may call the handler, and who has the source. `handler_invoked_` is clear in every call of the
  event handler until that call exchanges it, so that the exchange never fails with the lock or a token in hand.
-/

import NovaSync.Concurrency.Transition

namespace NovaSync.DispatchCancellable

open Concurrency

/-! ### The operations -/

/-- `dispatch_acquire_cancellable_state`, `dispatch_semaphore_acquire_cancellable_state`, and
`dispatch_event_wait_cancellable_state` on an event of either sort. -/
inductive Kind
  | mutex
  | semaphore
  | event (autoReset : Bool)
deriving DecidableEq, Repr

/-- What a successful attempt takes: `try_wait` of a manual-reset event leaves the signal. -/
def Kind.cost : Kind → ℕ
  | .event false => 0
  | .mutex | .semaphore | .event true => 1

/-- What can be taken before anyone has taken anything. -/
def Kind.units : Kind → ℕ → ℕ
  | .mutex, _ => 1
  | .semaphore, tokens | .event _, tokens => tokens

/-- What the handler is called with: success, or `operation_canceled`. -/
inductive Outcome
  | acquired
  | cancelled
deriving DecidableEq, Repr

/-- The next access of `start()` or of the handler of the source that is running.

* `startFlag` to `startSubmit`: the checks, the attempt and the delivery of `start()`; `register`:
  `waiter_guard_.emplace`; `create`: from `dispatch_source_create` to `dispatch_resume`.
* `flag`, `attempt`: the event handler; `unregister`: the `release()` at the end of the guard's
  `try_acquire()`; `recheck`, `giveBack`: the look at the flag after the lock is taken; `mark`:
  `try_mark_invoked()`; `markReset`, `resetGuard`: the same before a `waiter_guard_.reset()`, and that;
  `cancelSource`: its `dispatch_source_cancel`.
* `release`, `clear`: the `dispatch_release` of the cancel handler, and its `src_ = nullptr`; `closeFlag`,
  `closeMark`, `closeReset`: what it does for a handler that has not been called.
* `submit`: the `dispatch_async` of the delivery. -/
inductive Point
  | idle
  | startFlag
  | startAttempt
  | startRecheck
  | startGiveBack
  | startMark (outcome : Outcome)
  | startSubmit (outcome : Outcome)
  | register
  | create
  | flag
  | attempt
  | unregister
  | recheck
  | giveBack
  | mark (outcome : Outcome)
  | markReset
  | resetGuard
  | cancelSource (outcome : Outcome)
  | submit (outcome : Outcome)
  | release
  | clear
  | closeFlag
  | closeMark
  | closeReset
deriving DecidableEq, Repr

/-- A dispatch source: resumed, cancelled, or cancelled with its cancel handler run. -/
inductive Source
  | active
  | cancelled
  | closed
deriving DecidableEq, Repr

/-- `dispatch_source_cancel`. -/
def Source.cancel : Source → Source
  | .active | .cancelled => .cancelled
  | .closed => .closed

/-- `source` is the dispatch source once it is created, and `src` is whether `src_` points to it. `waiterGuard` is
whether the guard is active, if there is one; `waiters` counts its registrations with the mutex. `successes` and
`cancellations` count the submitted blocks. `asking` counts the `cancel()` calls that have stored the flag and
not tested `src_` yet, `testing` those that have found it set, `calling` those that have read the pointer again.
`available` is the shared supply.

The rest is history: `taken` and `given` by others, `obtained` and `returned` by the operation, the calls of
`dispatch_release`, those of `dispatch_source_cancel` after one and those on a null pointer, and the calls of the
handler. -/
structure Operation where
  running : Point := .startFlag
  cancelled : Bool := false
  handlerInvoked : Bool := false
  source : Option Source := none
  src : Bool := false
  waiterGuard : Option Bool := none
  waiters : ℕ := 0
  successes : ℕ := 0
  cancellations : ℕ := 0
  asking : ℕ := 0
  testing : ℕ := 0
  calling : ℕ := 0
  available : ℕ := 0
  taken : ℕ := 0
  given : ℕ := 0
  obtained : ℕ := 0
  returned : ℕ := 0
  releases : ℕ := 0
  stale : ℕ := 0
  nulls : ℕ := 0
  delivered : List Outcome := []
deriving DecidableEq, Repr

/-- The running call takes its next access (an attempt finds something to take only if `lucky`), or the source
runs a handler; a `cancel()` stores the flag, tests `src_`, reads it, or calls `dispatch_source_cancel`; the queue
runs a block; another one takes or gives. -/
inductive Action
  | step (lucky : Bool)
  | fire
  | close
  | cancel
  | ask
  | read
  | call
  | runHandler (outcome : Outcome)
  | take
  | give
deriving DecidableEq, Repr

/-- `async_waiter_guard::release`. -/
def release (op : Operation) : Operation :=
  if op.waiterGuard = some true then
    { op with waiterGuard := some false, waiters := op.waiters - 1 }
  else op

/-- The attempt of `start()` or of the event handler. -/
def tryAcquire (kind : Kind) (lucky : Bool) (op : Operation) (found missed : Point) : Operation :=
  if lucky = true ∧ 0 < op.available then
    { op with available := op.available - kind.cost, obtained := op.obtained + 1, running := found }
  else { op with running := missed }

/-- `unlock()` or `release()`. -/
def unlock (op : Operation) (next : Point) : Operation :=
  { op with available := op.available + 1, returned := op.returned + 1, running := next }

/-- `dispatch_source_cancel( src_ )`. -/
def cancelSource (op : Operation) : Operation :=
  { op with
    source := op.source.map Source.cancel
    stale := if 0 < op.releases then op.stale + 1 else op.stale }

/-- `try_mark_invoked()`, and what follows a success. -/
def tryMarkInvoked (op : Operation) (next : Point) : Operation :=
  if op.handlerInvoked then { op with running := .idle }
  else { op with handlerInvoked := true, running := next }

/-- `dispatch_async` of the block that calls the handler. -/
def submit (op : Operation) : Outcome → Operation
  | .acquired => { op with successes := op.successes + 1, running := .idle }
  | .cancelled => { op with cancellations := op.cancellations + 1, running := .idle }

/-- The next access of the running call. -/
def advance (kind : Kind) (lucky : Bool) (op : Operation) : Option Operation :=
  match op.running with
  | .idle => none
  | .startFlag =>
      some { op with running := if op.cancelled then .startMark .cancelled else .startAttempt }
  | .startAttempt =>
      some (tryAcquire kind lucky op .startRecheck (if kind = .mutex then .register else .create))
  | .startRecheck =>
      some { op with running :=
        if op.cancelled then
          match kind with
          | .mutex | .semaphore => .startGiveBack
          | .event _ => .startMark .cancelled
        else .startMark .acquired }
  | .startGiveBack => some (unlock op (.startMark .cancelled))
  | .startMark outcome => some (tryMarkInvoked op (.startSubmit outcome))
  | .startSubmit outcome => some (submit op outcome)
  | .register => some { op with waiterGuard := some true, waiters := op.waiters + 1, running := .create }
  | .create => some { op with source := some .active, src := true, running := .idle }
  | .flag =>
      some { op with running :=
        if op.cancelled then
          if kind = .mutex then .markReset else .mark .cancelled
        else .attempt }
  | .attempt =>
      some (tryAcquire kind lucky op (if kind = .mutex then .unregister else .mark .acquired) .idle)
  | .unregister => some { release op with running := .recheck }
  | .recheck => some { op with running := if op.cancelled then .giveBack else .mark .acquired }
  | .giveBack => some (unlock op (.mark .cancelled))
  | .mark outcome => some (tryMarkInvoked op (.cancelSource outcome))
  | .markReset => some (tryMarkInvoked op .resetGuard)
  | .resetGuard => some { release op with waiterGuard := none, running := .cancelSource .cancelled }
  | .cancelSource outcome => some { cancelSource op with running := .submit outcome }
  | .submit outcome => some (submit op outcome)
  | .release =>
      some (if op.src then { op with releases := op.releases + 1, running := .clear }
        else { op with running := .closeFlag })
  | .clear => some { op with src := false, running := .closeFlag }
  | .closeFlag => some { op with running := if op.cancelled then .closeMark else .idle }
  | .closeMark =>
      some (tryMarkInvoked op (if kind = .mutex then .closeReset else .submit .cancelled))
  | .closeReset => some { release op with waiterGuard := none, running := .submit .cancelled }

/-- `start()` is running. -/
def Point.starting : Point → Bool
  | .startFlag | .startAttempt | .startRecheck | .startGiveBack | .startMark _ | .startSubmit _ => true
  | .register | .create => true
  | _ => false

/-- The operation after an action. A lock is given back by one who holds it; tokens are given by anyone. -/
def next (kind : Kind) (op : Operation) : Action → Option Operation
  | .step lucky => advance kind lucky op
  | .fire =>
      if op.running = .idle ∧ op.source = some .active then some { op with running := .flag } else none
  | .close =>
      if op.running = .idle ∧ op.source = some .cancelled then
        some { op with source := some .closed, running := .release }
      else none
  | .cancel =>
      if op.running.starting = false then
        some { op with cancelled := true, asking := op.asking + 1 }
      else none
  | .ask =>
      if 0 < op.asking then
        some { op with asking := op.asking - 1, testing := if op.src then op.testing + 1 else op.testing }
      else none
  | .read =>
      if 0 < op.testing then
        some { op with
          testing := op.testing - 1
          calling := if op.src then op.calling + 1 else op.calling
          nulls := if op.src then op.nulls else op.nulls + 1 }
      else none
  | .call =>
      if 0 < op.calling then some { cancelSource op with calling := op.calling - 1 } else none
  | .runHandler .acquired =>
      if 0 < op.successes then
        some { op with successes := op.successes - 1, delivered := .acquired :: op.delivered }
      else none
  | .runHandler .cancelled =>
      if 0 < op.cancellations then
        some { op with cancellations := op.cancellations - 1, delivered := .cancelled :: op.delivered }
      else none
  | .take =>
      if 0 < op.available then
        some { op with available := op.available - 1, taken := op.taken + 1 }
      else none
  | .give =>
      if kind = .mutex → op.given < op.taken + op.delivered.count .acquired then
        some { op with available := op.available + 1, given := op.given + 1 }
      else none

/-- An operation whose `start()` is about to run. -/
def system (kind : Kind) (tokens : ℕ) : System Operation Action where
  start := { available := kind.units tokens }
  next := next kind

/-! ### Who may call the handler -/

variable {kind : Kind} {tokens : ℕ}

/-- The call has not come to its exchange of `handler_invoked_`, and is one of `start()` or of the event
handler. -/
def Point.fresh : Point → Bool
  | .startFlag | .startAttempt | .startRecheck | .startGiveBack | .startMark _ | .register | .create => true
  | .flag | .attempt | .unregister | .recheck | .giveBack | .mark _ | .markReset => true
  | _ => false

/-- The call has exchanged `handler_invoked_` and not submitted its block. -/
def Point.posting : Point → Bool
  | .startSubmit _ | .resetGuard | .cancelSource _ | .submit _ | .closeReset => true
  | _ => false

/-- The event handler is running and has not called `dispatch_source_cancel`. -/
def Point.handling : Point → Bool
  | .flag | .attempt | .unregister | .recheck | .giveBack | .mark _ | .markReset => true
  | .resetGuard | .cancelSource _ => true
  | _ => false

/-- The cancel handler is running and has not come to its exchange. -/
def Point.closing : Point → Bool
  | .release | .clear | .closeFlag | .closeMark => true
  | _ => false

/-- The cancel handler is running and has not cleared `src_`. -/
def Point.clearing : Point → Bool
  | .release | .clear => true
  | _ => false

/-- `src_` points to a source that has been released. -/
def Point.dangling : Point → Bool
  | .clear => true
  | _ => false

/-- **Who may call the handler, and who has the source.** -/
structure Delivery (op : Operation) : Prop where
  fresh : op.running.fresh = true → op.handlerInvoked = false
  once : op.running.posting.toNat + op.successes + op.cancellations + op.delivered.length =
    op.handlerInvoked.toNat
  early : op.running.starting = true →
    op.source = none ∧ op.asking = 0 ∧ op.testing = 0 ∧ op.calling = 0 ∧ op.cancelled = false
  created : op.running.starting = false → op.source = none → op.handlerInvoked = true
  live : op.source = some .active → op.handlerInvoked = true →
    op.running = .resetGuard ∨ ∃ outcome, op.running = .cancelSource outcome
  handling : op.running.handling = true → op.source = some .active ∨ op.source = some .cancelled
  closing : op.running.closing = true → op.source = some .closed
  src : op.src = true ↔
    op.source = some .active ∨ op.source = some .cancelled ∨ op.running.clearing = true
  releases : op.releases + op.src.toNat = op.source.isSome.toNat + op.running.dangling.toNat
  calls : 0 < op.testing ∨ 0 < op.calling → op.source ≠ none
  asks : 0 < op.asking ∨ 0 < op.testing ∨ 0 < op.calling → op.cancelled = true
  set : op.source = some .cancelled ∨ op.source = some .closed →
    op.cancelled = true ∨ op.handlerInvoked = true
  asked : op.cancelled = true → 0 < op.asking ∨ 0 < op.testing ∨ 0 < op.calling ∨
    op.handlerInvoked = true ∨ op.source = some .cancelled ∨ op.source = some .closed
  finished : op.source = some .closed → op.running.closing = false → op.handlerInvoked = true

theorem delivery_start : Delivery (system kind tokens).start where
  fresh _ := rfl
  once := rfl
  early _ := ⟨rfl, rfl, rfl, rfl, rfl⟩
  created started := by cases started
  live source := by cases source
  handling handling := by cases handling
  closing closing := by cases closing
  src := by simp [system, Point.clearing]
  releases := rfl
  calls positive := absurd positive (by simp [system])
  asks positive := absurd positive (by simp [system])
  set source := by rcases source with source | source <;> cases source
  asked cancelled := by cases cancelled
  finished source := by cases source

section Steps

variable {op after : Operation} {point : Point} {outcome : Outcome}

/-- From an access of a call before its exchange to another one of the same call, or to its end. -/
def Point.onward (before after : Point) : Bool :=
  before.fresh && (after.starting == before.starting) &&
    (after.fresh && after.handling == before.handling || decide (after = .idle))

theorem Point.of_fresh (fresh : point.fresh = true) : point.posting = false ∧ point.closing = false := by
  cases point with
  | startFlag | startAttempt | startRecheck | startGiveBack | startMark | register | create => exact ⟨rfl, rfl⟩
  | flag | attempt | unregister | recheck | giveBack | mark | markReset => exact ⟨rfl, rfl⟩
  | _ => cases fresh

theorem Point.of_posting (posting : point.posting = true) :
    point.fresh = false ∧ point.closing = false := by
  cases point with
  | startSubmit | resetGuard | cancelSource | submit | closeReset => exact ⟨rfl, rfl⟩
  | _ => cases posting

theorem Point.closing_of_clearing (clearing : point.clearing = true) : point.closing = true := by
  cases point with
  | release | clear => rfl
  | _ => cases clearing

theorem Point.clearing_of_closing (unclosed : point.closing = false) : point.clearing = false := by
  cases point with
  | release | clear => cases unclosed
  | _ => rfl

theorem Point.dangling_eq_false (apart : point ≠ .clear) : point.dangling = false := by
  cases point with
  | clear => exact absurd rfl apart
  | _ => rfl

/-- **A call that is not between the release of the source and the clearing of `src_`**, before and after. -/
theorem Delivery.keeps (delivery : Delivery op) (before : op.running.clearing = false)
    (later : point.clearing = false) :
    (op.src = true ↔ op.source = some .active ∨ op.source = some .cancelled ∨ point.clearing = true) ∧
      op.releases + op.src.toNat = op.source.isSome.toNat + point.dangling.toNat := by
  have settled : ∀ {point : Point}, point.clearing = false → point.dangling = false := fun apart =>
    Point.dangling_eq_false fun here => by
      rw [here] at apart
      cases apart
  have src := delivery.src
  have releases := delivery.releases
  rw [before] at src
  rw [settled before] at releases
  rw [later, settled later]
  exact ⟨src, releases⟩

theorem Point.onward_cases {before after : Point} (onward : before.onward after = true) :
    before.fresh = true ∧ after.starting = before.starting ∧
      (after.handling = true → before.handling = true) ∧ after.posting = false ∧
      after.closing = false ∧ before.posting = false ∧ before.closing = false := by
  simp only [Point.onward, Bool.and_eq_true, Bool.or_eq_true, beq_iff_eq, decide_eq_true_eq] at onward
  obtain ⟨⟨fresh, starting⟩, same | idle⟩ := onward
  · refine ⟨fresh, starting, fun handling => same.2 ▸ handling, ?_⟩
    obtain ⟨later, -⟩ := same
    obtain ⟨posting, closing⟩ := Point.of_fresh later
    exact ⟨posting, closing, Point.of_fresh fresh⟩
  · subst idle
    exact ⟨fresh, starting, nofun, rfl, rfl, Point.of_fresh fresh⟩

/-- **A call that goes on** and has not come to its exchange. -/
theorem Delivery.goes (delivery : Delivery op) (onward : op.running.onward point = true)
    {waiterGuard : Option Bool} {waiters available obtained returned : ℕ} :
    Delivery { op with
      running := point, waiterGuard := waiterGuard, waiters := waiters, available := available,
      obtained := obtained, returned := returned } := by
  obtain ⟨fresh, starting, handling, posting, closing, unposted, unclosed⟩ := Point.onward_cases onward
  have clear := delivery.fresh fresh
  have once := delivery.once
  obtain ⟨src, releases⟩ :=
    delivery.keeps (Point.clearing_of_closing unclosed) (Point.clearing_of_closing closing)
  refine { delivery with
    fresh := fun _ => clear
    once := ?_
    early := fun early => delivery.early (starting ▸ early)
    created := fun started => delivery.created (starting ▸ started)
    live := fun _ invoked => ?_
    handling := fun here => delivery.handling (handling here)
    closing := fun here => ?_
    src := src
    releases := releases
    finished := fun source _ => delivery.finished source unclosed }
  · rw [unposted] at once
    show point.posting.toNat + _ + _ + _ = _
    rw [posting]
    exact once
  · rw [clear] at invoked
    cases invoked
  · rw [closing] at here
    cases here

/-- The call is over. -/
theorem Delivery.idle (delivery : Delivery op) (unposted : op.running.posting = false)
    (invoked : op.running.starting = true ∨ op.running.closing = true → op.handlerInvoked = true)
    (cleared : op.running.clearing = false) : Delivery { op with running := .idle } := by
  have once := delivery.once
  obtain ⟨src, releases⟩ := delivery.keeps cleared (rfl : Point.idle.clearing = false)
  refine { delivery with
    fresh := fun fresh => by cases fresh
    once := ?_
    early := fun early => by cases early
    created := fun _ source => ?_
    live := fun source marked => ?_
    handling := fun handling => by cases handling
    closing := fun closing => by cases closing
    src := src
    releases := releases
    finished := fun source _ => ?_ }
  · rw [unposted] at once
    exact once
  · cases starting : op.running.starting with
    | true => exact invoked (Or.inl starting)
    | false => exact delivery.created starting source
  · rcases delivery.live source marked with here | ⟨outcome, here⟩ <;> rw [here] at unposted <;> cases unposted
  · cases closing : op.running.closing with
    | true => exact invoked (Or.inr closing)
    | false => exact delivery.finished source closing

/-- **The exchange**: the first one is followed by a posting, and a later one ends the call. -/
theorem Delivery.marks (delivery : Delivery op) (unposted : op.running.posting = false)
    (cleared : op.running.clearing = false) (posting : point.posting = true)
    (starting : point.starting = op.running.starting) (handling : point.handling = op.running.handling)
    (live : op.source = some .active → point = .resetGuard ∨ ∃ outcome, point = .cancelSource outcome) :
    Delivery (tryMarkInvoked op point) := by
  unfold tryMarkInvoked
  split
  · rename_i invoked
    exact delivery.idle unposted (fun _ => invoked) cleared
  · rename_i clear
    obtain ⟨stale, unclosed⟩ := Point.of_posting posting
    have once := delivery.once
    obtain ⟨src, releases⟩ := delivery.keeps cleared (Point.clearing_of_closing unclosed)
    rw [unposted, Bool.eq_false_iff.mpr clear] at once
    refine { delivery with
      fresh := fun fresh => ?_
      once := ?_
      early := fun early => delivery.early (starting ▸ early)
      created := fun _ _ => rfl
      live := fun source _ => live source
      handling := fun here => delivery.handling (handling ▸ here)
      closing := fun here => ?_
      src := src
      releases := releases
      set := fun _ => Or.inr rfl
      asked := fun _ => Or.inr (Or.inr (Or.inr (Or.inl rfl)))
      finished := fun _ _ => rfl }
    · rw [stale] at fresh
      cases fresh
    · simp only [posting, Bool.toNat_true, Bool.toNat_false] at once ⊢
      omega
    · rw [unclosed] at here
      cases here

/-- A call that has exchanged `handler_invoked_` and not submitted its block. -/
theorem Delivery.invoked (delivery : Delivery op) (posting : op.running.posting = true) :
    op.handlerInvoked = true := by
  have once := delivery.once
  by_contra clear
  rw [posting, Bool.eq_false_iff.mpr clear, Bool.toNat_true, Bool.toNat_false] at once
  omega

/-- **The submission** of the block. -/
theorem Delivery.submits (delivery : Delivery op) (posting : op.running.posting = true)
    (cancelled : op.running.handling = false) (outcome : Outcome) : Delivery (submit op outcome) := by
  have once := delivery.once
  have invoked := delivery.invoked posting
  rw [posting, invoked, Bool.toNat_true] at once
  have gone : op.source ≠ some .active := fun source => by
    rcases delivery.live source invoked with here | ⟨outcome, here⟩ <;> rw [here] at cancelled <;> cases cancelled
  obtain ⟨src, releases⟩ := delivery.keeps (Point.clearing_of_closing (Point.of_posting posting).2)
    (rfl : Point.idle.clearing = false)
  have closing : ∀ {successes cancellations : ℕ}, successes + cancellations = op.successes + op.cancellations + 1 →
      Delivery { op with successes := successes, cancellations := cancellations, running := .idle } := by
    intro successes cancellations counted
    refine { delivery with
      fresh := fun fresh => by cases fresh
      once := ?_
      early := fun early => by cases early
      created := fun _ _ => invoked
      live := fun source _ => absurd source gone
      handling := fun handling => by cases handling
      closing := fun closing => by cases closing
      src := src
      releases := releases
      finished := fun _ _ => invoked }
    show _ + successes + cancellations + _ = op.handlerInvoked.toNat
    rw [invoked]
    simp only [Point.posting, Bool.toNat_true, Bool.toNat_false]
    omega
  cases outcome with
  | acquired => exact closing (by omega)
  | cancelled => exact closing (by omega)

/-- **`dispatch_source_cancel`**, by the event handler or by a `cancel()` that has stored the flag. -/
theorem Delivery.cancelsSource (delivery : Delivery op)
    (set : op.cancelled = true ∨ op.handlerInvoked = true) : Delivery (cancelSource op) := by
  have src := delivery.src
  have releases := delivery.releases
  refine { delivery with
    early := fun early => ?_
    created := fun started source => ?_
    live := fun source => ?_
    handling := fun handling => ?_
    closing := fun closing => ?_
    src := ?_
    releases := ?_
    calls := fun positive => ?_
    set := fun _ => set
    asked := fun cancelled => ?_
    finished := fun source => ?_ }
  · obtain ⟨none, rest⟩ := delivery.early early
    exact ⟨by simp [cancelSource, none], rest⟩
  · exact delivery.created started (by simpa [cancelSource] using source)
  · simp only [cancelSource] at source
    cases here : op.source with
    | none => simp [here] at source
    | some state => cases state <;> simp [here, Source.cancel] at source
  · rcases delivery.handling handling with here | here <;> simp [cancelSource, here, Source.cancel]
  · simp [cancelSource, delivery.closing closing, Source.cancel]
  · cases here : op.source with
    | none => simpa [cancelSource, here] using src
    | some state => cases state <;> simpa [cancelSource, here, Source.cancel] using src
  · simpa [cancelSource] using releases
  · simpa [cancelSource] using delivery.calls positive
  · rcases delivery.asked cancelled with asking | testing | calling | invoked | here | here
    · exact Or.inl asking
    · exact Or.inr (Or.inl testing)
    · exact Or.inr (Or.inr (Or.inl calling))
    · exact Or.inr (Or.inr (Or.inr (Or.inl invoked)))
    · simp [cancelSource, here, Source.cancel]
    · simp [cancelSource, here, Source.cancel]
  · refine delivery.finished ?_
    simp only [cancelSource] at source
    cases here : op.source with
    | none => simp [here] at source
    | some state => cases state <;> simp_all [Source.cancel]

/-- `dispatch_resume` ends `start()` with a live source. -/
theorem Delivery.creates (delivery : Delivery op) (here : op.running = .create) :
    Delivery { op with source := some .active, src := true, running := .idle } := by
  have clear := delivery.fresh (by rw [here]; rfl)
  obtain ⟨none, asking, testing, calling, cancelled⟩ := delivery.early (by rw [here]; rfl)
  have once := delivery.once
  have src := delivery.src
  have releases := delivery.releases
  rw [here] at once src releases
  refine { delivery with
    fresh := fun fresh => by cases fresh
    once := once
    early := fun early => by cases early
    created := fun _ source => by cases source
    live := fun _ invoked => ?_
    handling := fun handling => by cases handling
    closing := fun closing => by cases closing
    src := ⟨fun _ => Or.inl rfl, fun _ => rfl⟩
    releases := ?_
    calls := fun _ source => by cases source
    set := fun source => ?_
    asked := fun set => ?_
    finished := fun source => by cases source }
  · rw [clear] at invoked
    cases invoked
  · simp only [none, Point.clearing, reduceCtorEq, Bool.false_eq_true, or_self, iff_false, Bool.not_eq_true]
      at src
    rw [src, none] at releases
    simpa [Point.dangling] using releases
  · rcases source with source | source <;> cases source
  · rw [cancelled] at set
    cases set

theorem Delivery.src_of_clearing (delivery : Delivery op) (clearing : op.running.clearing = true) :
    op.src = true :=
  delivery.src.mpr (Or.inr (Or.inr clearing))

/-- The cancel handler lets go of the source, to which `src_` still points. -/
theorem Delivery.releasesSource (delivery : Delivery op) (here : op.running = .release) :
    Delivery { op with releases := op.releases + 1, running := .clear } := by
  have held := delivery.src_of_clearing (by rw [here]; rfl)
  have closed := delivery.closing (by rw [here]; rfl)
  have once := delivery.once
  have releases := delivery.releases
  rw [here] at once releases
  refine { delivery with
    fresh := fun fresh => by cases fresh
    once := once
    early := fun early => by cases early
    created := fun _ source => ?_
    live := fun source => ?_
    handling := fun handling => by cases handling
    closing := fun _ => closed
    src := ⟨fun _ => Or.inr (Or.inr rfl), fun _ => held⟩
    releases := ?_
    finished := fun _ closing => by cases closing }
  · rw [closed] at source
    cases source
  · rw [closed] at source
    cases source
  · simp only [Point.dangling, Bool.toNat_false, Bool.toNat_true] at releases ⊢
    omega

/-- And it clears `src_`. -/
theorem Delivery.clears (delivery : Delivery op) (here : op.running = .clear) :
    Delivery { op with src := false, running := .closeFlag } := by
  have held := delivery.src_of_clearing (by rw [here]; rfl)
  have closed := delivery.closing (by rw [here]; rfl)
  have once := delivery.once
  have releases := delivery.releases
  rw [here] at once
  rw [here, held] at releases
  refine { delivery with
    fresh := fun fresh => by cases fresh
    once := once
    early := fun early => by cases early
    created := fun _ source => ?_
    live := fun source => ?_
    handling := fun handling => by cases handling
    closing := fun _ => closed
    src := ?_
    releases := ?_
    finished := fun _ closing => by cases closing }
  · rw [closed] at source
    cases source
  · rw [closed] at source
    cases source
  · simp [closed, Point.clearing]
  · simpa [Point.dangling] using releases

/-- The cancel handler goes on to its exchange. -/
theorem Delivery.closes (delivery : Delivery op) (here : op.running = .closeFlag) :
    Delivery { op with running := .closeMark } := by
  have closed := delivery.closing (by rw [here]; rfl)
  have once := delivery.once
  obtain ⟨src, releases⟩ := delivery.keeps (by rw [here]; rfl) (rfl : Point.closeMark.clearing = false)
  rw [here] at once
  refine { delivery with
    fresh := fun fresh => by cases fresh
    once := once
    early := fun early => by cases early
    created := fun _ source => ?_
    live := fun source => ?_
    handling := fun handling => by cases handling
    closing := fun _ => closed
    src := src
    releases := releases
    finished := fun _ closing => by cases closing }
  · rw [closed] at source
    cases source
  · rw [closed] at source
    cases source

/-- **A call that goes on** between its exchange and the submission. -/
theorem Delivery.proceeds (delivery : Delivery op) (posting : op.running.posting = true)
    (later : point.posting = true) (starting : point.starting = op.running.starting)
    (handling : point.handling = true → op.running.handling = true)
    (live : op.source = some .active → op.running = .resetGuard → ∃ outcome, point = .cancelSource outcome)
    (before : op.source = some .active → ∀ outcome, op.running ≠ .cancelSource outcome)
    {waiterGuard : Option Bool} {waiters : ℕ} :
    Delivery { op with waiterGuard := waiterGuard, waiters := waiters, running := point } := by
  obtain ⟨stale, unclosed⟩ := Point.of_posting later
  obtain ⟨-, unclosed'⟩ := Point.of_posting posting
  have once := delivery.once
  obtain ⟨src, releases⟩ :=
    delivery.keeps (Point.clearing_of_closing unclosed') (Point.clearing_of_closing unclosed)
  refine { delivery with
    fresh := fun fresh => ?_
    once := ?_
    early := fun early => delivery.early (starting ▸ early)
    created := fun started => delivery.created (starting ▸ started)
    live := fun source invoked => ?_
    handling := fun here => delivery.handling (handling here)
    closing := fun here => ?_
    src := src
    releases := releases
    finished := fun source _ => delivery.finished source unclosed' }
  · rw [stale] at fresh
    cases fresh
  · rw [posting] at once
    show point.posting.toNat + _ + _ + _ = _
    rw [later]
    exact once
  · rcases delivery.live source invoked with here | ⟨outcome, here⟩
    · exact Or.inr (live source here)
    · exact absurd here (before source outcome)
  · rw [unclosed] at here
    cases here

/-- A cancelled source is not live. -/
theorem cancelSource_ne_active (op : Operation) : (cancelSource op).source ≠ some .active := by
  simp only [cancelSource, ne_eq, Option.map_eq_some_iff, not_exists, not_and]
  intro source _
  cases source <;> nofun

/-- `release` touches the guard and its registration only. -/
theorem release_eq (op : Operation) :
    ∃ waiterGuard waiters, release op = { op with waiterGuard := waiterGuard, waiters := waiters } := by
  unfold release
  split
  · exact ⟨_, _, rfl⟩
  · exact ⟨_, _, rfl⟩

/-- **The running call keeps the invariant.** -/
theorem Delivery.advance (delivery : Delivery op) {lucky : Bool}
    (stepped : advance kind lucky op = some after) : Delivery after := by
  unfold DispatchCancellable.advance at stepped
  cases here : op.running with
  | idle =>
    rw [here] at stepped
    cases stepped
  | startFlag | recheck =>
    rw [here] at stepped
    cases stepped
    refine delivery.goes ?_
    rw [here]
    split <;> rfl
  | flag =>
    rw [here] at stepped
    cases stepped
    refine delivery.goes ?_
    rw [here]
    cases kind <;> split <;> rfl
  | startRecheck =>
    rw [here] at stepped
    cases stepped
    refine delivery.goes ?_
    rw [here]
    split
    · cases kind <;> rfl
    · rfl
  | startAttempt | attempt =>
    rw [here] at stepped
    cases stepped
    unfold tryAcquire
    split <;> refine delivery.goes ?_ <;> rw [here] <;> cases kind <;> rfl
  | startGiveBack | giveBack | register =>
    rw [here] at stepped
    cases stepped
    refine delivery.goes ?_
    rw [here]
    rfl
  | unregister =>
    rw [here] at stepped
    cases stepped
    obtain ⟨waiterGuard, waiters, released⟩ := release_eq op
    rw [released]
    refine delivery.goes ?_
    rw [here]
    rfl
  | create =>
    rw [here] at stepped
    cases stepped
    exact delivery.creates here
  | startMark outcome =>
    rw [here] at stepped
    cases stepped
    obtain ⟨none, -⟩ := delivery.early (by rw [here]; rfl)
    refine delivery.marks ?_ ?_ rfl ?_ ?_ fun source => ?_
    · rw [here]
      rfl
    · rw [here]
      rfl
    · rw [here]
      rfl
    · rw [here]
      rfl
    · rw [none] at source
      cases source
  | mark outcome =>
    rw [here] at stepped
    cases stepped
    refine delivery.marks ?_ ?_ rfl ?_ ?_ fun _ => Or.inr ⟨outcome, rfl⟩ <;> rw [here] <;> rfl
  | markReset =>
    rw [here] at stepped
    cases stepped
    refine delivery.marks ?_ ?_ rfl ?_ ?_ fun _ => Or.inl rfl <;> rw [here] <;> rfl
  | closeMark =>
    rw [here] at stepped
    cases stepped
    have closed := delivery.closing (by rw [here]; rfl)
    refine delivery.marks ?_ ?_ ?_ ?_ ?_ fun source => ?_
    · rw [here]
      rfl
    · rw [here]
      rfl
    · split <;> rfl
    · rw [here]
      split <;> rfl
    · rw [here]
      split <;> rfl
    · rw [closed] at source
      cases source
  | startSubmit outcome | submit outcome =>
    rw [here] at stepped
    cases stepped
    exact delivery.submits (by rw [here]; rfl) (by rw [here]; rfl) outcome
  | resetGuard =>
    rw [here] at stepped
    cases stepped
    obtain ⟨waiterGuard, waiters, released⟩ := release_eq op
    rw [released]
    refine delivery.proceeds ?_ rfl ?_ (fun _ => ?_) (fun _ _ => ⟨_, rfl⟩) fun _ outcome => ?_ <;> rw [here]
    · rfl
    · rfl
    · rfl
    · nofun
  | closeReset =>
    rw [here] at stepped
    cases stepped
    obtain ⟨waiterGuard, waiters, released⟩ := release_eq op
    rw [released]
    refine delivery.proceeds ?_ rfl ?_ (fun handling => ?_) (fun _ same => ?_) fun _ outcome => ?_
    · rw [here]
      rfl
    · rw [here]
      rfl
    · cases handling
    · rw [here] at same
      cases same
    · rw [here]
      nofun
  | cancelSource outcome =>
    rw [here] at stepped
    cases stepped
    have posting : op.running.posting = true := by
      rw [here]
      rfl
    have gone := cancelSource_ne_active op
    refine (delivery.cancelsSource (Or.inr (delivery.invoked posting))).proceeds posting rfl ?_
      (fun handling => ?_) (fun source => absurd source gone) fun source => absurd source gone
    · show _ = op.running.starting
      rw [here]
      rfl
    · cases handling
  | release =>
    rw [here] at stepped
    cases stepped
    rw [if_pos (delivery.src_of_clearing (by rw [here]; rfl))]
    exact delivery.releasesSource here
  | clear =>
    rw [here] at stepped
    cases stepped
    exact delivery.clears here
  | closeFlag =>
    rw [here] at stepped
    cases stepped
    split
    · exact delivery.closes here
    · rename_i unset
      have closed := delivery.closing (by rw [here]; rfl)
      refine delivery.idle ?_ (fun _ => ?_) ?_
      · rw [here]
        rfl
      · exact (delivery.set (Or.inr closed)).resolve_left unset
      · rw [here]
        rfl

/-- `src_` points to a source. -/
theorem Delivery.present (delivery : Delivery op) (held : op.src = true) : op.source ≠ none := by
  intro none
  rcases delivery.src.mp held with source | source | clearing
  · rw [none] at source
    cases source
  · rw [none] at source
    cases source
  · have closed : op.source = some .closed := delivery.closing (Point.closing_of_clearing clearing)
    rw [none] at closed
    cases closed

/-- After `start()`, a null `src_` means that there never was a source, or that its cancel handler has run. -/
theorem Delivery.absent (delivery : Delivery op) (started : op.running.starting = false)
    (null : op.src = false) : op.handlerInvoked = true ∨ op.source = some .closed := by
  have src := delivery.src
  rw [null] at src
  cases source : op.source with
  | none => exact Or.inl (delivery.created started source)
  | some state =>
    cases state with
    | active => exact absurd (src.mpr (Or.inl source)) Bool.false_ne_true
    | cancelled => exact absurd (src.mpr (Or.inr (Or.inl source))) Bool.false_ne_true
    | closed => exact Or.inr rfl

/-- **Every action keeps the invariant.** -/
theorem Delivery.next (delivery : Delivery op) {action : Action}
    (taken : DispatchCancellable.next kind op action = some after) : Delivery after := by
  have once := delivery.once
  have src := delivery.src
  cases action with
  | step lucky => exact delivery.advance taken
  | fire =>
    simp only [DispatchCancellable.next, Option.ite_none_right_eq_some, Option.some.injEq] at taken
    obtain ⟨⟨idle, source⟩, rfl⟩ := taken
    have clear : op.handlerInvoked = false := by
      by_contra invoked
      rcases delivery.live source (eq_true_of_ne_false invoked) with here | ⟨outcome, here⟩ <;>
        rw [idle] at here <;> cases here
    rw [idle] at once
    obtain ⟨src, releases⟩ := delivery.keeps (by rw [idle]; rfl) (rfl : Point.flag.clearing = false)
    refine { delivery with
      fresh := fun _ => clear
      once := once
      early := fun early => by cases early
      created := fun _ none => ?_
      live := fun _ invoked => ?_
      handling := fun _ => Or.inl source
      closing := fun closing => by cases closing
      src := src
      releases := releases
      finished := fun closed => ?_ }
    · rw [source] at none
      cases none
    · rw [clear] at invoked
      cases invoked
    · rw [source] at closed
      cases closed
  | close =>
    simp only [DispatchCancellable.next, Option.ite_none_right_eq_some, Option.some.injEq] at taken
    obtain ⟨⟨idle, source⟩, rfl⟩ := taken
    have releases := delivery.releases
    rw [idle, source] at releases
    rw [idle] at once
    refine { delivery with
      fresh := fun fresh => by cases fresh
      once := once
      early := fun early => by cases early
      created := fun _ none => by cases none
      live := fun active => by cases active
      handling := fun handling => by cases handling
      closing := fun _ => rfl
      src := ⟨fun _ => Or.inr (Or.inr rfl), fun _ => src.mpr (Or.inr (Or.inl source))⟩
      releases := releases
      calls := fun _ none => by cases none
      set := fun _ => delivery.set (Or.inl source)
      asked := fun _ => Or.inr (Or.inr (Or.inr (Or.inr (Or.inr rfl))))
      finished := fun _ closing => by cases closing }
  | cancel =>
    simp only [DispatchCancellable.next, Option.ite_none_right_eq_some, Option.some.injEq] at taken
    obtain ⟨started, rfl⟩ := taken
    refine { delivery with
      early := fun early => ?_
      asks := fun _ => rfl
      set := fun _ => Or.inl rfl
      asked := fun _ => Or.inl (Nat.succ_pos _) }
    change op.running.starting = true at early
    rw [started] at early
    cases early
  | ask =>
    simp only [DispatchCancellable.next, Option.ite_none_right_eq_some, Option.some.injEq] at taken
    obtain ⟨asking, rfl⟩ := taken
    have started : op.running.starting = false := by
      by_contra early
      obtain ⟨-, none, -⟩ := delivery.early (eq_true_of_ne_false early)
      omega
    refine { delivery with
      early := fun early => ?_
      calls := fun positive => ?_
      asks := fun _ => delivery.asks (Or.inl asking)
      asked := fun set => ?_ }
    · change op.running.starting = true at early
      rw [started] at early
      cases early
    · cases held : op.src with
      | true => exact delivery.present held
      | false =>
        rw [held] at positive
        exact delivery.calls positive
    · cases held : op.src with
      | true => exact Or.inr (Or.inl (Nat.succ_pos _))
      | false =>
        rcases delivery.absent started held with invoked | source
        · exact Or.inr (Or.inr (Or.inr (Or.inl invoked)))
        · exact Or.inr (Or.inr (Or.inr (Or.inr (Or.inr source))))
  | read =>
    simp only [DispatchCancellable.next, Option.ite_none_right_eq_some, Option.some.injEq] at taken
    obtain ⟨testing, rfl⟩ := taken
    have started : op.running.starting = false := by
      by_contra early
      obtain ⟨-, -, none, -⟩ := delivery.early (eq_true_of_ne_false early)
      omega
    refine { delivery with
      early := fun early => ?_
      calls := fun _ => delivery.calls (Or.inl testing)
      asks := fun _ => delivery.asks (Or.inr (Or.inl testing))
      asked := fun set => ?_ }
    · change op.running.starting = true at early
      rw [started] at early
      cases early
    · cases held : op.src with
      | true => exact Or.inr (Or.inr (Or.inl (Nat.succ_pos _)))
      | false =>
        rcases delivery.absent started held with invoked | source
        · exact Or.inr (Or.inr (Or.inr (Or.inl invoked)))
        · exact Or.inr (Or.inr (Or.inr (Or.inr (Or.inr source))))
  | call =>
    simp only [DispatchCancellable.next, Option.ite_none_right_eq_some, Option.some.injEq] at taken
    obtain ⟨calling, rfl⟩ := taken
    have set := delivery.asks (Or.inr (Or.inr calling))
    have touched := delivery.cancelsSource (Or.inl set)
    have present := touched.calls (Or.inr calling)
    refine { touched with
      early := fun early => ?_
      calls := fun _ => present
      asks := fun _ => set
      asked := fun _ => ?_ }
    · obtain ⟨-, -, -, none, -⟩ := delivery.early early
      omega
    · have gone := cancelSource_ne_active op
      refine Or.inr (Or.inr (Or.inr (Or.inr ?_)))
      show (cancelSource op).source = _ ∨ (cancelSource op).source = _
      cases source : (cancelSource op).source with
      | none => exact absurd source present
      | some state =>
        cases state with
        | active => exact absurd source gone
        | cancelled => exact Or.inl rfl
        | closed => exact Or.inr rfl
  | runHandler outcome =>
    cases outcome <;>
      simp only [DispatchCancellable.next, Option.ite_none_right_eq_some, Option.some.injEq] at taken <;>
      obtain ⟨positive, rfl⟩ := taken <;>
      refine { delivery with once := ?_ } <;>
      simp only [List.length_cons] <;>
      omega
  | take | give =>
    simp only [DispatchCancellable.next, Option.ite_none_right_eq_some, Option.some.injEq] at taken
    obtain ⟨-, rfl⟩ := taken
    exact { delivery with }

end Steps

end NovaSync.DispatchCancellable
