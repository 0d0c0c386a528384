/-
**The libdispatch operations without a handle.**

Any number of operations, each with a handler or with a future, share a mutex, a semaphore or an event with
others. An operation that finds nothing at its first attempt makes a dispatch source. With a handler it keeps this
source until an attempt of the event handler succeeds; with a future each attempt cancels its source, and one that
fails has the next source made by a block on the queue. The cancel handler of each source releases it.

* `Place` — what carries an operation: running code, a block on its way to a queue, its live source, or the
  delivery; `Place.onward` is the way from place to place.
* `Sound` — an operation is at one place at a time.
* `dispatchOperations_once` — at most one delivery, at most one live source, and no source released twice or
  kept.
-/

import NovaSync.Concurrency.Threads
import NovaSync.Support.DispatchCancellable

set_option linter.unusedSectionVars false

namespace NovaSync.DispatchOperations

open Concurrency
open DispatchCancellable (Kind Source)

/-! ### The operations -/

/-- `async_acquire` or `async_wait` with a handler, that is `dispatch_acquire_state`,
`dispatch_semaphore_acquire_state` and `dispatch_event_wait_state`, and those that return a future. -/
inductive Form
  | handler
  | future
deriving DecidableEq, Repr

/-- The next access of the code of an operation.

* `tryAcquire`: the first attempt; `register`: the construction of the guard.
* `create`: from `dispatch_source_create` to `dispatch_resume`, in `start()` or in `retry_func`.
* `attempt`: the event handler; `unregister`: the `release()` at the end of the guard's `try_acquire()`;
  `cancelSource`: its `dispatch_source_cancel`.
* `submit true`: the `dispatch_async` of the block that calls the handler or sets the promise; `submit false`: of
  `retry_func`. -/
inductive Point
  | idle
  | tryAcquire
  | register
  | create
  | attempt
  | unregister
  | cancelSource (found : Bool)
  | submit (found : Bool)
deriving DecidableEq, Repr

/-- `sources` are the dispatch sources, the newest first; `src` is whether `src_` points to one. `waiterGuard` is
whether the guard is active, if there is one. `completions` and `retries` count the blocks on the queues. `owns`
is whether the one who has been called, or another user of the mutex, has it.

`releases` and `delivered` are history: the calls of `dispatch_release`, and those of the handler or of
`set_value`. -/
structure Operation where
  form : Option Form := none
  running : Point := .idle
  sources : List Source := []
  src : Bool := false
  waiterGuard : Option Bool := none
  completions : ℕ := 0
  retries : ℕ := 0
  owns : Bool := false
  destroyed : Bool := false
  releases : ℕ := 0
  delivered : ℕ := 0
deriving DecidableEq, Repr

/-- The shared supply and the registrations with the mutex, with what others have taken and what has been
given. -/
structure Memory where
  available : ℕ
  waiters : ℕ := 0
  taken : ℕ := 0
  given : ℕ := 0
deriving DecidableEq, Repr

/-- What happens next: the code goes on (an attempt finds something to take only if `lucky`), a source runs its
event handler, the source `i` its cancel handler, a queue runs a block, the state is destroyed; or another user
takes or gives. -/
inductive Activity
  | step (lucky : Bool)
  | fire
  | close (i : ℕ)
  | retry
  | complete
  | destroy
  | take
  | give
deriving DecidableEq, Repr

/-- What there is at first. -/
def supply : Kind → ℕ → ℕ
  | .mutex, _ => 1
  | .event false, tokens => min tokens 1
  | .semaphore, tokens | .event true, tokens => tokens

/-- What `unlock()`, `release()` or `signal()` leaves: a manual-reset event is signalled or not. -/
def give : Kind → ℕ → ℕ
  | .event false, _ => 1
  | .mutex, available | .semaphore, available | .event true, available => available + 1

namespace Point

/-- The event handler is running. -/
def handling : Point → Bool
  | .attempt | .unregister | .cancelSource _ | .submit _ => true
  | .idle | .tryAcquire | .register | .create => false

/-- The event handler is running and has not cancelled its source. -/
def live : Point → Bool
  | .attempt | .unregister | .cancelSource _ => true
  | .idle | .tryAcquire | .register | .create | .submit _ => false

/-- Before the first source. -/
def starting : Point → Bool
  | .tryAcquire | .register | .create => true
  | .idle | .attempt | .unregister | .cancelSource _ | .submit _ => false

end Point

/-- An attempt of `start()`, of `async_acquire` or of the event handler. -/
def tryAcquire (kind : Kind) (lucky : Bool) (memory : Memory) (found missed : Operation) :
    Memory × Operation :=
  if lucky = true ∧ 0 < memory.available then
    ({ memory with available := memory.available - kind.cost }, found)
  else (memory, missed)

/-- Where an operation goes on that has found nothing at first. -/
def Form.first : Form → Point
  | .handler => .create
  | .future => .submit false

/-- The next access of the code of an operation of the form. -/
def advance (kind : Kind) (form : Form) (lucky : Bool) (memory : Memory) (op : Operation) :
    Option (Memory × Operation) :=
  match op.running with
  | .idle => none
  | .tryAcquire =>
      let found := match form with
        | .handler => { op with running := .submit true }
        | .future => { op with running := .idle, delivered := op.delivered + 1, owns := true }
      let missed := { op with running := if kind = .mutex then .register else form.first }
      some (tryAcquire kind lucky memory found missed)
  | .register =>
      some ({ memory with waiters := memory.waiters + 1 },
        { op with waiterGuard := some true, running := form.first })
  | .create =>
      some (memory, { op with
        sources := .active :: op.sources
        src := op.src || decide (form = .handler)
        running := .idle })
  | .attempt =>
      let found := { op with running := if kind = .mutex then .unregister else .cancelSource true }
      let missed := match form with
        | .handler => { op with running := .idle }
        | .future => { op with running := .cancelSource false }
      some (tryAcquire kind lucky memory found missed)
  | .unregister =>
      some (if op.waiterGuard = some true then
        ({ memory with waiters := memory.waiters - 1 },
          { op with waiterGuard := some false, running := .cancelSource true })
      else (memory, { op with running := .cancelSource true }))
  | .cancelSource found =>
      some (memory, { op with sources := op.sources.modifyHead Source.cancel, running := .submit found })
  | .submit true => some (memory, { op with completions := op.completions + 1, running := .idle })
  | .submit false => some (memory, { op with retries := op.retries + 1, running := .idle })

/-- The cancel handler of a source: with a handler it clears `src_`. -/
def releaseSource (op : Operation) : Operation :=
  if op.form = some .future then { op with releases := op.releases + 1 }
  else if op.src then { op with src := false, releases := op.releases + 1 }
  else op

/-- Nothing refers to the state of a handler any more. -/
def Operation.unused (op : Operation) : Bool :=
  decide (op.form = some .handler ∧ op.running = .idle ∧ op.completions = 0 ∧
    (∀ source ∈ op.sources, source = .closed) ∧ op.destroyed = false)

/-- What an activity does. A source runs one handler at a time, and the cancel handler last. -/
def step (kind : Kind) (activity : Activity) (memory : Memory) (op : Operation) : Option (Memory × Operation) :=
  match activity with
  | .step lucky => op.form.bind fun form => advance kind form lucky memory op
  | .fire =>
      if op.running.handling = false ∧ op.sources.head? = some .active then
        some (memory, { op with running := .attempt })
      else none
  | .close i =>
      if op.sources[i]? = some .cancelled ∧ (i = 0 → op.running.handling = false) then
        some (memory, releaseSource { op with sources := op.sources.set i .closed })
      else none
  | .retry =>
      if 0 < op.retries then some (memory, { op with retries := op.retries - 1, running := .create }) else none
  | .complete =>
      if 0 < op.completions then
        some (memory, { op with
          completions := op.completions - 1
          delivered := op.delivered + 1
          owns := true })
      else none
  | .destroy =>
      if op.unused then
        some (memory, { op with destroyed := true, src := false, releases := op.releases + op.src.toNat })
      else none
  | .take =>
      if op.form = none ∧ 0 < memory.available then
        some ({ memory with available := memory.available - 1, taken := memory.taken + 1 },
          { op with owns := true })
      else none
  | .give =>
      if kind = .mutex → op.owns = true then
        some ({ memory with
          available := give kind memory.available
          given := memory.given + (give kind memory.available - memory.available) },
          { op with owns := false })
      else none

def call (form : Form) (op : Operation) : Option Operation :=
  if op.form = none ∧ op.owns = false then some { op with form := some form, running := .tryAcquire } else none

/-- Nobody sleeps on a futex. -/
def program (kind : Kind) : Program Memory Operation Form Activity where
  idle := {}
  call := call
  step := step kind
  wake := fun _ => none
  asleep := fun _ => false
  woken := id

theorem program_silent (kind : Kind) : (program kind).Silent := fun _ => rfl

/-- The operations and other users of `Thread` beside a mutex, a semaphore or an event. -/
abbrev system (kind : Kind) (tokens : ℕ) (Thread : Type*) [DecidableEq Thread] [Fintype Thread] :
    System (State Thread Memory Operation) (Action Thread Form Activity) :=
  (program kind).system { available := supply kind tokens }

/-! ### One carrier -/

/-- What carries an operation: its running code, a block on its way to a queue, its live source, or the
delivery. -/
inductive Place
  | starting
  | registering
  | creating
  | armed
  | attempting
  | unregistering
  | cancelling (found : Bool)
  | submitting (found : Bool)
  | retrying
  | completing
  | delivered
deriving DecidableEq, Repr

namespace Place

def running : Place → Point
  | .armed | .retrying | .completing | .delivered => .idle
  | .starting => .tryAcquire
  | .registering => .register
  | .creating => .create
  | .attempting => .attempt
  | .unregistering => .unregister
  | .cancelling found => .cancelSource found
  | .submitting found => .submit found

/-- The newest source is resumed and not cancelled. -/
def live : Place → Bool
  | .armed | .attempting | .unregistering | .cancelling _ => true
  | .starting | .registering | .creating | .submitting _ | .retrying | .completing | .delivered => false

/-- Between the registration and the end of the attempt that succeeds. -/
def waiting : Place → Bool
  | .creating | .armed | .attempting | .unregistering | .retrying => true
  | .cancelling found | .submitting found => !found
  | .starting | .registering | .completing | .delivered => false

/-- What the operation has taken is on its way to the delivery. -/
def inHand : Place → Bool
  | .unregistering | .completing => true
  | .cancelling found | .submitting found => found
  | .starting | .registering | .creating | .armed | .attempting | .retrying | .delivered => false

/-- What the operation has taken is on its way to the delivery, or has been delivered. -/
def obtained (place : Place) : Bool := place.inHand || decide (place = .delivered)

/-- Where an operation goes on that has to wait. -/
def waits : Form → Place
  | .handler => .creating
  | .future => .submitting false

/-- The next place, where an attempt has found something or not. -/
def onward (kind : Kind) (form : Form) (found : Bool) : Place → Place
  | .starting =>
      if found then
        match form with
        | .handler => .submitting true
        | .future => .delivered
      else if kind = .mutex then .registering else waits form
  | .registering => waits form
  | .creating => .armed
  | .armed => .attempting
  | .attempting =>
      if found then if kind = .mutex then .unregistering else .cancelling true
      else
        match form with
        | .handler => .armed
        | .future => .cancelling false
  | .unregistering => .cancelling true
  | .cancelling found => .submitting found
  | .submitting true => .completing
  | .submitting false => .retrying
  | .retrying => .creating
  | .completing | .delivered => .delivered

/-- The places that there are with the mutex only, and with a future only. -/
def fits (kind : Kind) (form : Form) : Place → Bool
  | .registering | .unregistering => decide (kind = .mutex)
  | .cancelling found | .submitting found => found || decide (form = .future)
  | .retrying => decide (form = .future)
  | .starting | .creating | .armed | .attempting | .completing | .delivered => true

end Place

namespace Operation

def live (op : Operation) : Bool := decide (op.sources.head? = some .active)

def registered (op : Operation) : Bool := decide (op.waiterGuard = some true)

/-- The operation has the lock or a token for the one whom it is going to call. -/
def inHand (op : Operation) : Bool :=
  decide (op.running = .unregister ∨ op.running = .cancelSource true ∨ op.running = .submit true ∨
    0 < op.completions)

def obtained (op : Operation) : Bool := op.inHand || decide (0 < op.delivered)

/-- The operation has the mutex, or the one whom it has called. -/
def holds (op : Operation) : Bool := op.inHand || op.owns

end Operation

/-- The operation is carried by the place and by nothing else. -/
structure At (kind : Kind) (form : Form) (place : Place) (op : Operation) : Prop where
  called : op.form = some form
  running : op.running = place.running
  retries : op.retries = (decide (place = .retrying)).toNat
  completions : op.completions = (decide (place = .completing)).toNat
  delivered : op.delivered = (decide (place = .delivered)).toNat
  live : op.live = place.live
  registered : op.registered = (decide (kind = .mutex) && place.waiting)
  owns : op.owns = true → place = .delivered
  fits : place.fits kind form = true

/-- **The sources of an operation**: none but the newest is live, and each is released by its cancel handler. -/
structure Tidy (op : Operation) : Prop where
  past : ∀ source ∈ op.sources.tail, source ≠ .active
  single : op.form ≠ some .future → op.sources.length ≤ 1
  early : op.form ≠ some .future → op.running.starting = true → op.sources = []
  pointer : op.src = true ↔ op.form ≠ some .future ∧ ∃ source ∈ op.sources, source ≠ .closed
  releases : op.releases = op.sources.count .closed

/-- **What holds of an operation at any time.** -/
structure Sound (kind : Kind) (op : Operation) : Prop where
  unstarted : op.form = none → op = { owns := op.owns }
  carried : ∀ form, op.form = some form → ∃ place, At kind form place op
  tidy : Tidy op

theorem sound_idle (kind : Kind) : Sound kind {} where
  unstarted _ := rfl
  carried form started := by cases started
  tidy := by constructor <;> simp

section Steps

variable {kind : Kind} {form : Form} {place : Place} {op after : Operation} {memory later : Memory}

/-- What a place counts besides the running code. -/
def Place.aside (place : Place) : Bool × Bool × Bool × Bool :=
  (place.live, decide (place = .retrying), decide (place = .completing), decide (place = .delivered))

/-- **The running code goes on**, or comes to its end. -/
theorem At.goes (here : At kind form place op) (next : Place) (same : next.aside = place.aside)
    (fits : next.fits kind form = true) {waiterGuard : Option Bool}
    (registered : decide (waiterGuard = some true) = (decide (kind = .mutex) && next.waiting)) :
    At kind form next { op with waiterGuard := waiterGuard, running := next.running } := by
  simp only [Place.aside, Prod.mk.injEq, decide_eq_decide] at same
  obtain ⟨live, retrying, completing, delivered⟩ := same
  refine ⟨here.called, rfl, ?_, ?_, ?_, ?_, registered, fun owns => delivered.mpr (here.owns owns), fits⟩
  · simpa only [retrying] using here.retries
  · simpa only [completing] using here.completions
  · simpa only [delivered] using here.delivered
  · rw [live]
    exact here.live

/-- The sources are as they were. -/
theorem Tidy.goes (tidy : Tidy op) {point : Point} (early : point.starting = true → op.running.starting = true)
    {waiterGuard : Option Bool} {completions retries delivered : ℕ} {owns : Bool} :
    Tidy { op with
      running := point, waiterGuard := waiterGuard, completions := completions, retries := retries,
      owns := owns, delivered := delivered } :=
  { tidy with early := fun handler starting => tidy.early handler (early starting) }

/-- A live source is the newest. -/
theorem sources_of_live (live : op.live = true) : ∃ rest, op.sources = .active :: rest := by
  have first := of_decide_eq_true live
  cases sources : op.sources with
  | nil =>
    rw [sources] at first
    cases first
  | cons source rest =>
    rw [sources] at first
    cases first
    exact ⟨rest, rfl⟩

/-- **A new source.** -/
theorem Tidy.creates (tidy : Tidy op) (called : op.form = some form) (dead : op.live = false)
    (starting : op.running.starting = true) :
    Tidy { op with
      sources := .active :: op.sources, src := op.src || decide (form = .handler), running := .idle } := by
  have none : ∀ source ∈ op.sources, source ≠ .active := by
    intro source member
    cases sources : op.sources with
    | nil =>
      rw [sources] at member
      cases member
    | cons first rest =>
      rw [sources] at member
      rcases List.mem_cons.mp member with rfl | member
      · rintro rfl
        simp [Operation.live, sources] at dead
      · exact tidy.past source (by rw [sources]; exact member)
  refine ⟨none, fun handler => ?_, fun _ idle => Bool.noConfusion idle, ?_, ?_⟩
  · rw [tidy.early handler starting]
    rfl
  · have pointer := tidy.pointer
    rw [called] at pointer
    cases form with
    | handler => simp [called]
    | future => simpa [called] using pointer
  · rw [List.count_cons_of_ne (by decide)]
    exact tidy.releases

/-- **`dispatch_source_cancel`** of the live source. -/
theorem Tidy.cancels (tidy : Tidy op) (live : op.live = true) (found : Bool) :
    Tidy { op with sources := op.sources.modifyHead Source.cancel, running := .submit found } := by
  obtain ⟨rest, sources⟩ := sources_of_live live
  obtain ⟨past, single, -, pointer, releases⟩ := tidy
  rw [sources] at past single pointer releases
  refine ⟨?_, ?_, fun _ submits => Bool.noConfusion submits, ?_, ?_⟩
  · rw [sources]
    exact past
  · rw [sources]
    exact single
  · simpa [sources, Source.cancel] using pointer
  · simpa [sources, Source.cancel] using releases

/-- **The effects of the running code** on what it shares with others. -/
inductive Effect (kind : Kind) (memory : Memory) (place next : Place) : Memory → Prop
  | goes : next.obtained = place.obtained → (kind = .mutex → next.waiting = place.waiting) →
      Effect kind memory place next memory
  | finds : 0 < memory.available → place.obtained = false → next.obtained = true →
      (kind = .mutex → next.waiting = place.waiting) →
      Effect kind memory place next { memory with available := memory.available - kind.cost }
  | registers : kind = .mutex → next.obtained = place.obtained → place.waiting = false →
      next.waiting = true → Effect kind memory place next { memory with waiters := memory.waiters + 1 }
  | unregisters : kind = .mutex → next.obtained = place.obtained → place.waiting = true →
      next.waiting = false → Effect kind memory place next { memory with waiters := memory.waiters - 1 }

theorem registered_congr (here : At kind form place op) {next : Place}
    (same : kind = .mutex → next.waiting = place.waiting) :
    op.registered = (decide (kind = .mutex) && next.waiting) := by
  rw [here.registered]
  by_cases mutex : kind = .mutex
  · rw [same mutex]
  · simp [mutex]

/-- **The running code keeps the operation carried by one thing**, which goes on from place to place. -/
theorem At.advance (here : At kind form place op) {lucky : Bool}
    (stepped : advance kind form lucky memory op = some (later, after)) :
    ∃ next, next = place.onward kind form (lucky && decide (0 < memory.available)) ∧
      At kind form next after ∧ Effect kind memory place next later ∧
      (next = .delivered → after.owns = true) := by
  have running := here.running
  cases place with
  | armed | retrying | completing | delivered =>
    simp only [DispatchOperations.advance, running, Place.running] at stepped
    cases stepped
  | starting =>
    simp only [DispatchOperations.advance, running, Place.running, tryAcquire, Option.some.injEq] at stepped
    split at stepped
    · rename_i found
      have effect : ∀ {next : Place}, next.obtained = true → next.waiting = false →
          Effect kind memory .starting next { memory with available := memory.available - kind.cost } :=
        fun obtained idle => .finds found.2 rfl obtained fun _ => idle
      cases form <;> cases stepped
      · exact ⟨.submitting true, by simp [Place.onward, found],
          here.goes (.submitting true) rfl rfl (registered_congr here fun _ => rfl),
          effect rfl rfl, Place.noConfusion⟩
      · refine ⟨.delivered, by simp [Place.onward, found],
          ⟨here.called, rfl, here.retries, here.completions, ?_, here.live, ?_, fun _ => rfl, rfl⟩,
          effect rfl rfl, fun _ => rfl⟩
        · exact congrArg (· + 1) here.delivered
        · exact registered_congr here fun _ => rfl
    · rename_i missed
      have onward : Place.onward kind form (lucky && decide (0 < memory.available)) .starting =
          if kind = .mutex then .registering else Place.waits form :=
        if_neg (by simpa using missed)
      cases stepped
      split
      · rename_i mutex
        rw [if_pos mutex] at onward
        exact ⟨.registering, onward.symm,
          here.goes .registering rfl (decide_eq_true mutex) (registered_congr here fun _ => rfl),
          .goes rfl fun _ => rfl, Place.noConfusion⟩
      · rename_i other
        rw [if_neg other] at onward
        cases form
        · exact ⟨.creating, onward.symm,
            here.goes .creating rfl rfl (registered_congr here fun mutex => absurd mutex other),
            .goes rfl fun mutex => absurd mutex other, Place.noConfusion⟩
        · exact ⟨.submitting false, onward.symm,
            here.goes (.submitting false) rfl rfl (registered_congr here fun mutex => absurd mutex other),
            .goes rfl fun mutex => absurd mutex other, Place.noConfusion⟩
  | registering =>
    simp only [DispatchOperations.advance, running, Place.running, Option.some.injEq] at stepped
    have mutex : kind = .mutex := of_decide_eq_true here.fits
    cases stepped
    cases form
    · exact ⟨.creating, rfl, here.goes .creating rfl rfl (by simp [mutex, Place.waiting]),
        .registers mutex rfl rfl rfl, Place.noConfusion⟩
    · exact ⟨.submitting false, rfl, here.goes (.submitting false) rfl rfl (by simp [mutex, Place.waiting]),
        .registers mutex rfl rfl rfl, Place.noConfusion⟩
  | creating =>
    simp only [DispatchOperations.advance, running, Place.running, Option.some.injEq] at stepped
    cases stepped
    refine ⟨.armed, rfl, ⟨here.called, rfl, here.retries, here.completions, here.delivered, rfl, ?_,
      fun owns => (by cases here.owns owns), rfl⟩, .goes rfl fun _ => rfl, Place.noConfusion⟩
    exact registered_congr here fun _ => rfl
  | attempting =>
    simp only [DispatchOperations.advance, running, Place.running, tryAcquire, Option.some.injEq] at stepped
    split at stepped
    · rename_i found
      cases stepped
      split
      · rename_i mutex
        exact ⟨.unregistering, by simp [Place.onward, found, mutex],
          here.goes .unregistering rfl (decide_eq_true mutex) (registered_congr here fun _ => rfl),
          .finds found.2 rfl rfl fun _ => rfl, Place.noConfusion⟩
      · rename_i other
        exact ⟨.cancelling true, by simp [Place.onward, found, other],
          here.goes (.cancelling true) rfl rfl (registered_congr here fun mutex => absurd mutex other),
          .finds found.2 rfl rfl fun mutex => absurd mutex other, Place.noConfusion⟩
    · rename_i missed
      have none : ¬ (lucky && decide (0 < memory.available)) = true := by simpa using missed
      cases form <;> cases stepped
      · exact ⟨.armed, (if_neg none).symm, here.goes .armed rfl rfl (registered_congr here fun _ => rfl),
          .goes rfl fun _ => rfl, Place.noConfusion⟩
      · exact ⟨.cancelling false, (if_neg none).symm,
          here.goes (.cancelling false) rfl rfl (registered_congr here fun _ => rfl),
          .goes rfl fun _ => rfl, Place.noConfusion⟩
  | unregistering =>
    have mutex : kind = .mutex := of_decide_eq_true here.fits
    have active : op.waiterGuard = some true := by
      have registered := here.registered
      simpa [mutex, Place.waiting, Operation.registered] using registered
    simp only [DispatchOperations.advance, running, Place.running, if_pos active, Option.some.injEq] at stepped
    cases stepped
    exact ⟨.cancelling true, rfl, here.goes (.cancelling true) rfl rfl (by simp [Place.waiting]),
      .unregisters mutex rfl rfl rfl, Place.noConfusion⟩
  | cancelling found =>
    simp only [DispatchOperations.advance, running, Place.running, Option.some.injEq] at stepped
    cases stepped
    obtain ⟨rest, sources⟩ := sources_of_live here.live
    refine ⟨.submitting found, rfl, ⟨here.called, rfl, here.retries, here.completions, here.delivered, ?_, ?_,
      fun owns => (by cases here.owns owns), here.fits⟩, .goes rfl fun _ => rfl, Place.noConfusion⟩
    · simp [Operation.live, sources, Source.cancel, Place.live]
    · exact registered_congr here fun _ => rfl
  | submitting found =>
    cases found <;>
      simp only [DispatchOperations.advance, running, Place.running, Option.some.injEq] at stepped <;>
      cases stepped
    · refine ⟨.retrying, rfl, ⟨here.called, rfl, ?_, here.completions, here.delivered, here.live, ?_,
        fun owns => (by cases here.owns owns), here.fits⟩, .goes rfl fun _ => rfl, Place.noConfusion⟩
      · exact congrArg (· + 1) here.retries
      · exact registered_congr here fun _ => rfl
    · refine ⟨.completing, rfl, ⟨here.called, rfl, here.retries, ?_, here.delivered, here.live, ?_,
        fun owns => (by cases here.owns owns), rfl⟩, .goes rfl fun _ => rfl, Place.noConfusion⟩
      · exact congrArg (· + 1) here.completions
      · exact registered_congr here fun _ => rfl

/-- The running code keeps the sources tidy. -/
theorem Tidy.advance (tidy : Tidy op) (here : At kind form place op) {lucky : Bool}
    (stepped : advance kind form lucky memory op = some (later, after)) : Tidy after := by
  unfold DispatchOperations.advance at stepped
  cases running : op.running with
  | idle =>
    rw [running] at stepped
    cases stepped
  | tryAcquire =>
    simp only [running, tryAcquire, Option.some.injEq] at stepped
    have starts : op.running.starting = true := by rw [running]; rfl
    split at stepped
    · cases form <;> cases stepped <;> exact tidy.goes fun starting => by cases starting
    · cases stepped
      exact tidy.goes fun _ => starts
  | register =>
    simp only [running, Option.some.injEq] at stepped
    cases stepped
    exact tidy.goes fun _ => by rw [running]; rfl
  | create =>
    simp only [running, Option.some.injEq] at stepped
    cases stepped
    refine tidy.creates here.called ?_ (by rw [running]; rfl)
    rw [here.live]
    have place_running := here.running.symm.trans running
    cases place <;> first | rfl | cases place_running
  | attempt =>
    simp only [running, tryAcquire, Option.some.injEq] at stepped
    split at stepped
    · cases stepped
      refine tidy.goes fun starting => ?_
      split at starting <;> cases starting
    · cases form <;> cases stepped <;> exact tidy.goes fun starting => by cases starting
  | unregister =>
    simp only [running, Option.some.injEq] at stepped
    split at stepped <;> cases stepped <;> exact tidy.goes fun starting => by cases starting
  | cancelSource found =>
    simp only [running, Option.some.injEq] at stepped
    cases stepped
    refine tidy.cancels ?_ found
    rw [here.live]
    have place_running := here.running.symm.trans running
    cases place <;> first | rfl | cases place_running
  | submit found =>
    cases found <;> simp only [running, Option.some.injEq] at stepped <;> cases stepped <;>
      exact tidy.goes fun starting => by cases starting

/-! ### Cancel handlers -/

section Close

variable {sources : List Source} {i : ℕ}

theorem head_set_closed (here : sources[i]? = some .cancelled) :
    (sources.set i .closed).head? = some .active ↔ sources.head? = some .active := by
  cases sources with
  | nil => simp
  | cons source rest =>
    cases i with
    | zero =>
      have cancelled : source = .cancelled := by simpa using here
      simp [cancelled]
    | succ i => simp

theorem count_set_closed (here : sources[i]? = some .cancelled) :
    (sources.set i .closed).count .closed = sources.count .closed + 1 := by
  induction sources generalizing i with
  | nil => simp at here
  | cons source rest ih =>
    cases i with
    | zero =>
      have cancelled : source = .cancelled := by simpa using here
      simp [cancelled]
    | succ i =>
      have later := ih (i := i) (by simpa using here)
      simp only [List.set_cons_succ, List.count_cons, later]
      omega

theorem tail_set_closed (past : ∀ source ∈ sources.tail, source ≠ .active) :
    ∀ source ∈ (sources.set i .closed).tail, source ≠ .active := by
  cases sources with
  | nil => simp
  | cons first rest =>
    cases i with
    | zero => exact past
    | succ i =>
      intro source member
      rcases List.mem_or_eq_of_mem_set member with member | rfl
      · exact past source member
      · decide

end Close

/-- **The cancel handler releases its source.** -/
theorem Tidy.closes (tidy : Tidy op) (called : op.form = some form) {i : ℕ}
    (here : op.sources[i]? = some .cancelled) :
    Tidy (releaseSource { op with sources := op.sources.set i .closed }) := by
  have counted := count_set_closed here
  have past := tail_set_closed (i := i) tidy.past
  unfold releaseSource
  cases form with
  | future =>
    have none : op.src ≠ true := fun held => (tidy.pointer.mp held).1 called
    rw [if_pos called]
    refine ⟨past, fun handler => absurd called handler, fun handler => absurd called handler, ?_, ?_⟩
    · exact ⟨fun held => absurd held none, fun held => absurd called held.1⟩
    · show op.releases + 1 = _
      rw [counted, tidy.releases]
  | handler =>
    have handler : op.form ≠ some .future := by simp [called]
    have single := tidy.single handler
    -- the only source is the one that is being closed
    obtain ⟨source, sources⟩ : ∃ source, op.sources = [source] := by
      cases listed : op.sources with
      | nil => simp [listed] at here
      | cons source rest =>
        rw [listed, List.length_cons] at single
        have empty : rest = [] := List.length_eq_zero_iff.mp (by omega)
        exact ⟨source, by rw [empty]⟩
    rw [sources] at here counted past
    cases i with
    | succ i => simp at here
    | zero =>
      have cancelled : source = .cancelled := by simpa using here
      have held : op.src = true := tidy.pointer.mpr ⟨handler, source, by simp [sources], by simp [cancelled]⟩
      rw [if_neg handler, if_pos held]
      refine ⟨?_, fun _ => ?_, fun _ starting => ?_, ?_, ?_⟩
      · simp [sources]
      · simp [sources]
      · have empty := tidy.early handler starting
        rw [sources] at empty
        cases empty
      · simp [sources]
      · show op.releases + 1 = _
        rw [tidy.releases, sources, counted]

theorem At.closes (here : At kind form place op) {i : ℕ} (cancelled : op.sources[i]? = some .cancelled) :
    At kind form place (releaseSource { op with sources := op.sources.set i .closed }) := by
  have live : decide ((op.sources.set i .closed).head? = some .active) = place.live := by
    rw [← here.live]
    exact decide_eq_decide.mpr (head_set_closed cancelled)
  unfold releaseSource
  split
  · exact { here with live := live }
  · split
    · exact { here with live := live }
    · exact { here with live := live }

/-! ### Every activity -/

/-- The place where an activity other than the running code finds an operation. -/
theorem At.place_of_fire (here : At kind form place op) (free : op.running.handling = false)
    (live : op.live = true) : place = .armed := by
  rw [here.live] at live
  rw [here.running] at free
  cases place with
  | armed => rfl
  | attempting | unregistering | cancelling => exact Bool.noConfusion free
  | _ => cases live

theorem At.place_of_retry (here : At kind form place op) (positive : 0 < op.retries) : place = .retrying := by
  by_contra other
  rw [here.retries, decide_eq_false other] at positive
  exact Nat.lt_irrefl 0 positive

theorem At.place_of_complete (here : At kind form place op) (positive : 0 < op.completions) :
    place = .completing := by
  by_contra other
  rw [here.completions, decide_eq_false other] at positive
  exact Nat.lt_irrefl 0 positive

/-- The live source runs the event handler. -/
theorem At.fires (here : At kind form .armed op) : At kind form .attempting { op with running := .attempt } :=
  here.goes .attempting rfl rfl (registered_congr here fun _ => rfl)

/-- The queue runs `retry_func`. -/
theorem At.retries_run (here : At kind form .retrying op) :
    At kind form .creating { op with retries := op.retries - 1, running := .create } where
  called := here.called
  running := rfl
  retries := congrArg (· - 1) here.retries
  completions := here.completions
  delivered := here.delivered
  live := here.live
  registered := registered_congr here fun _ => rfl
  owns owns := by cases here.owns owns
  fits := rfl

/-- The queue runs the block that calls the handler, or sets the promise. -/
theorem At.completes (here : At kind form .completing op) :
    At kind form .delivered
      { op with completions := op.completions - 1, delivered := op.delivered + 1, owns := true } where
  called := here.called
  running := here.running
  retries := here.retries
  completions := congrArg (· - 1) here.completions
  delivered := congrArg (· + 1) here.delivered
  live := here.live
  registered := registered_congr here fun _ => rfl
  owns _ := rfl
  fits := rfl

/-- **What an operation does of itself**: the place before and after, and what changes beside it. -/
structure Moves (kind : Kind) (form : Form) (memory later : Memory) (op after : Operation) (place next : Place) :
    Prop where
  here : At kind form place op
  there : At kind form next after
  tidy : Tidy after
  effect : Effect kind memory place next later
  still : place = .delivered → next = .delivered ∧ after.owns = op.owns
  owns : place ≠ .delivered → next = .delivered → after.owns = true

/-- Another user takes or gives. -/
def Activity.foreign : Activity → Bool
  | .take | .give => true
  | .step _ | .fire | .close _ | .retry | .complete | .destroy => false

/-- Only an operation that has been started does something of itself. -/
theorem Sound.started (sound : Sound kind op) {activity : Activity} (own : activity.foreign = false)
    (stepped : step kind activity memory op = some (later, after)) : ∃ form place, At kind form place op := by
  cases called : op.form with
  | some form =>
    obtain ⟨place, here⟩ := sound.carried form called
    exact ⟨form, place, here⟩
  | none =>
    have blank := sound.unstarted called
    cases activity with
    | take | give => cases own
    | step lucky =>
      simp only [DispatchOperations.step, called] at stepped
      cases stepped
    | fire | close | retry | complete =>
      rw [blank] at stepped
      simp [DispatchOperations.step] at stepped
    | destroy =>
      rw [blank] at stepped
      simp [DispatchOperations.step, Operation.unused] at stepped

/-- **Everything that an operation can do of itself.** -/
theorem Sound.moves (sound : Sound kind op) {activity : Activity} (own : activity.foreign = false)
    (stepped : step kind activity memory op = some (later, after)) :
    ∃ form place next, Moves kind form memory later op after place next := by
  obtain ⟨form, place, here⟩ := sound.started own stepped
  have called := here.called
  have tidy := sound.tidy
  cases activity with
  | take | give => cases own
  | step lucky =>
    simp only [DispatchOperations.step, called, Option.bind_some] at stepped
    obtain ⟨next, -, there, effect, owns⟩ := here.advance stepped
    refine ⟨form, place, next, here, there, tidy.advance here stepped, effect, fun delivered => ?_,
      fun _ => owns⟩
    simp only [advance, here.running, delivered, Place.running] at stepped
    cases stepped
  | fire =>
    simp only [DispatchOperations.step, Option.ite_none_right_eq_some, Option.some.injEq] at stepped
    obtain ⟨⟨free, first⟩, result⟩ := stepped
    cases result
    cases here.place_of_fire free (decide_eq_true first)
    exact ⟨form, .armed, .attempting, here, here.fires, tidy.goes fun starting => (by cases starting),
      .goes rfl fun _ => rfl, Place.noConfusion, fun _ => Place.noConfusion⟩
  | close i =>
    simp only [DispatchOperations.step, Option.ite_none_right_eq_some, Option.some.injEq] at stepped
    obtain ⟨⟨cancelled, -⟩, result⟩ := stepped
    cases result
    have same : (releaseSource { op with sources := op.sources.set i .closed }).owns = op.owns := by
      unfold releaseSource
      split
      · rfl
      · split <;> rfl
    exact ⟨form, place, place, here, here.closes cancelled, tidy.closes called cancelled,
      .goes rfl fun _ => rfl, fun delivered => ⟨delivered, same⟩,
      fun elsewhere delivered => absurd delivered elsewhere⟩
  | retry =>
    simp only [DispatchOperations.step, Option.ite_none_right_eq_some, Option.some.injEq] at stepped
    obtain ⟨positive, result⟩ := stepped
    cases result
    cases here.place_of_retry positive
    have future : form = .future := of_decide_eq_true here.fits
    refine ⟨form, .retrying, .creating, here, here.retries_run, { tidy with early := fun handler => ?_ },
      .goes rfl fun _ => rfl, Place.noConfusion, fun _ => Place.noConfusion⟩
    exact absurd (called.trans (congrArg some future)) handler
  | complete =>
    simp only [DispatchOperations.step, Option.ite_none_right_eq_some, Option.some.injEq] at stepped
    obtain ⟨positive, result⟩ := stepped
    cases result
    cases here.place_of_complete positive
    exact ⟨form, .completing, .delivered, here, here.completes, { tidy with }, .goes rfl fun _ => rfl,
      Place.noConfusion, fun _ _ => rfl⟩
  | destroy =>
    simp only [DispatchOperations.step, Option.ite_none_right_eq_some, Option.some.injEq] at stepped
    obtain ⟨unused, result⟩ := stepped
    cases result
    obtain ⟨-, -, -, closed, -⟩ := of_decide_eq_true unused
    -- `src_` points to a source that is not closed, and there is none
    have none : op.src = false := by
      by_contra held
      obtain ⟨-, source, member, kept⟩ := tidy.pointer.mp (eq_true_of_ne_false held)
      exact kept (closed source member)
    refine ⟨form, place, place, here, { here with }, { tidy with pointer := ?_, releases := ?_ },
      .goes rfl fun _ => rfl, fun delivered => ⟨delivered, rfl⟩,
      fun elsewhere delivered => absurd delivered elsewhere⟩
    · simpa [none] using tidy.pointer
    · simpa [none] using tidy.releases

/-- What others do with an operation that has not been started, or with what it owns. -/
theorem Sound.owns (sound : Sound kind op) {owns : Bool}
    (allowed : ∀ form place, At kind form place op → owns = true → place = .delivered) :
    Sound kind { op with owns := owns } where
  unstarted none := by rw [sound.unstarted none]
  carried form called := by
    obtain ⟨place, here⟩ := sound.carried form called
    exact ⟨place, { here with owns := fun held => allowed form place here held }⟩
  tidy := { sound.tidy with }

theorem Sound.of_at (here : At kind form place op) (tidy : Tidy op) : Sound kind op where
  unstarted none := by
    rw [here.called] at none
    cases none
  carried other called := by
    rw [here.called] at called
    cases called
    exact ⟨place, here⟩
  tidy := tidy

/-- What `take` and `give` change of an operation. -/
theorem foreign_cases {activity : Activity} (foreign : activity.foreign = true)
    (stepped : step kind activity memory op = some (later, after)) :
    (op.form = none ∧ 0 < memory.available ∧
      later = { memory with available := memory.available - 1, taken := memory.taken + 1 } ∧
      after = { op with owns := true }) ∨
    ((kind = .mutex → op.owns = true) ∧
      later = { memory with
        available := give kind memory.available
        given := memory.given + (give kind memory.available - memory.available) } ∧
      after = { op with owns := false }) := by
  cases activity with
  | step | fire | close | retry | complete | destroy => cases foreign
  | take =>
    simp only [step, Option.ite_none_right_eq_some, Option.some.injEq] at stepped
    obtain ⟨⟨none, positive⟩, result⟩ := stepped
    cases result
    exact Or.inl ⟨none, positive, rfl, rfl⟩
  | give =>
    simp only [step, Option.ite_none_right_eq_some, Option.some.injEq] at stepped
    obtain ⟨allowed, result⟩ := stepped
    cases result
    exact Or.inr ⟨allowed, rfl, rfl⟩

/-- **Every activity keeps the invariant.** -/
theorem Sound.step (sound : Sound kind op) {activity : Activity}
    (stepped : step kind activity memory op = some (later, after)) : Sound kind after := by
  cases foreign : activity.foreign with
  | false =>
    obtain ⟨form, place, next, moves⟩ := sound.moves foreign stepped
    exact .of_at moves.there moves.tidy
  | true =>
    rcases foreign_cases foreign stepped with ⟨none, -, -, rfl⟩ | ⟨-, -, rfl⟩
    · exact sound.owns fun form place here => by cases none.symm.trans here.called
    · exact sound.owns fun _ _ _ held => by cases held

end Steps

/-! ### Runs -/

section Runs

variable {kind : Kind} {tokens : ℕ} {Thread : Type*} [DecidableEq Thread] [Fintype Thread]
  {state : State Thread Memory Operation}

/-- **Every operation is sound**, whoever else takes and gives. -/
theorem sound_of_reachable (reached : (system kind tokens Thread).Reachable state) (t : Thread) :
    Sound kind (state.thread t) := by
  refine reached.invariant (P := fun state => ∀ t, Sound kind (state.thread t)) (fun _ => sound_idle kind) ?_ t
  intro state action after _ sound _ taken t
  rcases (program_silent kind).next_cases taken with ⟨u, form, moved, -, called, rfl⟩ |
    ⟨u, activity, memory, moved, -, stepped, rfl⟩
  · by_cases here : t = u
    · subst here
      simp only [program, call, Option.ite_none_right_eq_some, Option.some.injEq] at called
      obtain ⟨⟨none, free⟩, rfl⟩ := called
      have blank := (sound t).unstarted none
      rw [free] at blank
      simp only [Function.update_self, blank]
      have here : At kind form .starting { form := some form, running := .tryAcquire } :=
        ⟨rfl, rfl, rfl, rfl, rfl, rfl, (Bool.and_false _).symm, Bool.noConfusion, rfl⟩
      refine .of_at here ?_
      constructor <;> simp
    · simp only [Function.update_of_ne here]
      exact sound t
  · by_cases here : t = u
    · subst here
      simp only [Function.update_self]
      exact (sound t).step stepped
    · simp only [Function.update_of_ne here]
      exact sound t

/-! ### One delivery -/

/-- What happens without anybody else, and without the descriptor becoming readable. -/
def Activity.due : Activity → Bool
  | .step _ | .close _ | .retry | .complete | .destroy => true
  | .fire | .take | .give => false

/-- Nothing of the operation is left to run. -/
def Quiet (kind : Kind) (memory : Memory) (op : Operation) : Prop :=
  ∀ activity, activity.due = true → step kind activity memory op = none

/-- The operation has called its handler, or set its promise, and has let go of everything. -/
structure Done (op : Operation) : Prop where
  delivered : op.delivered = 1
  released : ∀ source ∈ op.sources, source = .closed
  unregistered : op.waiterGuard ≠ some true
  destroyed : op.form = some .handler → op.destroyed = true

/-- The operation waits for its descriptor with one source. -/
structure Armed (kind : Kind) (op : Operation) : Prop where
  undelivered : op.delivered = 0
  live : op.sources.head? = some .active
  released : ∀ source ∈ op.sources.tail, source = .closed
  registered : kind = .mutex → op.waiterGuard = some true

variable {form : Form} {op : Operation} {memory : Memory}

/-- The sources of an operation that has nothing left to run are closed, but for a live one. -/
theorem closed_of_quiet (quiet : Quiet kind memory op) (idle : op.running = .idle) :
    ∀ source ∈ op.sources, source ≠ .cancelled := by
  rintro source member rfl
  obtain ⟨i, listed⟩ := List.getElem?_of_mem member
  have closes := quiet (.close i) rfl
  simp only [step, idle, Point.handling, implies_true, and_true, listed, if_true] at closes
  cases closes

/-- **An operation with nothing left to run is done or armed.** -/
theorem At.done_or_armed {place : Place} (here : At kind form place op) (tidy : Tidy op)
    (quiet : Quiet kind memory op) : Done op ∨ Armed kind op := by
  have registered := here.registered
  have live := here.live
  have goes : ∀ lucky, DispatchOperations.advance kind form lucky memory op = none := by
    intro lucky
    have still := quiet (.step lucky) rfl
    simpa only [step, here.called, Option.bind_some] using still
  have others : ∀ source ∈ op.sources, source ≠ .cancelled → source ≠ .active → source = .closed := by
    intro source _
    cases source <;> simp
  cases place with
  | starting | registering | creating | attempting | unregistering | cancelling =>
    have going := goes false
    simp [DispatchOperations.advance, here.running, Place.running] at going
  | submitting found =>
    have going := goes false
    cases found <;> simp [DispatchOperations.advance, here.running, Place.running] at going
  | retrying =>
    have runs := quiet .retry rfl
    simp [step, here.retries] at runs
  | completing =>
    have runs := quiet .complete rfl
    simp [step, here.completions] at runs
  | armed =>
    have whole := closed_of_quiet quiet here.running
    refine Or.inr ⟨here.delivered, of_decide_eq_true live, fun source member => ?_, fun mutex => ?_⟩
    · exact others source (List.mem_of_mem_tail member) (whole source (List.mem_of_mem_tail member))
        (tidy.past source member)
    · rw [mutex] at registered
      exact of_decide_eq_true registered
  | delivered =>
    have whole := closed_of_quiet quiet here.running
    have closed : ∀ source ∈ op.sources, source = .closed := by
      intro source member
      refine others source member (whole source member) ?_
      rintro rfl
      cases sources : op.sources with
      | nil =>
        rw [sources] at member
        cases member
      | cons first rest =>
        rw [sources] at member
        rcases List.mem_cons.mp member with rfl | member
        · simp [Operation.live, sources, Place.live] at live
        · exact tidy.past _ (by rw [sources]; exact member) rfl
    refine Or.inl ⟨here.delivered, closed, ?_, fun handler => ?_⟩
    · exact of_decide_eq_false (registered.trans (Bool.and_false _))
    · by_contra kept
      have destroys := quiet .destroy rfl
      have unused : op.unused = true :=
        decide_eq_true ⟨handler, here.running, here.completions, closed, Bool.eq_false_of_not_eq_true kept⟩
      simp [step, unused] at destroys

/-- **One delivery, one source at a time.** In every run each operation calls its handler or sets its promise at
most once, has at most one live source, and has had released exactly those whose cancel handler has run. When
nothing of it is left to run, it is done, or it waits with one live source, registered with the mutex. -/
theorem dispatchOperations_once (reached : (system kind tokens Thread).Reachable state) {t : Thread}
    (called : (state.thread t).form = some form) :
    (state.thread t).completions + (state.thread t).delivered ≤ 1 ∧
      (state.thread t).sources.count .active ≤ 1 ∧
      (state.thread t).releases = (state.thread t).sources.count .closed ∧
      (Quiet kind state.memory (state.thread t) → Done (state.thread t) ∨ Armed kind (state.thread t)) := by
  have sound := sound_of_reachable reached t
  obtain ⟨place, here⟩ := sound.carried form called
  refine ⟨?_, ?_, sound.tidy.releases, here.done_or_armed sound.tidy⟩
  · rw [here.completions, here.delivered]
    cases place <;> simp
  · have past := sound.tidy.past
    cases sources : (state.thread t).sources with
    | nil => simp
    | cons source rest =>
      rw [sources] at past
      have none : rest.count .active = 0 := List.count_eq_zero.mpr fun member => past _ member rfl
      rw [List.count_cons, none]
      split <;> simp

/-- A future that has found nothing twice: its first source is released, its second one is live. -/
theorem dispatchOperations_once_retried :
    ∃ state, (system .mutex 0 (Fin 2)).Reachable state ∧ (state.thread 0).form = some .future ∧
      (state.thread 0).sources = [.active, .closed] ∧ (state.thread 0).releases = 1 ∧
      (state.thread 0).completions + (state.thread 0).delivered ≤ 1 ∧
      (state.thread 0).sources.count .active ≤ 1 ∧
      (Quiet .mutex state.memory (state.thread 0) → Done (state.thread 0) ∨ Armed .mutex (state.thread 0)) := by
  obtain ⟨state, reached, computed⟩ := System.exists_reachable_of_run (system .mutex 0 (Fin 2))
    [.step 1 .take, .call 0 .future, .step 0 (.step true), .step 0 (.step true), .step 0 (.step true),
      .step 0 .retry, .step 0 (.step true), .step 0 .fire, .step 0 (.step true), .step 0 (.step true),
      .step 0 (.step true), .step 0 .retry, .step 0 (.step true), .step 0 (.close 1)]
    (fun state => decide ((state.thread 0).form = some .future ∧
      (state.thread 0).sources = [.active, .closed] ∧ (state.thread 0).releases = 1)) (by decide +kernel)
  obtain ⟨called, sources, releases⟩ := of_decide_eq_true computed
  obtain ⟨once, live, -, quiet⟩ := dispatchOperations_once reached called
  exact ⟨state, reached, called, sources, releases, once, live, quiet⟩

end Runs

end NovaSync.DispatchOperations
