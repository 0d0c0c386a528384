/-
**`fast_eventfd_mutex_impl`, `fast_kqueue_mutex_impl` and `async_waiter_guard` as one program.**

`state_` is laid out as in `parking_mutex`: bit 0 is the lock, bits 1-31 count the registered waiters,
who wait on a kernel object and not on the word. A `Backend` is that kernel object, with the three
places at which the two classes differ: whether `lock_slow` drains after its wait, whether
`try_lock_until` spins before it registers, and whether `try_lock_for` starts with an exchange.

The actors are threads and asynchronous operations. An actor is inside one operation of the mutex or
outside all of them; there it may own the mutex, hold a guard, or hold a registration that no guard looks
after. A thread that also holds a guard is two actors. `async_acquire` is `try_lock`, the construction of
a guard, and a wait for readability of `native_handle()` that is armed again after each failed
`try_acquire`; cancelling it releases the guard.

* `step_effect` — what a step can do to the word, the kernel object and the actor's standing.
-/

import NovaSync.Mutex.ParkingMutex
import NovaSync.Detail.Eventfd
import NovaSync.Detail.Kevent

namespace NovaSync.FastAsyncMutex

open Concurrency Detail
open ParkingMutex (Word FreeWord free_iff acquired_eq locked_eq released_eq)

/-! ### The kernel object -/

/-- The operation that waits: `lock_slow`, `try_lock_for`, or `try_lock_until`. -/
inductive Waiting
  | lock
  | relative
  | deadline (clock : Clock)
deriving DecidableEq, Repr

/-- What the two classes do with their kernel object, and where they differ otherwise. -/
structure Backend (Kernel Point Resolve : Type*) where
  /-- How an atomic operation or a clock test is resolved. -/
  atomic : Resolve → Option Choice
  /-- The notification of `unlock`. -/
  post : Kernel → Kernel
  /-- `consume_lock`. -/
  consume : Resolve → Kernel → Option Kernel
  /-- `native_handle()` polls readable. -/
  ready : Kernel → Bool
  /-- Where a wait starts. -/
  start : Waiting → Point
  /-- The next point of a wait, or the value it returns. -/
  wait : Resolve → Kernel → Point → Option (Kernel × (Point ⊕ Bool))
  /-- `lock_slow` calls `consume_lock` after its wait. -/
  lockDrains : Bool
  /-- `try_lock_until` spins before it registers. -/
  untilSpins : Bool
  /-- `try_lock_for` tries to exchange 0 before it registers. -/
  forExchanges : Bool

/-- `fast_eventfd_mutex_impl`. -/
def eventfd : Backend Eventfd PollPoint Choice where
  atomic := some
  post := Eventfd.write
  consume choice counter := ordinary choice counter.read
  ready counter := 0 < counter
  start
    | .lock => .poll
    | .relative => .ppollFor
    | .deadline _ => .timerfd
  wait choice counter point := (point.step choice counter).map (counter, ·)
  lockDrains := true
  untilSpins := true
  forExchanges := false

/-- Where a waiter of `fast_kqueue_mutex_impl` stands. -/
inductive KqueuePoint
  | kevent
  | keventFor (point : KeventFor)
  | keventUntil (point : KeventUntil)
deriving DecidableEq, Repr

/-- The waits of `fast_kqueue_mutex_impl`. `lock_slow` ignores what `kevent` returns; `try_lock_until`
passes the identifier 1, which is not that of its user event. -/
def KqueuePoint.step (choice : Choice ⊕ Kevent) (queue : Kqueue) :
    KqueuePoint → Option (Kqueue × (KqueuePoint ⊕ Bool))
  | .kevent =>
      match choice with
      | .inr outcome => (queue.kevent false outcome).map (·, .inr true)
      | .inl _ => none
  | .keventFor point => (point.step choice queue).map fun
      | (after, .inl next) => (after, .inl (.keventFor next))
      | (after, .inr result) => (after, .inr result)
  | .keventUntil point => (point.step false choice queue).map fun
      | (after, .inl next) => (after, .inl (.keventUntil next))
      | (after, .inr result) => (after, .inr result)

/-- `fast_kqueue_mutex_impl`. -/
def kqueue : Backend Kqueue KqueuePoint (Choice ⊕ Kevent) where
  atomic := Sum.getLeft?
  post := Kqueue.trigger
  consume choice queue := choice.getRight?.bind (queue.kevent true)
  ready queue := queue.triggered || queue.timer
  start
    | .lock => .kevent
    | .relative => .keventFor .wait
    | .deadline clock => .keventUntil (.start clock)
  wait := KqueuePoint.step
  lockDrains := false
  untilSpins := false
  forExchanges := true

/-! ### The program -/

/-- `state_`, the kernel object, and the history of the registrations: those made by
`add_async_waiter`, those given back by the `(s - 2) | 1` exchange, and those given back by
`remove_async_waiter`. -/
structure Memory (Kernel : Type*) where
  word : Word := 0
  kernel : Kernel
  added : ℕ := 0
  exchanged : ℕ := 0
  removed : ℕ := 0
deriving DecidableEq, Repr

/-- Who calls `try_lock`: a caller of its own (or `try_lock_for` without time left), the first and the
last attempt of `try_lock_until`, `try_acquire` of a guard, the first attempt of `async_acquire`, or
`try_acquire` of an asynchronous operation that has been notified. -/
inductive Caller
  | alone
  | deadline (clock : Clock)
  | last
  | guard (active : Bool)
  | asyncStart
  | asyncFired
deriving DecidableEq, Repr

inductive Op
  | lock
  | tryLock
  | tryLockFor (positive : Bool)
  | tryLockUntil (clock : Clock)
  | unlock
  | addAsyncWaiter
  | removeAsyncWaiter
  | construct
  | adopt
  | tryAcquire
  | release
  | dismiss
  | destroy
  | asyncAcquire
deriving DecidableEq, Repr

/-- The next atomic operation or system call of an actor. -/
inductive Pc (Point : Type*)
  /-- Outside all operations, holding nothing. -/
  | idle
  /-- `lock`: the `compare_exchange_weak` of 0. -/
  | lockCas
  /-- The load before the spin phase of `lock_slow` or `try_lock_until`. -/
  | spinLoad (waiting : Waiting)
  /-- The next call of the spin functor. -/
  | spin (waiting : Waiting) (s : Word) (state : ExponentialBackoff)
  /-- `try_lock_until` on another clock: the clock reading before `try_lock_for`. -/
  | relative
  /-- `try_lock_for` of `fast_kqueue_mutex_impl`: the `compare_exchange_weak` of 0. -/
  | forCas
  /-- `add_async_waiter` of a waiting operation, whose guard adopts the registration. -/
  | register (waiting : Waiting)
  /-- The `compare_exchange_weak` to `(s - 2) | 1`. `polled` is a history variable: the waiter has
  returned from a wait since it last decided to wait. -/
  | acquireCas (waiting : Waiting) (polled : Bool) (s : FreeWord)
  /-- The wait on the kernel object. -/
  | wait (waiting : Waiting) (point : Point)
  /-- `consume_lock` after the wait. -/
  | drainWoken (waiting : Waiting)
  /-- `s = state_.load()` after the wait. -/
  | reload (waiting : Waiting)
  /-- `consume_lock` after the acquiring exchange; `dismiss` follows. -/
  | drainOwned
  /-- `try_lock`: the load. -/
  | tryLoad (caller : Caller)
  /-- `try_lock`: the `compare_exchange_weak` to `s | 1`. -/
  | tryCas (caller : Caller) (s : FreeWord)
  /-- `try_acquire`: `consume_lock` after the successful `try_lock`. `guard` says whether the guard
  object lives on. -/
  | acquireDrain (active guard : Bool)
  /-- `remove_async_waiter`, called by `release`, by the destructor, or directly. -/
  | remove (guard : Bool)
  /-- The same, by an actor that owns the mutex. -/
  | removeOwned (guard : Bool)
  /-- Outside all operations, the owner; `guard` is an inactive guard. -/
  | owner (guard : Bool)
  /-- `unlock`: the `fetch_and(~1)`. -/
  | unlock (guard : Bool)
  /-- `unlock`: the notification. -/
  | post (guard : Bool)
  /-- Outside all operations, with a registration and no guard. -/
  | manual
  /-- Outside all operations, with a guard. -/
  | guard (active : Bool)
  /-- Outside all operations, with a dismissed guard and its registration. -/
  | dismissed
  /-- `add_async_waiter` called directly. -/
  | manualAdd
  /-- `add_async_waiter` of the guard's constructor, in an asynchronous operation if `async`. -/
  | guardAdd (async : Bool)
  /-- An asynchronous operation about to arm its wait. -/
  | arming
  /-- An asynchronous operation whose wait for readability is armed. -/
  | armed
  /-- An asynchronous operation whose wait has fired. -/
  | fired
deriving DecidableEq, Repr

namespace Memory

variable {Kernel : Type*}

/-- `add_async_waiter`: the `fetch_add(2)`. -/
def add (memory : Memory Kernel) : Memory Kernel :=
  { memory with word := memory.word + 2, added := memory.added + 1 }

/-- `remove_async_waiter`: the `fetch_sub(2)`. -/
def remove (memory : Memory Kernel) : Memory Kernel :=
  { memory with word := memory.word - 2, removed := memory.removed + 1 }

/-- The exchange of `s` for `(s - 2) | 1`. -/
def exchange (memory : Memory Kernel) (s : Word) : Memory Kernel :=
  { memory with word := (s - 2) ||| 1, exchanged := memory.exchanged + 1 }

end Memory

section Control

variable {Kernel Point Resolve : Type*} (backend : Backend Kernel Point Resolve)

/-- Outside all operations, with an inactive guard or without one. -/
def rest (guard : Bool) : Pc Point := if guard then .guard false else .idle

/-- `release()`: it acts on an active guard only. -/
def release (active guard : Bool) : Pc Point := if active then .remove guard else rest guard

/-- The head of the waiting loop. -/
def park (waiting : Waiting) (polled : Bool) (s : Word) : Pc Point :=
  if free : s &&& 1 = 0 then .acquireCas waiting polled ⟨s, free⟩
  else .wait waiting (backend.start waiting)

/-- Where a waiter goes on after its wait. -/
def woken (waiting : Waiting) : Pc Point :=
  if waiting = .lock ∧ backend.lockDrains = false then .reload waiting else .drainWoken waiting

/-- Where a waiter goes on inside its wait or after it. `lock_slow` takes no notice of a failure,
`try_lock_for` gives up, and `try_lock_until` tries once more. -/
def waited (waiting : Waiting) : Point ⊕ Bool → Pc Point
  | .inl next => .wait waiting next
  | .inr true => woken backend waiting
  | .inr false =>
      match waiting with
      | .lock => woken backend .lock
      | .relative => .remove false
      | .deadline _ => .tryLoad .last

/-- Where the spin phase goes after a call of its functor. -/
def spinNext (waiting : Waiting) (s : Word) : SpinLoop → Pc Point
  | .returned true => .owner false
  | .returned false => .register waiting
  | .again state => .spin waiting s state

/-- `try_lock_for`. -/
def tryLockFor (positive : Bool) : Pc Point :=
  if positive then if backend.forExchanges then .forCas else .register .relative
  else .tryLoad .alone

/-- Where a failed `try_lock` goes on. -/
def tryFailed : Caller → Pc Point
  | .alone => .idle
  | .deadline .other => .relative
  | .deadline clock =>
      if backend.untilSpins then .spinLoad (.deadline clock) else .register (.deadline clock)
  | .last => .remove false
  | .guard active => .guard active
  | .asyncStart => .guardAdd true
  | .asyncFired => .arming

/-- Where a successful `try_lock` goes on. -/
def trySucceeded : Caller → Pc Point
  | .alone | .deadline _ | .asyncStart => .owner false
  | .last => .removeOwned false
  | .guard active => .acquireDrain active true
  | .asyncFired => .acquireDrain true false

/-- The loop test of `try_lock`. -/
def tryLoop (caller : Caller) (s : Word) : Pc Point :=
  if free : s &&& 1 = 0 then .tryCas caller ⟨s, free⟩ else tryFailed backend caller

/-- Calls: `unlock` by the owner only, who does not lock again; the operations of a guard by whoever
holds it. Adopting and dismissing touch nothing but the guard. -/
def call : Op → Pc Point → Option (Pc Point)
  | .lock, .idle => some .lockCas
  | .tryLock, .idle => some (.tryLoad .alone)
  | .tryLockFor positive, .idle => some (tryLockFor backend positive)
  | .tryLockUntil clock, .idle => some (.tryLoad (.deadline clock))
  | .unlock, .owner guard => some (.unlock guard)
  | .addAsyncWaiter, .idle => some .manualAdd
  | .removeAsyncWaiter, .manual => some (.remove false)
  | .removeAsyncWaiter, .dismissed => some (.remove true)
  | .construct, .idle => some (.guardAdd false)
  | .adopt, .manual => some (.guard true)
  | .tryAcquire, .guard active => some (.tryLoad (.guard active))
  | .release, .guard active => some (release active true)
  | .dismiss, .guard active => some (if active then .dismissed else .guard false)
  | .destroy, .guard active => some (release active false)
  | .destroy, .dismissed => some .manual
  | .destroy, .owner true => some (.owner false)
  | .asyncAcquire, .idle => some (.tryLoad .asyncStart)
  | _, _ => none

/-- The next atomic operation or clock test, or the arming of a wait. -/
def atomicStep (choice : Choice) (memory : Memory Kernel) :
    Pc Point → Option (Memory Kernel × Pc Point)
  | .lockCas => (compareExchangeWeak choice memory.word 0).map fun exchanged =>
      if exchanged then ({ memory with word := 1 }, .owner false) else (memory, .spinLoad .lock)
  | .spinLoad waiting => ordinary choice (memory, .spin waiting memory.word {})
  | .spin waiting s state =>
      if s &&& 1 = 0 then
        (compareExchangeWeak choice memory.word s).map fun exchanged =>
          if exchanged then
            ({ memory with word := s ||| 1 }, spinNext waiting s (afterCall state .success))
          else (memory, spinNext waiting memory.word (afterCall state .retryWithoutBackoff))
      else ordinary choice (memory, spinNext waiting s (afterCall state .retry))
  | .relative =>
      match choice with
      | .go => some (memory, tryLockFor backend true)
      | .expired => some (memory, tryLockFor backend false)
      | _ => none
  | .forCas => (compareExchangeWeak choice memory.word 0).map fun exchanged =>
      if exchanged then ({ memory with word := 1 }, .owner false) else (memory, .register .relative)
  | .register waiting =>
      ordinary choice (memory.add, park backend waiting false (memory.word + 2))
  | .acquireCas waiting polled s => (compareExchangeWeak choice memory.word s.1).map fun exchanged =>
      if exchanged then (memory.exchange s.1, .drainOwned)
      else (memory, park backend waiting polled memory.word)
  | .reload waiting => ordinary choice (memory, park backend waiting true memory.word)
  | .tryLoad caller => ordinary choice (memory, tryLoop backend caller memory.word)
  | .tryCas caller s => (compareExchangeWeak choice memory.word s.1).map fun exchanged =>
      if exchanged then ({ memory with word := s.1 ||| 1 }, trySucceeded caller)
      else (memory, tryLoop backend caller memory.word)
  | .remove guard => ordinary choice (memory.remove, rest guard)
  | .removeOwned guard => ordinary choice (memory.remove, .owner guard)
  | .unlock guard => ordinary choice ({ memory with word := memory.word &&& ~~~1 },
      if memory.word > 1 then .post guard else rest guard)
  | .post guard =>
      ordinary choice ({ memory with kernel := backend.post memory.kernel }, rest guard)
  | .manualAdd => ordinary choice (memory.add, .manual)
  | .guardAdd async => ordinary choice (memory.add, if async then .arming else .guard true)
  | .arming => ordinary choice (memory, .armed)
  | .armed =>
      match choice with
      | .go => if backend.ready memory.kernel then some (memory, .fired) else none
      | .interrupted => some (memory, .remove false)
      | _ => none
  | .fired =>
      match choice with
      | .go => some (memory, .tryLoad .asyncFired)
      | .interrupted => some (memory, .remove false)
      | _ => none
  | .wait _ _ | .drainWoken _ | .drainOwned | .acquireDrain _ _ => none
  | .idle | .owner _ | .manual | .guard _ | .dismissed => none

/-- The next wait on the kernel object or `consume_lock`. -/
def kernelStep (resolve : Resolve) (memory : Memory Kernel) :
    Pc Point → Option (Memory Kernel × Pc Point)
  | .wait waiting point => (backend.wait resolve memory.kernel point).map fun result =>
      ({ memory with kernel := result.1 }, waited backend waiting result.2)
  | .drainWoken waiting => (backend.consume resolve memory.kernel).map fun kernel =>
      ({ memory with kernel := kernel }, .reload waiting)
  | .drainOwned => (backend.consume resolve memory.kernel).map fun kernel =>
      ({ memory with kernel := kernel }, .owner false)
  | .acquireDrain active guard => (backend.consume resolve memory.kernel).map fun kernel =>
      ({ memory with kernel := kernel }, if active then .removeOwned guard else .owner guard)
  | _ => none

/-- The next step, as the environment resolves it. -/
def step (resolve : Resolve) (memory : Memory Kernel) (pc : Pc Point) :
    Option (Memory Kernel × Pc Point) :=
  ((backend.atomic resolve).bind fun choice => atomicStep backend choice memory pc).or
    (kernelStep backend resolve memory pc)

/-- The mutex as a program of its actors; nobody sleeps on a futex. -/
def program : Program (Memory Kernel) (Pc Point) Op Resolve where
  idle := .idle
  call := call backend
  step := step backend
  wake := fun _ => none
  asleep := fun _ => false
  woken := id

theorem program_silent : (program backend).Silent := fun _ => rfl

/-- The mutex used by the actors of `Actor`, over a kernel object. -/
abbrev system (kernel : Kernel) (Actor : Type*) [DecidableEq Actor] [Fintype Actor] :
    System (State Actor (Memory Kernel) (Pc Point)) (Action Actor Op Resolve) :=
  (program backend).system { kernel := kernel }

end Control

/-! ### What a step can do -/

/-- The caller of `try_lock` has a registration that it keeps. -/
def Caller.registered : Caller → Bool
  | .last | .asyncFired => true
  | .guard active => active
  | .alone | .deadline _ | .asyncStart => false

/-- What an actor is to the others.

* `blocked`: it waits on the kernel object.
* `attending`: it is a registered waiter that has returned from its wait and has not looked at a held
  mutex since.
* `posting`: it has cleared the lock bit and not yet notified.
* `draining`: it has taken the lock by the `(s - 2) | 1` exchange and not yet drained.
* `awaiting`: it is an asynchronous operation that is registered and neither completed nor
  cancelled. -/
inductive Role
  | plain
  | blocked
  | attending
  | posting
  | draining
  | awaiting
deriving DecidableEq, Repr

namespace Pc

variable {Point : Type*}

/-- The actor's registration is counted by the word. -/
def registered : Pc Point → Bool
  | .acquireCas _ _ _ | .wait _ _ | .drainWoken _ | .reload _ => true
  | .tryLoad caller | .tryCas caller _ => caller.registered
  | .acquireDrain active _ | .guard active => active
  | .remove _ | .removeOwned _ | .manual | .dismissed | .arming | .armed | .fired => true
  | _ => false

/-- The actor owns the mutex: from its acquiring exchange to the `fetch_and` of its `unlock`. -/
def holds : Pc Point → Bool
  | .owner _ | .unlock _ | .drainOwned | .acquireDrain _ _ | .removeOwned _ => true
  | _ => false

/-- The actor is about to call `remove_async_waiter`. -/
def removes : Pc Point → Bool
  | .remove _ | .removeOwned _ => true
  | _ => false

/-- The actor is outside all operations of the mutex, as an asynchronous operation is between its own. -/
def outside : Pc Point → Bool
  | .idle | .owner _ | .manual | .guard _ | .dismissed | .arming | .armed | .fired => true
  | _ => false

def role : Pc Point → Role
  | .wait _ _ => .blocked
  | .acquireCas _ true _ | .drainWoken _ | .reload _ => .attending
  | .post _ => .posting
  | .drainOwned => .draining
  | .tryLoad .asyncFired | .tryCas .asyncFired _ | .arming | .armed | .fired => .awaiting
  | _ => .plain

end Pc

section Effects

variable {Kernel Point Resolve : Type*}

/-- **The actor moves on**, touching neither the word nor the kernel object: it keeps its role, an
asynchronous operation is cancelled, or a waiter goes to wait because it has seen a held mutex. -/
structure Moves (word : Word) (pc after : Pc Point) : Prop where
  registered : after.registered = pc.registered
  holds : after.holds = pc.holds
  role : after.role = pc.role ∨ pc.role = .awaiting ∧ after.role = .plain ∨
    after.role = .blocked ∧ word &&& 1 ≠ 0
  source : pc.role ≠ .posting ∧ pc.role ≠ .draining ∧ pc.role ≠ .blocked

/-- **The effects of a step.** -/
inductive Effect (backend : Backend Kernel Point Resolve) (resolve : Resolve) (memory : Memory Kernel)
    (pc : Pc Point) : Memory Kernel → Pc Point → Prop
  | moves {after : Pc Point} : Moves memory.word pc after →
      Effect backend resolve memory pc memory after
  | waits {waiting : Waiting} {point : Point} {kernel : Kernel} {result : Point ⊕ Bool} :
      pc = .wait waiting point → backend.wait resolve memory.kernel point = some (kernel, result) →
      Effect backend resolve memory pc { memory with kernel := kernel }
        (waited backend waiting result)
  | consumeWoken {waiting : Waiting} {kernel : Kernel} : pc = .drainWoken waiting →
      backend.consume resolve memory.kernel = some kernel →
      Effect backend resolve memory pc { memory with kernel := kernel } (.reload waiting)
  | consumeOwned {kernel : Kernel} : pc = .drainOwned →
      backend.consume resolve memory.kernel = some kernel →
      Effect backend resolve memory pc { memory with kernel := kernel } (.owner false)
  | consumeAcquired {active guard : Bool} {kernel : Kernel} : pc = .acquireDrain active guard →
      backend.consume resolve memory.kernel = some kernel →
      Effect backend resolve memory pc { memory with kernel := kernel }
        (if active then .removeOwned guard else .owner guard)
  | post {guard : Bool} : pc = .post guard →
      Effect backend resolve memory pc { memory with kernel := backend.post memory.kernel }
        (rest guard)
  | acquire {after : Pc Point} : memory.word &&& 1 = 0 → pc.holds = false → after.holds = true →
      after.registered = pc.registered → after.role = .plain →
      (pc.role = .plain ∨ pc.role = .awaiting) →
      Effect backend resolve memory pc { memory with word := memory.word + 1 } after
  | add {after : Pc Point} : pc.registered = false → pc.holds = false → pc.role = .plain →
      after.registered = true → after.holds = false →
      (after.role = .plain ∨ after.role = .blocked ∧ memory.word &&& 1 ≠ 0 ∨
        pc = .guardAdd true ∧ after = .arming) →
      Effect backend resolve memory pc memory.add after
  | takeOver {s : Word} : memory.word = s → s &&& 1 = 0 → pc.registered = true → pc.holds = false →
      (pc.role = .plain ∨ pc.role = .attending) →
      Effect backend resolve memory pc (memory.exchange s) .drainOwned
  | remove {after : Pc Point} : pc.registered = true → pc.role = .plain → after.registered = false →
      after.holds = pc.holds → after.role = .plain → pc.removes = true →
      Effect backend resolve memory pc memory.remove after
  | unlock {guard : Bool} : pc = .unlock guard →
      Effect backend resolve memory pc { memory with word := memory.word &&& ~~~1 }
        (if memory.word > 1 then .post guard else rest guard)

section Loops

variable {backend : Backend Kernel Point Resolve} {word : Word} {pc : Pc Point}

/-- A move between two places that mean nothing to the others. -/
theorem moves_plain {after : Pc Point} (registered : after.registered = pc.registered)
    (holds : after.holds = pc.holds) (role : after.role = .plain) (source : pc.role = .plain) :
    Moves word pc after := by
  refine ⟨registered, holds, Or.inl (role.trans source.symm), ?_⟩
  rw [source]
  exact ⟨nofun, nofun, nofun⟩

/-- A move inside or out of an asynchronous operation. -/
theorem moves_awaiting {after : Pc Point} (registered : after.registered = pc.registered)
    (holds : after.holds = pc.holds) (role : after.role = .awaiting ∨ after.role = .plain)
    (source : pc.role = .awaiting) : Moves word pc after := by
  refine ⟨registered, holds, ?_, ?_⟩
  · rcases role with stays | leaves
    · exact Or.inl (stays.trans source.symm)
    · exact Or.inr (Or.inl ⟨source, leaves⟩)
  · rw [source]
    exact ⟨nofun, nofun, nofun⟩

theorem rest_standing (guard : Bool) : (rest guard : Pc Point).registered = false ∧
    (rest guard : Pc Point).holds = false ∧ (rest guard : Pc Point).role = .plain := by
  cases guard <;> exact ⟨rfl, rfl, rfl⟩

/-- An `unlock` that has cleared the lock bit posts, or rests. -/
theorem unlocked_standing (word : Word) (guard : Bool) :
    (if word > 1 then .post guard else rest guard : Pc Point).registered = false ∧
      (if word > 1 then .post guard else rest guard : Pc Point).holds = false := by
  split
  · exact ⟨rfl, rfl⟩
  · exact ⟨(rest_standing guard).1, (rest_standing guard).2.1⟩

theorem moves_park (waiting : Waiting) (polled : Bool) (word : Word)
    (registered : pc.registered = true) (holds : pc.holds = false)
    (role : pc.role = if polled then .attending else .plain) :
    Moves word pc (park backend waiting polled word) := by
  have source : pc.role ≠ .posting ∧ pc.role ≠ .draining ∧ pc.role ≠ .blocked := by
    rw [role]
    cases polled <;> exact ⟨nofun, nofun, nofun⟩
  unfold park
  split
  · refine ⟨registered.symm, holds.symm, Or.inl ?_, source⟩
    rw [role]
    cases polled <;> rfl
  · rename_i held
    exact ⟨registered.symm, holds.symm, Or.inr (Or.inr ⟨rfl, held⟩), source⟩

theorem moves_spinNext (waiting : Waiting) (s : Word) {state : ExponentialBackoff}
    {result : BackoffResult} (unsuccessful : result ≠ .success) (registered : pc.registered = false)
    (holds : pc.holds = false) (role : pc.role = .plain) :
    Moves word pc (spinNext waiting s (afterCall state result)) := by
  cases loop : afterCall state result with
  | again state => exact moves_plain registered.symm holds.symm rfl role
  | returned success =>
    cases success with
    | false => exact moves_plain registered.symm holds.symm rfl role
    | true => exact absurd (afterCall_returned_true loop) unsuccessful

theorem moves_tryLockFor (positive : Bool) (registered : pc.registered = false)
    (holds : pc.holds = false) (role : pc.role = .plain) :
    Moves word pc (tryLockFor backend positive) := by
  unfold tryLockFor
  split
  · split <;> exact moves_plain registered.symm holds.symm rfl role
  · exact moves_plain registered.symm holds.symm rfl role

theorem moves_tryFailed (caller : Caller) (registered : pc.registered = caller.registered)
    (holds : pc.holds = false) (role : pc.role = (.tryLoad caller : Pc Point).role) :
    Moves word pc (tryFailed backend caller) := by
  cases caller with
  | asyncFired => exact moves_awaiting registered.symm holds.symm (Or.inl rfl) role
  | deadline clock =>
    cases clock with
    | other => exact moves_plain registered.symm holds.symm rfl role
    | system | steady =>
      simp only [tryFailed]
      split <;> exact moves_plain registered.symm holds.symm rfl role
  | _ => exact moves_plain registered.symm holds.symm rfl role

theorem moves_tryLoop (caller : Caller) (s : Word) (registered : pc.registered = caller.registered)
    (holds : pc.holds = false) (role : pc.role = (.tryLoad caller : Pc Point).role) :
    Moves word pc (tryLoop backend caller s) := by
  unfold tryLoop
  split
  · cases caller with
    | asyncFired => exact moves_awaiting registered.symm holds.symm (Or.inl rfl) role
    | _ => exact moves_plain registered.symm holds.symm rfl role
  · exact moves_tryFailed caller registered holds role

/-- A successful `try_lock` makes an owner, who keeps the caller's registration. -/
theorem trySucceeded_standing (caller : Caller) :
    (trySucceeded caller : Pc Point).holds = true ∧
      (trySucceeded caller : Pc Point).registered = caller.registered ∧
      (trySucceeded caller : Pc Point).role = .plain := by
  cases caller <;> exact ⟨rfl, rfl, rfl⟩

/-- A waiter is plain until it sees a held word. -/
theorem park_standing (backend : Backend Kernel Point Resolve) (waiting : Waiting) (s : Word) :
    (park backend waiting false s).registered = true ∧ (park backend waiting false s).holds = false ∧
      ((park backend waiting false s).role = .plain ∨
        (park backend waiting false s).role = .blocked ∧ s &&& 1 ≠ 0) := by
  unfold park
  split
  · exact ⟨rfl, rfl, Or.inl rfl⟩
  · rename_i held
    exact ⟨rfl, rfl, Or.inr ⟨rfl, held⟩⟩

end Loops

/-- Registering does not change the lock bit. -/
theorem and_one_add_two (word : Word) : (word + 2) &&& 1 = 0 ↔ word &&& 1 = 0 := by
  rw [free_iff, free_iff]
  bv_omega

theorem and_one_sub_two (word : Word) : (word - 2) &&& 1 = 0 ↔ word &&& 1 = 0 := by
  rw [free_iff, free_iff]
  bv_omega

variable {backend : Backend Kernel Point Resolve} {memory after : Memory Kernel} {pc moved : Pc Point}

theorem kernelStep_effect {resolve : Resolve}
    (stepped : kernelStep backend resolve memory pc = some (after, moved)) :
    Effect backend resolve memory pc after moved := by
  cases pc with
  | wait waiting point =>
    obtain ⟨⟨kernel, result⟩, waited, same⟩ := Option.map_eq_some_iff.mp stepped
    cases same
    exact .waits rfl waited
  | drainWoken waiting =>
    obtain ⟨kernel, consumed, same⟩ := Option.map_eq_some_iff.mp stepped
    cases same
    exact .consumeWoken rfl consumed
  | drainOwned =>
    obtain ⟨kernel, consumed, same⟩ := Option.map_eq_some_iff.mp stepped
    cases same
    exact .consumeOwned rfl consumed
  | acquireDrain active guard =>
    obtain ⟨kernel, consumed, same⟩ := Option.map_eq_some_iff.mp stepped
    cases same
    exact .consumeAcquired rfl consumed
  | _ => cases stepped

/-- **An exchange that acquires**, from a word that was read free, by an actor that keeps its
registration. -/
theorem exchange_effect {resolve : Resolve} {choice : Choice} {s desired : Word}
    {owner failed : Pc Point} (stepped : (compareExchangeWeak choice memory.word s).map (fun exchanged =>
      if exchanged then ({ memory with word := desired }, owner) else (memory, failed)) =
        some (after, moved))
    (free : s &&& 1 = 0) (acquires : desired = s ||| 1) (outside : pc.holds = false)
    (role : pc.role = .plain ∨ pc.role = .awaiting) (inside : owner.holds = true)
    (registered : owner.registered = pc.registered) (plain : owner.role = .plain)
    (fails : Moves memory.word pc failed) : Effect backend resolve memory pc after moved := by
  rcases compareExchangeWeak_cases stepped with ⟨-, same, result⟩ | ⟨-, result⟩
  · cases result
    rw [acquires, locked_eq free, ← same]
    exact .acquire (by rw [same]; exact free) outside inside registered plain role
  · cases result
    exact .moves fails

theorem atomicStep_effect {resolve : Resolve} {choice : Choice}
    (stepped : atomicStep backend choice memory pc = some (after, moved)) :
    Effect backend resolve memory pc after moved := by
  cases pc with
  | wait | drainWoken | drainOwned | acquireDrain => cases stepped
  | idle | owner | manual | guard | dismissed => cases stepped
  | lockCas | forCas =>
    simp only [atomicStep] at stepped
    exact exchange_effect stepped rfl rfl rfl (Or.inl rfl) rfl rfl rfl (moves_plain rfl rfl rfl rfl)
  | spinLoad waiting =>
    cases (ordinary_eq_some stepped).2
    exact .moves (moves_plain rfl rfl rfl rfl)
  | spin waiting s state =>
    simp only [atomicStep] at stepped
    split at stepped
    · rename_i free
      exact exchange_effect stepped free rfl rfl (Or.inl rfl) rfl rfl rfl
        (moves_spinNext waiting memory.word (by decide) rfl rfl rfl)
    · cases (ordinary_eq_some stepped).2
      exact .moves (moves_spinNext waiting s (by decide) rfl rfl rfl)
  | relative =>
    cases choice with
    | go =>
      cases stepped
      exact .moves (moves_tryLockFor true rfl rfl rfl)
    | expired =>
      cases stepped
      exact .moves (moves_tryLockFor false rfl rfl rfl)
    | _ => cases stepped
  | register waiting =>
    cases (ordinary_eq_some stepped).2
    obtain ⟨registered, holds, role⟩ := park_standing backend waiting (memory.word + 2)
    rw [Ne, and_one_add_two] at role
    refine .add rfl rfl rfl registered holds ?_
    rcases role with plain | blocked
    · exact Or.inl plain
    · exact Or.inr (Or.inl blocked)
  | acquireCas waiting polled s =>
    have role : (Pc.acquireCas waiting polled s : Pc Point).role =
        if polled then .attending else .plain := by
      cases polled <;> rfl
    rcases compareExchangeWeak_cases stepped with ⟨-, same, result⟩ | ⟨-, result⟩
    · cases result
      exact .takeOver same s.2 rfl rfl (by rw [role]; cases polled <;> simp)
    · cases result
      exact .moves (moves_park waiting polled memory.word rfl rfl role)
  | reload waiting =>
    cases (ordinary_eq_some stepped).2
    exact .moves (moves_park waiting true memory.word rfl rfl rfl)
  | tryLoad caller =>
    cases (ordinary_eq_some stepped).2
    exact .moves (moves_tryLoop caller memory.word rfl rfl rfl)
  | tryCas caller s =>
    have role : (Pc.tryCas caller s : Pc Point).role = (.tryLoad caller : Pc Point).role := by
      cases caller <;> rfl
    obtain ⟨holds, registered, plain⟩ := @trySucceeded_standing Point caller
    refine exchange_effect stepped s.2 rfl rfl ?_ holds registered plain
      (moves_tryLoop caller memory.word rfl rfl role)
    cases caller with
    | asyncFired => exact Or.inr rfl
    | _ => exact Or.inl rfl
  | remove guard =>
    cases (ordinary_eq_some stepped).2
    obtain ⟨registered, holds, plain⟩ := @rest_standing Point guard
    exact .remove rfl rfl registered holds plain rfl
  | removeOwned guard =>
    cases (ordinary_eq_some stepped).2
    exact .remove rfl rfl rfl rfl rfl rfl
  | unlock guard =>
    cases (ordinary_eq_some stepped).2
    exact .unlock rfl
  | post guard =>
    cases (ordinary_eq_some stepped).2
    exact .post rfl
  | manualAdd =>
    cases (ordinary_eq_some stepped).2
    exact .add rfl rfl rfl rfl rfl (Or.inl rfl)
  | guardAdd async =>
    cases (ordinary_eq_some stepped).2
    cases async with
    | false => exact .add rfl rfl rfl rfl rfl (Or.inl rfl)
    | true => exact .add rfl rfl rfl rfl rfl (Or.inr (Or.inr ⟨rfl, rfl⟩))
  | arming =>
    cases (ordinary_eq_some stepped).2
    exact .moves (moves_awaiting rfl rfl (Or.inl rfl) rfl)
  | armed =>
    cases choice with
    | go =>
      simp only [atomicStep] at stepped
      split at stepped
      · cases stepped
        exact .moves (moves_awaiting rfl rfl (Or.inl rfl) rfl)
      · cases stepped
    | interrupted =>
      cases stepped
      exact .moves (moves_awaiting rfl rfl (Or.inr rfl) rfl)
    | _ => cases stepped
  | fired =>
    cases choice with
    | go =>
      cases stepped
      exact .moves (moves_awaiting rfl rfl (Or.inl rfl) rfl)
    | interrupted =>
      cases stepped
      exact .moves (moves_awaiting rfl rfl (Or.inr rfl) rfl)
    | _ => cases stepped

/-- **Every step has one of the effects.** -/
theorem step_effect {resolve : Resolve}
    (stepped : step backend resolve memory pc = some (after, moved)) :
    Effect backend resolve memory pc after moved := by
  rcases Option.or_eq_some_iff.mp stepped with atomic | ⟨-, called⟩
  · obtain ⟨choice, -, taken⟩ := Option.bind_eq_some_iff.mp atomic
    exact atomicStep_effect taken
  · exact kernelStep_effect called

theorem call_moves {op : Op} (word : Word) (called : call backend op pc = some moved) :
    Moves word pc moved := by
  unfold call at called
  split at called
  case h_3 positive =>
    cases called
    exact moves_tryLockFor positive rfl rfl rfl
  case h_12 active =>
    cases called
    cases active <;> exact moves_plain rfl rfl rfl rfl
  case h_13 active =>
    cases called
    cases active <;> exact moves_plain rfl rfl rfl rfl
  case h_14 active =>
    cases called
    cases active <;> exact moves_plain rfl rfl rfl rfl
  all_goals
    cases called
    try exact moves_plain rfl rfl rfl rfl

end Effects

end NovaSync.FastAsyncMutex
