/-
**`kqueue_semaphore` and its tokens.**

The counter and the kernel's flag are two pieces of state: `count_` is subtracted before a waiter goes
to the kqueue, and `acquire` and `try_acquire_for` return on any event they receive there, without a
look at the counter. `try_acquire_until` on the system or steady clock waits for an event too, but
acquires through `try_acquire`.

* `kqueueSemaphore_acquired_le` — no token out of nothing, in the runs in which no waiter receives a
  stale event (`Stale`) and no timed-out waiter undoes a subtraction that has been paid for.
* `kqueueSemaphore_stale_event` — `release(1)`, `acquire()`, `acquire()` by one thread: the second
  `acquire` returns on the flag that `release` has left.
-/

import NovaSync.Concurrency.Threads
import NovaSync.Detail.Kevent

set_option linter.unusedSectionVars false

namespace NovaSync.KqueueSemaphore

open Concurrency Detail

/-! ### The program -/

/-- `count_`, the kqueue, and the history of the run: the sum of the `n` released and the acquisitions
that have returned success. -/
structure Memory where
  count : ℤ
  queue : Kqueue := {}
  released : ℕ := 0
  acquired : ℕ := 0
deriving DecidableEq, Repr

inductive Op
  | release (n : ℕ)
  | acquire
  | tryAcquire
  | tryAcquireFor (positive : Bool)
  | tryAcquireUntil (clock : Clock)
deriving DecidableEq, Repr

/-- Who calls `try_acquire`, and so what follows when it fails: nothing, the waiting part of
`try_acquire_for`, or the next wait of `try_acquire_until`. -/
inductive Caller
  | alone
  | waitFor
  | waitUntil (clock : Clock)
deriving DecidableEq, Repr

/-- The next atomic operation or system call of a thread.

* `release n`: the `fetch_add`; `notify left`: a `notify()`, with `left` more to follow.
* `fetchSub timed`: the `fetch_sub(1)` of `acquire` or `try_acquire_for`; `kevent`: the wait of
  `acquire`; `renotify`: its `notify()` on the way out.
* `tryLoad`, `tryCas`: the load and the `compare_exchange_weak` of `try_acquire`.
* `keventFor`: the `kevent_for` of `try_acquire_for`; `undo`: its `fetch_add(1)` after a timeout;
  `poll`: the `kevent` with a zero timeout that follows when the count was not negative.
* `addTimer`, `keventUntil`, `deleteTimer result`: `kevent_until` on the system clock.
* `deadline`, `steadyFor`: the test of the remaining time and the `kevent_for` of `kevent_until` on the
  steady clock.
* `relative`: the clock reading before `try_acquire_for` on any other clock. -/
inductive Pc
  | idle
  | release (n : ℕ)
  | notify (left : ℕ)
  | fetchSub (timed : Bool)
  | kevent
  | renotify
  | tryLoad (caller : Caller)
  | tryCas (caller : Caller) (c : {c : ℤ // 0 < c})
  | keventFor (point : KeventFor)
  | undo
  | poll
  | addTimer
  | keventUntil
  | deleteTimer (result : Bool)
  | deadline
  | steadyFor (point : KeventFor)
  | relative
deriving DecidableEq, Repr

/-- Where a failed `try_acquire` goes on. -/
def tryFailed : Caller → Pc
  | .alone => .idle
  | .waitFor => .fetchSub true
  | .waitUntil .system => .addTimer
  | .waitUntil .steady => .deadline
  | .waitUntil .other => .relative

/-- The loop test of `try_acquire`. -/
def tryLoop (caller : Caller) (c : ℤ) : Pc :=
  if free : 0 < c then .tryCas caller ⟨c, free⟩ else tryFailed caller

/-- The `notify()` calls that are left. -/
def notifyNext : ℕ → Pc
  | 0 => .idle
  | left + 1 => .notify left

/-- The number of `notify()` calls of `release`, given the count before its `fetch_add`. -/
def toWake (n : ℕ) (prev : ℤ) : ℕ :=
  if prev < 0 then (min (int32 n) (int32 (-prev))).toNat else 1

def call : Op → Pc → Option Pc
  | .release n, .idle => some (.release n)
  | .acquire, .idle => some (.fetchSub false)
  | .tryAcquire, .idle => some (.tryLoad .alone)
  | .tryAcquireFor positive, .idle => some (.tryLoad (if positive then .waitFor else .alone))
  | .tryAcquireUntil clock, .idle => some (.tryLoad (.waitUntil clock))
  | _, _ => none

namespace Memory

/-- The `fetch_add` of `release`. -/
def release (memory : Memory) (n : ℕ) : Memory :=
  { memory with count := int32 (memory.count + int32 n), released := memory.released + n }

/-- `fetch_sub(1)`. -/
def fetchSub (memory : Memory) : Memory := { memory with count := int32 (memory.count - 1) }

/-- The `fetch_add(1)` after a timeout. -/
def undo (memory : Memory) : Memory := { memory with count := int32 (memory.count + 1) }

/-- A successful exchange of a positive count. -/
def exchange (memory : Memory) : Memory :=
  { memory with count := memory.count - 1, acquired := memory.acquired + 1 }

/-- An acquisition returns success. -/
def success (memory : Memory) : Memory := { memory with acquired := memory.acquired + 1 }

end Memory

/-- The next atomic operation or clock test, or system call that does not wait. -/
def atomicStep (choice : Choice) (memory : Memory) : Pc → Option (Memory × Pc)
  | .release n => ordinary choice (memory.release n, notifyNext (toWake n memory.count))
  | .notify left =>
      ordinary choice ({ memory with queue := memory.queue.trigger }, notifyNext left)
  | .fetchSub timed => ordinary choice <|
      if memory.count > 0 then (memory.fetchSub.success, .idle)
      else (memory.fetchSub, if timed then .keventFor .wait else .kevent)
  | .renotify => ordinary choice ({ memory with queue := memory.queue.trigger }.success, .idle)
  | .tryLoad caller => ordinary choice (memory, tryLoop caller memory.count)
  | .tryCas caller c => (compareExchangeWeak choice memory.count c.1).map fun exchanged =>
      if exchanged then (memory.exchange, .idle) else (memory, tryLoop caller memory.count)
  | .keventFor point => (point.test choice).map fun
      | .inl next => (memory, .keventFor next)
      | .inr _ => (memory, .undo)
  | .undo => ordinary choice (memory.undo, if memory.count ≥ 0 then .poll else .idle)
  | .addTimer =>
      match choice with
      | .go => some ({ memory with queue := memory.queue.addTimer }, .keventUntil)
      | .failed => some (memory, .tryLoad .alone)
      | _ => none
  | .deleteTimer result => ordinary choice ({ memory with queue := memory.queue.deleteTimer },
      .tryLoad (if result then .waitUntil .system else .alone))
  | .deadline =>
      match choice with
      | .go => some (memory, .steadyFor .wait)
      | .expired => some (memory, .tryLoad .alone)
      | _ => none
  | .steadyFor point => (point.test choice).map fun
      | .inl next => (memory, .steadyFor next)
      | .inr _ => (memory, .deadline)
  | .relative =>
      match choice with
      | .go => some (memory, .tryLoad .waitFor)
      | .expired => some (memory, .tryLoad .alone)
      | _ => none
  | .idle | .kevent | .poll | .keventUntil => none

/-- The next `kevent` call that waits. -/
def keventStep (outcome : Kevent) (memory : Memory) : Pc → Option (Memory × Pc)
  | .kevent => (memory.queue.kevent false outcome).map fun queue =>
      ({ memory with queue := queue }, match outcome with
        | .event _ => .renotify
        | .interrupted | .expired | .failed => .kevent)
  | .keventFor point => (point.kevent memory.queue outcome).map fun
      | (queue, .inl next) => ({ memory with queue := queue }, .keventFor next)
      | (queue, .inr true) => ({ memory with queue := queue }.success, .idle)
      | (queue, .inr false) => ({ memory with queue := queue }, .undo)
  | .poll => (memory.queue.kevent true outcome).map fun queue =>
      ({ memory with queue := queue }.success, .idle)
  | .keventUntil => (memory.queue.kevent false outcome).map fun queue =>
      ({ memory with queue := queue }, match outcome with
        | .event .user => .deleteTimer true
        | .event .timer | .failed => .deleteTimer false
        | .interrupted | .expired => .keventUntil)
  | .steadyFor point => (point.kevent memory.queue outcome).map fun
      | (queue, .inl next) => ({ memory with queue := queue }, .steadyFor next)
      | (queue, .inr true) => ({ memory with queue := queue }, .tryLoad (.waitUntil .steady))
      | (queue, .inr false) => ({ memory with queue := queue }, .deadline)
  | _ => none

/-- The next step, as the environment resolves it. -/
def step (choice : Choice ⊕ Kevent) (memory : Memory) (pc : Pc) : Option (Memory × Pc) :=
  choice.elim (atomicStep · memory pc) (keventStep · memory pc)

namespace Pc

/-- The thread has subtracted its token and waits for an event. -/
def registered : Pc → Bool
  | .kevent | .keventFor _ | .undo => true
  | _ => false

/-- The thread will return success and has not yet done so. -/
def decided : Pc → Bool
  | .renotify | .poll => true
  | _ => false

end Pc

/-- The semaphore as a thread program; nobody sleeps on a futex. -/
def program : Program Memory Pc Op (Choice ⊕ Kevent) where
  idle := .idle
  call := call
  step := step
  wake := fun _ => none
  asleep := fun _ => false
  woken := id

theorem program_silent : program.Silent := fun _ => rfl

/-- The semaphore used by the threads of `Thread`, with `initial` tokens. -/
abbrev system (initial : ℕ) (Thread : Type*) [DecidableEq Thread] [Fintype Thread] :
    System (State Thread Memory Pc) (Action Thread Op (Choice ⊕ Kevent)) :=
  program.system { count := int32 initial }

/-! ### What a step can do -/

/-- **The effects of a step.** A thread moves on, whatever happens to the kqueue, or the numbers
change. -/
inductive Effect (choice : Choice ⊕ Kevent) (memory : Memory) (pc : Pc) : Memory → Pc → Prop
  | moves (queue : Kqueue) {after : Pc} : after.registered = pc.registered →
      after.decided = pc.decided → Effect choice memory pc { memory with queue := queue } after
  | release (n : ℕ) : choice = .inl .go → pc = .release n →
      Effect choice memory pc (memory.release n) (notifyNext (toWake n memory.count))
  | exchange (caller : Caller) (c : {c : ℤ // 0 < c}) : 0 < memory.count → pc = .tryCas caller c →
      Effect choice memory pc memory.exchange .idle
  | subtract (timed : Bool) : choice = .inl .go → 0 < memory.count → pc = .fetchSub timed →
      Effect choice memory pc memory.fetchSub.success .idle
  | register (timed : Bool) {after : Pc} : choice = .inl .go → pc = .fetchSub timed →
      after.registered = true → after.decided = false → Effect choice memory pc memory.fetchSub after
  | deliver (event : Event) (queue : Kqueue) : choice = .inr (.event event) → pc = .kevent →
      Effect choice memory pc { memory with queue := queue } .renotify
  | receive (event : Event) (queue : Kqueue) (point : KeventFor) : choice = .inr (.event event) →
      pc = .keventFor point → Effect choice memory pc { memory with queue := queue }.success .idle
  | finish (queue : Kqueue) : pc.registered = false → pc.decided = true →
      Effect choice memory pc { memory with queue := queue }.success .idle
  | withdraw : choice = .inl .go → memory.count < 0 → pc = .undo →
      Effect choice memory pc memory.undo .idle
  | phantom : choice = .inl .go → 0 ≤ memory.count → pc = .undo →
      Effect choice memory pc memory.undo .poll

theorem standing_notifyNext (left : ℕ) :
    (notifyNext left).registered = false ∧ (notifyNext left).decided = false := by
  cases left <;> exact ⟨rfl, rfl⟩

theorem standing_tryLoop (caller : Caller) (c : ℤ) :
    (tryLoop caller c).registered = false ∧ (tryLoop caller c).decided = false := by
  unfold tryLoop
  split
  · exact ⟨rfl, rfl⟩
  · cases caller with
    | waitUntil clock => cases clock <;> exact ⟨rfl, rfl⟩
    | _ => exact ⟨rfl, rfl⟩

/-- The effects of an atomic operation. -/
theorem atomicStep_effect {choice : Choice} {memory after : Memory} {pc moved : Pc}
    (stepped : atomicStep choice memory pc = some (after, moved)) :
    Effect (.inl choice) memory pc after moved := by
  cases pc with
  | idle | kevent | poll | keventUntil => cases stepped
  | release n =>
    obtain ⟨rfl, result⟩ := ordinary_eq_some stepped
    cases result
    exact .release n rfl rfl
  | notify left =>
    cases (ordinary_eq_some stepped).2
    exact .moves _ (standing_notifyNext left).1 (standing_notifyNext left).2
  | fetchSub timed =>
    obtain ⟨rfl, result⟩ := ordinary_eq_some stepped
    split at result
    · rename_i free
      cases result
      exact .subtract timed rfl free rfl
    · cases result
      exact .register timed rfl rfl (by cases timed <;> rfl) (by cases timed <;> rfl)
  | renotify =>
    cases (ordinary_eq_some stepped).2
    exact .finish _ rfl rfl
  | tryLoad caller =>
    cases (ordinary_eq_some stepped).2
    exact .moves memory.queue (standing_tryLoop caller memory.count).1
      (standing_tryLoop caller memory.count).2
  | tryCas caller c =>
    rcases compareExchangeWeak_cases stepped with ⟨-, same, result⟩ | ⟨-, result⟩
    · cases result
      exact .exchange caller c (same ▸ c.2) rfl
    · cases result
      exact .moves memory.queue (standing_tryLoop caller memory.count).1
        (standing_tryLoop caller memory.count).2
  | keventFor point =>
    obtain ⟨next | _, -, result⟩ := Option.map_eq_some_iff.mp stepped <;> cases result
    · exact .moves memory.queue rfl rfl
    · exact .moves memory.queue rfl rfl
  | undo =>
    obtain ⟨rfl, result⟩ := ordinary_eq_some stepped
    split at result
    · rename_i paid
      cases result
      exact .phantom rfl paid rfl
    · rename_i owing
      cases result
      exact .withdraw rfl (by omega) rfl
  | addTimer =>
    cases choice with
    | go =>
      cases stepped
      exact .moves _ rfl rfl
    | failed =>
      cases stepped
      exact .moves memory.queue rfl rfl
    | _ => cases stepped
  | deleteTimer result =>
    cases (ordinary_eq_some stepped).2
    exact .moves _ rfl rfl
  | deadline | relative =>
    cases choice with
    | go | expired =>
      cases stepped
      exact .moves memory.queue rfl rfl
    | _ => cases stepped
  | steadyFor point =>
    obtain ⟨next | _, -, result⟩ := Option.map_eq_some_iff.mp stepped <;> cases result
    · exact .moves memory.queue rfl rfl
    · exact .moves memory.queue rfl rfl

/-- The effects of a `kevent` call that waits. -/
theorem keventStep_effect {outcome : Kevent} {memory after : Memory} {pc moved : Pc}
    (stepped : keventStep outcome memory pc = some (after, moved)) :
    Effect (.inr outcome) memory pc after moved := by
  cases pc with
  | kevent =>
    obtain ⟨queue, -, result⟩ := Option.map_eq_some_iff.mp stepped
    cases result
    cases outcome with
    | event event => exact .deliver event queue rfl rfl
    | _ => exact .moves queue rfl rfl
  | keventFor point =>
    cases point with
    | remaining => cases stepped
    | wait =>
      obtain ⟨⟨queue, next⟩, waited, result⟩ := Option.map_eq_some_iff.mp stepped
      obtain ⟨queue, -, returned⟩ := Option.map_eq_some_iff.mp waited
      cases returned
      cases outcome with
      | event event =>
        cases result
        exact .receive event queue .wait rfl rfl
      | _ =>
        cases result
        exact .moves queue rfl rfl
  | poll =>
    obtain ⟨queue, -, result⟩ := Option.map_eq_some_iff.mp stepped
    cases result
    exact .finish queue rfl rfl
  | keventUntil =>
    obtain ⟨queue, -, result⟩ := Option.map_eq_some_iff.mp stepped
    cases result
    cases outcome with
    | event event => cases event <;> exact .moves queue rfl rfl
    | _ => exact .moves queue rfl rfl
  | steadyFor point =>
    obtain ⟨⟨queue, next | returned⟩, -, result⟩ := Option.map_eq_some_iff.mp stepped
    · cases result
      exact .moves queue rfl rfl
    · cases returned <;> cases result <;> exact .moves queue rfl rfl
  | _ => cases stepped

theorem step_effect {choice : Choice ⊕ Kevent} {memory after : Memory} {pc moved : Pc}
    (stepped : step choice memory pc = some (after, moved)) :
    Effect choice memory pc after moved := by
  cases choice with
  | inl choice => exact atomicStep_effect stepped
  | inr outcome => exact keventStep_effect stepped

/-! ### No token out of nothing -/

section Tokens

variable {initial : ℕ} {Thread : Type*} [DecidableEq Thread] [Fintype Thread]

/-- The threads that have subtracted their token and wait for an event. -/
def waiters (state : State Thread Memory Pc) : ℕ := count Pc.registered state.thread

/-- The threads that will return success. -/
def deciders (state : State Thread Memory Pc) : ℕ := count Pc.decided state.thread

/-- The counter still owes every registered waiter its token: an event that one of them receives now
stands for no token. -/
def Stale (state : State Thread Memory Pc) : Prop := state.memory.count + waiters state ≤ 0

instance (state : State Thread Memory Pc) : Decidable (Stale state) :=
  inferInstanceAs (Decidable (_ ≤ _))

/-- The count that the next step of a thread aims at. -/
def nextCount (memory : Memory) : Pc → ℤ
  | .release n => memory.count + n
  | .fetchSub _ => memory.count - 1
  | .undo => memory.count + 1
  | _ => memory.count

/-- The action does not overflow `count_`. -/
def NoOverflow (state : State Thread Memory Pc) : Action Thread Op (Choice ⊕ Kevent) → Prop
  | .step t _ => InInt32 (nextCount state.memory (state.thread t))
  | .call _ _ | .wake _ _ => True

instance (state : State Thread Memory Pc) : DecidablePred (NoOverflow state)
  | .step t _ => inferInstanceAs (Decidable (InInt32 (nextCount state.memory (state.thread t))))
  | .call _ _ | .wake _ _ => inferInstanceAs (Decidable True)

/-- No registered waiter receives a stale event, and no timed-out waiter undoes its subtraction on a
count that is not negative. -/
def Paid (state : State Thread Memory Pc) : Action Thread Op (Choice ⊕ Kevent) → Prop
  | .step t (.inr (.event _)) => (state.thread t).registered = true → ¬ Stale state
  | .step t (.inl _) => state.thread t = .undo → state.memory.count < 0
  | .step _ (.inr .interrupted) | .step _ (.inr .expired) | .step _ (.inr .failed) => True
  | .call _ _ | .wake _ _ => True

instance (state : State Thread Memory Pc) : DecidablePred (Paid state)
  | .step t (.inr (.event _)) =>
      inferInstanceAs (Decidable ((state.thread t).registered = true → ¬ Stale state))
  | .step t (.inl _) => inferInstanceAs (Decidable (state.thread t = .undo → state.memory.count < 0))
  | .step _ (.inr .interrupted) | .step _ (.inr .expired) | .step _ (.inr .failed) =>
      inferInstanceAs (Decidable True)
  | .call _ _ | .wake _ _ => inferInstanceAs (Decidable True)

/-- The action neither overflows nor hands out a token that is not there. -/
def Sound (state : State Thread Memory Pc) (action : Action Thread Op (Choice ⊕ Kevent)) : Prop :=
  NoOverflow state action ∧ Paid state action

instance (state : State Thread Memory Pc) : DecidablePred (Sound state) :=
  fun _ => inferInstanceAs (Decidable (_ ∧ _))

/-- **The tokens add up**, and those not yet handed out cover the waiters that the counter no longer
owes. -/
structure Accounted (initial : ℕ) (state : State Thread Memory Pc) : Prop where
  tokens : state.memory.count + waiters state + deciders state + state.memory.acquired =
    initial + state.memory.released
  unclaimed : 0 ≤ state.memory.count + waiters state

/-- **One step of one thread.** -/
theorem Accounted.effect {state : State Thread Memory Pc} (accounted : Accounted initial state)
    {t : Thread} {choice : Choice ⊕ Kevent} {memory : Memory} {moved : Pc}
    (sound : Sound state (.step t choice))
    (effect : Effect choice state.memory (state.thread t) memory moved) :
    Accounted initial ⟨memory, Function.update state.thread t moved⟩ := by
  obtain ⟨tokens, unclaimed⟩ := accounted
  obtain ⟨fits, paid⟩ := sound
  have waiting := count_update Pc.registered state.thread t moved
  have deciding := count_update Pc.decided state.thread t moved
  unfold waiters deciders at tokens
  unfold waiters at unclaimed
  cases effect with
  | moves queue registered decided =>
    rw [registered] at waiting
    rw [decided] at deciding
    constructor <;> simp only [waiters, deciders] <;> omega
  | release n went here =>
    subst went
    have counted : int32 (state.memory.count + int32 n) = state.memory.count + n := by
      rw [int32_add_int32]
      simp only [NoOverflow, here, nextCount] at fits
      exact int32_eq_self fits
    rw [here, (standing_notifyNext _).1] at waiting
    rw [here, (standing_notifyNext _).2] at deciding
    simp only [Pc.registered, Pc.decided, Bool.toNat_false] at waiting deciding
    constructor <;> simp only [waiters, deciders, Memory.release, counted] <;> omega
  | exchange caller c free here =>
    rw [here] at waiting deciding
    simp only [Pc.registered, Pc.decided, Bool.toNat_false] at waiting deciding
    constructor <;> simp only [waiters, deciders, Memory.exchange] <;> omega
  | subtract timed went free here =>
    subst went
    simp only [NoOverflow, here, nextCount] at fits
    rw [here] at waiting deciding
    simp only [Pc.registered, Pc.decided, Bool.toNat_false] at waiting deciding
    constructor <;> simp only [waiters, deciders, Memory.success, Memory.fetchSub,
      int32_eq_self fits] <;> omega
  | register timed went here registered undecided =>
    subst went
    simp only [NoOverflow, here, nextCount] at fits
    rw [here, registered] at waiting
    rw [here, undecided] at deciding
    simp only [Pc.registered, Pc.decided, Bool.toNat_false, Bool.toNat_true] at waiting deciding
    constructor <;> simp only [waiters, deciders, Memory.fetchSub, int32_eq_self fits] <;> omega
  | deliver event queue arrived here =>
    subst arrived
    have fresh : ¬ Stale state := paid (by rw [here]; rfl)
    unfold Stale waiters at fresh
    rw [here] at waiting deciding
    simp only [Pc.registered, Pc.decided, Bool.toNat_false, Bool.toNat_true] at waiting deciding
    constructor <;> simp only [waiters, deciders] <;> omega
  | receive event queue point arrived here =>
    subst arrived
    have fresh : ¬ Stale state := paid (by rw [here]; rfl)
    unfold Stale waiters at fresh
    rw [here] at waiting deciding
    simp only [Pc.registered, Pc.decided, Bool.toNat_false, Bool.toNat_true] at waiting deciding
    constructor <;> simp only [waiters, deciders, Memory.success] <;> omega
  | finish queue registered decided =>
    rw [registered] at waiting
    rw [decided] at deciding
    simp only [Pc.registered, Pc.decided, Bool.toNat_false, Bool.toNat_true] at waiting deciding
    constructor <;> simp only [waiters, deciders, Memory.success] <;> omega
  | withdraw went owing here =>
    subst went
    simp only [NoOverflow, here, nextCount] at fits
    rw [here] at waiting deciding
    simp only [Pc.registered, Pc.decided, Bool.toNat_false, Bool.toNat_true] at waiting deciding
    constructor <;> simp only [waiters, deciders, Memory.undo, int32_eq_self fits] <;> omega
  | phantom went present here =>
    subst went
    exact absurd (paid here) (not_lt.mpr present)

theorem call_standing {op : Op} {pc moved : Pc} (called : call op pc = some moved) :
    moved.registered = pc.registered ∧ moved.decided = pc.decided := by
  cases pc with
  | idle => cases op <;> cases called <;> exact ⟨rfl, rfl⟩
  | _ => cases op <;> cases called

theorem accounted_of_reach (fits : InInt32 initial) {state : State Thread Memory Pc}
    (reached : (system initial Thread).Reach Sound state) : Accounted initial state := by
  refine reached.invariant ?_ fun state action after _ accounted sound taken => ?_
  · have waiting : waiters (system initial Thread).start = 0 := count_const rfl
    have deciding : deciders (system initial Thread).start = 0 := count_const rfl
    refine ⟨?_, ?_⟩
    · rw [waiting, deciding]
      simp only [Program.system, int32_eq_self fits]
      omega
    · rw [waiting]
      simp only [Program.system, int32_eq_self fits]
      omega
  · rcases program_silent.next_cases taken with ⟨t, op, moved, -, called, rfl⟩ |
      ⟨t, choice, memory, moved, rfl, stepped, rfl⟩
    · obtain ⟨registered, decided⟩ := call_standing called
      obtain ⟨tokens, unclaimed⟩ := accounted
      have waiting : waiters ⟨state.memory, Function.update state.thread t moved⟩ =
          waiters state := count_update_same registered
      have deciding : deciders ⟨state.memory, Function.update state.thread t moved⟩ =
          deciders state := count_update_same decided
      exact ⟨by rw [waiting, deciding]; exact tokens, by rw [waiting]; exact unclaimed⟩
    · exact accounted.effect sound (step_effect stepped)

/-- **`kqueue_semaphore` hands out no more tokens than it has**, in every run in which no registered
waiter receives a stale event and no timed-out waiter finds a count that is not negative. -/
theorem kqueueSemaphore_acquired_le (fits : InInt32 initial) {state : State Thread Memory Pc}
    (reached : (system initial Thread).Reach Sound state) :
    state.memory.acquired ≤ initial + state.memory.released := by
  obtain ⟨tokens, unclaimed⟩ := accounted_of_reach fits reached
  omega

/-- Thread 0 waits in `acquire` and receives the event of the `release(1)` of thread 1. -/
theorem kqueueSemaphore_acquired_le_released :
    ∃ state, (system 0 (Fin 2)).Reach Sound state ∧ state.memory.acquired = 1 ∧
      state.memory.acquired ≤ 0 + state.memory.released := by
  obtain ⟨state, reached, acquired⟩ := System.exists_reach_of_run (system 0 (Fin 2)) Sound
    [.call 0 .acquire, .step 0 (.inl .go), .step 0 (.inr .interrupted), .call 1 (.release 1),
      .step 1 (.inl .go), .step 1 (.inl .go), .step 0 (.inr (.event .user)), .step 0 (.inl .go)]
    (fun state => decide (state.memory.acquired = 1)) (by decide +kernel)
  exact ⟨state, reached, of_decide_eq_true acquired,
    kqueueSemaphore_acquired_le (by decide) reached⟩

/-- **A stale event.** One thread calls `release(1)`, `acquire()` and `acquire()`: the flag that
`release` set is still pending when the second `acquire` waits, and it returns. -/
theorem kqueueSemaphore_stale_event :
    ∃ state, (system 0 (Fin 1)).Reach NoOverflow state ∧
      ¬ state.memory.acquired ≤ 0 + state.memory.released := by
  obtain ⟨state, reached, exceeded⟩ := System.exists_reach_of_run (system 0 (Fin 1)) NoOverflow
    [.call 0 (.release 1), .step 0 (.inl .go), .step 0 (.inl .go), .call 0 .acquire,
      .step 0 (.inl .go), .call 0 .acquire, .step 0 (.inl .go), .step 0 (.inr (.event .user)),
      .step 0 (.inl .go)]
    (fun state => decide (¬ state.memory.acquired ≤ 0 + state.memory.released)) (by decide +kernel)
  exact ⟨state, reached, of_decide_eq_true exceeded⟩

end Tokens

end NovaSync.KqueueSemaphore
