/-
**`parking_mutex`: the four variants as one thread program.**

`state_` is one 32-bit word: bit 0 is the lock, bits 1-31 count the registered waiters. A `Pc` is the
next atomic operation of a thread inside `lock`, `try_lock`, `try_lock_until` or `unlock`; `step`
performs it and runs on to the next one. The variants differ in `lock_slow` only: with backoff it
spins before it registers (`spin`), without it registers at once. `try_lock_for` is `try_lock_until`
at a deadline computed without touching `state_`; the timed operations exist in the timed variants.

A word that the code compares or waits with carries the test it has passed: `FreeWord` was read with
the lock bit clear, `HeldWord` with the lock bit set.

* `step_effect` — what a step can do to the word and to the thread's standing, once for all theorems.
-/

import NovaSync.Concurrency.Threads
import NovaSync.Detail.Backoff
import NovaSync.Futex.AtomicWait

namespace NovaSync.ParkingMutex

open Concurrency Detail Futex

/-! ### The word -/

/-- `std::atomic<uint32_t> state_`. -/
abbrev Word := BitVec 32

/-- A word read with `(expected & 1) == 0`. -/
abbrev FreeWord := {word : Word // word &&& 1 = 0}

/-- A word read with the lock bit set. -/
abbrev HeldWord := {word : Word // word &&& 1 ≠ 0}

theorem free_iff (word : Word) : word &&& 1 = 0 ↔ word.toNat % 2 = 0 := by
  rw [← BitVec.toNat_inj, BitVec.toNat_and]
  simp [Nat.and_one_is_mod]

theorem odd_held (i : ℕ) : BitVec.ofNat 32 (2 * i + 1) &&& 1 ≠ 0 := by
  rw [Ne, free_iff, BitVec.toNat_ofNat]
  omega

/-- `(expected - 2) | 1` on a free word: one waiter less and the lock taken. -/
theorem acquired_eq {word : Word} (free : word &&& 1 = 0) : (word - 2) ||| 1 = word - 1 := by
  have even : (word - 2) &&& 1 = 0 := by
    rw [free_iff] at free ⊢
    bv_omega
  rw [← BitVec.add_eq_or_of_and_eq_zero _ _ even]
  bv_omega

/-- `expected | 1` on a free word. -/
theorem locked_eq {word : Word} (free : word &&& 1 = 0) : word ||| 1 = word + 1 :=
  (BitVec.add_eq_or_of_and_eq_zero _ _ free).symm

/-- `state_ & ~1` on a held word. -/
theorem released_eq {word : Word} (held : word &&& 1 ≠ 0) : word &&& ~~~1 = word - 1 := by
  have apart : (word &&& ~~~1) &&& (word &&& 1) = 0 := by
    rw [BitVec.and_assoc, ← BitVec.and_assoc (~~~1), BitVec.and_comm (~~~1) word, BitVec.and_assoc]
    simp
  have split : (word &&& ~~~1) + (word &&& 1) = word := by
    rw [BitVec.add_eq_or_of_and_eq_zero _ _ apart, ← BitVec.and_or_distrib_left,
      show (~~~1 ||| 1 : Word) = BitVec.allOnes 32 from rfl, BitVec.and_allOnes]
  have bit : word &&& 1 = 1 := by
    rw [Ne, free_iff] at held
    rw [← BitVec.toNat_inj, BitVec.toNat_and]
    simp [Nat.and_one_is_mod]
    omega
  rw [bit] at split
  bv_omega

/-! ### The program -/

/-- The four implementation classes. -/
inductive Variant
  | plain
  | backoff
  | timed
  | timedBackoff
deriving DecidableEq, Repr

/-- `lock_slow` spins before it parks. -/
def Variant.useBackoff : Variant → Bool
  | .backoff | .timedBackoff => true
  | .plain | .timed => false

/-- The variant has `try_lock_for` and `try_lock_until`. -/
def Variant.isTimed : Variant → Bool
  | .timed | .timedBackoff => true
  | .plain | .backoff => false

inductive Op
  | lock
  | tryLock
  | tryLockUntil
  | unlock
deriving DecidableEq, Repr

/-- The next atomic operation of a thread. `timed` tells `lock_slow_until` from `lock_slow`. -/
inductive Pc
  /-- Outside all operations, not the owner. -/
  | idle
  /-- `lock`: the fast-path `compare_exchange_weak`. -/
  | lockCas
  /-- `try_lock`: the `compare_exchange_strong`, called by `try_lock_until` when `timed`. -/
  | tryCas (timed : Bool)
  /-- `lock_slow` with backoff: the next call of the spin functor. -/
  | spin (expected : Word) (state : ExponentialBackoff)
  /-- The `fetch_add(2)`. -/
  | register (timed : Bool)
  /-- `expected = state_.load()` in the parking loop. -/
  | reload (timed : Bool)
  /-- The `compare_exchange_weak` to `(expected - 2) | 1`. -/
  | acquireCas (timed : Bool) (expected : FreeWord)
  /-- `atomic_wait(state_, expected)` or `atomic_wait_until(state_, expected, abs_time)`. -/
  | wait (timed : Bool) (expected : HeldWord) (point : WaitPoint)
  /-- After the timeout: `expected = state_.load()`. -/
  | withdrawLoad
  /-- After the timeout: the `compare_exchange_weak` to `(expected - 2) | 1`. -/
  | withdrawAcquireCas (expected : FreeWord)
  /-- After the timeout: the `compare_exchange_weak` to `expected - 2`. -/
  | withdrawCas (expected : HeldWord)
  /-- Outside all operations, the owner. -/
  | owner
  /-- `unlock`: the `fetch_and(~1)`. -/
  | unlock
  /-- `unlock`: `atomic_notify_one`. -/
  | notify
deriving DecidableEq, Repr

/-- The test at the head of the parking loop. -/
def park (timed : Bool) (expected : Word) : Pc :=
  if free : expected &&& 1 = 0 then .acquireCas timed ⟨expected, free⟩
  else .wait timed ⟨expected, free⟩ (WaitPoint.start timed)

/-- The test at the head of the withdrawal loop. -/
def withdraw (expected : Word) : Pc :=
  if free : expected &&& 1 = 0 then .withdrawAcquireCas ⟨expected, free⟩
  else .withdrawCas ⟨expected, free⟩

/-- The first point of `lock_slow`. -/
def lockSlow (variant : Variant) (expected : Word) : Pc :=
  if variant.useBackoff then .spin expected {} else .register false

/-- Where `lock_slow` goes after a call of the spin functor. -/
def spinNext (expected : Word) : SpinLoop → Pc
  | .returned true => .owner
  | .returned false => .register false
  | .again state => .spin expected state

/-- Calls: `unlock` by the owner only, who does not lock again; the timed operations in the timed
variants only. -/
def call (variant : Variant) : Op → Pc → Option Pc
  | .lock, .idle => some .lockCas
  | .tryLock, .idle => some (.tryCas false)
  | .tryLockUntil, .idle => if variant.isTimed then some (.tryCas true) else none
  | .unlock, .owner => some .unlock
  | _, _ => none

/-- The next atomic operation. -/
def step (variant : Variant) (choice : Choice) (word : Word) : Pc → Option (Word × Pc)
  | .lockCas => (compareExchangeWeak choice word 0).map fun exchanged =>
      if exchanged then (1, .owner) else (word, lockSlow variant word)
  | .tryCas timed => (compareExchangeStrong choice word 0).map fun exchanged =>
      if exchanged then (1, .owner) else (word, if timed then .register true else .idle)
  | .spin expected state =>
      if expected &&& 1 = 0 then
        (compareExchangeWeak choice word expected).map fun exchanged =>
          if exchanged then (expected ||| 1, spinNext expected (afterCall state .success))
          else (word, spinNext word (afterCall state .retryWithoutBackoff))
      else ordinary choice (word, spinNext expected (afterCall state .retry))
  | .register timed => ordinary choice (word + 2, .reload timed)
  | .reload timed => ordinary choice (word, park timed word)
  | .acquireCas timed expected => (compareExchangeWeak choice word expected.1).map fun exchanged =>
      if exchanged then ((expected.1 - 2) ||| 1, .owner) else (word, park timed word)
  | .wait timed expected point => (point.step timed word expected.1 choice).map fun
      | .inl next => (word, .wait timed expected next)
      | .inr changed => (word, if timed && !changed then .withdrawLoad else .reload timed)
  | .withdrawLoad => ordinary choice (word, withdraw word)
  | .withdrawAcquireCas expected => (compareExchangeWeak choice word expected.1).map fun exchanged =>
      if exchanged then ((expected.1 - 2) ||| 1, .owner) else (word, withdraw word)
  | .withdrawCas expected => (compareExchangeWeak choice word expected.1).map fun exchanged =>
      if exchanged then (expected.1 - 2, .idle) else (word, withdraw word)
  | .unlock => ordinary choice (word &&& ~~~1, if word > 1 then .notify else .idle)
  | .idle | .owner | .notify => none

namespace Pc

def asleep : Pc → Bool
  | .wait _ _ point => point.isAsleep
  | _ => false

def woken : Pc → Pc
  | .wait timed expected point => .wait timed expected point.woken
  | pc => pc

/-- The thread owns the mutex: from its acquiring exchange to the `fetch_and` of its `unlock`. -/
def holds : Pc → Bool
  | .owner | .unlock => true
  | _ => false

/-- The thread has executed the `fetch_add(2)` of its slow path and has neither taken the lock through
the `(expected - 2) | 1` exchange nor withdrawn. -/
def registered : Pc → Bool
  | .reload _ | .acquireCas _ _ | .wait _ _ _ => true
  | .withdrawLoad | .withdrawAcquireCas _ | .withdrawCas _ => true
  | _ => false

/-- A registered waiter that does not sleep. -/
def awakeWaiter (pc : Pc) : Bool := pc.registered && !pc.asleep

end Pc

/-- `parking_mutex` as a thread program. -/
def program (variant : Variant) : Program Word Pc Op Choice where
  idle := .idle
  call := call variant
  step := step variant
  wake := fun
    | .notify => some (.one, .idle)
    | _ => none
  asleep := Pc.asleep
  woken := Pc.woken

section System

variable (variant : Variant) (Thread : Type*) [DecidableEq Thread] [Fintype Thread]

/-- `parking_mutex` used by the threads of `Thread`; `state_` starts at 0. -/
abbrev system : System (State Thread Word Pc) (Action Thread Op Choice) :=
  (program variant).system 0

end System

/-! ### What a step can do -/

/-- The thread moves on inside its operation: its standing does not change and it stays awake. -/
structure Moves (pc after : Pc) : Prop where
  registered : after.registered = pc.registered
  holds : after.holds = pc.holds
  notify : after ≠ .notify
  awake : after.asleep = false

/-- **The effects of a step.** A thread moves on or falls asleep on a held word; every other step is
one of the five that write the word. -/
inductive Effect (word : Word) (pc : Pc) : Word → Pc → Prop
  | moves {after : Pc} : Moves pc after → Effect word pc word after
  | sleeps {after : Pc} : word &&& 1 ≠ 0 → pc.registered = true → pc.holds = false →
      after.registered = true → after.holds = false → Effect word pc word after
  | barge : word &&& 1 = 0 → pc.registered = false → pc.holds = false →
      Effect word pc (word + 1) .owner
  | register (timed : Bool) : pc = .register timed → Effect word pc (word + 2) (.reload timed)
  | takeOver : word &&& 1 = 0 → pc.registered = true → pc.holds = false →
      Effect word pc (word - 1) .owner
  | withdraw : word &&& 1 ≠ 0 → pc.registered = true → pc.holds = false →
      Effect word pc (word - 2) .idle
  | unlock : pc = .unlock → Effect word pc (word &&& ~~~1) (if word > 1 then .notify else .idle)

section Loops

variable {pc : Pc}

theorem moves_park (timed : Bool) (expected : Word) (registered : pc.registered = true)
    (holds : pc.holds = false) : Moves pc (park timed expected) := by
  unfold park
  split
  · exact ⟨registered.symm, holds.symm, nofun, rfl⟩
  · exact ⟨registered.symm, holds.symm, nofun, by cases timed <;> rfl⟩

theorem moves_withdraw (expected : Word) (registered : pc.registered = true)
    (holds : pc.holds = false) : Moves pc (withdraw expected) := by
  unfold withdraw
  split <;> exact ⟨registered.symm, holds.symm, nofun, rfl⟩

theorem moves_lockSlow (variant : Variant) (expected : Word) (registered : pc.registered = false)
    (holds : pc.holds = false) : Moves pc (lockSlow variant expected) := by
  unfold lockSlow
  split <;> exact ⟨registered.symm, holds.symm, nofun, rfl⟩

theorem moves_spinNext (expected : Word) {state : ExponentialBackoff} {result : BackoffResult}
    (unsuccessful : result ≠ .success) (registered : pc.registered = false)
    (holds : pc.holds = false) : Moves pc (spinNext expected (afterCall state result)) := by
  cases loop : afterCall state result with
  | again state => exact ⟨registered.symm, holds.symm, nofun, rfl⟩
  | returned success =>
    cases success with
    | false => exact ⟨registered.symm, holds.symm, nofun, rfl⟩
    | true => exact absurd (afterCall_returned_true loop) unsuccessful

end Loops

/-- **Every step has one of the effects.** -/
theorem step_effect {variant : Variant} {choice : Choice} {word after : Word} {pc moved : Pc}
    (stepped : step variant choice word pc = some (after, moved)) : Effect word pc after moved := by
  cases pc with
  | idle | owner | notify => cases stepped
  | lockCas =>
    rcases compareExchangeWeak_cases stepped with ⟨-, same, result⟩ | ⟨-, result⟩
    · cases result
      rw [same]
      exact .barge rfl rfl rfl
    · cases result
      exact .moves (moves_lockSlow variant word rfl rfl)
  | tryCas timed =>
    rcases compareExchangeStrong_cases stepped with ⟨-, same, result⟩ | ⟨-, result⟩
    · cases result
      rw [same]
      exact .barge rfl rfl rfl
    · cases result
      cases timed <;> exact .moves ⟨rfl, rfl, nofun, rfl⟩
  | spin expected state =>
    simp only [step] at stepped
    split at stepped
    · rename_i free
      rcases compareExchangeWeak_cases stepped with ⟨-, same, result⟩ | ⟨-, result⟩
      · cases result
        rw [same, locked_eq free]
        exact .barge free rfl rfl
      · cases result
        exact .moves (moves_spinNext word nofun rfl rfl)
    · cases (ordinary_eq_some stepped).2
      exact .moves (moves_spinNext expected nofun rfl rfl)
  | register timed =>
    cases (ordinary_eq_some stepped).2
    exact .register timed rfl
  | reload timed =>
    cases (ordinary_eq_some stepped).2
    exact .moves (moves_park timed word rfl rfl)
  | acquireCas timed expected =>
    rcases compareExchangeWeak_cases stepped with ⟨-, same, result⟩ | ⟨-, result⟩
    · cases result
      rw [same, acquired_eq expected.2]
      exact .takeOver expected.2 rfl rfl
    · cases result
      exact .moves (moves_park timed word rfl rfl)
  | wait timed expected point =>
    obtain ⟨outcome, waited, result⟩ := Option.map_eq_some_iff.mp stepped
    cases outcome with
    | inl next =>
      cases result
      cases next with
      | asleep =>
        have held : word &&& 1 ≠ 0 := WaitPoint.step_asleep waited ▸ expected.2
        exact .sleeps held rfl rfl rfl rfl
      | _ => exact .moves ⟨rfl, rfl, nofun, rfl⟩
    | inr changed =>
      cases result
      split <;> exact .moves ⟨rfl, rfl, nofun, rfl⟩
  | withdrawLoad =>
    cases (ordinary_eq_some stepped).2
    exact .moves (moves_withdraw word rfl rfl)
  | withdrawAcquireCas expected =>
    rcases compareExchangeWeak_cases stepped with ⟨-, same, result⟩ | ⟨-, result⟩
    · cases result
      rw [same, acquired_eq expected.2]
      exact .takeOver expected.2 rfl rfl
    · cases result
      exact .moves (moves_withdraw word rfl rfl)
  | withdrawCas expected =>
    rcases compareExchangeWeak_cases stepped with ⟨-, same, result⟩ | ⟨-, result⟩
    · cases result
      rw [same]
      exact .withdraw expected.2 rfl rfl
    · cases result
      exact .moves (moves_withdraw word rfl rfl)
  | unlock =>
    cases (ordinary_eq_some stepped).2
    exact .unlock rfl

end NovaSync.ParkingMutex
