/-
**`parking_auto_reset_event` as a thread program.**

`state_` is an `int32_t`: 1 when a token is stored, 0 when none is, and minus the number of waiters that
still wait when it is negative. A waiter remembers the level it registered at, `my_slot`, and leaves
when it reads a value above it.

The memory carries, beside `state_`, history variables that no operation reads: the signals that have
incremented `state_`, the waits that have completed, and the exchanges by which `try_wait` has taken a
stored token.

* `step_effect` — what a step can do, once for all results.
* `step_timed` — only `try_wait_until` takes a thread to its own places.
-/

import NovaSync.Concurrency.Threads
import NovaSync.Detail.Backoff
import NovaSync.Futex.AtomicWait

set_option linter.unusedSectionVars false

namespace NovaSync.ParkingAutoResetEvent

open Concurrency Detail Futex

/-! ### The program -/

/-- The policy. -/
structure Config where
  useBackoff : Bool
deriving DecidableEq, Repr

/-- `state_`, and the history of the run. -/
structure Memory where
  state : ℤ
  signals : ℕ := 0
  completed : ℕ := 0
  taken : ℕ := 0
deriving DecidableEq, Repr

inductive Op
  | signal
  | tryWait
  | wait
  | tryWaitUntil
deriving DecidableEq, Repr

/-- Who calls `try_wait`: a thread itself, the spin phase of `wait`, or `try_wait_until`. -/
inductive Caller
  | alone
  | spin (state : ExponentialBackoff)
  | waitUntil
deriving DecidableEq, Repr

/-- The next atomic operation of a thread. `timed` tells `try_wait_until` from `wait`.

* `signalLoad`, `signalCas`: the load and the `compare_exchange_weak` of `signal`; `notify`: its
  `atomic_notify_all`.
* `tryLoad`, `tryCas`: the load and the `compare_exchange_weak` of `try_wait`.
* `fetchSub`: the registering `fetch_sub(1)`; `reload`: the load of `cur`; `wait`: the `atomic_wait` or
  `atomic_wait_until` on a `cur` at or below `my_slot`.
* `lastLoad`, `withdraw`: after a timeout, the load of `cur` and the `fetch_add(1)`. -/
inductive Pc
  | idle
  | signalLoad
  | signalCas (s : {s : ℤ // s < 1})
  | notify
  | tryLoad (caller : Caller)
  | tryCas (caller : Caller) (s : {s : ℤ // 0 < s})
  | fetchSub (timed : Bool)
  | reload (timed : Bool) (slot : ℤ)
  | wait (timed : Bool) (slot : ℤ) (cur : {cur : ℤ // cur ≤ slot}) (point : WaitPoint)
  | lastLoad (slot : ℤ)
  | withdraw (slot : ℤ)
deriving DecidableEq, Repr

/-- The loop test of `signal`. -/
def signalLoop (s : ℤ) : Pc :=
  if low : s < 1 then .signalCas ⟨s, low⟩ else .idle

/-- Where a failed `try_wait` goes on. -/
def tryFailed : Caller → Pc
  | .alone => .idle
  | .spin state =>
      match afterCall state .retry with
      | .again state => .tryLoad (.spin state)
      | .returned _ => .fetchSub false
  | .waitUntil => .fetchSub true

/-- The loop test of `try_wait`. -/
def tryLoop (caller : Caller) (s : ℤ) : Pc :=
  if set : 0 < s then .tryCas caller ⟨s, set⟩ else tryFailed caller

def call (config : Config) : Op → Pc → Option Pc
  | .signal, .idle => some .signalLoad
  | .tryWait, .idle => some (.tryLoad .alone)
  | .wait, .idle => some (if config.useBackoff then .tryLoad (.spin {}) else .fetchSub false)
  | .tryWaitUntil, .idle => some (.tryLoad .waitUntil)
  | _, _ => none

namespace Memory

/-- A successful exchange of `signal`. -/
def signal (memory : Memory) : Memory :=
  { memory with state := memory.state + 1, signals := memory.signals + 1 }

/-- A successful exchange of `try_wait`. -/
def take (memory : Memory) : Memory :=
  { memory with
    state := memory.state - 1, completed := memory.completed + 1, taken := memory.taken + 1 }

/-- `fetch_sub(1)`. -/
def fetchSub (memory : Memory) : Memory := { memory with state := int32 (memory.state - 1) }

/-- The `fetch_add(1)` after a timeout. -/
def withdraw (memory : Memory) : Memory := { memory with state := int32 (memory.state + 1) }

/-- A wait returns success. -/
def complete (memory : Memory) : Memory := { memory with completed := memory.completed + 1 }

end Memory

/-- The next atomic operation. -/
def step (choice : Choice) (memory : Memory) : Pc → Option (Memory × Pc)
  | .signalLoad => ordinary choice (memory, signalLoop memory.state)
  | .signalCas s => (compareExchangeWeak choice memory.state s.1).map fun exchanged =>
      if exchanged then (memory.signal, if s.1 < 0 then .notify else .idle)
      else (memory, signalLoop memory.state)
  | .tryLoad caller => ordinary choice (memory, tryLoop caller memory.state)
  | .tryCas caller s => (compareExchangeWeak choice memory.state s.1).map fun exchanged =>
      if exchanged then (memory.take, .idle) else (memory, tryLoop caller memory.state)
  | .fetchSub timed => ordinary choice <|
      if memory.state > 0 then (memory.fetchSub.complete, .idle)
      else (memory.fetchSub, .reload timed (int32 (memory.state - 1)))
  | .reload timed slot => ordinary choice <|
      if blocked : memory.state ≤ slot then
        (memory, .wait timed slot ⟨memory.state, blocked⟩ (WaitPoint.start timed))
      else (memory.complete, .idle)
  | .wait timed slot cur point => (point.step timed memory.state cur.1 choice).map fun
      | .inl next => (memory, .wait timed slot cur next)
      | .inr changed => (memory, if timed && !changed then .lastLoad slot else .reload timed slot)
  | .lastLoad slot => ordinary choice <|
      if memory.state > slot then (memory.complete, .idle) else (memory, .withdraw slot)
  | .withdraw _ => ordinary choice (memory.withdraw, .idle)
  | .idle | .notify => none

namespace Pc

def asleep : Pc → Bool
  | .wait _ _ _ point => point.isAsleep
  | _ => false

def woken : Pc → Pc
  | .wait timed slot cur point => .wait timed slot cur point.woken
  | pc => pc

/-- The thread has subtracted a token that was not there. -/
def registered : Pc → Bool
  | .reload _ _ | .wait _ _ _ _ | .lastLoad _ | .withdraw _ => true
  | _ => false

/-- `my_slot` of a blocked waiter, one that will compare it with `state_` again. -/
def slot? : Pc → Option ℤ
  | .reload _ slot | .wait _ slot _ _ | .lastLoad slot => some slot
  | _ => none

/-- The thread is about to subtract a token. -/
def subtracts : Pc → Bool
  | .fetchSub _ => true
  | _ => false

/-- The thread has given up and is about to add its token again. -/
def withdraws : Pc → Bool
  | .withdraw _ => true
  | _ => false

/-- The thread is inside `try_wait_until`. -/
def timed : Pc → Bool
  | .tryLoad .waitUntil | .tryCas .waitUntil _ | .lastLoad _ | .withdraw _ => true
  | .fetchSub timed | .reload timed _ | .wait timed _ _ _ => timed
  | _ => false

end Pc

/-- The event as a thread program. -/
def program (config : Config) : Program Memory Pc Op Choice where
  idle := .idle
  call := call config
  step := step
  wake := fun
    | .notify => some (.all, .idle)
    | _ => none
  asleep := Pc.asleep
  woken := Pc.woken

/-- The event used by the threads of `Thread`. -/
abbrev system (config : Config) (initiallySet : Bool) (Thread : Type*) [DecidableEq Thread]
    [Fintype Thread] : System (State Thread Memory Pc) (Action Thread Op Choice) :=
  (program config).system { state := initiallySet.toNat }

/-! ### What a step can do -/

/-- The thread moves on inside its operation: its standing does not change and it stays awake. -/
structure Moves (pc after : Pc) : Prop where
  registered : after.registered = pc.registered
  slot : after.slot? = pc.slot?
  notify : after ≠ .notify
  awake : after.asleep = false

/-- **The effects of a step.** A thread moves on, falls asleep on a `state_` at or below its slot, or
gives up on one; every other step writes the memory. -/
inductive Effect (memory : Memory) (pc : Pc) : Memory → Pc → Prop
  | moves {after : Pc} : Moves pc after → Effect memory pc memory after
  | sleeps {after : Pc} (slot : ℤ) : memory.state ≤ slot → pc.registered = true →
      pc.slot? = some slot → after.registered = true → after.slot? = some slot →
      Effect memory pc memory after
  | expires (slot : ℤ) : pc = .lastLoad slot → memory.state ≤ slot →
      Effect memory pc memory (.withdraw slot)
  | signal (s : {s : ℤ // s < 1}) : pc = .signalCas s → memory.state = s.1 →
      Effect memory pc memory.signal (if s.1 < 0 then .notify else .idle)
  | take (caller : Caller) (s : {s : ℤ // 0 < s}) : pc = .tryCas caller s → memory.state = s.1 →
      Effect memory pc memory.take .idle
  | subtract (timed : Bool) : 0 < memory.state → pc = .fetchSub timed →
      Effect memory pc memory.fetchSub.complete .idle
  | register (timed : Bool) : memory.state ≤ 0 → pc = .fetchSub timed →
      Effect memory pc memory.fetchSub (.reload timed (int32 (memory.state - 1)))
  | leave (slot : ℤ) : pc.registered = true → pc.slot? = some slot → slot < memory.state →
      Effect memory pc memory.complete .idle
  | withdraw (slot : ℤ) : pc = .withdraw slot → Effect memory pc memory.withdraw .idle

theorem moves_signalLoop {pc : Pc} (s : ℤ) (registered : pc.registered = false)
    (slot : pc.slot? = none) : Moves pc (signalLoop s) := by
  unfold signalLoop
  split <;> exact ⟨registered.symm, slot.symm, nofun, rfl⟩

theorem moves_tryLoop {pc : Pc} (caller : Caller) (s : ℤ) (registered : pc.registered = false)
    (slot : pc.slot? = none) : Moves pc (tryLoop caller s) := by
  unfold tryLoop
  split
  · exact ⟨registered.symm, slot.symm, nofun, rfl⟩
  · cases caller with
    | spin state =>
      simp only [tryFailed]
      split <;> exact ⟨registered.symm, slot.symm, nofun, rfl⟩
    | _ => exact ⟨registered.symm, slot.symm, nofun, rfl⟩

/-- **Every step has one of the effects.** -/
theorem step_effect {choice : Choice} {memory after : Memory} {pc moved : Pc}
    (stepped : step choice memory pc = some (after, moved)) :
    Effect memory pc after moved := by
  cases pc with
  | idle | notify => cases stepped
  | signalLoad =>
    cases (ordinary_eq_some stepped).2
    exact .moves (moves_signalLoop memory.state rfl rfl)
  | signalCas s =>
    rcases compareExchangeWeak_cases stepped with ⟨-, same, result⟩ | ⟨-, result⟩
    · cases result
      exact .signal s rfl same
    · cases result
      exact .moves (moves_signalLoop memory.state rfl rfl)
  | tryLoad caller =>
    cases (ordinary_eq_some stepped).2
    exact .moves (moves_tryLoop caller memory.state rfl rfl)
  | tryCas caller s =>
    rcases compareExchangeWeak_cases stepped with ⟨-, same, result⟩ | ⟨-, result⟩
    · cases result
      exact .take caller s rfl same
    · cases result
      exact .moves (moves_tryLoop caller memory.state rfl rfl)
  | fetchSub timed =>
    obtain ⟨-, result⟩ := ordinary_eq_some stepped
    split at result
    · rename_i set
      cases result
      exact .subtract timed set rfl
    · rename_i unset
      cases result
      exact .register timed (by omega) rfl
  | reload timed slot =>
    obtain ⟨-, result⟩ := ordinary_eq_some stepped
    split at result
    · cases result
      exact .moves ⟨rfl, rfl, nofun, by cases timed <;> rfl⟩
    · rename_i above
      cases result
      exact .leave slot rfl rfl (by omega)
  | wait timed slot cur point =>
    obtain ⟨outcome, waited, result⟩ := Option.map_eq_some_iff.mp stepped
    cases outcome with
    | inl next =>
      cases result
      cases next with
      | asleep =>
        have below : memory.state ≤ slot := WaitPoint.step_asleep waited ▸ cur.2
        exact .sleeps slot below rfl rfl rfl rfl
      | _ => exact .moves ⟨rfl, rfl, nofun, rfl⟩
    | inr changed =>
      cases result
      split <;> exact .moves ⟨rfl, rfl, nofun, rfl⟩
  | lastLoad slot =>
    obtain ⟨-, result⟩ := ordinary_eq_some stepped
    split at result
    · rename_i above
      cases result
      exact .leave slot rfl rfl above
    · rename_i below
      cases result
      exact .expires slot rfl (by omega)
  | withdraw slot =>
    cases (ordinary_eq_some stepped).2
    exact .withdraw slot rfl

/-! ### Inside `try_wait_until` -/

theorem timed_signalLoop (s : ℤ) : (signalLoop s).timed = false := by
  unfold signalLoop
  split <;> rfl

theorem timed_tryLoop {caller : Caller} (other : caller ≠ .waitUntil) (s : ℤ) :
    (tryLoop caller s).timed = false := by
  unfold tryLoop
  cases caller with
  | alone => split <;> rfl
  | spin state =>
    split
    · rfl
    · simp only [tryFailed]
      split <;> rfl
  | waitUntil => exact absurd rfl other

/-- **Only `try_wait_until` takes a thread to its own places.** -/
theorem step_timed {choice : Choice} {memory after : Memory} {pc moved : Pc}
    (stepped : step choice memory pc = some (after, moved)) (outside : pc.timed = false) :
    moved.timed = false := by
  cases pc with
  | idle | notify => cases stepped
  | signalLoad =>
    cases (ordinary_eq_some stepped).2
    exact timed_signalLoop memory.state
  | signalCas s =>
    rcases compareExchangeWeak_cases stepped with ⟨-, -, result⟩ | ⟨-, result⟩
    · cases result
      split <;> rfl
    · cases result
      exact timed_signalLoop memory.state
  | tryLoad caller =>
    cases (ordinary_eq_some stepped).2
    exact timed_tryLoop (by rintro rfl; cases outside) memory.state
  | tryCas caller s =>
    rcases compareExchangeWeak_cases stepped with ⟨-, -, result⟩ | ⟨-, result⟩
    · cases result
      rfl
    · cases result
      exact timed_tryLoop (by rintro rfl; cases outside) memory.state
  | fetchSub timed =>
    obtain ⟨-, result⟩ := ordinary_eq_some stepped
    split at result
    · cases result
      rfl
    · cases result
      exact outside
  | reload timed slot =>
    obtain ⟨-, result⟩ := ordinary_eq_some stepped
    split at result
    · cases result
      exact outside
    · cases result
      rfl
  | wait timed slot cur point =>
    obtain ⟨outcome, -, result⟩ := Option.map_eq_some_iff.mp stepped
    cases outcome with
    | inl next =>
      cases result
      exact outside
    | inr changed =>
      cases result
      simp only [show timed = false from outside, Bool.false_and]
      rfl
  | lastLoad slot | withdraw slot => cases outside

end NovaSync.ParkingAutoResetEvent
