/-
**`parking_semaphore` and `timed_semaphore` as one thread program.**

`count_` is an `int32_t`: the free tokens when it is positive, minus the registered waiters when it is
negative. The two classes have the same `release`, `acquire` and `try_acquire`; `timed_semaphore` adds
`try_acquire_until` (and `try_acquire_for`, the same at a computed deadline).

The memory carries, beside `count_`, history variables that no operation reads: the tokens released,
the acquisitions that have returned success, and the executed exchanges and subtractions.

* `step_effect` — what a step can do, and which move of the abstract semaphore of
  `Semaphore.TokenLedger` it makes.
-/

import NovaSync.Concurrency.Threads
import NovaSync.Detail.Backoff
import NovaSync.Futex.AtomicWait
import NovaSync.Semaphore.TokenLedger

set_option linter.unusedSectionVars false

namespace NovaSync.ParkingSemaphore

open Concurrency Detail Futex Semaphore

/-! ### The program -/

/-- The two classes and their policy. -/
structure Config where
  /-- `timed_semaphore`. -/
  timed : Bool
  useBackoff : Bool
deriving DecidableEq, Repr

/-- `count_`, and the history of the run. -/
structure Memory where
  count : ℤ
  /-- The sum of the `n` of the executed releases. -/
  released : ℕ := 0
  /-- The acquisitions that have returned success. -/
  acquired : ℕ := 0
  /-- The successful exchanges of `try_acquire` and of the spin phase. -/
  exchanged : ℕ := 0
  /-- The executed `fetch_sub(1)`. -/
  subtracted : ℕ := 0
deriving DecidableEq, Repr

inductive Op
  | release (n : ℕ)
  | acquire
  | tryAcquire
  | tryAcquireUntil
deriving DecidableEq, Repr

/-- The next atomic operation of a thread. `timed` tells `try_acquire_until` from `acquire`, and from
a `try_acquire` of its own.

* `release n`: the `fetch_add`; `notify kind`: its `atomic_notify_one` or `atomic_notify_all`.
* `spinLoad`, `spin c state`: the load before the spin phase and the next call of its functor.
* `fetchSub`: the registering `fetch_sub(1)`; `waitLoad`: the load at the head of the wait loop;
  `wait`: `atomic_wait` or `atomic_wait_until` on a negative count.
* `tryLoad`, `tryCas`: the load and the `compare_exchange_strong` of `try_acquire`.
* `restore`, `retake`: after a timeout, the `fetch_add(1)` and, when it found a token, the
  `fetch_sub(1)`. -/
inductive Pc
  | idle
  | release (n : ℕ)
  | notify (kind : WakeCount)
  | spinLoad
  | spin (c : ℤ) (state : ExponentialBackoff)
  | fetchSub (timed : Bool)
  | waitLoad (timed : Bool)
  | wait (timed : Bool) (c : {c : ℤ // c < 0}) (point : WaitPoint)
  | tryLoad (timed : Bool)
  | tryCas (timed : Bool) (c : {c : ℤ // 0 < c})
  | restore
  | retake
deriving DecidableEq, Repr

/-- The loop test of `try_acquire`; on failure the caller goes on. -/
def tryLoop (timed : Bool) (c : ℤ) : Pc :=
  if free : 0 < c then .tryCas timed ⟨c, free⟩ else if timed then .fetchSub true else .idle

/-- Where `acquire` goes after a call of the spin functor. -/
def spinNext (c : ℤ) : SpinLoop → Pc
  | .returned true => .idle
  | .returned false => .fetchSub false
  | .again state => .spin c state

/-- Where `release` goes, given the count before its `fetch_add`. -/
def releaseNext (n : ℕ) (prev : ℤ) : Pc :=
  if prev < 0 then
    if min (int32 n) (int32 (-prev)) = 1 then .notify .one else .notify .all
  else .idle

def call (config : Config) : Op → Pc → Option Pc
  | .release n, .idle => some (.release n)
  | .acquire, .idle => some (if config.useBackoff then .spinLoad else .fetchSub false)
  | .tryAcquire, .idle => some (.tryLoad false)
  | .tryAcquireUntil, .idle => if config.timed then some (.tryLoad true) else none
  | _, _ => none

/-- The `fetch_add` of `release`. -/
def Memory.release (memory : Memory) (n : ℕ) : Memory :=
  { memory with count := int32 (memory.count + int32 n), released := memory.released + n }

/-- The `fetch_add(1)` after a timeout. -/
def Memory.restore (memory : Memory) : Memory :=
  { memory with count := int32 (memory.count + 1) }

/-- A successful exchange of a positive count. -/
def Memory.exchange (memory : Memory) : Memory :=
  { memory with
    count := memory.count - 1, acquired := memory.acquired + 1, exchanged := memory.exchanged + 1 }

/-- `fetch_sub(1)`. -/
def Memory.fetchSub (memory : Memory) : Memory :=
  { memory with count := int32 (memory.count - 1), subtracted := memory.subtracted + 1 }

/-- An acquisition returns success. -/
def Memory.success (memory : Memory) : Memory :=
  { memory with acquired := memory.acquired + 1 }

/-- The next atomic operation. -/
def step (choice : Choice) (memory : Memory) : Pc → Option (Memory × Pc)
  | .release n => ordinary choice (memory.release n, releaseNext n memory.count)
  | .spinLoad => ordinary choice (memory, .spin memory.count {})
  | .spin c state =>
      if 0 < c then
        (compareExchangeWeak choice memory.count c).map fun exchanged =>
          if exchanged then (memory.exchange, spinNext c (afterCall state .success))
          else (memory, spinNext memory.count (afterCall state .retryWithoutBackoff))
      else ordinary choice (memory, spinNext c (afterCall state .retry))
  | .fetchSub timed => ordinary choice <|
      if memory.count > 0 then (memory.fetchSub.success, .idle)
      else (memory.fetchSub, .waitLoad timed)
  | .waitLoad timed => ordinary choice <|
      if owed : memory.count < 0 then (memory, .wait timed ⟨memory.count, owed⟩ (WaitPoint.start timed))
      else (memory.success, .idle)
  | .wait timed c point => (point.step timed memory.count c.1 choice).map fun
      | .inl next => (memory, .wait timed c next)
      | .inr changed => (memory, if timed && !changed then .restore else .waitLoad timed)
  | .tryLoad timed => ordinary choice (memory, tryLoop timed memory.count)
  | .tryCas timed c => (compareExchangeStrong choice memory.count c.1).map fun exchanged =>
      if exchanged then (memory.exchange, .idle) else (memory, tryLoop timed memory.count)
  | .restore => ordinary choice (memory.restore, if memory.count ≥ 0 then .retake else .idle)
  | .retake => ordinary choice (memory.fetchSub.success, .idle)
  | .idle | .notify _ => none

namespace Pc

def asleep : Pc → Bool
  | .wait _ _ point => point.isAsleep
  | _ => false

def woken : Pc → Pc
  | .wait timed c point => .wait timed c point.woken
  | pc => pc

/-- The thread has subtracted its token and waits for it to be there. -/
def registered : Pc → Bool
  | .waitLoad _ | .wait _ _ _ | .restore => true
  | _ => false

/-- The thread has timed out, put its token back because it was there, and is about to take it. -/
def retaking : Pc → Bool
  | .retake => true
  | _ => false

end Pc

/-- The semaphore as a thread program. -/
def program (config : Config) : Program Memory Pc Op Choice where
  idle := .idle
  call := call config
  step := step
  wake := fun
    | .notify kind => some (kind, .idle)
    | _ => none
  asleep := Pc.asleep
  woken := Pc.woken

/-- The semaphore used by the threads of `Thread`, with `initial` tokens. -/
abbrev system (config : Config) (initial : ℕ) (Thread : Type*) [DecidableEq Thread] [Fintype Thread] :
    System (State Thread Memory Pc) (Action Thread Op Choice) :=
  (program config).system { count := int32 initial }

/-! ### What a step can do -/

/-- The move of the abstract semaphore that the next step of a thread makes. -/
def move (choice : Choice) (memory : Memory) (pc : Pc) : Move :=
  if choice = .go then
    match pc with
    | .release n => .release n
    | .spin c _ => if 0 < c ∧ memory.count = c then .take else .stay
    | .tryCas _ c => if memory.count = c.1 then .take else .stay
    | .fetchSub _ => if memory.count > 0 then .take else .register
    | .waitLoad _ => if memory.count < 0 then .stay else .grant
    | .restore => if memory.count ≥ 0 then .restore else .withdraw
    | .retake => .retake
    | _ => .stay
  else .stay

/-- The thread moves on inside its operation: its standing does not change and it stays awake. -/
structure Moves (pc after : Pc) : Prop where
  registered : after.registered = pc.registered
  retaking : after.retaking = pc.retaking
  notify : ∀ kind, after ≠ .notify kind
  awake : after.asleep = false

/-- **The effects of a step**, each with its move. A thread moves on or falls asleep on a negative
count, or it writes the memory. -/
inductive Effect (memory : Memory) (pc : Pc) : Move → Memory → Pc → Prop
  | moves {after : Pc} : Moves pc after → Effect memory pc .stay memory after
  | sleeps {after : Pc} : memory.count < 0 → pc.registered = true → pc.retaking = false →
      after.registered = true → after.retaking = false → Effect memory pc .stay memory after
  | release (n : ℕ) : pc = .release n →
      Effect memory pc (.release n) (memory.release n) (releaseNext n memory.count)
  | exchange : 0 < memory.count → pc.registered = false → pc.retaking = false →
      Effect memory pc .take memory.exchange .idle
  | subtract (timed : Bool) : 0 < memory.count → pc = .fetchSub timed →
      Effect memory pc .take memory.fetchSub.success .idle
  | register (timed : Bool) : memory.count ≤ 0 → pc = .fetchSub timed →
      Effect memory pc .register memory.fetchSub (.waitLoad timed)
  | granted (timed : Bool) : 0 ≤ memory.count → pc = .waitLoad timed →
      Effect memory pc .grant memory.success .idle
  | withdraw : memory.count < 0 → pc = .restore → Effect memory pc .withdraw memory.restore .idle
  | restore : 0 ≤ memory.count → pc = .restore → Effect memory pc .restore memory.restore .retake
  | retake : pc = .retake → Effect memory pc .retake memory.fetchSub.success .idle

theorem moves_tryLoop {pc : Pc} (timed : Bool) (c : ℤ) (registered : pc.registered = false)
    (retaking : pc.retaking = false) : Moves pc (tryLoop timed c) := by
  unfold tryLoop
  split
  · exact ⟨registered.symm, retaking.symm, nofun, rfl⟩
  · split <;> exact ⟨registered.symm, retaking.symm, nofun, rfl⟩

theorem moves_spinNext {pc : Pc} (c : ℤ) {state : ExponentialBackoff} {result : BackoffResult}
    (unsuccessful : result ≠ .success) (registered : pc.registered = false)
    (retaking : pc.retaking = false) : Moves pc (spinNext c (afterCall state result)) := by
  cases loop : afterCall state result with
  | again state => exact ⟨registered.symm, retaking.symm, nofun, rfl⟩
  | returned success =>
    cases success with
    | false => exact ⟨registered.symm, retaking.symm, nofun, rfl⟩
    | true => exact absurd (afterCall_returned_true loop) unsuccessful

/-- **Every step has one of the effects.** -/
theorem step_effect {choice : Choice} {memory after : Memory} {pc moved : Pc}
    (stepped : step choice memory pc = some (after, moved)) :
    Effect memory pc (move choice memory pc) after moved := by
  cases pc with
  | idle | notify => cases stepped
  | release n =>
    obtain ⟨rfl, result⟩ := ordinary_eq_some stepped
    cases result
    exact .release n rfl
  | spinLoad =>
    obtain ⟨rfl, result⟩ := ordinary_eq_some stepped
    cases result
    exact .moves ⟨rfl, rfl, nofun, rfl⟩
  | spin c state =>
    simp only [step] at stepped
    split at stepped
    · rename_i free
      rcases compareExchangeWeak_cases stepped with ⟨rfl, same, result⟩ | ⟨failed, result⟩
      · cases result
        rw [show move .go memory (.spin c state) = .take by simp [move, same, free]]
        exact .exchange (same ▸ free) rfl rfl
      · cases result
        have stays : move choice memory (.spin c state) = .stay := by
          unfold move
          split
          · exact if_neg fun both => failed ‹_› both.2
          · rfl
        rw [stays]
        exact .moves (moves_spinNext memory.count nofun rfl rfl)
    · rename_i none
      obtain ⟨rfl, result⟩ := ordinary_eq_some stepped
      cases result
      rw [show move .go memory (.spin c state) = .stay by simp [move, none]]
      exact .moves (moves_spinNext c nofun rfl rfl)
  | fetchSub timed =>
    obtain ⟨rfl, result⟩ := ordinary_eq_some stepped
    split at result
    · rename_i free
      cases result
      rw [show move .go memory (.fetchSub timed) = .take from if_pos free]
      exact .subtract timed free rfl
    · rename_i none
      cases result
      rw [show move .go memory (.fetchSub timed) = .register from if_neg none]
      exact .register timed (by omega) rfl
  | waitLoad timed =>
    obtain ⟨rfl, result⟩ := ordinary_eq_some stepped
    split at result
    · rename_i owed
      cases result
      rw [show move .go memory (.waitLoad timed) = .stay from if_pos owed]
      exact .moves ⟨rfl, rfl, nofun, by cases timed <;> rfl⟩
    · rename_i here
      cases result
      rw [show move .go memory (.waitLoad timed) = .grant from if_neg here]
      exact .granted timed (by omega) rfl
  | wait timed c point =>
    obtain ⟨outcome, waited, result⟩ := Option.map_eq_some_iff.mp stepped
    rw [show move choice memory (.wait timed c point) = .stay from ite_self _]
    cases outcome with
    | inl next =>
      cases result
      cases next with
      | asleep =>
        have owed : memory.count < 0 := WaitPoint.step_asleep waited ▸ c.2
        exact .sleeps owed rfl rfl rfl rfl
      | _ => exact .moves ⟨rfl, rfl, nofun, rfl⟩
    | inr changed =>
      cases result
      split <;> exact .moves ⟨rfl, rfl, nofun, rfl⟩
  | tryLoad timed =>
    obtain ⟨rfl, result⟩ := ordinary_eq_some stepped
    cases result
    exact .moves (moves_tryLoop timed memory.count rfl rfl)
  | tryCas timed c =>
    rcases compareExchangeStrong_cases stepped with ⟨rfl, same, result⟩ | ⟨differs, result⟩
    · cases result
      rw [show move .go memory (.tryCas timed c) = .take from if_pos same]
      exact .exchange (same ▸ c.2) rfl rfl
    · cases result
      have stays : move choice memory (.tryCas timed c) = .stay := by
        unfold move
        split
        · exact if_neg differs
        · rfl
      rw [stays]
      exact .moves (moves_tryLoop timed memory.count rfl rfl)
  | restore =>
    obtain ⟨rfl, result⟩ := ordinary_eq_some stepped
    split at result
    · rename_i here
      cases result
      rw [show move .go memory .restore = .restore from if_pos here]
      exact .restore here rfl
    · rename_i owed
      cases result
      rw [show move .go memory .restore = .withdraw from if_neg owed]
      exact .withdraw (by omega) rfl
  | retake =>
    obtain ⟨rfl, result⟩ := ordinary_eq_some stepped
    cases result
    exact .retake rfl

end NovaSync.ParkingSemaphore
