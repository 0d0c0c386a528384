/-
**`futex/atomic_wait.cpp` on Linux: `atomic_wait`, `atomic_wait_for` and `atomic_wait_until`.**

A wait on a 32-bit word is a little program of its own, run by the waiting thread: `WaitPoint` is the
place of its next access to the word and `WaitPoint.step` performs it.

* `atomic_wait` loads the word up to ten times between pauses and four times between yields, then
  calls `FUTEX_WAIT` in a loop; `atomic_wait_for` and `atomic_wait_until` load once and call
  `FUTEX_WAIT_BITSET` with an absolute timeout.
* `FUTEX_WAIT` compares the word with the expected value and sleeps in one step (`enter`); a changed
  word is `EAGAIN`. A sleeper leaves by a wake or spuriously (`rc == 0`), by a signal (`EINTR`) or,
  in the timed waits, by its timeout (`ETIMEDOUT`).

No step of a wait writes the word. `WaitPoint.step_asleep` is what the callers rest on: a thread falls
asleep only at a moment at which the word equals the expected value.
-/

import NovaSync.Detail.Atomic

namespace NovaSync.Futex

open Detail

/-- `max_active_spins`. -/
def maxActiveSpins : ℕ := 10

/-- `max_yield_spins`. -/
def maxYieldSpins : ℕ := 4

/-- Where a wait stands: the access to the word it makes next. -/
inductive WaitPoint
  /-- Phase 1 of `atomic_wait`: the load of iteration `i`. -/
  | activeSpin (i : ℕ)
  /-- Phase 2 of `atomic_wait`: the load of iteration `i`. -/
  | yieldSpin (i : ℕ)
  /-- The first load of a timed wait. -/
  | probe
  /-- The `FUTEX_WAIT` system call. -/
  | enter
  /-- Queued in the kernel. -/
  | asleep
  /-- The load of `acquire_and_check` after `rc == 0` or `EAGAIN`. -/
  | recheck
  /-- The last load of a timed wait, after `ETIMEDOUT`. -/
  | expired
deriving DecidableEq, Repr

namespace WaitPoint

/-- The first point of `atomic_wait`, or of a timed wait. -/
def start (timed : Bool) : WaitPoint := if timed then .probe else .activeSpin 0

def isAsleep : WaitPoint → Bool
  | .asleep => true
  | _ => false

/-- A sleeper that `FUTEX_WAKE` has picked: `rc == 0`. -/
def woken : WaitPoint → WaitPoint
  | .asleep => .recheck
  | point => point

variable {Word : Type*} [DecidableEq Word]

/-- One step of a wait for `word` to differ from `old`: the next point, or the value returned
(`atomic_wait` returns nothing, which is `true` here). -/
def step (timed : Bool) (word old : Word) : Choice → WaitPoint → Option (WaitPoint ⊕ Bool)
  | .go, .activeSpin i => some <|
      if word ≠ old then .inr true
      else .inl (if i + 1 < maxActiveSpins then .activeSpin (i + 1) else .yieldSpin 0)
  | .go, .yieldSpin i => some <|
      if word ≠ old then .inr true
      else .inl (if i + 1 < maxYieldSpins then .yieldSpin (i + 1) else .enter)
  | .go, .probe => some (if word ≠ old then .inr true else .inl .enter)
  | .go, .enter => some (.inl (if word ≠ old then .recheck else .asleep))
  | .failed, .enter => some (.inr (!timed))
  | .spurious, .asleep => some (.inl .recheck)
  | .interrupted, .asleep => some (.inl .enter)
  | .expired, .asleep => if timed then some (.inl .expired) else none
  | .go, .recheck => some (if word ≠ old then .inr true else .inl .enter)
  | .go, .expired => some (.inr (decide (word ≠ old)))
  | _, _ => none

/-- **A thread falls asleep only while the word equals the expected value.** -/
theorem step_asleep {timed : Bool} {word old : Word} {choice : Choice} {point : WaitPoint}
    (slept : point.step timed word old choice = some (.inl .asleep)) : word = old := by
  by_contra changed
  cases point <;> cases choice <;> simp [step, changed] at slept

/-- Where a wait goes on a word that still equals the expected value, until it sleeps. -/
def unchanged : WaitPoint → Option WaitPoint
  | .activeSpin i => some (if i + 1 < maxActiveSpins then .activeSpin (i + 1) else .yieldSpin 0)
  | .yieldSpin i => some (if i + 1 < maxYieldSpins then .yieldSpin (i + 1) else .enter)
  | .probe | .recheck => some .enter
  | .enter => some .asleep
  | .asleep | .expired => none

theorem step_unchanged {timed : Bool} {word : Word} {point next : WaitPoint}
    (goes : point.unchanged = some next) :
    point.step timed word word .go = some (.inl next) := by
  cases point <;> simp_all [unchanged, step]

end WaitPoint

end NovaSync.Futex
