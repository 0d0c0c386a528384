/-
**`pthread_mutex`: the timed locks.**

`try_lock_for` turns its duration into a deadline on `steady_clock` and calls `try_lock_until`, which turns a
deadline that it cannot hand to a `pthread_mutex_*` function back into a duration and calls `try_lock_for`.
Every call reads the clocks as they are when it is made.

* `step` — what one call does: it calls the other function, or the system.
* `locks_iff` — the system is reached on Linux, and elsewhere by deadlines on `system_clock` only.
* `timedLock_never_locks` — elsewhere no other call reaches it, whatever the clocks read.
-/

import NovaSync.Detail.Kevent
import NovaSync.Detail.TimedWait

namespace NovaSync.PthreadMutex

open Detail

/-! ### The calls -/

/-- Whether `__linux__` is defined. -/
inductive Platform
  | linux
  | posix
deriving DecidableEq, Repr

inductive Call
  | tryLockFor (relTime : ℤ)
  | tryLockUntil (clock : Clock) (absTime : ℤ)
deriving DecidableEq, Repr

/-- `CLOCK_REALTIME`, `CLOCK_MONOTONIC`. -/
inductive ClockId
  | realtime
  | monotonic
deriving DecidableEq, Repr

/-- `pthread_mutex_timedlock( &mutex_, &ts )`, `pthread_mutex_clocklock( &mutex_, clock, &ts )`. -/
inductive PthreadCall
  | timedlock (ts : Timespec)
  | clocklock (clock : ClockId) (ts : Timespec)
deriving DecidableEq, Repr

/-- The `timespec` of a deadline: its seconds, and the nanoseconds without them. -/
def timespec (absTime : ℤ) : Timespec :=
  let secs := absTime.tdiv 1000000000
  { sec := secs, nsec := absTime - secs * 1000000000 }

def tryLockFor (now : Clock → ℤ) (relTime : ℤ) : Call ⊕ PthreadCall :=
  .inl (.tryLockUntil .steady (now .steady + relTime))

def tryLockUntil (platform : Platform) (now : Clock → ℤ) (clock : Clock) (absTime : ℤ) :
    Call ⊕ PthreadCall :=
  if clock = .system then
    match platform with
    | .linux => .inr (.clocklock .realtime (timespec absTime))
    | .posix => .inr (.timedlock (timespec absTime))
  else if platform = .linux ∧ clock = .steady then .inr (.clocklock .monotonic (timespec absTime))
  else .inl (.tryLockFor (absTime - now clock))

/-- What a call does: another call, or one of the system. -/
def step (platform : Platform) (now : Clock → ℤ) : Call → Call ⊕ PthreadCall
  | .tryLockFor relTime => tryLockFor now relTime
  | .tryLockUntil clock absTime => tryLockUntil platform now clock absTime

/-- Where a call has come to after `n` steps, each at its own reading of the clocks. -/
def trace (platform : Platform) (readings : ℕ → Clock → ℤ) (call : Call) : ℕ → Call ⊕ PthreadCall
  | 0 => .inl call
  | n + 1 =>
      match trace platform readings call n with
      | .inl here => step platform (readings n) here
      | .inr made => .inr made

/-- The call comes to a `pthread_mutex_*` call. -/
def Locks (platform : Platform) (readings : ℕ → Clock → ℤ) (call : Call) : Prop :=
  ∃ n made, trace platform readings call n = .inr made

/-- The second call makes the first, at some reading of the clocks. -/
def Calls (platform : Platform) (callee caller : Call) : Prop :=
  ∃ now, step platform now caller = .inl callee

/-- `try_lock_until` with a deadline on `system_clock`. -/
def Call.onSystemClock : Call → Bool
  | .tryLockUntil .system _ => true
  | _ => false

/-! ### Which calls end -/

variable {call : Call}

/-- **Without `__linux__`** the two functions go on calling each other. -/
theorem step_posix (now : Clock → ℤ) (other : call.onSystemClock = false) :
    ∃ callee, step .posix now call = .inl callee ∧ callee.onSystemClock = false := by
  cases call with
  | tryLockFor relTime => exact ⟨_, rfl, rfl⟩
  | tryLockUntil clock absTime =>
    cases clock with
    | system => cases other
    | steady | other => exact ⟨_, rfl, rfl⟩

theorem trace_posix (readings : ℕ → Clock → ℤ) (other : call.onSystemClock = false) (n : ℕ) :
    ∃ here, trace .posix readings call n = .inl here ∧ here.onSystemClock = false := by
  induction n with
  | zero => exact ⟨call, rfl, other⟩
  | succ n ih =>
    obtain ⟨here, came, there⟩ := ih
    simp only [trace, came]
    exact step_posix (readings n) there

theorem not_locks_posix (readings : ℕ → Clock → ℤ) (other : call.onSystemClock = false) :
    ¬ Locks .posix readings call := by
  rintro ⟨n, made, reached⟩
  obtain ⟨here, came, -⟩ := trace_posix readings other n
  rw [came] at reached
  cases reached

/-- The recursion is not well-founded there. -/
theorem not_acc_posix (other : call.onSystemClock = false) : ¬ Acc (Calls .posix) call := by
  intro accessible
  induction accessible with
  | intro caller _ ih =>
    obtain ⟨callee, called, there⟩ := step_posix (fun _ => 0) other
    exact ih callee ⟨_, called⟩ there

/-- **Which calls come to the system**: on Linux all, and elsewhere those with a deadline on `system_clock`. -/
theorem locks_iff (platform : Platform) (readings : ℕ → Clock → ℤ) (call : Call) :
    Locks platform readings call ↔ platform = .linux ∨ call.onSystemClock = true := by
  cases platform with
  | posix =>
    cases there : call.onSystemClock with
    | false => exact iff_of_false (not_locks_posix readings there) (by simp)
    | true =>
      refine iff_of_true ?_ (Or.inr rfl)
      unfold Call.onSystemClock at there
      split at there
      · exact ⟨1, _, rfl⟩
      · cases there
  | linux =>
    refine iff_of_true ?_ (Or.inl rfl)
    cases call with
    | tryLockFor relTime => exact ⟨2, _, rfl⟩
    | tryLockUntil clock absTime =>
      cases clock with
      | system | steady => exact ⟨1, _, rfl⟩
      | other => exact ⟨3, _, rfl⟩

/-- **No timed lock without `__linux__`**, but for deadlines on `system_clock`. Whatever the clocks read, neither
`try_lock_for` nor `try_lock_until` comes to a `pthread_mutex_*` call, and their recursion is not well-founded. -/
theorem timedLock_never_locks (readings : ℕ → Clock → ℤ) :
    (∀ relTime, ¬ Locks .posix readings (.tryLockFor relTime) ∧
      ¬ Acc (Calls .posix) (.tryLockFor relTime)) ∧
    ∀ clock absTime, clock ≠ .system → ¬ Locks .posix readings (.tryLockUntil clock absTime) ∧
      ¬ Acc (Calls .posix) (.tryLockUntil clock absTime) := by
  refine ⟨fun relTime => ⟨not_locks_posix readings rfl, not_acc_posix rfl⟩, fun clock absTime known => ?_⟩
  have other : (Call.tryLockUntil clock absTime).onSystemClock = false := by
    cases clock with
    | system => exact absurd rfl known
    | steady | other => rfl
  exact ⟨not_locks_posix readings other, not_acc_posix other⟩

/-- A deadline on `steady_clock` that has passed when the call is made. -/
theorem timedLock_never_locks_passed :
    ¬ Locks .posix (fun n _ => 100 + n) (.tryLockUntil .steady 50) :=
  ((timedLock_never_locks fun n _ => 100 + n).2 .steady 50 (by decide)).1

/-- `try_lock_for( 5ms )`, where the clocks go on by a millisecond with every call. -/
theorem tryLockFor_never_locks :
    ∃ readings : ℕ → Clock → ℤ, (∀ clock n, readings n clock ≤ readings (n + 1) clock) ∧
      ¬ Locks .posix readings (.tryLockFor 5000000) := by
  refine ⟨fun n _ => n * 1000000, fun clock n => ?_, not_locks_posix _ rfl⟩
  show (n : ℤ) * 1000000 ≤ (n + 1 : ℕ) * 1000000
  omega

end NovaSync.PthreadMutex
