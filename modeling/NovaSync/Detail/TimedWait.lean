/-
**`detail/timed_wait.cpp` with its clock: `ppoll_for`, `kevent_for` and `ppoll_until`.**

Where the wakeups matter and the time does not, `Detail.Eventfd` and `Detail.Kevent` leave it to the environment
when a deadline has passed. Here the clock is read: durations, deadlines and clock readings are integers, the
nanoseconds, and a step of a helper sees the reading of the moment at which it is taken.

* `WaitFor` — the loop that `ppoll_for` and `kevent_for` share.
* `WaitUntil` — `ppoll_until`, for either clock.
-/

import Mathlib.Algebra.Ring.Int.Defs
import Mathlib.Tactic.Common

namespace NovaSync.Detail

/-- `struct timespec`. -/
structure Timespec where
  sec : ℤ
  nsec : ℤ
deriving DecidableEq, Repr

/-- `as_timespec`; the division of C++ truncates. -/
def asTimespec (ns : ℤ) : Timespec where
  sec := ns.tdiv 1000000000
  nsec := ns.tmod 1000000000

/-- Nothing is lost in the division. -/
theorem asTimespec_total (ns : ℤ) : (asTimespec ns).sec * 1000000000 + (asTimespec ns).nsec = ns := by
  rw [Int.add_comm]
  exact Int.tmod_add_tdiv_mul ns 1000000000

theorem asTimespec_nsec {ns : ℤ} (nonnegative : 0 ≤ ns) :
    0 ≤ (asTimespec ns).nsec ∧ (asTimespec ns).nsec < 1000000000 :=
  ⟨Int.tmod_nonneg 1000000000 nonnegative, Int.tmod_lt_of_pos ns (by decide)⟩

/-- How a system call returns. For `ppoll` and `kevent`: the descriptor or the event is ready, the timer is (and
the descriptor is not), nothing is (`rc == 0`), `EINTR`, or another error. Every other call succeeds as `ready`
and does not succeed otherwise. -/
inductive Answer
  | ready
  | timer
  | nothing
  | interrupted
  | failed
deriving DecidableEq, Repr

/-! ### `ppoll_for` and `kevent_for` -/

/-- Where the loop stands.

* `enter`: the clock reading that `start` keeps.
* `head start elapsed`: the head of the loop; `elapsed` is empty the first time round.
* `wait start elapsed timeout`: the `ppoll` or `kevent` call. -/
inductive WaitFor
  | enter
  | head (start : ℤ) (elapsed : Option ℤ)
  | wait (start elapsed : ℤ) (timeout : Timespec)
deriving DecidableEq, Repr

/-- The next point, or the value returned. -/
def WaitFor.step (rel now : ℤ) (answer : Answer) : WaitFor → WaitFor ⊕ Bool
  | .enter => .inl (.head now none)
  | .head start elapsed =>
      let elapsed := if elapsed.isSome then now - start else 0
      let remaining := rel - elapsed
      if remaining ≤ 0 then .inr false else .inl (.wait start elapsed (asTimespec remaining))
  | .wait start elapsed _ =>
      match answer with
      | .ready => .inr true
      | .interrupted => .inl (.head start (some elapsed))
      | .timer | .nothing | .failed => .inr false

/-! ### `ppoll_until` -/

/-- Where `ppoll_until` stands: `create` is `timerfd_create`, `clock` the reading of the deadline's clock,
`settime` `timerfd_settime`, and `poll` the `ppoll` of both descriptors. -/
inductive WaitUntil
  | create
  | clock
  | settime (value : Timespec)
  | poll
deriving DecidableEq, Repr

/-- The next point, or the value returned. -/
def WaitUntil.step (deadline now : ℤ) (answer : Answer) : WaitUntil → WaitUntil ⊕ Bool
  | .create => if answer = .ready then .inl .clock else .inr false
  | .clock =>
      let remaining := deadline - now
      if remaining ≤ 0 then .inr false else .inl (.settime (asTimespec remaining))
  | .settime _ => if answer = .ready then .inl .poll else .inr false
  | .poll =>
      match answer with
      | .ready => .inr true
      | .interrupted | .nothing => .inl .poll
      | .timer | .failed => .inr false

end NovaSync.Detail
