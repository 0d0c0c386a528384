/-
**Eventfds, and `poll_intr`, `ppoll_for` and `ppoll_until`.**

An eventfd with `EFD_SEMAPHORE | EFD_NONBLOCK` is a counter: a write adds one, a read takes one or
fails, and the descriptor polls readable while the counter is positive. A poll is one step of the
calling thread, at the moment at which it returns; how it returns is the environment's `Choice`. Time is
not modelled: a deadline may have passed at any moment.
-/

import NovaSync.Detail.Atomic

namespace NovaSync.Detail

/-- The counter of an eventfd. -/
abbrev Eventfd := ℕ

/-- `read_intr` of eight bytes: it takes one, or finds nothing. -/
def Eventfd.read (counter : Eventfd) : Eventfd := counter - 1

/-- `write_intr` of the value one. -/
def Eventfd.write (counter : Eventfd) : Eventfd := counter + 1

/-- Where a wait for readability stands.

* `poll`: the `poll` without timeout of `poll_intr`.
* `ppollFor`, `remaining`: the `ppoll` of `ppoll_for`, and the test of the remaining time after an
  `EINTR`.
* `timerfd`, `ppollUntil`: `ppoll_until` before the timer is set, and its `ppoll` of both
  descriptors. -/
inductive PollPoint
  | poll
  | ppollFor
  | remaining
  | timerfd
  | ppollUntil
deriving DecidableEq, Repr

/-- The next point or the value returned, which for `poll_intr` its caller ignores. A poll reports the
timeout only while the counter is zero: readability comes first. -/
def PollPoint.step (choice : Choice) (counter : Eventfd) : PollPoint → Option (PollPoint ⊕ Bool)
  | .poll =>
      match choice with
      | .go => if 0 < counter then some (.inr true) else none
      | .interrupted => some (.inl .poll)
      | .failed => some (.inr false)
      | .spurious | .expired => none
  | .ppollFor =>
      match choice with
      | .go => if 0 < counter then some (.inr true) else none
      | .interrupted => some (.inl .remaining)
      | .expired => if counter = 0 then some (.inr false) else none
      | .failed => some (.inr false)
      | .spurious => none
  | .remaining =>
      match choice with
      | .go => some (.inl .ppollFor)
      | .expired => some (.inr false)
      | .spurious | .interrupted | .failed => none
  | .timerfd =>
      match choice with
      | .go => some (.inl .ppollUntil)
      | .expired | .failed => some (.inr false)
      | .spurious | .interrupted => none
  | .ppollUntil =>
      match choice with
      | .go => if 0 < counter then some (.inr true) else none
      | .interrupted | .spurious => some (.inl .ppollUntil)
      | .expired => if counter = 0 then some (.inr false) else none
      | .failed => some (.inr false)

/-- The wait has a timeout or a deadline. -/
def PollPoint.timed : PollPoint → Bool
  | .poll => false
  | .ppollFor | .remaining | .timerfd | .ppollUntil => true

theorem PollPoint.timed_of_step {choice : Choice} {counter : Eventfd} {point next : PollPoint}
    (stepped : point.step choice counter = some (.inl next)) : next.timed = point.timed := by
  cases point with
  | poll | ppollFor | ppollUntil =>
    cases choice with
    | go | expired =>
      simp only [PollPoint.step] at stepped
      first
        | split at stepped <;> cases stepped
        | cases stepped
    | spurious | interrupted | failed =>
      cases stepped
      try rfl
  | remaining | timerfd =>
    cases choice <;> cases stepped
    rfl

/-- **A timed wait gives up by a timeout or an error.** -/
theorem PollPoint.late_of_step {choice : Choice} {counter : Eventfd} {point : PollPoint}
    (timed : point.timed = true) (stepped : point.step choice counter = some (.inr false)) :
    choice = .expired ∨ choice = .failed := by
  cases choice with
  | expired => exact Or.inl rfl
  | failed => exact Or.inr rfl
  | go =>
    cases point with
    | poll => cases timed
    | ppollFor | ppollUntil =>
      simp only [PollPoint.step] at stepped
      split at stepped <;> cases stepped
    | remaining | timerfd => cases stepped
  | spurious | interrupted =>
    cases point with
    | poll => cases timed
    | _ => cases stepped

/-- **A wait reports readability on a positive counter only.** -/
theorem PollPoint.readable_of_step {choice : Choice} {counter : Eventfd} {point : PollPoint}
    (stepped : point.step choice counter = some (.inr true)) : 0 < counter := by
  cases point with
  | poll | ppollFor | ppollUntil =>
    cases choice with
    | go =>
      simp only [PollPoint.step] at stepped
      split at stepped
      · assumption
      · cases stepped
    | expired =>
      simp only [PollPoint.step] at stepped
      first
        | split at stepped <;> cases stepped
        | cases stepped
    | spurious | interrupted | failed => cases stepped
  | remaining | timerfd => cases choice <;> cases stepped

end NovaSync.Detail
