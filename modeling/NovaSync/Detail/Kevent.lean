/-
**Kqueues, and `kevent_for` and `kevent_until` of `detail/timed_wait.cpp`.**

A kqueue of this library holds one `EVFILT_USER` event with `EV_CLEAR`, which is a flag that
`NOTE_TRIGGER` sets and a retrieval clears, and at most one `EVFILT_TIMER` event with `EV_ONESHOT`,
which all system-clock waits share. Time is not modelled: an armed timer may fire at any moment, so a
wait can retrieve it as soon as it is armed.

A `kevent` call that waits is one step of the calling thread, at the moment at which it returns; how it
returns is the environment's `Kevent`.
-/

import NovaSync.Detail.Atomic

namespace NovaSync.Detail

/-- The clock of a deadline. -/
inductive Clock
  | system
  | steady
  | other
deriving DecidableEq, Repr

/-- What a kqueue can deliver. -/
inductive Event
  | user
  | timer
deriving DecidableEq, Repr

/-- The pending user event, and the armed timer. -/
structure Kqueue where
  triggered : Bool := false
  timer : Bool := false
deriving DecidableEq, Repr

/-- How a waiting `kevent` call returns: an event, `EINTR`, its timeout, or another error. -/
inductive Kevent
  | event (event : Event)
  | interrupted
  | expired
  | failed
deriving DecidableEq, Repr

namespace Kqueue

/-- `NOTE_TRIGGER`. -/
def trigger (queue : Kqueue) : Kqueue := { queue with triggered := true }

/-- `EV_ADD | EV_ONESHOT` of the timer, which replaces an armed one. -/
def addTimer (queue : Kqueue) : Kqueue := { queue with timer := true }

/-- `EV_DELETE` of the timer. -/
def deleteTimer (queue : Kqueue) : Kqueue := { queue with timer := false }

/-- A pending event leaves the queue. -/
def retrieve (queue : Kqueue) : Event → Option Kqueue
  | .user => if queue.triggered then some { queue with triggered := false } else none
  | .timer => if queue.timer then some { queue with timer := false } else none

/-- The queue after a waiting `kevent` call. A call times out only if it has a timeout and nothing is
there for it. -/
def kevent (queue : Kqueue) (timeout : Bool) : Kevent → Option Kqueue
  | .event event => queue.retrieve event
  | .expired => if timeout && !queue.triggered then some queue else none
  | .interrupted | .failed => some queue

end Kqueue

/-- Where `kevent_for` stands: before the `kevent` call, or after an `EINTR` before the test of the
remaining time. -/
inductive KeventFor
  | wait
  | remaining
deriving DecidableEq, Repr

/-- The test of the remaining time, which the environment decides. -/
def KeventFor.test (choice : Choice) : KeventFor → Option (KeventFor ⊕ Bool)
  | .remaining =>
      match choice with
      | .go => some (.inl .wait)
      | .expired => some (.inr false)
      | _ => none
  | .wait => none

/-- The `kevent` call: the queue, and the next point or the value returned. -/
def KeventFor.kevent (queue : Kqueue) (outcome : Kevent) :
    KeventFor → Option (Kqueue × (KeventFor ⊕ Bool))
  | .wait => (queue.kevent true outcome).map fun after =>
      (after, match outcome with
        | .event _ => .inr true
        | .expired | .failed => .inr false
        | .interrupted => .inl .remaining)
  | .remaining => none

/-- The next test or call of `kevent_for`. -/
def KeventFor.step (choice : Choice ⊕ Kevent) (queue : Kqueue) (point : KeventFor) :
    Option (Kqueue × (KeventFor ⊕ Bool)) :=
  choice.elim (fun choice => (point.test choice).map (queue, ·)) (fun outcome => point.kevent queue outcome)

/-- Where `kevent_until` stands.

* `addTimer`, `wait`, `deleteTimer result`: the three system calls of the system-clock overload.
* `deadline`, `steady point`: the test of the remaining time and the `kevent_for` of the steady-clock
  overload. -/
inductive KeventUntil
  | addTimer
  | wait
  | deleteTimer (result : Bool)
  | deadline
  | steady (point : KeventFor)
deriving DecidableEq, Repr

/-- The first point; other clocks do not reach `kevent_until`. -/
def KeventUntil.start : Clock → KeventUntil
  | .system => .addTimer
  | .steady | .other => .deadline

/-- The next point or the value returned. `own` says whether `lock_ident` is the identifier of the
user event: an event with another identifier counts as the timeout. -/
def KeventUntil.step (own : Bool) (choice : Choice ⊕ Kevent) (queue : Kqueue) :
    KeventUntil → Option (Kqueue × (KeventUntil ⊕ Bool))
  | .addTimer =>
      match choice with
      | .inl .go => some (queue.addTimer, .inl .wait)
      | .inl .failed => some (queue, .inr false)
      | _ => none
  | .wait =>
      match choice with
      | .inr outcome => (queue.kevent false outcome).map fun after =>
          (after, match outcome with
            | .event .user => .inl (.deleteTimer own)
            | .event .timer | .failed => .inl (.deleteTimer false)
            | .interrupted | .expired => .inl .wait)
      | .inl _ => none
  | .deleteTimer result =>
      match choice with
      | .inl choice => ordinary choice (queue.deleteTimer, .inr result)
      | .inr _ => none
  | .deadline =>
      match choice with
      | .inl .go => some (queue, .inl (.steady .wait))
      | .inl .expired => some (queue, .inr false)
      | _ => none
  | .steady point =>
      (point.step choice queue).map fun
        | (after, .inl next) => (after, .inl (.steady next))
        | (after, .inr true) => (after, .inr true)
        | (after, .inr false) => (after, .inl .deadline)

/-- **A `kevent` call retrieves the user event, or leaves it.** -/
theorem Kqueue.kevent_cases {queue after : Kqueue} {timeout : Bool} {outcome : Kevent}
    (called : queue.kevent timeout outcome = some after) :
    outcome = .event .user ∧ queue.triggered = true ∧ after.triggered = false ∨
      outcome ≠ .event .user ∧ after.triggered = queue.triggered := by
  cases outcome with
  | event event =>
    cases event with
    | user =>
      simp only [Kqueue.kevent, Kqueue.retrieve] at called
      split at called
      · rename_i pending
        cases called
        exact Or.inl ⟨rfl, pending, rfl⟩
      · cases called
    | timer =>
      simp only [Kqueue.kevent, Kqueue.retrieve] at called
      split at called
      · cases called
        exact Or.inr ⟨nofun, rfl⟩
      · cases called
  | expired =>
    simp only [Kqueue.kevent] at called
    split at called
    · cases called
      exact Or.inr ⟨nofun, rfl⟩
    · cases called
  | interrupted | failed =>
    cases called
    exact Or.inr ⟨nofun, rfl⟩

/-- **`kevent_for` returns `true` on an event only**, and takes any event. -/
theorem KeventFor.step_cases {choice : Choice ⊕ Kevent} {queue after : Kqueue} {point : KeventFor}
    {result : KeventFor ⊕ Bool} (stepped : point.step choice queue = some (after, result)) :
    choice = .inr (.event .user) ∧ queue.triggered = true ∧ after.triggered = false ∧
        result = .inr true ∨
      choice = .inr (.event .timer) ∧ after.triggered = queue.triggered ∧ result = .inr true ∨
      after.triggered = queue.triggered ∧ result ≠ .inr true := by
  cases choice with
  | inl choice =>
    obtain ⟨next, tested, same⟩ := Option.map_eq_some_iff.mp stepped
    cases same
    refine Or.inr (Or.inr ⟨rfl, ?_⟩)
    cases point with
    | wait => cases tested
    | remaining =>
      cases choice with
      | go | expired =>
        cases tested
        nofun
      | _ => cases tested
  | inr outcome =>
    cases point with
    | remaining => cases stepped
    | wait =>
      obtain ⟨called, retrieved, same⟩ := Option.map_eq_some_iff.mp stepped
      cases same
      have kinds := Kqueue.kevent_cases retrieved
      cases outcome with
      | event event =>
        rcases kinds with ⟨user, pending, cleared⟩ | ⟨other, left⟩
        · cases user
          exact Or.inl ⟨rfl, pending, cleared, rfl⟩
        · cases event with
          | user => exact absurd rfl other
          | timer => exact Or.inr (Or.inl ⟨rfl, left, rfl⟩)
      | interrupted | expired | failed =>
        rcases kinds with ⟨user, -⟩ | ⟨-, left⟩
        · cases user
        · exact Or.inr (Or.inr ⟨left, nofun⟩)

/-- **`kevent_for` gives up by a timeout or an error.** -/
theorem KeventFor.late_of_step {choice : Choice ⊕ Kevent} {queue after : Kqueue} {point : KeventFor}
    (stepped : point.step choice queue = some (after, .inr false)) :
    choice = .inl .expired ∨ choice = .inr .expired ∨ choice = .inr .failed := by
  cases choice with
  | inl choice =>
    obtain ⟨next, tested, same⟩ := Option.map_eq_some_iff.mp stepped
    cases same
    cases point with
    | wait => cases tested
    | remaining =>
      cases choice with
      | expired => exact Or.inl rfl
      | _ => cases tested
  | inr outcome =>
    cases point with
    | remaining => cases stepped
    | wait =>
      obtain ⟨called, -, same⟩ := Option.map_eq_some_iff.mp stepped
      cases outcome with
      | expired => exact Or.inr (Or.inl rfl)
      | failed => exact Or.inr (Or.inr rfl)
      | event _ | interrupted => cases same

end NovaSync.Detail
