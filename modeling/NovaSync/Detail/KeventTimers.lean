/-
**The timers of the system-clock `kevent_until` on one kqueue.**

Every `kevent_until` with a system-clock deadline adds its timer under the same identifier to the kqueue of its
caller. So there is one timer for all threads: `EV_ADD` replaces it, whoever calls `kevent` first retrieves it, and
`EV_DELETE` removes it. Other threads call `kevent` of the same kqueue without a timer of their own, or trigger its
user event. The clock goes forward, and an armed timer can be retrieved from its deadline on.

* `step_untimed` — without the deadlines this is `KeventUntil`.
* `Armed` — a blocked thread whose deadline has not been reached has a timer no later than its deadline.
* `keventUntil_timer_armed` — in runs whose steps are `Apart`; a step that is not `Apart` leaves a thread without
  such a timer. `keventUntil_timer_disturbed` are two overlapping waits.
-/

import NovaSync.Concurrency.Threads
import NovaSync.Detail.Kevent

set_option linter.unusedSectionVars false

namespace NovaSync.KeventTimers

open Concurrency Detail

/-! ### The program -/

/-- The system clock, the pending user event, and the deadline of the armed timer. -/
structure Kernel where
  now : ℤ
  triggered : Bool := false
  timer : Option ℤ := none
deriving DecidableEq, Repr

namespace Kernel

/-- The timer event can be retrieved. -/
def due (kernel : Kernel) : Bool := kernel.timer.any fun deadline => decide (deadline ≤ kernel.now)

/-- A pending event leaves the queue; the timer is one-shot. -/
def retrieve (kernel : Kernel) : Event → Option Kernel
  | .user => if kernel.triggered then some { kernel with triggered := false } else none
  | .timer => if kernel.due then some { kernel with timer := none } else none

/-- The queue after a waiting `kevent` call, with a timeout or without one. -/
def kevent (kernel : Kernel) (timeout : Bool) : Kevent → Option Kernel
  | .event event => kernel.retrieve event
  | .expired => if timeout && !kernel.triggered && !kernel.due then some kernel else none
  | .interrupted | .failed => some kernel

/-- The kqueue without clock and deadlines. -/
def untimed (kernel : Kernel) : Kqueue := ⟨kernel.triggered, kernel.timer.isSome⟩

end Kernel

/-- The calls of one kqueue: `kevent_until`, for an identifier that is that of the user event or is not; another
`kevent` call that takes an event; and `NOTE_TRIGGER`. -/
inductive Op
  | keventUntil (own : Bool) (deadline : ℤ)
  | kevent (timeout : Bool)
  | trigger
deriving DecidableEq, Repr

/-- The three system calls of `kevent_until`. -/
inductive Point
  | addTimer
  | wait
  | deleteTimer (result : Bool)
deriving DecidableEq, Repr

inductive Pc
  /-- Outside, with the result of the last `kevent_until`. -/
  | idle (result : Option Bool)
  | inside (own : Bool) (deadline : ℤ) (point : Point)
  | kevent (timeout : Bool)
  | trigger
deriving DecidableEq, Repr

/-- Where `kevent_until` goes on. -/
def goesOn (own : Bool) (deadline : ℤ) : Point ⊕ Bool → Pc
  | .inl point => .inside own deadline point
  | .inr result => .idle (some result)

def call : Op → Pc → Option Pc
  | .keventUntil own deadline, .idle _ => some (.inside own deadline .addTimer)
  | .kevent timeout, .idle _ => some (.kevent timeout)
  | .trigger, .idle _ => some .trigger
  | _, _ => none

/-- The next system call. -/
def step (choice : Choice ⊕ Kevent) (kernel : Kernel) : Pc → Option (Kernel × Pc)
  | .inside own deadline .addTimer =>
      match choice with
      | .inl .go => some ({ kernel with timer := some deadline }, .inside own deadline .wait)
      | .inl .failed => some (kernel, .idle (some false))
      | _ => none
  | .inside own deadline .wait => choice.getRight?.bind fun outcome =>
      (kernel.kevent false outcome).map fun after =>
        (after, match outcome with
          | .event .user => .inside own deadline (.deleteTimer own)
          | .event .timer | .failed => .inside own deadline (.deleteTimer false)
          | .interrupted | .expired => .inside own deadline .wait)
  | .inside _ _ (.deleteTimer result) => choice.getLeft?.bind fun choice =>
      ordinary choice ({ kernel with timer := none }, .idle (some result))
  | .kevent timeout => choice.getRight?.bind fun outcome =>
      (kernel.kevent timeout outcome).map (·, .idle none)
  | .trigger => choice.getLeft?.bind fun choice =>
      ordinary choice ({ kernel with triggered := true }, .idle none)
  | .idle _ => none

/-- The threads of one kqueue; nobody sleeps on a futex. -/
def program : Program Kernel Pc Op (Choice ⊕ Kevent) where
  idle := .idle none
  call := call
  step := step
  wake := fun _ => none
  asleep := fun _ => false
  woken := id

theorem program_silent : program.Silent := fun _ => rfl

/-- A thread acts, or the clock goes on. -/
inductive Move (Thread : Type*)
  | thread (action : Action Thread Op (Choice ⊕ Kevent))
  | tick (now : ℤ)

variable {Thread : Type*} [DecidableEq Thread] [Fintype Thread]

def next (state : State Thread Kernel Pc) : Move Thread → Option (State Thread Kernel Pc)
  | .thread action => program.next state action
  | .tick now =>
      if state.memory.now ≤ now then some { state with memory := { state.memory with now := now } } else none

def system (now : ℤ) (Thread : Type*) [DecidableEq Thread] [Fintype Thread] :
    System (State Thread Kernel Pc) (Move Thread) where
  start := { memory := { now := now }, thread := fun _ => .idle none }
  next := next

/-! ### Without the deadlines -/

def Point.untimed : Point → KeventUntil
  | .addTimer => .addTimer
  | .wait => .wait
  | .deleteTimer result => .deleteTimer result

theorem retrieve_untimed {kernel after : Kernel} {event : Event} (retrieved : kernel.retrieve event = some after) :
    kernel.untimed.retrieve event = some after.untimed := by
  cases event with
  | user =>
    simp only [Kernel.retrieve, Option.ite_none_right_eq_some, Option.some.injEq] at retrieved
    obtain ⟨pending, rfl⟩ := retrieved
    simp [Kernel.untimed, Kqueue.retrieve, pending]
  | timer =>
    simp only [Kernel.retrieve, Option.ite_none_right_eq_some, Option.some.injEq] at retrieved
    obtain ⟨due, rfl⟩ := retrieved
    obtain ⟨deadline, armed, -⟩ := (Option.any_eq_true _ _).mp due
    simp [Kernel.untimed, Kqueue.retrieve, armed]

/-- **A step at a `kevent` call** that retrieves events: its outcome, and where the thread goes on. -/
theorem kevent_cases {choice : Choice ⊕ Kevent} {kernel after : Kernel} {timeout : Bool} {place : Kevent → Pc}
    {moved : Pc} (stepped : (choice.getRight?.bind fun outcome =>
      (kernel.kevent timeout outcome).map fun after => (after, place outcome)) = some (after, moved)) :
    ∃ outcome, choice = .inr outcome ∧ kernel.kevent timeout outcome = some after ∧ moved = place outcome := by
  obtain ⟨outcome, went, called⟩ := Option.bind_eq_some_iff.mp stepped
  obtain ⟨queue, waited, same⟩ := Option.map_eq_some_iff.mp called
  cases same
  exact ⟨outcome, Sum.getRight?_eq_some_iff.mp went, waited, rfl⟩

/-- **Without the deadlines the steps of `kevent_until` are those of `KeventUntil`.** -/
theorem step_untimed {choice : Choice ⊕ Kevent} {kernel after : Kernel} {own : Bool} {deadline : ℤ}
    {point : Point} {moved : Pc} (stepped : step choice kernel (.inside own deadline point) = some (after, moved)) :
    ∃ result : Point ⊕ Bool, moved = goesOn own deadline result ∧
      point.untimed.step own choice kernel.untimed = some (after.untimed, result.map Point.untimed id) := by
  cases point with
  | addTimer =>
    rcases choice with (_ | _ | _ | _ | _) | _ <;> cases stepped
    · exact ⟨.inl .wait, rfl, rfl⟩
    · exact ⟨.inr false, rfl, rfl⟩
  | wait =>
    obtain ⟨outcome, rfl, waited, rfl⟩ := kevent_cases stepped
    rcases outcome with event | _ | _ | _
    · have retrieved := retrieve_untimed waited
      cases event with
      | user =>
        exact ⟨.inl (.deleteTimer own), rfl,
          by simp [Point.untimed, KeventUntil.step, Kqueue.kevent, retrieved]⟩
      | timer =>
        exact ⟨.inl (.deleteTimer false), rfl,
          by simp [Point.untimed, KeventUntil.step, Kqueue.kevent, retrieved]⟩
    · cases waited
      exact ⟨.inl .wait, rfl, rfl⟩
    · cases waited
    · cases waited
      exact ⟨.inl (.deleteTimer false), rfl, rfl⟩
  | deleteTimer result =>
    obtain ⟨action, went, performed⟩ := Option.bind_eq_some_iff.mp stepped
    rw [Sum.getLeft?_eq_some_iff] at went
    subst went
    obtain ⟨rfl, same⟩ := ordinary_eq_some performed
    cases same
    exact ⟨.inr result, rfl, rfl⟩

/-! ### Timers that are armed -/

/-- The deadline of a thread that is blocked in the `kevent` call of `kevent_until`. -/
def Pc.blocked : Pc → Option ℤ
  | .inside _ deadline .wait => some deadline
  | _ => none

/-- The deadline of a blocked thread, as long as it has not been reached. -/
def pending (now : ℤ) (pc : Pc) : Option ℤ := pc.blocked.filter fun deadline => decide (now < deadline)

/-- **Blocked threads have a timer no later than their deadline**, until that is reached. -/
def Armed (state : State Thread Kernel Pc) : Prop :=
  ∀ t, ∀ deadline ∈ pending state.memory.now (state.thread t),
    ∃ armed ∈ state.memory.timer, armed ≤ deadline

/-- What a step makes of the timer, where it touches it: `EV_ADD` replaces it, the retrieval of its event and
`EV_DELETE` remove it. -/
def sets (choice : Choice ⊕ Kevent) : Pc → Option (Option ℤ)
  | .inside _ deadline .addTimer => if choice = .inl .go then some (some deadline) else none
  | .inside _ _ .wait | .kevent _ => if choice = .inr (.event .timer) then some none else none
  | .inside _ _ (.deleteTimer _) => some none
  | .idle _ | .trigger => none

/-- **The waits are apart**: a thread replaces the timer, retrieves its event or removes it only where the others
that are blocked with a deadline that has not been reached have no need of it. -/
def Apart (state : State Thread Kernel Pc) : Move Thread → Prop
  | .thread (.step t choice) => ∀ timer ∈ sets choice (state.thread t), ∀ u, u ≠ t →
      ∀ deadline ∈ pending state.memory.now (state.thread u), ∃ armed ∈ timer, armed ≤ deadline
  | .thread (.call _ _) | .thread (.wake _ _) | .tick _ => True

instance (state : State Thread Kernel Pc) : DecidablePred (Apart state)
  | .thread (.step t choice) => inferInstanceAs (Decidable (∀ timer ∈ sets choice (state.thread t), _))
  | .thread (.call _ _) | .thread (.wake _ _) | .tick _ => inferInstanceAs (Decidable True)

section Steps

variable {choice : Choice ⊕ Kevent} {kernel after : Kernel} {pc moved : Pc}

theorem mem_pending {now deadline : ℤ} :
    deadline ∈ pending now pc ↔ pc.blocked = some deadline ∧ now < deadline := by
  simp [pending, Option.filter_eq_some_iff]

/-- A retrieval or a failed `kevent` call touches the timer only where it takes its event. -/
theorem kevent_timer {timeout : Bool} {outcome : Kevent} (called : kernel.kevent timeout outcome = some after) :
    after.now = kernel.now ∧
      after.timer = (if outcome = .event .timer then none else kernel.timer) := by
  cases outcome with
  | event event =>
    cases event with
    | user =>
      simp only [Kernel.kevent, Kernel.retrieve, Option.ite_none_right_eq_some, Option.some.injEq] at called
      obtain ⟨-, rfl⟩ := called
      exact ⟨rfl, rfl⟩
    | timer =>
      simp only [Kernel.kevent, Kernel.retrieve, Option.ite_none_right_eq_some, Option.some.injEq] at called
      obtain ⟨-, rfl⟩ := called
      exact ⟨rfl, rfl⟩
  | expired =>
    simp only [Kernel.kevent, Option.ite_none_right_eq_some, Option.some.injEq] at called
    obtain ⟨-, rfl⟩ := called
    exact ⟨rfl, rfl⟩
  | interrupted | failed =>
    cases called
    exact ⟨rfl, rfl⟩

/-- **What a step does to the timer**, and who is blocked after it: a thread that was, or that has just added its
timer. -/
theorem step_timer (stepped : step choice kernel pc = some (after, moved)) :
    after.now = kernel.now ∧ after.timer = (sets choice pc).getD kernel.timer ∧
      ∀ deadline, moved.blocked = some deadline →
        pc.blocked = some deadline ∧ sets choice pc = none ∨ sets choice pc = some (some deadline) := by
  cases pc with
  | idle => cases stepped
  | trigger =>
    obtain ⟨action, -, performed⟩ := Option.bind_eq_some_iff.mp stepped
    cases (ordinary_eq_some performed).2
    exact ⟨rfl, rfl, nofun⟩
  | kevent timeout =>
    obtain ⟨outcome, rfl, waited, rfl⟩ := kevent_cases stepped
    obtain ⟨clock, timer⟩ := kevent_timer waited
    refine ⟨clock, ?_, nofun⟩
    rw [timer]
    by_cases fired : outcome = .event .timer <;> simp [sets, fired]
  | inside own deadline point =>
    cases point with
    | addTimer =>
      rcases choice with (_ | _ | _ | _ | _) | _ <;> cases stepped
      · exact ⟨rfl, rfl, fun _ same => Or.inr (congrArg some same)⟩
      · exact ⟨rfl, rfl, nofun⟩
    | wait =>
      obtain ⟨outcome, rfl, waited, rfl⟩ := kevent_cases stepped
      obtain ⟨clock, timer⟩ := kevent_timer waited
      refine ⟨clock, ?_, fun deadline there => ?_⟩
      · rw [timer]
        by_cases fired : outcome = .event .timer <;> simp [sets, fired]
      · rcases outcome with (_ | _) | _ | _ | _
        · cases there
        · cases there
        · exact Or.inl ⟨there, rfl⟩
        · exact Or.inl ⟨there, rfl⟩
        · cases there
    | deleteTimer result =>
      obtain ⟨action, -, performed⟩ := Option.bind_eq_some_iff.mp stepped
      cases (ordinary_eq_some performed).2
      exact ⟨rfl, rfl, nofun⟩

theorem call_blocked {op : Op} (called : call op pc = some moved) : moved.blocked = none := by
  unfold call at called
  split at called <;> cases called <;> rfl

end Steps

section Runs

variable {state : State Thread Kernel Pc}

/-- **A step keeps the timers armed if and only if it is apart.** -/
theorem Armed.step_iff (armed : Armed state) {t : Thread} {choice : Choice ⊕ Kevent} {kernel : Kernel} {moved : Pc}
    (stepped : step choice state.memory (state.thread t) = some (kernel, moved)) :
    Armed ⟨kernel, Function.update state.thread t moved⟩ ↔ Apart state (.thread (.step t choice)) := by
  obtain ⟨clock, timer, blocked⟩ := step_timer stepped
  constructor
  · intro after change touched u other deadline waits
    have there : deadline ∈ pending kernel.now (Function.update state.thread t moved u) := by
      rw [clock, Function.update_of_ne other]
      exact waits
    have served : ∃ armed ∈ kernel.timer, armed ≤ deadline := after u deadline there
    rwa [timer, Option.mem_def.mp touched] at served
  · intro apart u deadline waits
    show ∃ armed ∈ kernel.timer, armed ≤ deadline
    have waits : deadline ∈ pending kernel.now (Function.update state.thread t moved u) := waits
    rw [timer]
    rw [clock] at waits
    by_cases own : u = t
    · subst own
      rw [Function.update_self, mem_pending] at waits
      rcases blocked deadline waits.1 with ⟨before, untouched⟩ | added
      · rw [untouched]
        exact armed u deadline (mem_pending.mpr ⟨before, waits.2⟩)
      · rw [added]
        exact ⟨deadline, rfl, le_rfl⟩
    · rw [Function.update_of_ne own] at waits
      cases touched : sets choice (state.thread t) with
      | none => exact armed u deadline waits
      | some change => exact apart change touched u own deadline waits

theorem Armed.next_iff (armed : Armed state) {move : Move Thread} {after : State Thread Kernel Pc}
    (taken : next state move = some after) : Armed after ↔ Apart state move := by
  cases move with
  | tick now =>
    simp only [next, Option.ite_none_right_eq_some, Option.some.injEq] at taken
    obtain ⟨forward, rfl⟩ := taken
    refine iff_of_true (fun t deadline waits => armed t deadline ?_) trivial
    obtain ⟨blocked, unreached⟩ := mem_pending.mp waits
    exact mem_pending.mpr ⟨blocked, lt_of_le_of_lt forward unreached⟩
  | thread action =>
    rcases program_silent.next_cases taken with ⟨t, op, moved, rfl, called, rfl⟩ |
      ⟨t, choice, kernel, moved, rfl, stepped, rfl⟩
    · refine iff_of_true (fun u deadline waits => ?_) trivial
      by_cases own : u = t
      · subst own
        simp only [Function.update_self, mem_pending, call_blocked called] at waits
        cases waits.1
      · simp only [Function.update_of_ne own] at waits
        exact armed u deadline waits
    · exact armed.step_iff stepped

/-- **Blocked threads have a timer no later than their deadline**, in runs whose waits are apart; and a step that
is not apart leaves a thread without one. -/
theorem keventUntil_timer_armed (now : ℤ) (reached : (system now Thread).Reach Apart state) :
    Armed state ∧ ∀ move after, (system now Thread).next state move = some after →
      (Armed after ↔ Apart state move) := by
  have armed : Armed state := by
    refine reached.invariant (fun t deadline waits => ?_) fun state move after _ armed apart taken => ?_
    · cases waits
    · exact (armed.next_iff taken).mpr apart
  exact ⟨armed, fun _ _ taken => armed.next_iff taken⟩

end Runs

/-- A second wait with an earlier deadline. -/
theorem keventUntil_timer_armed_earlier :
    ∃ state : State (Fin 2) Kernel Pc, (system 0 (Fin 2)).Reach Apart state ∧
      pending 0 (state.thread 0) = some 10 ∧ pending 0 (state.thread 1) = some 5 ∧ Armed state := by
  obtain ⟨state, reached, checked⟩ := System.exists_reach_of_run (system 0 (Fin 2)) Apart
    [.thread (.call 0 (.keventUntil true 10)), .thread (.step 0 (.inl .go)),
      .thread (.call 1 (.keventUntil true 5)), .thread (.step 1 (.inl .go))]
    (fun state => decide (pending 0 (state.thread 0) = some 10 ∧ pending 0 (state.thread 1) = some 5))
    (by decide +kernel)
  obtain ⟨first, second⟩ := of_decide_eq_true checked
  exact ⟨state, reached, first, second, (keventUntil_timer_armed 0 reached).1⟩

/-- **A wait disturbs another one**: the second thread replaces the timer of the first by a later one. -/
theorem keventUntil_timer_disturbed :
    ¬ ∀ (Thread : Type) [DecidableEq Thread] [Fintype Thread] (now : ℤ) (state : State Thread Kernel Pc),
      (system now Thread).Reachable state → Armed state := by
  intro armed
  obtain ⟨state, reached, checked⟩ := System.exists_reachable_of_run (system 0 (Fin 2))
    [.thread (.call 0 (.keventUntil true 10)), .thread (.step 0 (.inl .go)),
      .thread (.call 1 (.keventUntil true 20)), .thread (.step 1 (.inl .go))]
    (fun state => decide (pending state.memory.now (state.thread 0) = some 10 ∧ state.memory.timer = some 20))
    (by decide +kernel)
  obtain ⟨waits, later⟩ := of_decide_eq_true checked
  obtain ⟨timer, there, early⟩ := armed _ _ state reached 0 10 waits
  rw [later] at there
  cases there
  exact absurd early (by decide)

end NovaSync.KeventTimers
