/-
**`native_manual_reset_event` on Apple platforms.**

The event is an `EVFILT_USER` filter of a kqueue, without `EV_CLEAR`: it is set once `NOTE_TRIGGER` has triggered
it, and stays so whoever retrieves it. `reset` deletes the filter and adds it again; in between there is nothing
to trigger. A wait with a system-clock deadline arms a timer of the same kqueue, which the descriptor's readers
cannot tell from the event.

* `keventUntil_readable` — a wait for the kqueue that reports success has retrieved the event or the timer.
* `kqueueManualResetEvent_moments` — what a call reports was the case at a moment of the call: the event was set, or
  had no filter, for a `signal`, not set for a `reset` and a failed attempt, and set for a successful wait, or else
  a timer was armed.
* `kqueueManualResetEvent_untimed` — without system-clock deadlines a successful wait has found the event set.
* `kqueueManualResetEvent_no_lost_signal` — after a `signal` during which, and since which, nobody has been
  resetting the event is set, and every waiter comes to see it. -/

import NovaSync.Concurrency.Moments
import NovaSync.Detail.Kevent

set_option linter.unusedSectionVars false

namespace NovaSync.NativeManualResetEventKqueue

open Concurrency Detail

/-! ### The program -/

/-- The user filter, and whether it is triggered; whether a timer is armed. -/
structure Memory where
  user : Option Bool := some false
  timer : Bool := false
deriving DecidableEq, Repr

namespace Memory

def isSet (memory : Memory) : Bool := memory.user = some true

/-- `NOTE_TRIGGER`, which fails where there is no filter. -/
def trigger (memory : Memory) : Memory := { memory with user := memory.user.map fun _ => true }

/-- `EV_DELETE` of the filter. -/
def delete (memory : Memory) : Memory := { memory with user := none }

/-- `EV_ADD` of the filter, which leaves one that is there as it is. -/
def add (memory : Memory) : Memory := { memory with user := some (memory.user.getD false) }

/-- The kqueue as its readers find it. -/
def queue (memory : Memory) : Kqueue := { triggered := memory.isSet, timer := memory.timer }

/-- What a `kevent` call leaves: a retrieval takes the timer, which has `EV_ONESHOT`, and leaves the event. -/
def leave (memory : Memory) (queue : Kqueue) : Memory := { memory with timer := queue.timer }

end Memory

inductive Op
  | signal
  | reset
  | tryWait
  | wait
  | tryWaitFor (positive : Bool)
  | tryWaitUntil (clock : Clock)
deriving DecidableEq, Repr

/-- What the last call has done: nothing; `signal`; `reset`; a wait that has returned `true`, or has found nothing
to read; a wait that has returned `false` after a timeout or an error. -/
inductive Report
  | nothing
  | signalled
  | cleared
  | found (set : Bool)
  | gaveUp
deriving DecidableEq, Repr

/-- The next system call of a thread.

* `outside report`: none.
* `trigger`: the `kevent` of `signal`; `delete`, `add`: the two of `reset`.
* `check again`: the `try_poll` of `try_wait`, which `wait` calls until it returns `true`; `poll`: its `poll_intr`.
* `rest`: the clock reading before `try_wait_until` calls `try_wait_for`.
* `waitFor point`, `waitUntil point`: inside `kevent_for` and `kevent_until`. -/
inductive Pc
  | outside (report : Report)
  | trigger
  | delete
  | add
  | check (again : Bool)
  | poll
  | rest
  | waitFor (point : KeventFor)
  | waitUntil (point : KeventUntil)
deriving DecidableEq, Repr

/-- How the environment resolves a step: it takes its ordinary course, and a call that waits finds the event; it
finds the timer; it returns `EINTR`, its timeout has passed, or it fails. -/
inductive Answer
  | go
  | timer
  | interrupted
  | expired
  | failed
deriving DecidableEq, Repr

namespace Answer

def choice : Answer → Choice
  | .go => .go
  | .timer => .spurious
  | .interrupted => .interrupted
  | .expired => .expired
  | .failed => .failed

def kevent : Answer → Kevent
  | .go => .event .user
  | .timer => .event .timer
  | .interrupted => .interrupted
  | .expired => .expired
  | .failed => .failed

end Answer

/-- `try_wait_for`. -/
def tryWaitFor (positive : Bool) : Pc := if positive then .waitFor .wait else .check false

def begin : Op → Pc
  | .signal => .trigger
  | .reset => .delete
  | .tryWait => .check false
  | .wait => .check true
  | .tryWaitFor positive => tryWaitFor positive
  | .tryWaitUntil .other => .rest
  | .tryWaitUntil clock => .waitUntil (KeventUntil.start clock)

def call (op : Op) : Pc → Option Pc
  | .outside _ => some (begin op)
  | _ => none

/-- `poll` of the kqueue's descriptor without waiting: readable for the event or for a timer that has fired. -/
def tryPoll (answer : Answer) (memory : Memory) : Option (Option Bool) :=
  match answer with
  | .go => some (some memory.isSet)
  | .timer => if memory.timer then some (some true) else none
  | .interrupted | .failed => some none
  | .expired => none

/-- A point of `kevent_for` or `kevent_until` is a test or a `kevent` call. -/
def resolve {Result : Type*} (answer : Answer) (point : Choice ⊕ Kevent → Option Result) : Option Result :=
  (point (.inr answer.kevent)).orElse fun _ => point (.inl answer.choice)

/-- The next system call, as the environment resolves it. -/
def step (answer : Answer) (memory : Memory) : Pc → Option (Memory × Pc)
  | .outside _ => none
  | .trigger => ordinary answer.choice (memory.trigger, .outside .signalled)
  | .delete => ordinary answer.choice (memory.delete, .add)
  | .add => ordinary answer.choice (memory.add, .outside .cleared)
  | .check again => (tryPoll answer memory).map fun
      | some true => (memory, .outside (.found true))
      | some false => (memory, if again then .poll else .outside (.found false))
      | none => (memory, if again then .poll else .outside .gaveUp)
  | .poll =>
      match answer with
      | .go => if memory.isSet then some (memory, .check true) else none
      | .timer => if memory.timer then some (memory, .check true) else none
      | .interrupted => some (memory, .poll)
      | .failed => some (memory, .check true)
      | .expired => none
  | .rest =>
      match answer with
      | .go => some (memory, tryWaitFor true)
      | .expired => some (memory, tryWaitFor false)
      | .timer | .interrupted | .failed => none
  | .waitFor point => (resolve answer (point.step · memory.queue)).map fun
      | (queue, .inl next) => (memory.leave queue, .waitFor next)
      | (queue, .inr fired) => (memory.leave queue, if fired then .check false else .outside .gaveUp)
  | .waitUntil point => (resolve answer (point.step true · memory.queue)).map fun
      | (queue, .inl next) => (memory.leave queue, .waitUntil next)
      | (queue, .inr fired) => (memory.leave queue, .outside (if fired then .found true else .gaveUp))

/-- The event as a thread program; nobody sleeps on a futex. -/
def program : Program Memory Pc Op Answer where
  idle := .outside .nothing
  call := call
  step := step
  wake := fun _ => none
  asleep := fun _ => false
  woken := id

theorem program_silent : program.Silent := fun _ => rfl

/-- The event is set; it is not; it is set or a timer is armed; a timer is armed; it is set or has no filter; it
has no filter; somebody is resetting it. -/
inductive Moment
  | set
  | clear
  | readable
  | armed
  | triggered
  | absent
  | resetting
deriving DecidableEq, Repr

/-- The kqueue is as the moment has it. -/
def Moment.at (memory : Memory) : Moment → Bool
  | .set => memory.isSet
  | .clear => !memory.isSet
  | .readable => memory.isSet || memory.timer
  | .armed => memory.timer
  | .triggered => memory.isSet || memory.user.isNone
  | .absent => memory.user.isNone
  | .resetting => false

namespace Pc

/-- The thread is inside `reset`. -/
def resets : Pc → Bool
  | .delete | .add => true
  | _ => false

/-- The thread is inside a wait that has not timed out. -/
def waits : Pc → Bool
  | .waitUntil (.deleteTimer fired) => fired
  | .check _ | .poll | .rest | .waitFor _ | .waitUntil _ => true
  | .outside _ | .trigger | .delete | .add => false

end Pc

def holds {Thread : Type*} [Fintype Thread] (moment : Moment) (state : State Thread Memory Pc) : Bool :=
  moment.at state.memory || decide (moment = .resetting ∧ ∃ t, (state.thread t).resets = true)

/-- The event used by the threads of `Thread`, beside the moments of their calls. -/
abbrev watched (initiallySet : Bool) (Thread : Type*) [DecidableEq Thread] [Fintype Thread] :
    System (State Thread Memory Pc × (Thread → Moment → Bool)) (Action Thread Op Answer) :=
  program.watched { user := some initiallySet } holds

/-- What a report tells of the event. -/
def Report.Tells (report : Report) (moment : Moment) : Prop :=
  match report with
  | .signalled => moment = .triggered
  | .found true => moment = .readable
  | .cleared | .found false => moment = .clear
  | .nothing | .gaveUp => False

/-- The thread reports the moment, or will. -/
def Pc.Owes (pc : Pc) (moment : Moment) : Prop :=
  match pc with
  | .outside report => report.Tells moment
  | .add => moment = .clear
  | .waitUntil (.deleteTimer true) => moment = .readable
  | _ => False

/-! ### What a wait retrieves -/

/-- Something is there to be retrieved. -/
def readable (queue : Kqueue) : Bool := queue.triggered || queue.timer

theorem readable_of_retrieve {queue after : Kqueue} {event : Event} (retrieved : queue.retrieve event = some after) :
    readable queue = true := by
  unfold readable
  cases event with
  | user =>
    simp only [Kqueue.retrieve] at retrieved
    split at retrieved
    · rename_i pending
      rw [pending, Bool.true_or]
    · cases retrieved
  | timer =>
    simp only [Kqueue.retrieve] at retrieved
    split at retrieved
    · rename_i armed
      rw [armed, Bool.or_true]
    · cases retrieved

/-- **`kevent_for` returns `true` for something retrieved.** -/
theorem keventFor_readable {choice : Choice ⊕ Kevent} {queue after : Kqueue} {point : KeventFor}
    (stepped : point.step choice queue = some (after, .inr true)) : readable queue = true := by
  cases choice with
  | inl choice =>
    obtain ⟨next, tested, same⟩ := Option.map_eq_some_iff.mp stepped
    cases same
    cases point with
    | wait => cases tested
    | remaining => cases choice <;> cases tested
  | inr outcome =>
    cases point with
    | remaining => cases stepped
    | wait =>
      obtain ⟨called, retrieved, same⟩ := Option.map_eq_some_iff.mp stepped
      cases outcome with
      | event event => exact readable_of_retrieve retrieved
      | interrupted | expired | failed => cases same

/-- **A wait for the kqueue that reports success has retrieved something**, at once or before it deletes the
timer. -/
theorem keventUntil_readable {choice : Choice ⊕ Kevent} {queue after : Kqueue} {point : KeventUntil}
    {result : KeventUntil ⊕ Bool} (stepped : point.step true choice queue = some (after, result))
    (success : result = .inr true ∨ result = .inl (.deleteTimer true)) :
    point = .deleteTimer true ∨ readable queue = true := by
  cases point with
  | addTimer =>
    rcases choice with (_ | _ | _ | _ | _) | _ <;> cases stepped <;> rcases success with same | same <;> cases same
  | wait =>
    rcases choice with _ | outcome
    · cases stepped
    · obtain ⟨called, retrieved, same⟩ := Option.map_eq_some_iff.mp stepped
      cases outcome with
      | event event => exact Or.inr (readable_of_retrieve retrieved)
      | interrupted | expired | failed =>
        cases same
        rcases success with same | same <;> cases same
  | deleteTimer fired =>
    rcases choice with choice | _
    · cases (ordinary_eq_some stepped).2
      rcases success with same | same
      · cases same
        exact Or.inl rfl
      · cases same
    · cases stepped
  | deadline =>
    rcases choice with (_ | _ | _ | _ | _) | _ <;> cases stepped <;> rcases success with same | same <;> cases same
  | steady point =>
    obtain ⟨⟨called, next | fired⟩, waited, same⟩ := Option.map_eq_some_iff.mp stepped
    · cases same
      rcases success with same | same <;> cases same
    · cases fired with
      | true => exact Or.inr (keventFor_readable waited)
      | false =>
        cases same
        rcases success with same | same <;> cases same

/-- A point is resolved as a test or as a `kevent` call. -/
theorem resolve_cases {Result : Type*} {answer : Answer} {point : Choice ⊕ Kevent → Option Result} {result : Result}
    (resolved : resolve answer point = some result) : ∃ choice, point choice = some result := by
  unfold resolve at resolved
  cases called : point (.inr answer.kevent) with
  | some value =>
    rw [called] at resolved
    cases resolved
    exact ⟨_, called⟩
  | none =>
    rw [called] at resolved
    exact ⟨_, resolved⟩

/-! ### What a step can do -/

/-- **The effects of a step.** A thread moves on, and may come to owe what is the case; the event is triggered; its
filter is deleted, or added. -/
inductive Effect (memory : Memory) (pc : Pc) : Memory → Pc → Prop
  | moves (queue : Kqueue) {after : Pc} : pc.resets = false → after.resets = false →
      (∀ moment, after.Owes moment → pc.Owes moment ∨ moment.at memory = true) →
      (after = .outside .signalled → False) → Effect memory pc (memory.leave queue) after
  | triggers : pc = .trigger → Effect memory pc memory.trigger (.outside .signalled)
  | deletes : pc = .delete → Effect memory pc memory.delete .add
  | adds : pc = .add → Effect memory pc memory.add (.outside .cleared)

/-- A thread that comes to owe nothing. -/
theorem Effect.quiet {memory : Memory} {pc after : Pc} (queue : Kqueue) (before : pc.resets = false)
    (moved : after.resets = false) (silent : ∀ moment, ¬ after.Owes moment) :
    Effect memory pc (memory.leave queue) after :=
  .moves queue before moved (fun moment owes => absurd owes (silent moment))
    fun signalled => silent .triggered (by rw [signalled]; rfl)

/-- The outcomes of a `try_poll`. -/
theorem tryPoll_cases {answer : Answer} {memory : Memory} {polled : Option Bool}
    (performed : tryPoll answer memory = some polled) :
    polled = some true ∧ Moment.at memory .readable = true ∨ polled = some false ∧ Moment.at memory .clear = true ∨
      polled = none := by
  cases answer with
  | go =>
    cases performed
    cases set : memory.isSet with
    | true => exact Or.inl ⟨rfl, by simp [Moment.at, set]⟩
    | false => exact Or.inr (Or.inl ⟨rfl, by simp [Moment.at, set]⟩)
  | timer =>
    simp only [tryPoll] at performed
    split at performed
    · rename_i armed
      cases performed
      exact Or.inl ⟨rfl, by simp [Moment.at, armed]⟩
    · cases performed
  | interrupted | failed =>
    cases performed
    exact Or.inr (Or.inr rfl)
  | expired => cases performed

theorem tryWaitFor_silent (positive : Bool) :
    (tryWaitFor positive).resets = false ∧ ∀ moment, ¬ (tryWaitFor positive).Owes moment := by
  cases positive <;> exact ⟨rfl, fun _ => id⟩

theorem step_effect {answer : Answer} {memory after : Memory} {pc moved : Pc}
    (stepped : step answer memory pc = some (after, moved)) : Effect memory pc after moved := by
  cases pc with
  | outside report => cases stepped
  | trigger =>
    cases (ordinary_eq_some stepped).2
    exact .triggers rfl
  | delete =>
    cases (ordinary_eq_some stepped).2
    exact .deletes rfl
  | add =>
    cases (ordinary_eq_some stepped).2
    exact .adds rfl
  | check again =>
    obtain ⟨polled, performed, result⟩ := Option.map_eq_some_iff.mp stepped
    rcases tryPoll_cases performed with ⟨rfl, there⟩ | ⟨rfl, clear⟩ | rfl <;> cases result
    · refine .moves memory.queue rfl rfl (fun moment owes => Or.inr ?_) nofun
      rw [show moment = .readable from owes]
      exact there
    · cases again with
      | true => exact .quiet memory.queue rfl rfl fun _ => id
      | false =>
        refine .moves memory.queue rfl rfl (fun moment owes => Or.inr ?_) nofun
        rw [show moment = .clear from owes]
        exact clear
    · cases again <;> exact .quiet memory.queue rfl rfl fun _ => id
  | poll =>
    cases answer with
    | go | timer =>
      simp only [step] at stepped
      split at stepped
      · cases stepped
        exact .quiet memory.queue rfl rfl fun _ => id
      · cases stepped
    | interrupted | failed =>
      cases stepped
      exact .quiet memory.queue rfl rfl fun _ => id
    | expired => cases stepped
  | rest =>
    cases answer with
    | go | expired =>
      cases stepped
      exact .quiet memory.queue rfl (tryWaitFor_silent _).1 (tryWaitFor_silent _).2
    | timer | interrupted | failed => cases stepped
  | waitFor point =>
    obtain ⟨⟨queue, next | fired⟩, -, result⟩ := Option.map_eq_some_iff.mp stepped <;> cases result
    · exact .quiet queue rfl rfl fun _ => id
    · cases fired <;> exact .quiet queue rfl rfl fun _ => id
  | waitUntil point =>
    obtain ⟨⟨queue, result⟩, resolved, same⟩ := Option.map_eq_some_iff.mp stepped
    obtain ⟨choice, waited⟩ := resolve_cases resolved
    have found : result = .inr true ∨ result = .inl (.deleteTimer true) →
        (Pc.waitUntil point).Owes .readable ∨ Moment.at memory .readable = true := by
      intro success
      rcases keventUntil_readable waited success with rfl | there
      · exact Or.inl rfl
      · exact Or.inr there
    rcases result with next | fired
    · cases same
      refine .moves queue rfl rfl (fun moment owes => ?_) nofun
      cases next with
      | deleteTimer success =>
        cases success with
        | true =>
          rw [show moment = .readable from owes]
          exact found (Or.inr rfl)
        | false => exact owes.elim
      | addTimer | wait | deadline | steady => exact owes.elim
    · cases same
      cases fired with
      | true =>
        refine .moves queue rfl rfl (fun moment owes => ?_) nofun
        rw [show moment = .readable from owes]
        exact found (Or.inl rfl)
      | false => exact .quiet queue rfl rfl fun _ => id

theorem call_begins {op : Op} {pc moved : Pc} (called : call op pc = some moved) :
    pc ≠ .add ∧ moved ≠ .outside .signalled ∧ ∀ moment, ¬ moved.Owes moment := by
  have begun : begin op ≠ .outside .signalled ∧ ∀ moment, ¬ (begin op).Owes moment := by
    cases op with
    | tryWaitFor positive => cases positive <;> exact ⟨nofun, fun _ => id⟩
    | tryWaitUntil clock => cases clock <;> exact ⟨nofun, fun _ => id⟩
    | signal | reset | tryWait | wait => exact ⟨nofun, fun _ => id⟩
  cases pc with
  | outside report =>
    cases called
    exact ⟨nofun, begun⟩
  | trigger | delete | add | check | poll | rest | waitFor | waitUntil => cases called

/-! ### Moments -/

section Runs

variable {initiallySet : Bool} {Thread : Type*} [DecidableEq Thread] [Fintype Thread] {state : State Thread Memory Pc}
  {past : Thread → Moment → Bool}

theorem holds_of_at {moment : Moment} (here : moment.at state.memory = true) : holds moment state = true := by
  rw [holds, here, Bool.true_or]

theorem past_of_reported (reached : (watched initiallySet Thread).Reachable (state, past)) {t : Thread}
    {moment : Moment} (owes : (state.thread t).Owes moment) : past t moment = true := by
  have calls : ∀ op pc moved moment, program.call op pc = some moved → ¬ moved.Owes moment :=
    fun op pc moved moment called => (call_begins called).2.2 moment
  have steps : ∀ (state : State Thread Memory Pc) t answer memory moved moment,
      program.step answer state.memory (state.thread t) = some (memory, moved) → moved.Owes moment →
      (state.thread t).Owes moment ∨ holds moment state = true ∨
        holds moment ⟨memory, Function.update state.thread t moved⟩ = true := by
    intro state t answer memory moved moment stepped owes
    cases step_effect stepped with
    | moves _ _ _ found _ => exact (found moment owes).imp_right fun here => Or.inl (holds_of_at here)
    | triggers =>
      refine Or.inr (Or.inr (holds_of_at ?_))
      rw [show moment = .triggered from owes]
      cases state.memory with
      | mk user timer => cases user <;> rfl
    | deletes =>
      refine Or.inr (Or.inr (holds_of_at ?_))
      rw [show moment = .clear from owes]
      rfl
    | adds here =>
      rw [here]
      exact Or.inl owes
  exact Program.past_of_owed program_silent (fun _ => id) calls steps reached owes

/-- **What a call reports was the case at a moment of the call.** The event was set, or had no filter, for a
`signal`; it was not set for a `reset` and for an attempt that has found nothing; for a successful wait it was
set, or a timer was armed. -/
theorem kqueueManualResetEvent_moments (reached : (watched initiallySet Thread).Reachable (state, past)) {t : Thread} :
    (state.thread t = .outside .signalled → past t .set = true ∨ past t .absent = true) ∧
      (state.thread t = .outside .cleared ∨ state.thread t = .outside (.found false) → past t .clear = true) ∧
      (state.thread t = .outside (.found true) → past t .set = true ∨ past t .armed = true) := by
  refine ⟨fun here => ?_, fun here => ?_, fun here => ?_⟩
  · have owes : (state.thread t).Owes .triggered := by
      rw [here]
      rfl
    exact Program.past_or (fun state => by simp [holds, Moment.at]) reached (past_of_reported reached owes)
  · have owes : (state.thread t).Owes .clear := by
      rcases here with here | here <;>
        · rw [here]
          rfl
    exact past_of_reported reached owes
  · have owes : (state.thread t).Owes .readable := by
      rw [here]
      rfl
    exact Program.past_or (fun state => by simp [holds, Moment.at]) reached (past_of_reported reached owes)

/-- Thread 0 has armed a timer, which the `try_wait` of thread 1 takes for the event. -/
theorem kqueueManualResetEvent_moments_timer :
    ∃ (state : State (Fin 2) Memory Pc) (past : Fin 2 → Moment → Bool),
      (watched false (Fin 2)).Reachable (state, past) ∧ state.thread 1 = .outside (.found true) ∧
      past 1 .set = false ∧ (past 1 .set = true ∨ past 1 .armed = true) := by
  obtain ⟨⟨state, past⟩, reached, computed⟩ := System.exists_reachable_of_run (watched false (Fin 2))
    [.call 0 (.tryWaitUntil .system), .step 0 .go, .call 1 .tryWait, .step 1 .timer]
    (fun here => decide (here.1.thread 1 = .outside (.found true) ∧ here.2 1 .set = false)) (by decide +kernel)
  obtain ⟨returned, unset⟩ := of_decide_eq_true computed
  exact ⟨state, past, reached, returned, unset, (kqueueManualResetEvent_moments reached).2.2 returned⟩

/-! ### Without system-clock deadlines -/

/-- Nobody waits with a system-clock deadline. -/
def Untimed (_here : State Thread Memory Pc × (Thread → Moment → Bool)) (action : Action Thread Op Answer) : Prop :=
  ∀ t, action ≠ .call t (.tryWaitUntil .system)

/-- The thread is where a timer is armed. -/
def Pc.arms : Pc → Bool
  | .waitUntil .addTimer => true
  | _ => false

theorem timer_of_kevent {queue after : Kqueue} {timeout : Bool} {outcome : Kevent}
    (called : queue.kevent timeout outcome = some after) (armed : after.timer = true) : queue.timer = true := by
  cases outcome with
  | event event =>
    cases event with
    | user | timer =>
      simp only [Kqueue.kevent, Kqueue.retrieve] at called
      split at called
      · cases called
        first
          | exact armed
          | cases armed
      · cases called
  | expired =>
    simp only [Kqueue.kevent] at called
    split at called
    · cases called
      exact armed
    · cases called
  | interrupted | failed =>
    cases called
    exact armed

theorem timer_of_keventFor {choice : Choice ⊕ Kevent} {queue after : Kqueue} {point : KeventFor}
    {result : KeventFor ⊕ Bool} (stepped : point.step choice queue = some (after, result))
    (armed : after.timer = true) : queue.timer = true := by
  cases choice with
  | inl choice =>
    obtain ⟨next, -, same⟩ := Option.map_eq_some_iff.mp stepped
    cases same
    exact armed
  | inr outcome =>
    cases point with
    | remaining => cases stepped
    | wait =>
      obtain ⟨called, retrieved, same⟩ := Option.map_eq_some_iff.mp stepped
      cases same
      exact timer_of_kevent retrieved armed

/-- Only the first point of `kevent_until` arms a timer. -/
theorem timer_of_keventUntil {choice : Choice ⊕ Kevent} {queue after : Kqueue} {point : KeventUntil}
    {result : KeventUntil ⊕ Bool} (stepped : point.step true choice queue = some (after, result))
    (elsewhere : point ≠ .addTimer) :
    (after.timer = true → queue.timer = true) ∧ result ≠ .inl .addTimer := by
  cases point with
  | addTimer => exact absurd rfl elsewhere
  | wait =>
    rcases choice with _ | outcome
    · cases stepped
    · obtain ⟨called, retrieved, same⟩ := Option.map_eq_some_iff.mp stepped
      cases same
      refine ⟨timer_of_kevent retrieved, ?_⟩
      rcases outcome with (_ | _) | _ | _ | _ <;> nofun
  | deleteTimer fired =>
    rcases choice with choice | _
    · cases (ordinary_eq_some stepped).2
      exact ⟨nofun, nofun⟩
    · cases stepped
  | deadline =>
    rcases choice with (_ | _ | _ | _ | _) | _ <;> cases stepped <;> exact ⟨id, nofun⟩
  | steady point =>
    obtain ⟨⟨called, next | fired⟩, waited, same⟩ := Option.map_eq_some_iff.mp stepped
    · cases same
      exact ⟨timer_of_keventFor waited, nofun⟩
    · cases fired <;> cases same <;> exact ⟨timer_of_keventFor waited, nofun⟩

theorem timer_of_step {answer : Answer} {memory after : Memory} {pc moved : Pc}
    (stepped : step answer memory pc = some (after, moved)) (elsewhere : pc.arms = false) :
    (after.timer = true → memory.timer = true) ∧ moved.arms = false := by
  cases pc with
  | outside report => cases stepped
  | trigger | delete | add =>
    cases (ordinary_eq_some stepped).2
    exact ⟨id, rfl⟩
  | check again =>
    obtain ⟨polled, performed, result⟩ := Option.map_eq_some_iff.mp stepped
    rcases tryPoll_cases performed with ⟨rfl, -⟩ | ⟨rfl, -⟩ | rfl <;> cases result <;> cases again <;> exact ⟨id, rfl⟩
  | poll =>
    cases answer with
    | go | timer =>
      simp only [step] at stepped
      split at stepped
      · cases stepped
        exact ⟨id, rfl⟩
      · cases stepped
    | interrupted | failed =>
      cases stepped
      exact ⟨id, rfl⟩
    | expired => cases stepped
  | rest =>
    cases answer with
    | go | expired =>
      cases stepped
      exact ⟨id, rfl⟩
    | timer | interrupted | failed => cases stepped
  | waitFor point =>
    obtain ⟨⟨queue, next | fired⟩, resolved, result⟩ := Option.map_eq_some_iff.mp stepped <;> cases result <;>
      obtain ⟨choice, waited⟩ := resolve_cases resolved
    · exact ⟨timer_of_keventFor waited, rfl⟩
    · refine ⟨timer_of_keventFor waited, ?_⟩
      cases fired <;> rfl
  | waitUntil point =>
    have later : point ≠ .addTimer := by
      rintro rfl
      cases elsewhere
    obtain ⟨⟨queue, result⟩, resolved, same⟩ := Option.map_eq_some_iff.mp stepped
    obtain ⟨choice, waited⟩ := resolve_cases resolved
    obtain ⟨armed, unarmed⟩ := timer_of_keventUntil waited later
    rcases result with next | fired <;> cases same
    · refine ⟨armed, ?_⟩
      cases next with
      | addTimer => exact absurd rfl unarmed
      | wait | deleteTimer | deadline | steady => rfl
    · exact ⟨armed, rfl⟩

/-- No timer is armed, and nobody is about to arm one. -/
structure Disarmed (here : State Thread Memory Pc × (Thread → Moment → Bool)) : Prop where
  timer : here.1.memory.timer = false
  threads : ∀ t, (here.1.thread t).arms = false

theorem disarmed_of_reach {here : State Thread Memory Pc × (Thread → Moment → Bool)}
    (reached : (watched initiallySet Thread).Reach Untimed here) : Disarmed here := by
  refine reached.invariant ⟨rfl, fun _ => rfl⟩ ?_
  rintro ⟨state, past⟩ action later - ⟨timer, threads⟩ untimed taken
  rcases program_silent.record_cases taken with ⟨t, op, moved, rfl, called, rfl⟩ |
    ⟨t, answer, memory, moved, rfl, stepped, rfl⟩
  · refine ⟨timer, fun u => ?_⟩
    by_cases same : u = t
    · simp only [same, Function.update_self]
      cases place : state.thread t with
      | outside report =>
        rw [place] at called
        cases called
        cases op with
        | tryWaitFor positive => cases positive <;> rfl
        | tryWaitUntil clock =>
          cases clock with
          | system => exact absurd rfl (untimed t)
          | steady | other => rfl
        | signal | reset | tryWait | wait => rfl
      | trigger | delete | add | check | poll | rest | waitFor | waitUntil =>
        rw [place] at called
        cases called
    · simp only [Function.update_of_ne same]
      exact threads u
  · obtain ⟨armed, unarmed⟩ := timer_of_step stepped (threads t)
    constructor
    · by_contra set
      rw [armed (eq_true_of_ne_false set)] at timer
      cases timer
    · intro u
      by_cases same : u = t
      · simp only [same, Function.update_self]
        exact unarmed
      · simp only [Function.update_of_ne same]
        exact threads u

/-- **Without system-clock deadlines a successful wait has found the event set.** -/
theorem kqueueManualResetEvent_untimed (reached : (watched initiallySet Thread).Reach Untimed (state, past))
    {t : Thread} (returned : state.thread t = .outside (.found true)) : past t .set = true := by
  rcases (kqueueManualResetEvent_moments reached.reachable).2.2 returned with set | armed
  · exact set
  · have never : ∀ here, (watched initiallySet Thread).Reach Untimed here → holds .armed here.1 = false := by
      intro here reached
      simp [holds, Moment.at, (disarmed_of_reach reached).timer]
    rw [Program.past_of_never never reached t] at armed
    cases armed

/-- A steady-clock deadline: thread 0 waits through `kevent_for`, which takes the event of thread 1. -/
theorem kqueueManualResetEvent_untimed_steady :
    ∃ (state : State (Fin 2) Memory Pc) (past : Fin 2 → Moment → Bool),
      (watched false (Fin 2)).Reach Untimed (state, past) ∧ state.thread 0 = .outside (.found true) ∧
      past 0 .set = true := by
  have begun : (watched false (Fin 2)).Reach Untimed (watched false (Fin 2)).start := .start
  have computed : ((watched false (Fin 2)).run (watched false (Fin 2)).start
      [.call 0 (.tryWaitUntil .steady), .step 0 .go, .step 0 .interrupted, .step 0 .go, .call 1 .signal, .step 1 .go,
        .step 0 .go]).any (fun here => decide (here.1.thread 0 = .outside (.found true))) = true := by
    decide +kernel
  obtain ⟨⟨state, past⟩, ran, returned⟩ := (Option.any_eq_true _ _).mp computed
  have reached : (watched false (Fin 2)).Reach Untimed (state, past) := by
    refine begun.run (fun here action member t => ?_) ran
    rintro rfl
    simp at member
  exact ⟨state, past, reached, of_decide_eq_true returned,
    kqueueManualResetEvent_untimed reached (of_decide_eq_true returned)⟩

/-! ### No signal is lost -/

/-- Without a filter somebody is about to add it. -/
def Restored (state : State Thread Memory Pc) : Prop :=
  state.memory.user = none → ∃ t, state.thread t = .add

theorem restored_of_reachable {here : State Thread Memory Pc × (Thread → Moment → Bool)}
    (reached : (watched initiallySet Thread).Reachable here) : Restored here.1 := by
  refine reached.invariant (P := fun here => Restored here.1) (fun gone => by cases gone) ?_
  rintro ⟨state, past⟩ action later - restored - taken
  rcases program_silent.record_cases taken with ⟨t, op, moved, -, called, rfl⟩ |
    ⟨t, answer, memory, moved, -, stepped, rfl⟩
  · exact fun gone => exists_update moved (call_begins called).1 (restored gone)
  · cases step_effect stepped with
    | moves queue before =>
      intro gone
      refine exists_update moved ?_ (restored gone)
      intro here
      rw [here] at before
      cases before
    | triggers here =>
      intro gone
      have absent : state.memory.user = none := Option.map_eq_none_iff.mp gone
      exact exists_update _ (by rw [here]; decide) (restored absent)
    | deletes => exact fun _ => ⟨t, Function.update_self ..⟩
    | adds => exact nofun

/-- Who has signalled while nobody was resetting finds the event set, as long as nobody has been. -/
def Kept (here : State Thread Memory Pc × (Thread → Moment → Bool)) : Prop :=
  ∀ t, here.1.thread t = .outside .signalled → here.2 t .resetting = false → here.1.memory.isSet = true

/-- While somebody is resetting, nobody's call has been free of it. -/
theorem resetting_of_resets {t : Thread} (reached : (watched initiallySet Thread).Reachable (state, past))
    (resets : (state.thread t).resets = true) (u : Thread) : past u .resetting = true := by
  refine Program.past_of_holds reached ?_ u
  simp only [holds, true_and, Bool.or_eq_true, decide_eq_true_eq]
  exact Or.inr ⟨t, resets⟩

theorem kept_of_reachable {here : State Thread Memory Pc × (Thread → Moment → Bool)}
    (reached : (watched initiallySet Thread).Reachable here) : Kept here := by
  refine reached.invariant (P := Kept) nofun ?_
  rintro ⟨state, past⟩ action later before kept - taken u returned never
  rcases program_silent.record_cases taken with ⟨t, op, moved, rfl, called, rfl⟩ |
    ⟨t, answer, memory, moved, rfl, stepped, rfl⟩
  · rcases update_cases id returned with ⟨-, here⟩ | ⟨other, there⟩
    · exact absurd here (call_begins called).2.1
    · have goesOn : Program.begins (.call t op : Action Thread Op Answer) u = false := decide_eq_false other
      exact kept u there (Program.past_of_noteMoments state goesOn never)
  · have earlier : past u .resetting = false := Program.past_of_noteMoments state rfl never
    have free : ∀ v, (state.thread v).resets = false := by
      intro v
      by_contra resets
      rw [resetting_of_resets before (eq_true_of_ne_false resets) u] at earlier
      cases earlier
    cases step_effect stepped with
    | moves queue _ _ _ silent =>
      rcases update_cases id returned with ⟨-, here⟩ | ⟨-, there⟩
      · exact (silent here).elim
      · exact kept u there earlier
    | triggers =>
      cases present : state.memory.user with
      | none =>
        obtain ⟨v, adding⟩ := restored_of_reachable before present
        have resets := free v
        rw [show state.thread v = .add from adding] at resets
        cases resets
      | some triggered => simp [Memory.trigger, Memory.isSet, present]
    | deletes here | adds here =>
      have resets := free t
      rw [here] at resets
      cases resets

theorem eq_of_isSet {memory : Memory} (set : memory.isSet = true) : ∃ timer, memory = ⟨some true, timer⟩ := by
  cases memory with
  | mk user timer =>
    have here : user = some true := of_decide_eq_true set
    rw [here]
    exact ⟨timer, rfl⟩

/-- **A wait that has not timed out comes to see the event set**, as long as it is set whenever the wait looks. -/
theorem waiter_comes {memory : Memory} {pc : Pc} (inside : pc.waits = true) (set : memory.isSet = true) :
    program.Comes .go Memory.isSet (· = .outside (.found true)) memory pc := by
  have check : ∀ (memory : Memory) (again : Bool), memory.isSet = true →
      program.Comes .go Memory.isSet (· = .outside (.found true)) memory (.check again) := by
    intro memory again set
    have stepped : program.step .go memory (.check again) = some (memory, .outside (.found true)) := by
      simp only [program, step, tryPoll, set, Option.map_some]
    exact Program.Comes.after stepped fun _ _ => .arrived rfl
  have waitFor : ∀ memory : Memory, memory.isSet = true →
      program.Comes .go Memory.isSet (· = .outside (.found true)) memory (.waitFor .wait) := by
    intro memory set
    obtain ⟨timer, rfl⟩ := eq_of_isSet set
    have stepped : program.step .go ⟨some true, timer⟩ (.waitFor .wait) =
        some (⟨some true, timer⟩, .check false) := rfl
    exact Program.Comes.after stepped fun later same => check later false (same.trans set)
  have steady : ∀ memory : Memory, memory.isSet = true →
      program.Comes .go Memory.isSet (· = .outside (.found true)) memory (.waitUntil (.steady .wait)) := by
    intro memory set
    obtain ⟨timer, rfl⟩ := eq_of_isSet set
    have stepped : program.step .go ⟨some true, timer⟩ (.waitUntil (.steady .wait)) =
        some (⟨some true, timer⟩, .outside (.found true)) := rfl
    exact Program.Comes.after stepped fun _ _ => .arrived rfl
  have fired : ∀ memory : Memory,
      program.Comes .go Memory.isSet (· = .outside (.found true)) memory (.waitUntil (.deleteTimer true)) := by
    intro memory
    have stepped : program.step .go memory (.waitUntil (.deleteTimer true)) =
        some ({ memory with timer := false }, .outside (.found true)) := rfl
    exact Program.Comes.after stepped fun _ _ => .arrived rfl
  have waitUntil : ∀ memory : Memory, memory.isSet = true →
      program.Comes .go Memory.isSet (· = .outside (.found true)) memory (.waitUntil .wait) := by
    intro memory set
    obtain ⟨timer, rfl⟩ := eq_of_isSet set
    have stepped : program.step .go ⟨some true, timer⟩ (.waitUntil .wait) =
        some (⟨some true, timer⟩, .waitUntil (.deleteTimer true)) := rfl
    exact Program.Comes.after stepped fun later _ => fired later
  cases pc with
  | outside | trigger | delete | add => cases inside
  | check again => exact check memory again set
  | poll =>
    have stepped : program.step .go memory .poll = some (memory, .check true) := if_pos set
    exact Program.Comes.after stepped fun later same => check later true (same.trans set)
  | rest =>
    have stepped : program.step .go memory .rest = some (memory, .waitFor .wait) := rfl
    exact Program.Comes.after stepped fun later same => waitFor later (same.trans set)
  | waitFor point =>
    cases point with
    | wait => exact waitFor memory set
    | remaining =>
      have stepped : program.step .go memory (.waitFor .remaining) = some (memory, .waitFor .wait) := rfl
      exact Program.Comes.after stepped fun later same => waitFor later (same.trans set)
  | waitUntil point =>
    cases point with
    | addTimer =>
      have stepped : program.step .go memory (.waitUntil .addTimer) =
          some ({ memory with timer := true }, .waitUntil .wait) := rfl
      exact Program.Comes.after stepped fun later same => waitUntil later (same.trans set)
    | wait => exact waitUntil memory set
    | deleteTimer success =>
      cases inside
      exact fired memory
    | deadline =>
      have stepped : program.step .go memory (.waitUntil .deadline) = some (memory, .waitUntil (.steady .wait)) := rfl
      exact Program.Comes.after stepped fun later same => steady later (same.trans set)
    | steady point =>
      cases point with
      | wait => exact steady memory set
      | remaining =>
        have stepped : program.step .go memory (.waitUntil (.steady .remaining)) =
            some (memory, .waitUntil (.steady .wait)) := rfl
        exact Program.Comes.after stepped fun later same => steady later (same.trans set)

/-- **No lost signal.** After a `signal` the event is set, unless somebody has been resetting it during that call or
since; and as long as it is set whenever they look, all waiters that have not timed out come to see it set. -/
theorem kqueueManualResetEvent_no_lost_signal (reached : (watched initiallySet Thread).Reachable (state, past))
    {t : Thread} (signalled : state.thread t = .outside .signalled) (never : past t .resetting = false) :
    state.memory.isSet = true ∧ ∀ u, (state.thread u).waits = true →
      program.Comes .go Memory.isSet (· = .outside (.found true)) state.memory (state.thread u) := by
  have set : state.memory.isSet = true := kept_of_reachable reached t signalled never
  exact ⟨set, fun u inside => waiter_comes inside set⟩

/-- Thread 1 has reset the event, thread 0 waits with a deadline, and thread 2 has signalled. -/
theorem kqueueManualResetEvent_no_lost_signal_reset :
    ∃ (state : State (Fin 3) Memory Pc) (past : Fin 3 → Moment → Bool),
      (watched true (Fin 3)).Reachable (state, past) ∧ (state.thread 0).waits = true ∧
      state.thread 2 = .outside .signalled ∧ state.memory.isSet = true ∧
      program.Comes .go Memory.isSet (· = .outside (.found true)) state.memory (state.thread 0) := by
  obtain ⟨⟨state, past⟩, reached, computed⟩ := System.exists_reachable_of_run (watched true (Fin 3))
    [.call 1 .reset, .step 1 .go, .call 0 (.tryWaitUntil .system), .step 0 .go, .step 1 .go, .call 2 .signal,
      .step 2 .go]
    (fun here => decide ((here.1.thread 0).waits = true ∧ here.1.thread 2 = .outside .signalled ∧
      here.2 2 .resetting = false)) (by decide +kernel)
  obtain ⟨waiting, signalled, never⟩ := of_decide_eq_true computed
  obtain ⟨set, comes⟩ := kqueueManualResetEvent_no_lost_signal reached signalled never
  exact ⟨state, past, reached, waiting, signalled, set, comes 0 waiting⟩

end Runs

end NovaSync.NativeManualResetEventKqueue
