/-
**`kqueue_mutex_impl`: who retrieves the user event owns the mutex.**

The kqueue starts with its user event triggered, which is the free mutex; `unlock` triggers it again.
`lock` looks neither at what its `kevent` call returns nor at the event, and `try_lock` and `kevent_for`
take any event for the user event. The timers of system-clock deadlines are in the same kqueue.

* `Balanced` — the user event is pending, or one thread has retrieved it and not yet unlocked.
* `kqueueMutex_exclusion` — mutual exclusion, in the runs in which `lock` returns on the user event only
  and nobody takes a timer for it; `kqueueMutex_two_owners` is a `lock` that a signal interrupts.
-/

import NovaSync.Concurrency.Threads
import NovaSync.Detail.Kevent

set_option linter.unusedSectionVars false

namespace NovaSync.KqueueMutex

open Concurrency Detail

/-! ### The program -/

/-- Who calls `try_lock`, and so what follows when it fails: nothing, or the wait of `try_lock_for` or
`try_lock_until`. -/
inductive Caller
  | alone
  | waitFor
  | waitUntil (clock : Clock)
deriving DecidableEq, Repr

inductive Op
  | lock
  | tryLock
  | tryLockFor (positive : Bool)
  | tryLockUntil (clock : Clock)
  | unlock
deriving DecidableEq, Repr

/-- The next system call of a thread.

* `kevent`: the blocking `kevent` of `lock`; `tryKevent`: the `kevent` with a zero timeout of `try_lock`.
* `keventFor`, `keventUntil`: the waits of `try_lock_for` and `try_lock_until`.
* `owner`: outside all operations, after a successful acquisition; `unlock`: its `NOTE_TRIGGER`. -/
inductive Pc
  | idle
  | kevent
  | tryKevent (caller : Caller)
  | keventFor (point : KeventFor)
  | keventUntil (point : KeventUntil)
  | owner
  | unlock
deriving DecidableEq, Repr

/-- Where a failed `try_lock` goes on. -/
def tryFailed : Caller → Pc
  | .alone => .idle
  | .waitFor => .keventFor .wait
  | .waitUntil clock => .keventUntil (.start clock)

/-- Where a wait that has returned goes on: a failed one tries once more. -/
def waited (result : Bool) : Pc := if result then .owner else .tryKevent .alone

/-- Calls: `unlock` by the owner only, who does not lock again. Deadlines are on the system or the steady
clock. -/
def call : Op → Pc → Option Pc
  | .lock, .idle => some .kevent
  | .tryLock, .idle => some (.tryKevent .alone)
  | .tryLockFor positive, .idle => some (.tryKevent (if positive then .waitFor else .alone))
  | .tryLockUntil .other, .idle => none
  | .tryLockUntil clock, .idle => some (.tryKevent (.waitUntil clock))
  | .unlock, .owner => some .unlock
  | _, _ => none

/-- The next system call or clock test. -/
def step (choice : Choice ⊕ Kevent) (queue : Kqueue) : Pc → Option (Kqueue × Pc)
  | .kevent =>
      match choice with
      | .inr outcome => (queue.kevent false outcome).map (·, .owner)
      | .inl _ => none
  | .tryKevent caller =>
      match choice with
      | .inr outcome => (queue.kevent true outcome).map (·, match outcome with
          | .event _ => .owner
          | .interrupted | .expired | .failed => tryFailed caller)
      | .inl _ => none
  | .keventFor point => (point.step choice queue).map fun
      | (after, .inl next) => (after, .keventFor next)
      | (after, .inr result) => (after, waited result)
  | .keventUntil point => (point.step true choice queue).map fun
      | (after, .inl next) => (after, .keventUntil next)
      | (after, .inr result) => (after, waited result)
  | .unlock =>
      match choice with
      | .inl choice => ordinary choice (queue.trigger, .idle)
      | .inr _ => none
  | .idle | .owner => none

namespace Pc

/-- The thread is between a successful acquisition and its `unlock`. -/
def holds : Pc → Bool
  | .owner | .unlock => true
  | _ => false

/-- The thread has retrieved the user event and not yet triggered it again: it owns the mutex, or
`kevent_until` is about to return `true`. -/
def claims : Pc → Bool
  | .owner | .unlock | .keventUntil (.deleteTimer true) => true
  | _ => false

end Pc

/-- The mutex as a thread program; nobody sleeps on a futex. -/
def program : Program Kqueue Pc Op (Choice ⊕ Kevent) where
  idle := .idle
  call := call
  step := step
  wake := fun _ => none
  asleep := fun _ => false
  woken := id

theorem program_silent : program.Silent := fun _ => rfl

/-- The mutex used by the threads of `Thread`; its user event is added with `NOTE_TRIGGER`. -/
abbrev system (Thread : Type*) [DecidableEq Thread] [Fintype Thread] :
    System (State Thread Kqueue Pc) (Action Thread Op (Choice ⊕ Kevent)) :=
  program.system { triggered := true }

/-! ### What a step can do -/

/-- The call returns what its caller takes it for: `lock` the user event, `try_lock` and `kevent_for` no
timer. -/
def genuine (outcome : Kevent) : Pc → Bool
  | .kevent => outcome = .event .user
  | .tryKevent _ | .keventFor _ | .keventUntil (.steady _) => outcome ≠ .event .timer
  | _ => true

/-- **The effects of a step.** A thread moves on, takes the user event, or triggers it again. -/
inductive Effect (queue : Kqueue) (pc : Pc) : Kqueue → Pc → Prop
  | moves {after : Kqueue} {moved : Pc} : after.triggered = queue.triggered →
      moved.claims = pc.claims → Effect queue pc after moved
  | takes {after : Kqueue} {moved : Pc} : queue.triggered = true → after.triggered = false →
      pc.claims = false → moved.claims = true → Effect queue pc after moved
  | unlock : pc = .unlock → Effect queue pc queue.trigger .idle

theorem claims_tryFailed (caller : Caller) : (tryFailed caller).claims = false := by
  cases caller with
  | waitUntil clock => cases clock <;> rfl
  | _ => rfl

section Effects

variable {queue after : Kqueue} {moved : Pc}

theorem kevent_effect {choice : Choice ⊕ Kevent}
    (honest : ∀ outcome, choice = .inr outcome → genuine outcome .kevent = true)
    (stepped : step choice queue .kevent = some (after, moved)) :
    Effect queue .kevent after moved := by
  cases choice with
  | inl => cases stepped
  | inr outcome =>
    obtain ⟨called, retrieved, same⟩ := Option.map_eq_some_iff.mp stepped
    cases same
    rcases Kqueue.kevent_cases retrieved with ⟨-, pending, cleared⟩ | ⟨other, -⟩
    · exact .takes pending cleared rfl rfl
    · exact absurd (of_decide_eq_true (honest outcome rfl)) other

theorem tryKevent_effect {choice : Choice ⊕ Kevent} {caller : Caller}
    (honest : ∀ outcome, choice = .inr outcome → genuine outcome (.tryKevent caller) = true)
    (stepped : step choice queue (.tryKevent caller) = some (after, moved)) :
    Effect queue (.tryKevent caller) after moved := by
  cases choice with
  | inl => cases stepped
  | inr outcome =>
    obtain ⟨called, retrieved, same⟩ := Option.map_eq_some_iff.mp stepped
    have genuine := of_decide_eq_true (honest outcome rfl)
    cases same
    rcases Kqueue.kevent_cases retrieved with ⟨user, pending, cleared⟩ | ⟨other, left⟩
    · cases user
      exact .takes pending cleared rfl rfl
    · cases outcome with
      | event event =>
        cases event with
        | user => exact absurd rfl other
        | timer => exact absurd rfl genuine
      | interrupted | expired | failed => exact .moves left (claims_tryFailed caller)

theorem keventFor_effect {choice : Choice ⊕ Kevent} {point : KeventFor}
    (honest : ∀ outcome, choice = .inr outcome → genuine outcome (.keventFor point) = true)
    (stepped : step choice queue (.keventFor point) = some (after, moved)) :
    Effect queue (.keventFor point) after moved := by
  obtain ⟨⟨called, result⟩, waits, same⟩ := Option.map_eq_some_iff.mp stepped
  rcases KeventFor.step_cases waits with ⟨-, pending, cleared, rfl⟩ | ⟨timer, -⟩ | ⟨left, failed⟩
  · cases same
    exact .takes pending cleared rfl rfl
  · exact absurd rfl (of_decide_eq_true (honest _ timer))
  · cases result with
    | inl next =>
      cases same
      exact .moves left rfl
    | inr success =>
      cases same
      cases success with
      | false => exact .moves left rfl
      | true => exact absurd rfl failed

theorem keventUntil_effect {choice : Choice ⊕ Kevent} {point : KeventUntil}
    (honest : ∀ outcome, choice = .inr outcome → genuine outcome (.keventUntil point) = true)
    (stepped : step choice queue (.keventUntil point) = some (after, moved)) :
    Effect queue (.keventUntil point) after moved := by
  obtain ⟨⟨called, result⟩, waits, same⟩ := Option.map_eq_some_iff.mp stepped
  cases point with
  | addTimer =>
    rcases choice with (_ | _ | _ | _ | _) | outcome <;> cases waits <;> cases same <;>
      exact .moves rfl rfl
  | wait =>
    cases choice with
    | inl => cases waits
    | inr outcome =>
      obtain ⟨next, retrieved, rest⟩ := Option.map_eq_some_iff.mp waits
      cases rest
      rcases Kqueue.kevent_cases retrieved with ⟨user, pending, cleared⟩ | ⟨other, left⟩
      · cases user
        cases same
        exact .takes pending cleared rfl rfl
      · cases outcome with
        | event event =>
          cases event with
          | user => exact absurd rfl other
          | timer =>
            cases same
            exact .moves left rfl
        | interrupted | expired | failed =>
          cases same
          exact .moves left rfl
  | deleteTimer success =>
    cases choice with
    | inr => cases waits
    | inl choice =>
      cases (ordinary_eq_some waits).2
      cases same
      cases success <;> exact .moves rfl rfl
  | deadline =>
    rcases choice with (_ | _ | _ | _ | _) | outcome <;> cases waits <;> cases same <;>
      exact .moves rfl rfl
  | steady point =>
    obtain ⟨⟨next, value⟩, inner, rest⟩ := Option.map_eq_some_iff.mp waits
    rcases KeventFor.step_cases inner with ⟨-, pending, cleared, rfl⟩ | ⟨timer, -⟩ | ⟨left, failed⟩
    · cases rest
      cases same
      exact .takes pending cleared rfl rfl
    · exact absurd rfl (of_decide_eq_true (honest _ timer))
    · rcases value with next | _ | _
      · cases rest
        cases same
        exact .moves left rfl
      · cases rest
        cases same
        exact .moves left rfl
      · exact absurd rfl failed

/-- **Every step that returns what it is taken for has one of the effects.** -/
theorem step_effect {choice : Choice ⊕ Kevent} {pc : Pc}
    (honest : ∀ outcome, choice = .inr outcome → genuine outcome pc = true)
    (stepped : step choice queue pc = some (after, moved)) : Effect queue pc after moved := by
  cases pc with
  | idle | owner => cases stepped
  | kevent => exact kevent_effect honest stepped
  | tryKevent caller => exact tryKevent_effect honest stepped
  | keventFor point => exact keventFor_effect honest stepped
  | keventUntil point => exact keventUntil_effect honest stepped
  | unlock =>
    cases choice with
    | inr => cases stepped
    | inl choice =>
      cases (ordinary_eq_some stepped).2
      exact .unlock rfl

end Effects

theorem call_claims {op : Op} {pc moved : Pc} (called : call op pc = some moved) :
    moved.claims = pc.claims := by
  unfold call at called
  split at called
  all_goals
    cases called
    try rfl

/-! ### Mutual exclusion -/

variable {Thread : Type*} [DecidableEq Thread] [Fintype Thread]

/-- **No call returns what its caller does not look for.** -/
def Genuine (state : State Thread Kqueue Pc) : Action Thread Op (Choice ⊕ Kevent) → Prop
  | .step t (.inr outcome) => genuine outcome (state.thread t) = true
  | _ => True

instance (state : State Thread Kqueue Pc) :
    @DecidablePred (Action Thread Op (Choice ⊕ Kevent)) (Genuine state)
  | .step _ (.inr _) => inferInstanceAs (Decidable (_ = true))
  | .step _ (.inl _) | .call _ _ | .wake _ _ => inferInstanceAs (Decidable True)

/-- **The user event is pending, or one thread has it.** -/
def Balanced (state : State Thread Kqueue Pc) : Prop :=
  state.memory.triggered.toNat + count Pc.claims state.thread = 1

theorem Balanced.effect {state : State Thread Kqueue Pc} (balanced : Balanced state) {t : Thread}
    {queue : Kqueue} {moved : Pc} (effect : Effect state.memory (state.thread t) queue moved) :
    Balanced ⟨queue, Function.update state.thread t moved⟩ := by
  unfold Balanced at balanced ⊢
  cases effect with
  | moves triggered claims =>
    rw [triggered, count_update_same claims]
    exact balanced
  | takes pending cleared outside inside =>
    rw [cleared, count_update_enter outside inside, Bool.toNat_false]
    rw [pending, Bool.toNat_true] at balanced
    omega
  | unlock here =>
    have inside : (state.thread t).claims = true := by
      rw [here]
      rfl
    have fewer : count Pc.claims (Function.update state.thread t .idle) + 1 =
        count Pc.claims state.thread := count_update_leave inside rfl
    show 1 + count Pc.claims (Function.update state.thread t .idle) = 1
    omega

theorem balanced_of_reach {state : State Thread Kqueue Pc}
    (reached : (system Thread).Reach Genuine state) : Balanced state := by
  refine reached.invariant ?_ fun state action after _ balanced met taken => ?_
  · have none : count Pc.claims (system Thread).start.thread = 0 := count_const rfl
    unfold Balanced
    rw [none]
    rfl
  · rcases program_silent.next_cases taken with ⟨t, op, moved, -, called, rfl⟩ |
      ⟨t, choice, queue, moved, rfl, stepped, rfl⟩
    · exact balanced.effect (.moves rfl (call_claims called))
    · refine balanced.effect (step_effect (fun outcome chosen => ?_) stepped)
      rw [chosen] at met
      exact met

theorem claims_of_holds {pc : Pc} (holds : pc.holds = true) : pc.claims = true := by
  cases pc with
  | owner | unlock => rfl
  | _ => cases holds

/-- **Mutual exclusion**, in runs in which no `lock` returns without the user event and nobody takes a
timer for it. -/
theorem kqueueMutex_exclusion {state : State Thread Kqueue Pc}
    (reached : (system Thread).Reach Genuine state) {t u : Thread}
    (first : (state.thread t).holds = true) (second : (state.thread u).holds = true) : t = u := by
  have balanced := balanced_of_reach reached
  unfold Balanced at balanced
  exact eq_of_count_le_one (show count Pc.claims state.thread ≤ 1 by omega) (claims_of_holds first)
    (claims_of_holds second)

/-- Thread 0 owns the mutex, and thread 1 waits for a system-clock deadline whose timer is armed. -/
theorem kqueueMutex_exclusion_contended :
    ∃ state, (system (Fin 2)).Reach Genuine state ∧ state.memory.timer = true ∧
      (state.thread 0).holds = true ∧ ∀ u, (state.thread u).holds = true → u = 0 := by
  obtain ⟨state, reached, owned⟩ := System.exists_reach_of_run (system (Fin 2)) Genuine
    [.call 0 .lock, .step 0 (.inr (.event .user)), .call 1 (.tryLockUntil .system),
      .step 1 (.inr .expired), .step 1 (.inl .go)]
    (fun state => state.memory.timer && (state.thread 0).holds) (by decide +kernel)
  obtain ⟨timer, holds⟩ := Bool.and_eq_true_iff.mp owned
  exact ⟨state, reached, timer, holds, fun u other => kqueueMutex_exclusion reached other holds⟩

/-- **A signal gives the mutex to a second owner.** Thread 0 owns it; the `kevent` of thread 1's `lock`
returns `EINTR`, and `lock` returns. -/
theorem kqueueMutex_two_owners :
    ¬ ∀ (Thread : Type) [DecidableEq Thread] [Fintype Thread] (state : State Thread Kqueue Pc)
      (t u : Thread), (system Thread).Reachable state → (state.thread t).holds = true →
        (state.thread u).holds = true → t = u := by
  intro exclusive
  obtain ⟨state, reached, owned⟩ := System.exists_reachable_of_run (system (Fin 2))
    [.call 0 .lock, .step 0 (.inr (.event .user)), .call 1 .lock, .step 1 (.inr .interrupted)]
    (fun state => (state.thread 0).holds && (state.thread 1).holds) (by decide +kernel)
  obtain ⟨first, second⟩ := Bool.and_eq_true_iff.mp owned
  exact absurd (exclusive _ _ 0 1 reached first second) (by decide)

end NovaSync.KqueueMutex
