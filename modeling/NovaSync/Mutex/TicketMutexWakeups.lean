/-
**`ticket_mutex`: who wakes the threads that sleep on `serving_ticket_`.**

A sleeper has gone to sleep on the value that `serving_ticket_` had at that moment; only the store of an
`unlock` changes it, and the `atomic_notify_all` that follows wakes everybody.

* `Announced` — the word that a thread sleeps on is still served, or the `unlock` that has stored the word
  now served has yet to notify.
* `ticketMutex_no_lost_wakeup` — nobody sleeps on in `lock_slow` with the ticket that is served, unless
  that `unlock` has yet to notify. The counters may wrap.
* `ticketMutex_waits_for_holder` — `try_lock_until` sleeps on a mutex that is taken, in the runs in which
  it loads `serving_ticket_` from a mutex that is taken; `ticketMutex_sleeps_on_free` is an `unlock`
  between the failed `try_lock` and that load.
-/

import NovaSync.Mutex.TicketMutexSafety

set_option linter.unusedSectionVars false

namespace NovaSync.TicketMutex

open Concurrency Detail Futex

variable {config : Config} {Thread : Type*} [DecidableEq Thread] [Fintype Thread]

/-- The word that a thread sleeps on. -/
def Pc.sleepsOn : Pc → Option Word
  | .wait _ current .asleep => some current.1
  | .waitUntil serving .asleep => some serving
  | _ => none

/-- The word that an `unlock` is about to store. -/
def Pc.stores? : Pc → Option Word
  | .unlockStore _ next => some next
  | _ => none

/-! ### The pending notification -/

/-- Beside the state: the word that each thread's last `unlock` has stored. -/
def noteStore (state : State Thread Memory Pc) (action : Action Thread Op Choice)
    (_after : State Thread Memory Pc) (stored : Thread → Word) : Thread → Word :=
  match action with
  | .step t _ => (state.thread t).stores?.elim stored (Function.update stored t)
  | .call _ _ | .wake _ _ => stored

/-- The mutex with the history of its stores. -/
abbrev recorded (config : Config) (Thread : Type*) [DecidableEq Thread] [Fintype Thread] :
    System (State Thread Memory Pc × (Thread → Word)) (Action Thread Op Choice) :=
  (system config Thread).record (fun _ => 0) noteStore

/-- A load that looks for the ticket of the thread leaves the word, and the thread awake. -/
theorem served_awake {memory after : Memory} {moved : Pc} {ticket : Ticket}
    {otherwise : memory.serving ≠ ticket.word → Pc}
    (goes : ∀ other, (otherwise other).sleepsOn = none)
    (result : (after, moved) = served memory ticket otherwise) :
    after.serving = memory.serving ∧ moved.sleepsOn = none := by
  unfold served at result
  split at result
  · cases result
    exact ⟨rfl, rfl⟩
  · rename_i other
    cases result
    exact ⟨rfl, goes other⟩

theorem sleepsOn_spinLoop (ticket : Ticket) (state : ExponentialBackoff) :
    (spinLoop ticket state).sleepsOn = none := by
  unfold spinLoop
  split <;> rfl

theorem sleepsOn_lockSlow (ticket : Ticket) : (lockSlow config ticket).sleepsOn = none := by
  unfold lockSlow
  split
  · exact sleepsOn_spinLoop ticket {}
  · rfl

/-- **What a step does to the served word**: it is the store of an `unlock`, or it leaves the word, and
whoever falls asleep sleeps on it. -/
theorem step_serving {choice : Choice} {memory after : Memory} {pc moved : Pc}
    (stepped : step config choice memory pc = some (after, moved)) :
    (∃ next, pc.stores? = some next ∧ after.serving = next ∧ moved = .notify) ∨
      pc.stores? = none ∧ after.serving = memory.serving ∧
        ∀ word, moved.sleepsOn = some word → memory.serving = word := by
  cases pc with
  | idle | owner | notify => cases stepped
  | unlockStore number next =>
    cases (ordinary_eq_some stepped).2
    exact Or.inl ⟨next, rfl, rfl, rfl⟩
  | wait ticket current point =>
    obtain ⟨next | returned, waited, result⟩ := Option.map_eq_some_iff.mp stepped <;> cases result
    · refine Or.inr ⟨rfl, rfl, fun word sleeps => ?_⟩
      cases next with
      | asleep =>
        cases sleeps
        exact WaitPoint.step_asleep waited
      | _ => cases sleeps
    · exact Or.inr ⟨rfl, rfl, nofun⟩
  | waitUntil serving point =>
    obtain ⟨next | returned, waited, result⟩ := Option.map_eq_some_iff.mp stepped <;> cases result
    · refine Or.inr ⟨rfl, rfl, fun word sleeps => ?_⟩
      cases next with
      | asleep =>
        cases sleeps
        exact WaitPoint.step_asleep waited
      | _ => cases sleeps
    · exact Or.inr ⟨rfl, rfl, nofun⟩
  | fetchAdd | tryLoad | untilLoad | unlockLoad =>
    cases (ordinary_eq_some stepped).2
    exact Or.inr ⟨rfl, rfl, nofun⟩
  | firstLoad ticket =>
    obtain ⟨same, awake⟩ := served_awake (fun _ => sleepsOn_lockSlow ticket)
      (ordinary_eq_some stepped).2
    exact Or.inr ⟨rfl, same, fun word sleeps => absurd (awake.symm.trans sleeps) nofun⟩
  | spin ticket state =>
    obtain ⟨same, awake⟩ := served_awake (fun _ => sleepsOn_spinLoop ticket state.run)
      (ordinary_eq_some stepped).2
    exact Or.inr ⟨rfl, same, fun word sleeps => absurd (awake.symm.trans sleeps) nofun⟩
  | slowLoad ticket =>
    obtain ⟨same, awake⟩ := served_awake (fun _ => rfl) (ordinary_eq_some stepped).2
    exact Or.inr ⟨rfl, same, fun word sleeps => absurd (awake.symm.trans sleeps) nofun⟩
  | tryCas timed current mark =>
    rcases compareExchangeStrong_cases stepped with ⟨-, -, result⟩ | ⟨-, result⟩ <;> cases result
    · exact Or.inr ⟨rfl, rfl, nofun⟩
    · cases timed <;> exact Or.inr ⟨rfl, rfl, nofun⟩
  | deadline serving =>
    cases choice with
    | go | expired =>
      cases stepped
      exact Or.inr ⟨rfl, rfl, nofun⟩
    | _ => cases stepped

/-- A call leaves the thread awake, and is no call of a thread that notifies. -/
theorem call_awake {op : Op} {pc moved : Pc} (called : call op pc = some moved) :
    pc ≠ .notify ∧ moved.sleepsOn = none := by
  cases pc with
  | idle | owner => cases op <;> cases called <;> exact ⟨nofun, rfl⟩
  | _ => cases op <;> cases called

theorem sleepsOn_of_asleep {pc : Pc} {word : Word} (sleeps : pc.sleepsOn = some word) :
    pc.asleep = true := by
  cases pc with
  | wait ticket current point | waitUntil serving point =>
    cases point with
    | asleep => rfl
    | _ => cases sleeps
  | _ => cases sleeps

theorem awake_woken (pc : Pc) : pc.woken.asleep = false := by
  cases pc with
  | wait ticket current point | waitUntil serving point => cases point <;> rfl
  | _ => rfl

/-- **The word slept on is still served, or its change has yet to be announced.** -/
def Announced (state : State Thread Memory Pc) (stored : Thread → Word) : Prop :=
  ∀ t word, (state.thread t).sleepsOn = some word → state.memory.serving = word ∨
    ∃ u, state.thread u = .notify ∧ stored u = state.memory.serving

section Announced

variable {state : State Thread Memory Pc} {stored : Thread → Word} {t : Thread} {memory : Memory}
  {moved : Pc}

/-- A move that leaves the served word, by a thread that is not about to notify. -/
theorem Announced.move (announced : Announced state stored) (source : state.thread t ≠ .notify)
    (same : memory.serving = state.memory.serving)
    (sleeps : ∀ word, moved.sleepsOn = some word → state.memory.serving = word) :
    Announced ⟨memory, Function.update state.thread t moved⟩ stored := by
  intro u word there
  simp only at there ⊢
  rw [same]
  rcases update_cases Pc.sleepsOn there with ⟨-, here⟩ | ⟨-, before⟩
  · exact Or.inl (sleeps word here)
  · rcases announced u word before with still | ⟨v, notifies, last⟩
    · exact Or.inl still
    · have other : v ≠ t := by
        rintro rfl
        exact source notifies
      exact Or.inr ⟨v, by rw [Function.update_of_ne other]; exact notifies, last⟩

/-- A store announces itself. -/
theorem announced_store {next : Word} (served : memory.serving = next) :
    Announced ⟨memory, Function.update state.thread t .notify⟩ (Function.update stored t next) := by
  intro u word _
  refine Or.inr ⟨t, by simp only [Function.update_self], ?_⟩
  rw [Function.update_self, served]

/-- **One step of the mutex.** -/
theorem Announced.next {action : Action Thread Op Choice} {after : State Thread Memory Pc}
    (announced : Announced state stored)
    (taken : (system config Thread).next state action = some after) :
    Announced after (noteStore state action after stored) := by
  rcases Program.next_cases taken with ⟨t, op, moved, rfl, called, rfl⟩ |
    ⟨t, choice, memory, moved, rfl, stepped, rfl⟩ |
    ⟨t, target, kind, moved, others, rfl, issued, -, rfl, woken⟩
  · obtain ⟨source, awake⟩ := call_awake called
    exact announced.move source rfl fun word sleeps => absurd (awake.symm.trans sleeps) nofun
  · have source : state.thread t ≠ .notify := by
      intro notifies
      rw [notifies] at stepped
      cases stepped
    rcases step_serving stepped with ⟨word, stores, served, rfl⟩ | ⟨keeps, same, sleeps⟩
    · simp only [noteStore, stores, Option.elim_some]
      exact announced_store served
    · simp only [noteStore, keeps, Option.elim_none]
      exact announced.move source same sleeps
  · obtain ⟨notifies, rfl⟩ := wake_notify issued
    rcases woken with ⟨-, rfl⟩ | ⟨one, -⟩ | ⟨one, -⟩
    · -- `atomic_notify_all` leaves nobody asleep
      intro u word there
      have asleep := (ne_of_update Pc.asleep rfl (sleepsOn_of_asleep there)).2
      have awake := (program config).asleep_wakeEvery awake_woken state.thread u
      exact absurd asleep (Bool.eq_false_iff.mp awake)
    · rw [notifies, one] at issued
      cases issued
    · rw [notifies, one] at issued
      cases issued

end Announced

theorem announced_of_reachable {state : State Thread Memory Pc} {stored : Thread → Word}
    (reached : (recorded config Thread).Reachable (state, stored)) : Announced state stored := by
  refine reached.invariant (P := fun here => Announced here.1 here.2) nofun ?_
  intro here action after _ announced _ taken
  obtain ⟨next, moves, rfl⟩ := Option.map_eq_some_iff.mp taken
  exact announced.next moves

/-- **`lock` loses no wakeup.** A thread that sleeps in `lock_slow` with the ticket that is served is
about to be woken: the `unlock` that has stored the served ticket has yet to execute its
`atomic_notify_all`. -/
theorem ticketMutex_no_lost_wakeup {state : State Thread Memory Pc} {stored : Thread → Word}
    (reached : (recorded config Thread).Reachable (state, stored)) {t : Thread} {ticket : Ticket}
    {current : {current : Word // current ≠ ticket.word}}
    (sleeping : state.thread t = .wait ticket current .asleep)
    (turn : state.memory.serving = ticket.word) :
    ∃ u, state.thread u = .notify ∧ stored u = state.memory.serving := by
  have sleeps : (state.thread t).sleepsOn = some current.1 := by
    rw [sleeping]
    rfl
  rcases announced_of_reachable reached t current.1 sleeps with still | announced
  · exact absurd (still.symm.trans turn) current.2
  · exact announced

/-- Thread 1 sleeps with ticket 1, which thread 0 has stored and not yet announced. -/
theorem ticketMutex_no_lost_wakeup_stored :
    ∃ (state : State (Fin 2) Memory Pc) (stored : Fin 2 → Word),
      (recorded ⟨false⟩ (Fin 2)).Reachable (state, stored) ∧
      state.thread 1 = .wait ⟨1, 1⟩ ⟨0, by decide⟩ .asleep ∧ state.memory.serving = 1 ∧
      ∃ u, state.thread u = .notify ∧ stored u = state.memory.serving := by
  obtain ⟨⟨state, stored⟩, reached, slept⟩ := System.exists_reachable_of_run
    (recorded ⟨false⟩ (Fin 2))
    [.call 0 .lock, .step 0 .go, .step 0 .go, .call 1 .lock, .step 1 .go, .step 1 .go, .step 1 .go,
      .step 1 .go, .step 1 .go, .call 0 .unlock, .step 0 .go, .step 0 .go]
    (fun here => decide (here.1.thread 1 = .wait ⟨1, 1⟩ ⟨0, by decide⟩ .asleep ∧
      here.1.memory.serving = 1))
    (by decide +kernel)
  obtain ⟨sleeping, turn⟩ := of_decide_eq_true slept
  exact ⟨state, stored, reached, sleeping, turn, ticketMutex_no_lost_wakeup reached sleeping turn⟩

/-! ### Waiting for a holder -/

/-- The value of `serving_ticket_` that a thread of `try_lock_until` has loaded, to wait for its
change. -/
def Pc.awaits? : Pc → Option Word
  | .deadline serving | .waitUntil serving _ => some serving
  | _ => none

/-- The value at which the next step makes the two counters equal: a ticket is issued as number
`2 ^ 32` behind the served one, or the last ticket is given up. -/
def levels? (memory : Memory) : Pc → Option Word
  | .fetchAdd => if memory.next + 1 = memory.serving then some memory.serving else none
  | .tryCas _ current _ =>
      if memory.next = current ∧ current + 1 = memory.serving then some memory.serving else none
  | .unlockStore _ next => if next = memory.next then some next else none
  | _ => none

/-- **The mutex is taken when `try_lock_until` loads `serving_ticket_`**, and the counters do not become
equal at a value that a thread has loaded before and still waits on, which takes a whole turn of one of
them. -/
def Taken (state : State Thread Memory Pc) (t : Thread) : Prop :=
  (state.thread t = .untilLoad → state.memory.next ≠ state.memory.serving) ∧
    ∀ u, (levels? state.memory (state.thread t)).isSome →
      (state.thread u).awaits? ≠ levels? state.memory (state.thread t)

instance (state : State Thread Memory Pc) : DecidablePred (Taken state) :=
  fun _ => inferInstanceAs (Decidable (_ ∧ _))

/-- **What a step does to the counters and to what its thread waits for.** -/
structure Levels (memory : Memory) (pc : Pc) (after : Memory) (moved : Pc) : Prop where
  level : after.next = after.serving → levels? memory pc = some after.serving ∨
    after.next = memory.next ∧ after.serving = memory.serving
  awaits : ∀ word, moved.awaits? = some word →
    pc.awaits? = some word ∨ pc = .untilLoad ∧ memory.serving = word

/-- Most steps leave the counters and wait for nothing new. -/
theorem levels_of_same {memory after : Memory} {pc moved : Pc} (next : after.next = memory.next)
    (serving : after.serving = memory.serving)
    (awaits : ∀ word, moved.awaits? = some word → pc.awaits? = some word) :
    Levels memory pc after moved :=
  ⟨fun _ => Or.inr ⟨next, serving⟩, fun word there => Or.inl (awaits word there)⟩

theorem awaits_spinLoop (ticket : Ticket) (state : ExponentialBackoff) :
    (spinLoop ticket state).awaits? = none := by
  unfold spinLoop
  split <;> rfl

theorem awaits_lockSlow (ticket : Ticket) : (lockSlow config ticket).awaits? = none := by
  unfold lockSlow
  split
  · exact awaits_spinLoop ticket {}
  · rfl

theorem levels_of_served {memory after : Memory} {pc moved : Pc} {ticket : Ticket}
    {otherwise : memory.serving ≠ ticket.word → Pc}
    (goes : ∀ other, (otherwise other).awaits? = none)
    (result : (after, moved) = served memory ticket otherwise) : Levels memory pc after moved := by
  unfold served at result
  split at result
  · cases result
    exact levels_of_same rfl rfl nofun
  · rename_i other
    cases result
    refine levels_of_same rfl rfl fun word there => ?_
    rw [goes other] at there
    cases there

theorem step_levels {choice : Choice} {memory after : Memory} {pc moved : Pc}
    (stepped : step config choice memory pc = some (after, moved)) : Levels memory pc after moved := by
  cases pc with
  | idle | owner | notify => cases stepped
  | fetchAdd =>
    cases (ordinary_eq_some stepped).2
    exact ⟨fun level => Or.inl (if_pos level), nofun⟩
  | firstLoad ticket =>
    exact levels_of_served (fun _ => awaits_lockSlow ticket) (ordinary_eq_some stepped).2
  | spin ticket state =>
    exact levels_of_served (fun _ => awaits_spinLoop ticket state.run) (ordinary_eq_some stepped).2
  | slowLoad ticket => exact levels_of_served (fun _ => rfl) (ordinary_eq_some stepped).2
  | wait ticket current point =>
    obtain ⟨next | returned, -, result⟩ := Option.map_eq_some_iff.mp stepped <;> cases result <;>
      exact levels_of_same rfl rfl nofun
  | tryLoad | unlockLoad =>
    cases (ordinary_eq_some stepped).2
    exact levels_of_same rfl rfl nofun
  | tryCas timed current mark =>
    rcases compareExchangeStrong_cases stepped with ⟨-, same, result⟩ | ⟨-, result⟩ <;> cases result
    · exact ⟨fun level => Or.inl (if_pos ⟨same, level⟩), nofun⟩
    · cases timed <;> exact levels_of_same rfl rfl nofun
  | untilLoad =>
    cases (ordinary_eq_some stepped).2
    refine ⟨fun _ => Or.inr ⟨rfl, rfl⟩, fun word there => Or.inr ⟨rfl, ?_⟩⟩
    cases there
    rfl
  | deadline serving =>
    cases choice with
    | go =>
      cases stepped
      exact levels_of_same rfl rfl fun _ there => there
    | expired =>
      cases stepped
      exact levels_of_same rfl rfl nofun
    | _ => cases stepped
  | waitUntil serving point =>
    obtain ⟨next | returned, -, result⟩ := Option.map_eq_some_iff.mp stepped <;> cases result
    · exact levels_of_same rfl rfl fun _ there => there
    · exact levels_of_same rfl rfl nofun
  | unlockStore number next =>
    cases (ordinary_eq_some stepped).2
    exact ⟨fun level => Or.inl (if_pos level.symm), nofun⟩

/-- **A mutex that is waited for is taken.** -/
def Waited (state : State Thread Memory Pc) : Prop :=
  ∀ t, (state.thread t).awaits? = some state.memory.serving →
    state.memory.next ≠ state.memory.serving

theorem Waited.step {state : State Thread Memory Pc} (waited : Waited state) {t : Thread}
    (met : Taken state t) {memory : Memory} {moved : Pc}
    (levels : Levels state.memory (state.thread t) memory moved) :
    Waited ⟨memory, Function.update state.thread t moved⟩ := by
  intro u there level
  simp only at there level
  rcases levels.level level with raised | ⟨next, serving⟩
  · -- the step makes the counters equal: nobody waits on that value, and a load makes nothing equal
    have nobody : ∀ v, (state.thread v).awaits? ≠ some memory.serving := by
      intro v
      rw [← raised]
      exact met.2 v (by rw [raised]; rfl)
    rcases update_cases Pc.awaits? there with ⟨-, here⟩ | ⟨-, before⟩
    · rcases levels.awaits _ here with same | ⟨loads, -⟩
      · exact nobody t same
      · rw [loads] at raised
        cases raised
    · exact nobody u before
  · rw [next, serving] at level
    rw [serving] at there
    rcases update_cases Pc.awaits? there with ⟨-, here⟩ | ⟨-, before⟩
    · rcases levels.awaits _ here with same | ⟨loads, -⟩
      · exact waited t same level
      · exact met.1 loads level
    · exact waited u before level

theorem awaits_woken (pc : Pc) : pc.woken.awaits? = pc.awaits? := by
  cases pc <;> rfl

theorem call_awaits {op : Op} {pc moved : Pc} (called : call op pc = some moved) :
    moved.awaits? = pc.awaits? := by
  cases pc with
  | idle | owner => cases op <;> cases called <;> rfl
  | _ => cases op <;> cases called

theorem waited_of_reach {state : State Thread Memory Pc}
    (reached : (system config Thread).Reach (OnStep Taken) state) : Waited state := by
  refine reached.invariant nofun fun state action after _ waited met taken => ?_
  rcases Program.next_cases taken with ⟨t, op, moved, -, called, rfl⟩ |
    ⟨t, choice, memory, moved, rfl, stepped, rfl⟩ |
    ⟨t, target, kind, moved, others, -, issued, woken, rfl, -⟩
  · intro u there
    rw [apply_update (call_awaits called) u] at there
    exact waited u there
  · exact waited.step met (step_levels stepped)
  · obtain ⟨here, rfl⟩ := wake_notify issued
    intro u there
    rw [woken.apply_update_eq (f := Pc.awaits?) (fun pc _ => awaits_woken pc) (by rw [here]; rfl) u]
      at there
    exact waited u there

/-- **`try_lock_until` sleeps on a mutex that is taken**, in the runs in which the mutex is taken when it
loads `serving_ticket_`: while `serving_ticket_` is the value it sleeps on, some ticket has been issued
and not been given up. -/
theorem ticketMutex_waits_for_holder {state : State Thread Memory Pc}
    (reached : (system config Thread).Reach (OnStep Taken) state) {t : Thread} {serving : Word}
    (sleeping : state.thread t = .waitUntil serving .asleep)
    (still : state.memory.serving = serving) : state.memory.next ≠ state.memory.serving := by
  refine waited_of_reach reached t ?_
  rw [sleeping, still]
  rfl

/-- Thread 0 owns the mutex and thread 1 sleeps in `try_lock_until`. -/
theorem ticketMutex_waits_for_holder_owned :
    ∃ state : State (Fin 2) Memory Pc, (system ⟨false⟩ (Fin 2)).Reach (OnStep Taken) state ∧
      state.thread 1 = .waitUntil 0 .asleep ∧ state.memory.serving = 0 ∧
      state.memory.next ≠ state.memory.serving := by
  obtain ⟨state, reached, slept⟩ := System.exists_reach_of_run (system ⟨false⟩ (Fin 2))
    (OnStep Taken)
    [.call 0 .lock, .step 0 .go, .step 0 .go, .call 1 .tryLockUntil, .step 1 .go, .step 1 .go,
      .step 1 .go, .step 1 .go, .step 1 .go, .step 1 .go]
    (fun state => decide (state.thread 1 = .waitUntil 0 .asleep ∧ state.memory.serving = 0))
    (by decide +kernel)
  obtain ⟨sleeping, still⟩ := of_decide_eq_true slept
  exact ⟨state, reached, sleeping, still, ticketMutex_waits_for_holder reached sleeping still⟩

/-- **`try_lock_until` sleeps on a free mutex.** Its `try_lock` fails while thread 0 owns the mutex;
thread 0 unlocks; it loads the value that is served now, and sleeps on it. -/
theorem ticketMutex_sleeps_on_free :
    ¬ ∀ (config : Config) (Thread : Type) [DecidableEq Thread] [Fintype Thread]
      (state : State Thread Memory Pc) (t : Thread) (serving : Word),
      (system config Thread).Reachable state → state.thread t = .waitUntil serving .asleep →
        state.memory.serving = serving → state.memory.next ≠ state.memory.serving := by
  intro taken
  obtain ⟨state, reached, slept⟩ := System.exists_reachable_of_run (system ⟨false⟩ (Fin 2))
    [.call 0 .lock, .step 0 .go, .step 0 .go, .call 1 .tryLockUntil, .step 1 .go, .step 1 .go,
      .call 0 .unlock, .step 0 .go, .step 0 .go, .wake 0 none,
      .step 1 .go, .step 1 .go, .step 1 .go, .step 1 .go]
    (fun state => decide (state.thread 1 = .waitUntil 1 .asleep ∧ state.memory.serving = 1 ∧
      state.memory.next = state.memory.serving))
    (by decide +kernel)
  obtain ⟨sleeping, still, free⟩ := of_decide_eq_true slept
  exact taken _ _ state 1 1 reached sleeping still free

end NovaSync.TicketMutex
