/-
**`win32_event_mutex` and the asynchronous operations on it.**

The lock is a Win32 semaphore with one permit. Asynchronous waiters count themselves in `state_` and wait for an
auto-reset event, which `unlock` sets, after it has released the semaphore, if it finds a waiter. The wait of an
asynchronous operation takes the event: the notification is then with its handler, which tries to lock, or gives up
when it finds itself cancelled.

* `Represented` — one permit for the semaphore and the owners, and two in `state_` for each registration.
* `win32EventMutex_exclusion` — no two owners, no `unlock` is refused, and an attempt fails only while somebody else
  owns the mutex.
* `win32EventMutex_async_notified` — an armed operation is notified of a free mutex, if asynchronous operations
  register while the mutex is held or a notification is on its way, and no cancelled handler keeps the last one.
-/

import NovaSync.Concurrency.Threads
import NovaSync.Detail.Kevent

set_option linter.unusedSectionVars false

namespace NovaSync.Win32EventMutex

open Concurrency Detail

/-! ### The program -/

/-- The semaphore, `state_`, the event, and the history of the registrations made and given back. -/
structure Memory where
  available : Bool := true
  state : BitVec 32 := 0
  event : Bool := false
  added : ℕ := 0
  removed : ℕ := 0
deriving DecidableEq, Repr

inductive Op
  | lock
  | tryLock
  | tryLockFor (positive : Bool)
  | tryLockUntil (clock : Clock)
  | unlock
  | asyncAcquire
deriving DecidableEq, Repr

/-- The next system call or atomic operation of an actor.

* `idle`, `owner`: outside all operations.
* `lock`: `WaitForSingleObject` of the semaphore without a timeout; `tryLock`: the one without a wait.
* `relative`: the clock reading of `try_lock_until` on another clock; `deadline`: the comparison of the deadline
  with the clock; `timer`: the construction of the timer in `wait_handle_until`; `waitBoth`: its wait for the
  semaphore and the timer.
* `release`, `load`, `setEvent`: the three steps of `unlock`.
* `asyncStart`, `guardAdd`: the first `try_lock` of `async_acquire`, and the construction of its guard.
* `arming`, `armed`, `fired`: before the wait of an asynchronous operation is armed, while it is, and once it has
  taken the event.
* `asyncTry`, `drain`, `removeOwned`: `try_acquire` of the guard: `try_lock`, `consume_lock`, `remove_async_waiter`;
  `remove`: the `remove_async_waiter` of an operation that gives up. -/
inductive Pc
  | idle
  | owner
  | lock
  | tryLock
  | relative
  | deadline
  | timer
  | waitBoth
  | release
  | load
  | setEvent
  | asyncStart
  | guardAdd
  | arming
  | armed
  | fired
  | asyncTry
  | drain
  | removeOwned
  | remove
deriving DecidableEq, Repr

namespace Memory

/-- A wait that the semaphore satisfies. -/
def acquire (memory : Memory) : Memory := { memory with available := false }

/-- `ReleaseSemaphore`; the maximum is one. -/
def release (memory : Memory) : Memory := { memory with available := true }

/-- `add_async_waiter`. -/
def add (memory : Memory) : Memory := { memory with state := memory.state + 2, added := memory.added + 1 }

/-- `remove_async_waiter`. -/
def remove (memory : Memory) : Memory := { memory with state := memory.state - 2, removed := memory.removed + 1 }

end Memory

/-- `try_lock_for`. -/
def tryLockFor (positive : Bool) : Pc := if positive then .deadline else .tryLock

/-- `unlock` is for the owner, who calls nothing else. -/
def call : Op → Pc → Option Pc
  | .lock, .idle => some .lock
  | .tryLock, .idle => some .tryLock
  | .tryLockFor positive, .idle => some (tryLockFor positive)
  | .tryLockUntil .other, .idle => some .relative
  | .tryLockUntil _, .idle => some .deadline
  | .unlock, .owner => some .release
  | .asyncAcquire, .idle => some .asyncStart
  | _, _ => none

/-- A wait for the semaphore that does not block. -/
def attempt (memory : Memory) (succeeded failed : Pc) : Memory × Pc :=
  if memory.available then (memory.acquire, succeeded) else (memory, failed)

/-- The next step, as the environment resolves it. `interrupted` is a cancellation, which may find the operation
armed, or fired with its handler yet to run. -/
def step (choice : Choice) (memory : Memory) : Pc → Option (Memory × Pc)
  | .idle | .owner => none
  | .lock => if memory.available then ordinary choice (memory.acquire, .owner) else none
  | .tryLock => ordinary choice (attempt memory .owner .idle)
  | .relative =>
      match choice with
      | .go => some (memory, tryLockFor true)
      | .expired => some (memory, tryLockFor false)
      | _ => none
  | .deadline =>
      match choice with
      | .go => some (memory, .timer)
      | .expired => some (memory, .idle)
      | _ => none
  | .timer =>
      match choice with
      | .go => some (memory, .waitBoth)
      | .expired | .failed => some (memory, .idle)
      | _ => none
  | .waitBoth =>
      match choice with
      | .go => if memory.available then some (memory.acquire, .owner) else none
      | .expired => if memory.available then none else some (memory, .idle)
      | .failed => some (memory, .idle)
      | _ => none
  | .release => ordinary choice (memory.release, .load)
  | .load => ordinary choice (memory, if memory.state >>> 1 ≠ 0 then .setEvent else .idle)
  | .setEvent => ordinary choice ({ memory with event := true }, .idle)
  | .asyncStart => ordinary choice (attempt memory .owner .guardAdd)
  | .guardAdd => ordinary choice (memory.add, .arming)
  | .arming => ordinary choice (memory, .armed)
  | .armed =>
      match choice with
      | .go => if memory.event then some ({ memory with event := false }, .fired) else none
      | .interrupted => some (memory, .remove)
      | _ => none
  | .fired =>
      match choice with
      | .go => some (memory, .asyncTry)
      | .interrupted => some (memory, .remove)
      | _ => none
  | .asyncTry => ordinary choice (attempt memory .drain .arming)
  | .drain => ordinary choice ({ memory with event := false }, .removeOwned)
  | .removeOwned => ordinary choice (memory.remove, .owner)
  | .remove => ordinary choice (memory.remove, .idle)

/-- The mutex as a program of its actors; nobody sleeps on a futex. -/
def program : Program Memory Pc Op Choice where
  idle := .idle
  call := call
  step := step
  wake := fun _ => none
  asleep := fun _ => false
  woken := id

theorem program_silent : program.Silent := fun _ => rfl

/-- The mutex used by the actors of `Actor`. -/
abbrev system (Actor : Type*) [DecidableEq Actor] [Fintype Actor] :
    System (State Actor Memory Pc) (Action Actor Op Choice) :=
  program.system {}

namespace Pc

/-- The actor has the permit. -/
def owns : Pc → Bool
  | .owner | .release | .drain | .removeOwned => true
  | _ => false

/-- The actor is counted in `state_`. -/
def registered : Pc → Bool
  | .arming | .armed | .fired | .asyncTry | .drain | .removeOwned | .remove => true
  | _ => false

/-- The actor is an asynchronous operation that waits for the event. -/
def waits : Pc → Bool
  | .arming | .armed => true
  | _ => false

/-- The actor will set the event for whoever waits for it, or has taken it and will try to lock. -/
def serves : Pc → Bool
  | .load | .setEvent | .fired | .asyncTry => true
  | _ => false

/-- The actor is outside the operations of the mutex, or in an asynchronous one that is armed. -/
def outside : Pc → Bool
  | .idle | .owner | .armed => true
  | _ => false

end Pc

/-! ### What a step can do -/

/-- **The effects of a step.** An actor moves on; it acquires the permit, or releases it; it looks at `state_`, sets
the event, takes it, or drains it; it registers or gives a registration back; its handler drops the notification. -/
inductive Effect (memory : Memory) (pc : Pc) : Memory → Pc → Prop
  | moves {after : Pc} : after.owns = pc.owns → after.registered = pc.registered →
      (after.waits = true → pc.waits = true ∨ memory.available = false) →
      (pc.serves = true → after.serves = true ∨ memory.available = false) → Effect memory pc memory after
  | acquires {after : Pc} : memory.available = true → pc.owns = false → after.owns = true →
      after.registered = pc.registered → Effect memory pc memory.acquire after
  | releases : pc = .release → Effect memory pc memory.release .load
  | loads : pc = .load → Effect memory pc memory (if memory.state >>> 1 ≠ 0 then .setEvent else .idle)
  | sets : pc = .setEvent → Effect memory pc { memory with event := true } .idle
  | takes : pc = .armed → Effect memory pc { memory with event := false } .fired
  | drains : pc = .drain → Effect memory pc { memory with event := false } .removeOwned
  | adds : pc = .guardAdd → Effect memory pc memory.add .arming
  | removes {after : Pc} : pc.registered = true → after.registered = false → after.owns = pc.owns →
      pc.serves = false → after.waits = false → Effect memory pc memory.remove after
  | drops : pc = .fired → Effect memory pc memory .remove

/-- The effects of an attempt to lock. -/
theorem attempt_effect {memory after : Memory} {pc moved succeeded failed : Pc}
    (attempted : attempt memory succeeded failed = (after, moved)) (outside : pc.owns = false)
    (owns : succeeded.owns = true) (counted : succeeded.registered = pc.registered)
    (left : failed.owns = false) (counted' : failed.registered = pc.registered) : Effect memory pc after moved := by
  unfold attempt at attempted
  split at attempted
  · rename_i free
    cases attempted
    exact .acquires free outside owns counted
  · rename_i held
    have held : memory.available = false := Bool.eq_false_iff.mpr held
    cases attempted
    exact .moves (left.trans outside.symm) counted' (fun _ => Or.inr held) fun _ => Or.inr held

theorem step_effect {choice : Choice} {memory after : Memory} {pc moved : Pc}
    (stepped : step choice memory pc = some (after, moved)) : Effect memory pc after moved := by
  cases pc with
  | idle | owner => cases stepped
  | lock =>
    simp only [step] at stepped
    split at stepped
    · rename_i free
      cases (ordinary_eq_some stepped).2
      exact .acquires free rfl rfl rfl
    · cases stepped
  | tryLock | asyncStart | asyncTry =>
    exact attempt_effect (ordinary_eq_some stepped).2.symm rfl rfl rfl rfl rfl
  | relative | deadline | timer =>
    cases choice <;> cases stepped <;> exact .moves rfl rfl nofun nofun
  | waitBoth =>
    cases choice with
    | go | expired =>
      simp only [step] at stepped
      split at stepped
      · rename_i free
        cases stepped
        try exact .acquires free rfl rfl rfl
      · cases stepped
        try exact .moves rfl rfl nofun nofun
    | failed =>
      cases stepped
      exact .moves rfl rfl nofun nofun
    | spurious | interrupted => cases stepped
  | release =>
    cases (ordinary_eq_some stepped).2
    exact .releases rfl
  | load =>
    cases (ordinary_eq_some stepped).2
    exact .loads rfl
  | setEvent =>
    cases (ordinary_eq_some stepped).2
    exact .sets rfl
  | guardAdd =>
    cases (ordinary_eq_some stepped).2
    exact .adds rfl
  | arming =>
    cases (ordinary_eq_some stepped).2
    exact .moves rfl rfl (fun _ => Or.inl rfl) nofun
  | armed =>
    cases choice with
    | go =>
      simp only [step] at stepped
      split at stepped
      · cases stepped
        exact .takes rfl
      · cases stepped
    | interrupted =>
      cases stepped
      exact .moves rfl rfl nofun nofun
    | spurious | expired | failed => cases stepped
  | fired =>
    cases choice with
    | go =>
      cases stepped
      exact .moves rfl rfl nofun fun _ => Or.inl rfl
    | interrupted =>
      cases stepped
      exact .drops rfl
    | spurious | expired | failed => cases stepped
  | drain =>
    cases (ordinary_eq_some stepped).2
    exact .drains rfl
  | removeOwned | remove =>
    cases (ordinary_eq_some stepped).2
    exact .removes rfl rfl rfl rfl rfl

theorem call_standing {op : Op} {pc moved : Pc} (called : call op pc = some moved) :
    moved.owns = pc.owns ∧ moved.registered = pc.registered ∧ moved.waits = false ∧ pc.serves = false := by
  cases pc with
  | idle =>
    cases op with
    | tryLockFor positive =>
      cases called
      cases positive <;> exact ⟨rfl, rfl, rfl, rfl⟩
    | tryLockUntil clock =>
      cases clock <;> cases called <;> exact ⟨rfl, rfl, rfl, rfl⟩
    | lock | tryLock | asyncAcquire =>
      cases called
      exact ⟨rfl, rfl, rfl, rfl⟩
    | unlock => cases called
  | owner =>
    cases op with
    | unlock =>
      cases called
      exact ⟨rfl, rfl, rfl, rfl⟩
    | tryLockUntil clock => cases clock <;> cases called
    | lock | tryLock | tryLockFor | asyncAcquire => cases called
  | _ =>
    cases op with
    | tryLockUntil clock => cases clock <;> cases called
    | _ => cases called

/-! ### Permits and registrations -/

section Runs

variable {Actor : Type*} [DecidableEq Actor] [Fintype Actor] {state : State Actor Memory Pc} {t : Actor}
  {memory : Memory} {moved : Pc}

/-- The actors that have the permit. -/
def owners (state : State Actor Memory Pc) : ℕ := count Pc.owns state.thread

/-- The actors that are counted in `state_`. -/
def registrations (state : State Actor Memory Pc) : ℕ := count Pc.registered state.thread

/-- **One permit, and two for each registration.** -/
structure Represented (state : State Actor Memory Pc) : Prop where
  permit : state.memory.available.toNat + owners state = 1
  word : state.memory.state = BitVec.ofNat 32 (2 * registrations state)
  balance : state.memory.added = state.memory.removed + registrations state

theorem ofNat_add_two (n : ℕ) : BitVec.ofNat 32 (2 * n) + 2 = BitVec.ofNat 32 (2 * (n + 1)) := by
  rw [Nat.mul_succ, BitVec.ofNat_add]
  rfl

theorem ofNat_sub_two (n : ℕ) : BitVec.ofNat 32 (2 * (n + 1)) - 2 = BitVec.ofNat 32 (2 * n) := by
  rw [← ofNat_add_two, BitVec.add_sub_cancel]

/-- A step that keeps the standing of its actor and the three numbers. -/
theorem Represented.keep (represented : Represented state) (owns : moved.owns = (state.thread t).owns)
    (registered : moved.registered = (state.thread t).registered)
    (available : memory.available = state.memory.available)
    (word : memory.state = state.memory.state) (added : memory.added = state.memory.added)
    (removed : memory.removed = state.memory.removed) :
    Represented ⟨memory, Function.update state.thread t moved⟩ := by
  have owning : owners ⟨memory, Function.update state.thread t moved⟩ = owners state := count_update_same owns
  have counted : registrations ⟨memory, Function.update state.thread t moved⟩ = registrations state :=
    count_update_same registered
  constructor
  · rw [owning, available]
    exact represented.permit
  · rw [counted, word]
    exact represented.word
  · rw [counted, added, removed]
    exact represented.balance

theorem Represented.effect (represented : Represented state)
    (effect : Effect state.memory (state.thread t) memory moved) :
    Represented ⟨memory, Function.update state.thread t moved⟩ := by
  have permit := represented.permit
  unfold owners at permit
  cases effect with
  | moves owns registered => exact represented.keep owns registered rfl rfl rfl rfl
  | acquires free outside owns registered =>
    have counted :
        registrations ⟨state.memory.acquire, Function.update state.thread t moved⟩ = registrations state :=
      count_update_same registered
    refine ⟨?_, by rw [counted]; exact represented.word, by rw [counted]; exact represented.balance⟩
    have entered := count_update_enter outside owns
    rw [free, Bool.toNat_true] at permit
    simp only [owners, Memory.acquire, Bool.toNat_false]
    omega
  | releases here =>
    have counted :
        registrations ⟨state.memory.release, Function.update state.thread t .load⟩ = registrations state :=
      count_update_same (by rw [here]; rfl)
    refine ⟨?_, by rw [counted]; exact represented.word, by rw [counted]; exact represented.balance⟩
    have inside : (state.thread t).owns = true := by
      rw [here]
      rfl
    have positive : 0 < count Pc.owns state.thread := count_pos inside
    have left : count Pc.owns (Function.update state.thread t .load) + 1 = count Pc.owns state.thread :=
      count_update_leave inside rfl
    simp only [owners, Memory.release, Bool.toNat_true]
    omega
  | loads here =>
    refine represented.keep ?_ ?_ rfl rfl rfl rfl <;>
      · rw [here]
        split <;> rfl
  | sets here | takes here | drains here | drops here =>
    refine represented.keep ?_ ?_ rfl rfl rfl rfl <;>
      · rw [here]
        rfl
  | adds here =>
    have owning : owners ⟨state.memory.add, Function.update state.thread t .arming⟩ = owners state :=
      count_update_same (by rw [here]; rfl)
    have counted :
        registrations ⟨state.memory.add, Function.update state.thread t .arming⟩ = registrations state + 1 :=
      count_update_enter (by rw [here]; rfl) rfl
    refine ⟨by rw [owning]; exact represented.permit, ?_, ?_⟩
    · rw [counted, ← ofNat_add_two, ← represented.word]
      rfl
    · have balance := represented.balance
      rw [counted]
      simp only [Memory.add]
      omega
  | removes inside outside owns =>
    have owning : owners ⟨state.memory.remove, Function.update state.thread t moved⟩ = owners state :=
      count_update_same owns
    have counted : registrations ⟨state.memory.remove, Function.update state.thread t moved⟩ + 1 =
        registrations state := count_update_leave inside outside
    refine ⟨by rw [owning]; exact represented.permit, ?_, ?_⟩
    · have word := represented.word
      rw [← counted] at word
      show state.memory.state - 2 = BitVec.ofNat 32 (2 * registrations _)
      rw [word, ofNat_sub_two]
    · have balance := represented.balance
      show state.memory.added = state.memory.removed + 1 + registrations _
      omega

theorem represented_of_reachable (reached : (system Actor).Reachable state) : Represented state := by
  have start : Represented (system Actor).start := by
    have owning : owners (system Actor).start = 0 := count_const rfl
    have counted : registrations (system Actor).start = 0 := count_const rfl
    exact ⟨by rw [owning]; rfl, by rw [counted]; rfl, by rw [counted]; rfl⟩
  refine reached.invariant start fun state action after _ represented _ taken => ?_
  rcases program_silent.next_cases taken with ⟨t, op, moved, -, called, rfl⟩ |
    ⟨t, choice, memory, moved, -, stepped, rfl⟩
  · obtain ⟨owns, registered, -⟩ := call_standing called
    exact represented.keep owns registered rfl rfl rfl rfl
  · exact represented.effect (step_effect stepped)

/-- The permit is with an owner, or free. -/
theorem Represented.held_iff (represented : Represented state) :
    state.memory.available = false ↔ ∃ t, (state.thread t).owns = true := by
  have permit := represented.permit
  unfold owners at permit
  cases available : state.memory.available with
  | true =>
    rw [available, Bool.toNat_true] at permit
    refine ⟨nofun, fun ⟨t, owns⟩ => ?_⟩
    have positive := count_pos owns
    omega
  | false =>
    rw [available, Bool.toNat_false] at permit
    exact ⟨fun _ => exists_of_count_pos (by omega), fun _ => rfl⟩

/-- The actor is at a `try_lock`: its own, the first one of `async_acquire`, or that of a guard's `try_acquire`. -/
def Pc.attempts : Pc → Bool
  | .tryLock | .asyncStart | .asyncTry => true
  | _ => false

/-- An attempt takes the permit that it finds. -/
theorem owns_of_attempt {choice : Choice} {memory after : Memory} {pc moved : Pc} (attempts : pc.attempts = true)
    (free : memory.available = true) (stepped : step choice memory pc = some (after, moved)) : moved.owns = true := by
  cases pc with
  | tryLock | asyncStart | asyncTry =>
    have result := (ordinary_eq_some stepped).2
    simp only [attempt, free, if_true, Prod.mk.injEq] at result
    rw [result.2]
    rfl
  | _ => cases attempts

/-- **Mutual exclusion.** No two actors own the mutex; `ReleaseSemaphore` finds no permit there; an attempt that
fails does so while somebody else owns the mutex; and `state_` counts the registrations. -/
theorem win32EventMutex_exclusion (reached : (system Actor).Reachable state) :
    (∀ t u, (state.thread t).owns = true → (state.thread u).owns = true → t = u) ∧
      (∀ t, state.thread t = .release → state.memory.available = false) ∧
      (∀ t choice after, (state.thread t).attempts = true →
        (system Actor).next state (.step t choice) = some after → (after.thread t).owns = false →
        ∃ u, u ≠ t ∧ (state.thread u).owns = true) ∧
      state.memory.state = BitVec.ofNat 32 (2 * registrations state) := by
  have represented := represented_of_reachable reached
  have permit := represented.permit
  refine ⟨fun t u => eq_of_count_le_one (by unfold owners at permit; omega), ?_, ?_, represented.word⟩
  · intro t here
    exact represented.held_iff.mpr ⟨t, by rw [here]; rfl⟩
  · intro t choice after attempts taken failed
    obtain ⟨⟨memory, moved⟩, stepped, rfl⟩ := Option.map_eq_some_iff.mp taken
    simp only [Function.update_self] at failed
    have held : state.memory.available = false := by
      by_contra free
      rw [owns_of_attempt attempts (eq_true_of_ne_false free) stepped] at failed
      cases failed
    obtain ⟨u, owns⟩ := represented.held_iff.mp held
    refine ⟨u, ?_, owns⟩
    rintro rfl
    cases here : state.thread u with
    | tryLock | asyncStart | asyncTry =>
      rw [here] at owns
      cases owns
    | _ =>
      rw [here] at attempts
      cases attempts

/-- The first `try_lock` of actor 1's `async_acquire` fails while actor 0 owns the mutex. -/
theorem win32EventMutex_exclusion_held :
    ∃ state after, (system (Fin 2)).Reachable state ∧ (system (Fin 2)).next state (.step 1 .go) = some after ∧
      after.thread 1 = .guardAdd ∧ ∃ u, u ≠ 1 ∧ (state.thread u).owns = true := by
  obtain ⟨state, reached, computed⟩ := System.exists_reachable_of_run (system (Fin 2))
    [.call 0 (.tryLockUntil .steady), .step 0 .go, .step 0 .go, .step 0 .go, .call 1 .asyncAcquire]
    (fun state => decide (state.thread 1 = .asyncStart ∧ state.memory.available = false)) (by decide +kernel)
  obtain ⟨here, held⟩ := of_decide_eq_true computed
  have taken : (system (Fin 2)).next state (.step 1 .go) =
      some ⟨state.memory, Function.update state.thread 1 .guardAdd⟩ := by
    refine Program.next_step_eq ?_
    rw [here]
    simp only [program, step, ordinary, attempt, held, if_true, Bool.false_eq_true, if_false]
  have attempts : (state.thread 1).attempts = true := by
    rw [here]
    rfl
  have failed : Function.update state.thread 1 .guardAdd 1 = .guardAdd := Function.update_self ..
  exact ⟨state, _, reached, taken, failed,
    (win32EventMutex_exclusion reached).2.2.1 1 .go _ attempts taken (by simp only [failed]; rfl)⟩

/-! ### Notifications -/

/-- A notification is on its way: the event is set, an `unlock` will set it, or a handler has taken it and will
try to lock. -/
def Served (state : State Actor Memory Pc) : Prop :=
  state.memory.event = true ∨ ∃ t, (state.thread t).serves = true

instance (state : State Actor Memory Pc) : Decidable (Served state) := inferInstanceAs (Decidable (_ ∨ _))

/-- **A free mutex with a waiting operation has a notification on its way.** -/
def Attended (state : State Actor Memory Pc) : Prop :=
  state.memory.available = true → (∃ t, (state.thread t).waits = true) → Served state

/-- An asynchronous operation registers while the mutex is held, or with a notification on its way; and a handler
that gives up leaves nobody waiting for a free mutex without one. -/
def Heedful (state : State Actor Memory Pc) : Action Actor Op Choice → Prop
  | .step t choice =>
      (state.thread t = .guardAdd → state.memory.available = false ∨ Served state) ∧
      (state.thread t = .fired → choice = .interrupted → state.memory.available = false ∨
        state.memory.event = true ∨ (∃ u, u ≠ t ∧ (state.thread u).serves = true) ∨
        ∀ u, (state.thread u).waits = false)
  | .call _ _ | .wake _ _ => True

instance (state : State Actor Memory Pc) : DecidablePred (Heedful state)
  | .step _ _ => inferInstanceAs (Decidable (_ ∧ _))
  | .call _ _ | .wake _ _ => inferInstanceAs (Decidable True)

/-- With fewer than `2 ^ 31` registrations `unlock` sees that there is one. -/
theorem Represented.shifted (represented : Represented state) (few : Fintype.card Actor < 2 ^ 31)
    (registered : (state.thread t).registered = true) : state.memory.state >>> 1 ≠ 0 := by
  have positive : 0 < registrations state := count_pos registered
  have most : registrations state ≤ Fintype.card Actor := count_le_card _ _
  intro zero
  have shifted : state.memory.state.toNat / 2 = 0 := by
    have value := congrArg BitVec.toNat zero
    rw [BitVec.toNat_ushiftRight, Nat.shiftRight_eq_div_pow] at value
    exact value
  rw [represented.word, BitVec.toNat_ofNat, Nat.mod_eq_of_lt (by omega)] at shifted
  omega

/-- Somebody else serves, or the one who moved still does. -/
theorem serves_update (keeps : (state.thread t).serves = true → moved.serves = true)
    (serving : ∃ u, (state.thread u).serves = true) :
    ∃ u, (Function.update state.thread t moved u).serves = true := by
  obtain ⟨u, serves⟩ := serving
  by_cases same : u = t
  · subst same
    exact ⟨u, by rw [Function.update_self]; exact keeps serves⟩
  · exact ⟨u, by rw [Function.update_of_ne same]; exact serves⟩

/-- Who waits has waited, or is the one who moved. -/
theorem waits_of_update (waiting : ∃ u, (Function.update state.thread t moved u).waits = true) :
    moved.waits = true ∨ ∃ u, u ≠ t ∧ (state.thread u).waits = true := by
  obtain ⟨u, waits⟩ := waiting
  rcases update_cases Pc.waits waits with ⟨-, here⟩ | there
  · exact Or.inl here
  · exact Or.inr ⟨u, there⟩

theorem registered_of_waits {pc : Pc} (waits : pc.waits = true) : pc.registered = true := by
  cases pc <;> first | rfl | cases waits

theorem Attended.effect {choice : Choice} (attended : Attended state) (represented : Represented state)
    (few : Fintype.card Actor < 2 ^ 31) (heedful : Heedful state (.step t choice))
    (stepped : step choice state.memory (state.thread t) = some (memory, moved)) :
    Attended ⟨memory, Function.update state.thread t moved⟩ := by
  have stays : ∀ {after : Pc}, state.memory.available = true → (∃ u, (state.thread u).waits = true) →
      ((state.thread t).serves = true → after.serves = true) →
      Served ⟨state.memory, Function.update state.thread t after⟩ := by
    intro after free waiting keeps
    exact (attended free waiting).imp_right (serves_update keeps)
  intro free waiting
  cases step_effect stepped with
  | moves _ _ fresh keeps =>
    have held : state.memory.available ≠ false := fun held => by
      rw [held] at free
      cases free
    refine stays free ?_ fun serves => (keeps serves).resolve_right held
    rcases waits_of_update waiting with here | ⟨u, -, waits⟩
    · exact ⟨t, (fresh here).resolve_right held⟩
    · exact ⟨u, waits⟩
  | acquires => cases free
  | releases => exact Or.inr ⟨t, by simp only [Function.update_self]; rfl⟩
  | loads here =>
    refine Or.inr ⟨t, ?_⟩
    rcases waits_of_update waiting with fresh | ⟨u, -, waits⟩
    · split at fresh <;> cases fresh
    · simp only [Function.update_self, if_pos (represented.shifted few (registered_of_waits waits))]
      rfl
  | sets => exact Or.inl rfl
  | takes => exact Or.inr ⟨t, by simp only [Function.update_self]; rfl⟩
  | drains here =>
    have held : state.memory.available = false := represented.held_iff.mpr ⟨t, by rw [here]; rfl⟩
    rw [show state.memory.available = true from free] at held
    cases held
  | adds here =>
    rcases heedful.1 here with held | served
    · rw [show state.memory.available = true from free] at held
      cases held
    · refine served.imp_right (serves_update fun serves => ?_)
      rw [here] at serves
      cases serves
  | removes _ _ _ quiet leaves =>
    rcases waits_of_update waiting with here | ⟨u, -, waits⟩
    · rw [leaves] at here
      cases here
    · have served : Served state := attended free ⟨u, waits⟩
      refine served.imp_right (serves_update fun serves => ?_)
      rw [quiet] at serves
      cases serves
  | drops here =>
    have cancelled : choice = .interrupted := by
      rw [here] at stepped
      cases choice with
      | interrupted => rfl
      | go | spurious | expired | failed => cases stepped
    rcases heedful.2 here cancelled with held | set | ⟨u, other, serves⟩ | nobody
    · rw [show state.memory.available = true from free] at held
      cases held
    · exact Or.inl set
    · exact Or.inr ⟨u, by simp only [Function.update_of_ne other]; exact serves⟩
    · rcases waits_of_update waiting with fresh | ⟨u, -, waits⟩
      · cases fresh
      · rw [nobody u] at waits
        cases waits

theorem attended_of_reach (few : Fintype.card Actor < 2 ^ 31) (reached : (system Actor).Reach Heedful state) :
    Attended state := by
  have start : Attended (system Actor).start := by
    rintro - ⟨t, waits⟩
    cases waits
  refine reached.invariant start fun state action after before attended heedful taken => ?_
  rcases program_silent.next_cases taken with ⟨t, op, moved, rfl, called, rfl⟩ |
    ⟨t, choice, memory, moved, rfl, stepped, rfl⟩
  · obtain ⟨-, -, elsewhere, quiet⟩ := call_standing called
    intro free waiting
    rcases waits_of_update waiting with here | ⟨u, -, waits⟩
    · rw [elsewhere] at here
      cases here
    · refine (attended free ⟨u, waits⟩).imp_right (serves_update fun serves => ?_)
      rw [quiet] at serves
      cases serves
  · exact attended.effect (represented_of_reachable before.reachable) few heedful stepped

theorem quiet_of_outside {pc : Pc} (rests : pc.outside = true) : pc.serves = false := by
  cases pc <;> first | rfl | cases rests

/-- **An armed operation is notified of a free mutex**, where asynchronous operations register in time and cancelled
handlers leave nobody behind: with everybody else outside the mutex's operations or armed, the event is set. -/
theorem win32EventMutex_async_notified (few : Fintype.card Actor < 2 ^ 31)
    (reached : (system Actor).Reach Heedful state) {t : Actor} (armed : state.thread t = .armed)
    (free : state.memory.available = true) (outside : ∀ u, u ≠ t → (state.thread u).outside = true) :
    state.memory.event = true := by
  rcases attended_of_reach few reached free ⟨t, by rw [armed]; rfl⟩ with set | ⟨u, serves⟩
  · exact set
  · have rests : (state.thread u).outside = true := by
      by_cases same : u = t
      · rw [same, armed]
        rfl
      · exact outside u same
    rw [quiet_of_outside rests] at serves
    cases serves

/-- Actors 1 and 2 wait for actor 0. Actor 1 takes the event of its `unlock`, locks and unlocks, and the event is
set for actor 2. -/
theorem win32EventMutex_async_notified_second :
    ∃ state, (system (Fin 3)).Reach Heedful state ∧ state.thread 2 = .armed ∧ state.memory.added = 2 ∧
      state.memory.removed = 1 ∧ state.memory.event = true := by
  obtain ⟨state, reached, computed⟩ := System.exists_reach_of_run (system (Fin 3)) Heedful
    [.call 0 .lock, .step 0 .go, .call 1 .asyncAcquire, .step 1 .go, .step 1 .go, .step 1 .go,
      .call 2 .asyncAcquire, .step 2 .go, .step 2 .go, .step 2 .go, .call 0 .unlock, .step 0 .go, .step 0 .go,
      .step 0 .go, .step 1 .go, .step 1 .go, .step 1 .go, .step 1 .go, .step 1 .go, .call 1 .unlock, .step 1 .go,
      .step 1 .go, .step 1 .go]
    (fun state => decide (state.thread 2 = .armed ∧ state.memory.added = 2 ∧ state.memory.removed = 1 ∧
      state.memory.available = true ∧ ∀ u, u ≠ 2 → (state.thread u).outside = true)) (by decide +kernel)
  obtain ⟨armed, added, removed, free, outside⟩ := of_decide_eq_true computed
  exact ⟨state, reached, armed, added, removed,
    win32EventMutex_async_notified (by decide) reached armed free outside⟩

/-- The handler of actor 1 has taken the only notification when it finds itself cancelled: actor 2 stays armed on
a free mutex, with the event not set. -/
example : ((system (Fin 3)).run (system (Fin 3)).start
    [.call 0 .lock, .step 0 .go, .call 1 .asyncAcquire, .step 1 .go, .step 1 .go, .step 1 .go,
      .call 2 .asyncAcquire, .step 2 .go, .step 2 .go, .step 2 .go, .call 0 .unlock, .step 0 .go, .step 0 .go,
      .step 0 .go, .step 1 .go, .step 1 .interrupted, .step 1 .go]).any
    (fun state => state.thread 2 = .armed ∧ state.thread 0 = .idle ∧ state.thread 1 = .idle ∧
      state.memory.available = true ∧ state.memory.event = false) = true := by
  decide +kernel

end Runs

end NovaSync.Win32EventMutex
