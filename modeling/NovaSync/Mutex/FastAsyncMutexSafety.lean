/-
**The fast async mutexes: the word counts the registrations, and one actor owns the mutex.**

* `Represented` — `state_` is `2 * waiters + owners` modulo `2 ^ 32` with at most one owner, and every
  registration made is outstanding, was exchanged, or was removed. Every effect keeps it, whatever the
  kernel object does, for any number of actors; with fewer than `2 ^ 31` of them the sum does not wrap
  (`fastAsyncMutex_representation`).
* `Registration` — what a step does to the registration of the actor that takes it: it is kept, made, or
  given back in one of the two ways.
* `GivenBack` — that it is given back: a registration has a `Keeper`, who passes it on or gives it back, and
  a released or destroyed guard leaves `remove_async_waiter` as the next step.
-/

import NovaSync.Mutex.FastAsyncMutex

set_option linter.unusedSectionVars false

namespace NovaSync.FastAsyncMutex

open Concurrency Detail
open ParkingMutex (Word free_iff acquired_eq released_eq)

variable {Kernel Point Resolve : Type*} {backend : Backend Kernel Point Resolve} {start : Kernel}
variable {Actor : Type*} [DecidableEq Actor] [Fintype Actor]

/-- The registrations not yet given back, `R`. -/
def waiters (state : State Actor (Memory Kernel) (Pc Point)) : ℕ := count Pc.registered state.thread

/-- The actors that own the mutex, `L`. -/
def owners (state : State Actor (Memory Kernel) (Pc Point)) : ℕ := count Pc.holds state.thread

/-- **Everything an action can do**: it has an effect, which for a call is that the caller moves on. -/
theorem next_effect {state after : State Actor (Memory Kernel) (Pc Point)}
    {action : Action Actor Op Resolve}
    (taken : (system backend start Actor).next state action = some after) :
    ∃ memory moved, after = ⟨memory, Function.update state.thread action.mover moved⟩ ∧
      ((∃ op, action = .call action.mover op ∧ memory = state.memory ∧
        Moves state.memory.word (state.thread action.mover) moved) ∨
      ∃ resolve, action = .step action.mover resolve ∧
        Effect backend resolve state.memory (state.thread action.mover) memory moved) := by
  rcases (program_silent backend).next_cases taken with ⟨t, op, moved, rfl, called, result⟩ |
    ⟨t, resolve, memory, moved, rfl, stepped, result⟩
  · exact ⟨_, moved, result, Or.inl ⟨op, rfl, rfl, call_moves _ called⟩⟩
  · exact ⟨memory, moved, result, Or.inr ⟨resolve, rfl, step_effect stepped⟩⟩

/-! ### The registrations -/

/-- **What a step does to an actor's registration**: it is kept, made by `add_async_waiter`, given back by
the acquiring exchange, or given back by `remove_async_waiter`. -/
inductive Registration (memory after : Memory Kernel) (before now : Bool) : Prop
  | kept : now = before → after.added = memory.added → after.exchanged = memory.exchanged →
      after.removed = memory.removed → Registration memory after before now
  | added : before = false → now = true → after.added = memory.added + 1 →
      after.exchanged = memory.exchanged → after.removed = memory.removed →
      Registration memory after before now
  | exchanged : before = true → now = false → after.added = memory.added →
      after.exchanged = memory.exchanged + 1 → after.removed = memory.removed →
      Registration memory after before now
  | removed : before = true → now = false → after.added = memory.added →
      after.exchanged = memory.exchanged → after.removed = memory.removed + 1 →
      Registration memory after before now

theorem waited_standing (waiting : Waiting) (result : Point ⊕ Bool) :
    (waited backend waiting result).registered = true ∧
      (waited backend waiting result).holds = false := by
  have woken : (woken backend waiting).registered = true ∧ (woken backend waiting).holds = false := by
    unfold FastAsyncMutex.woken
    split <;> exact ⟨rfl, rfl⟩
  rcases result with next | _ | _
  · exact ⟨rfl, rfl⟩
  · cases waiting with
    | lock => exact woken
    | relative | deadline => exact ⟨rfl, rfl⟩
  · exact woken

theorem registration_of_effect {resolve : Resolve} {memory after : Memory Kernel} {pc moved : Pc Point}
    (effect : Effect backend resolve memory pc after moved) :
    Registration memory after pc.registered moved.registered := by
  cases effect with
  | moves inside => exact .kept inside.registered rfl rfl rfl
  | waits here =>
    rw [here]
    exact .kept (waited_standing _ _).1 rfl rfl rfl
  | consumeWoken here =>
    rw [here]
    exact .kept rfl rfl rfl rfl
  | consumeOwned here =>
    rw [here]
    exact .kept rfl rfl rfl rfl
  | @consumeAcquired active guard kernel here =>
    rw [here]
    cases active <;> exact .kept rfl rfl rfl rfl
  | @post guard here =>
    rw [here]
    exact .kept (rest_standing guard).1 rfl rfl rfl
  | acquire _ _ _ registered => exact .kept registered rfl rfl rfl
  | add registered _ _ registered' => exact .added registered registered' rfl rfl rfl
  | takeOver _ _ registered => exact .exchanged registered rfl rfl rfl rfl
  | remove registered _ registered' => exact .removed registered registered' rfl rfl rfl
  | @unlock guard here =>
    rw [here]
    exact .kept (unlocked_standing memory.word guard).1 rfl rfl rfl

/-! ### Who gives a registration back -/

/-- Who looks after the registration of an actor.

* `caller`: the caller of `add_async_waiter`, or of `dismiss` on a guard.
* `guard`: an active guard of the caller's.
* `operation`: the guard inside a waiting or an asynchronous operation.
* `leaving`: nobody any more; `remove_async_waiter` is the next step. -/
inductive Keeper
  | nobody
  | caller
  | guard
  | operation
  | leaving
deriving DecidableEq, Repr

def Caller.keeper : Caller → Keeper
  | .last | .asyncFired => .operation
  | .guard true => .guard
  | .guard false | .alone | .deadline _ | .asyncStart => .nobody

def Pc.keeper : Pc Point → Keeper
  | .acquireCas _ _ _ | .wait _ _ | .drainWoken _ | .reload _ | .arming | .armed | .fired => .operation
  | .acquireDrain true false => .operation
  | .tryLoad caller | .tryCas caller _ => caller.keeper
  | .guard true | .acquireDrain true true => .guard
  | .manual | .dismissed => .caller
  | .remove _ | .removeOwned _ => .leaving
  | _ => .nobody

/-- The keeper after a call: a guard adopts, is dismissed, or releases. -/
def Keeper.called : Op → Keeper → Keeper
  | .adopt, .caller => .guard
  | .dismiss, .guard => .caller
  | .release, .guard | .destroy, .guard | .removeAsyncWaiter, .caller => .leaving
  | _, keeper => keeper

/-- **How a step passes a registration on.** It is made, stays, or leaves; what an operation has kept goes with
the acquiring exchange, and what leaves goes with `remove_async_waiter`. -/
inductive Passes (memory after : Memory Kernel) : Keeper → Keeper → Prop
  | made {keeper : Keeper} : keeper ≠ .nobody → keeper ≠ .leaving → Passes memory after .nobody keeper
  | stays {keeper : Keeper} : keeper ≠ .caller → keeper ≠ .leaving → Passes memory after keeper keeper
  | leaves {keeper : Keeper} : keeper = .guard ∨ keeper = .operation → Passes memory after keeper .leaving
  | exchanged : after.exchanged = memory.exchanged + 1 → Passes memory after .operation .nobody
  | removed : after.removed = memory.removed + 1 → Passes memory after .leaving .nobody

section Keepers

variable {memory after : Memory Kernel} {pc moved : Pc Point}

theorem registered_iff_keeper (pc : Pc Point) : pc.registered = true ↔ pc.keeper ≠ .nobody := by
  have caller (caller : Caller) : caller.registered = true ↔ caller.keeper ≠ .nobody := by
    cases caller with
    | guard active => cases active <;> exact ⟨nofun, by decide⟩
    | alone | deadline | asyncStart => exact ⟨nofun, fun kept => absurd rfl kept⟩
    | last | asyncFired => exact ⟨nofun, fun _ => rfl⟩
  cases pc with
  | tryLoad attempting | tryCas attempting => exact caller attempting
  | guard active => cases active <;> simp [Pc.registered, Pc.keeper]
  | acquireDrain active guard => cases active <;> cases guard <;> simp [Pc.registered, Pc.keeper]
  | acquireCas | wait | drainWoken | reload | remove | removeOwned | manual | dismissed | arming | armed | fired =>
    exact ⟨nofun, fun _ => rfl⟩
  | _ => exact ⟨nofun, fun kept => absurd rfl kept⟩

theorem rest_keeper (guard : Bool) : (rest guard : Pc Point).keeper = .nobody := by
  cases guard <;> rfl

theorem park_keeper (waiting : Waiting) (polled : Bool) (s : Word) :
    (park backend waiting polled s).keeper = .operation := by
  unfold park
  split <;> rfl

theorem spinNext_keeper (waiting : Waiting) (s : Word) (loop : SpinLoop) :
    (spinNext waiting s loop : Pc Point).keeper = .nobody := by
  cases loop with
  | again state => rfl
  | returned success => cases success <;> rfl

theorem tryLockFor_keeper (positive : Bool) : (tryLockFor backend positive).keeper = .nobody := by
  unfold tryLockFor
  split
  · split <;> rfl
  · rfl

theorem waited_keeper (backend : Backend Kernel Point Resolve) (waiting : Waiting) (result : Point ⊕ Bool) :
    (waited backend waiting result).keeper = .operation ∨ (waited backend waiting result).keeper = .leaving := by
  have woken (waiting : Waiting) : (woken backend waiting).keeper = .operation := by
    unfold FastAsyncMutex.woken
    split <;> rfl
  rcases result with next | _ | _
  · exact Or.inl rfl
  · cases waiting with
    | lock => exact Or.inl (woken .lock)
    | relative => exact Or.inr rfl
    | deadline => exact Or.inl rfl
  · exact Or.inl (woken waiting)

/-- An attempt keeps its caller's registration, or is the last one of an operation and gives it up. -/
theorem attempt_keeper (backend : Backend Kernel Point Resolve) (caller : Caller) {place : Pc Point}
    (goes : place = tryFailed backend caller ∨ place = trySucceeded caller) :
    place.keeper = caller.keeper ∨ caller.keeper = .operation ∧ place.keeper = .leaving := by
  cases caller with
  | last => rcases goes with rfl | rfl <;> exact Or.inr ⟨rfl, rfl⟩
  | guard active => cases active <;> rcases goes with rfl | rfl <;> exact Or.inl rfl
  | deadline clock =>
    refine Or.inl ?_
    rcases goes with rfl | rfl
    · cases clock with
      | other => rfl
      | system | steady =>
        simp only [tryFailed]
        split <;> rfl
    · rfl
  | alone | asyncStart | asyncFired => rcases goes with rfl | rfl <;> exact Or.inl rfl

theorem Caller.keeper_ne (caller : Caller) : caller.keeper ≠ .caller ∧ caller.keeper ≠ .leaving := by
  cases caller with
  | guard active => cases active <;> exact ⟨nofun, nofun⟩
  | _ => exact ⟨nofun, nofun⟩

theorem passes_attempt (backend : Backend Kernel Point Resolve) (caller : Caller)
    (goes : moved = tryFailed backend caller ∨ moved = trySucceeded caller) :
    Passes memory after caller.keeper moved.keeper := by
  rcases attempt_keeper backend caller goes with same | ⟨kept, left⟩
  · rw [same]
    exact .stays caller.keeper_ne.1 caller.keeper_ne.2
  · rw [kept, left]
    exact .leaves (Or.inr rfl)

theorem passes_tryLoop (caller : Caller) (s : Word) :
    Passes memory after caller.keeper (tryLoop backend caller s).keeper := by
  unfold tryLoop
  split
  · exact .stays caller.keeper_ne.1 caller.keeper_ne.2
  · exact passes_attempt backend caller (Or.inl rfl)

/-- What leaves is removed. -/
theorem Passes.removed_of_leaving {keeper : Keeper} (passes : Passes memory after .leaving keeper) :
    keeper = .nobody ∧ after.removed = memory.removed + 1 := by
  cases passes with
  | stays _ elsewhere => exact absurd rfl elsewhere
  | leaves here => rcases here with here | here <;> cases here
  | removed once => exact ⟨rfl, once⟩

/-- `add_async_waiter` has made a registration. -/
theorem passes_made {keeper : Keeper} (kept : keeper = .caller ∨ keeper = .guard ∨ keeper = .operation) :
    Passes memory after .nobody keeper := by
  rcases kept with rfl | rfl | rfl <;> exact .made nofun nofun

/-- An operation goes on, with its guard or without one yet. -/
theorem passes_same {keeper : Keeper} (kept : keeper = .nobody ∨ keeper = .operation) :
    Passes memory after keeper keeper := by
  rcases kept with rfl | rfl <;> exact .stays nofun nofun

theorem passes_nobody (before : pc.keeper = .nobody) (now : moved.keeper = .nobody) :
    Passes memory after pc.keeper moved.keeper := by
  rw [before, now]
  exact passes_same (Or.inl rfl)

theorem passes_operation (before : pc.keeper = .operation) (now : moved.keeper = .operation) :
    Passes memory after pc.keeper moved.keeper := by
  rw [before, now]
  exact passes_same (Or.inr rfl)

theorem kernelStep_passes {resolve : Resolve}
    (stepped : kernelStep backend resolve memory pc = some (after, moved)) :
    Passes memory after pc.keeper moved.keeper := by
  cases pc with
  | wait waiting point =>
    obtain ⟨⟨kernel, result⟩, -, same⟩ := Option.map_eq_some_iff.mp stepped
    cases same
    rcases waited_keeper backend waiting result with stays | leaves
    · exact passes_operation rfl stays
    · rw [leaves]
      exact .leaves (Or.inr rfl)
  | drainWoken waiting =>
    obtain ⟨kernel, -, same⟩ := Option.map_eq_some_iff.mp stepped
    cases same
    exact passes_operation rfl rfl
  | drainOwned =>
    obtain ⟨kernel, -, same⟩ := Option.map_eq_some_iff.mp stepped
    cases same
    exact passes_nobody rfl rfl
  | acquireDrain active guard =>
    obtain ⟨kernel, -, same⟩ := Option.map_eq_some_iff.mp stepped
    cases same
    cases active with
    | false => exact passes_nobody rfl rfl
    | true =>
      cases guard with
      | false => exact .leaves (Or.inr rfl)
      | true => exact .leaves (Or.inl rfl)
  | _ => cases stepped

theorem atomicStep_passes {choice : Choice} (stepped : atomicStep backend choice memory pc = some (after, moved)) :
    Passes memory after pc.keeper moved.keeper := by
  cases pc with
  | wait | drainWoken | drainOwned | acquireDrain => cases stepped
  | idle | owner | manual | guard | dismissed => cases stepped
  | lockCas =>
    rcases compareExchangeWeak_cases stepped with ⟨-, -, result⟩ | ⟨-, result⟩ <;> cases result <;>
      exact passes_nobody rfl rfl
  | forCas =>
    rcases compareExchangeWeak_cases stepped with ⟨-, -, result⟩ | ⟨-, result⟩ <;> cases result <;>
      exact passes_nobody rfl rfl
  | spinLoad waiting =>
    cases (ordinary_eq_some stepped).2
    exact passes_nobody rfl rfl
  | spin waiting s state =>
    simp only [atomicStep] at stepped
    split at stepped
    · rcases compareExchangeWeak_cases stepped with ⟨-, -, result⟩ | ⟨-, result⟩ <;> cases result <;>
        exact passes_nobody rfl (spinNext_keeper _ _ _)
    · cases (ordinary_eq_some stepped).2
      exact passes_nobody rfl (spinNext_keeper _ _ _)
  | relative =>
    cases choice with
    | go | expired =>
      cases stepped
      exact passes_nobody rfl (tryLockFor_keeper _)
    | _ => cases stepped
  | register waiting =>
    cases (ordinary_eq_some stepped).2
    rw [park_keeper]
    exact passes_made (Or.inr (Or.inr rfl))
  | acquireCas waiting polled s =>
    rcases compareExchangeWeak_cases stepped with ⟨-, -, result⟩ | ⟨-, result⟩ <;> cases result
    · exact .exchanged rfl
    · exact passes_operation rfl (park_keeper _ _ _)
  | reload waiting =>
    cases (ordinary_eq_some stepped).2
    exact passes_operation rfl (park_keeper _ _ _)
  | tryLoad caller =>
    cases (ordinary_eq_some stepped).2
    exact passes_tryLoop caller memory.word
  | tryCas caller s =>
    rcases compareExchangeWeak_cases stepped with ⟨-, -, result⟩ | ⟨-, result⟩ <;> cases result
    · exact passes_attempt backend caller (Or.inr rfl)
    · exact passes_tryLoop caller memory.word
  | remove guard =>
    cases (ordinary_eq_some stepped).2
    rw [rest_keeper]
    exact .removed rfl
  | removeOwned guard =>
    cases (ordinary_eq_some stepped).2
    exact .removed rfl
  | unlock guard =>
    cases (ordinary_eq_some stepped).2
    refine passes_nobody rfl ?_
    split
    · rfl
    · exact rest_keeper guard
  | post guard =>
    cases (ordinary_eq_some stepped).2
    exact passes_nobody rfl (rest_keeper guard)
  | manualAdd =>
    cases (ordinary_eq_some stepped).2
    exact passes_made (Or.inl rfl)
  | guardAdd async =>
    cases (ordinary_eq_some stepped).2
    cases async with
    | true => exact passes_made (Or.inr (Or.inr rfl))
    | false => exact passes_made (Or.inr (Or.inl rfl))
  | arming =>
    cases (ordinary_eq_some stepped).2
    exact passes_operation rfl rfl
  | armed =>
    cases choice with
    | go =>
      simp only [atomicStep] at stepped
      split at stepped
      · cases stepped
        exact passes_operation rfl rfl
      · cases stepped
    | interrupted =>
      cases stepped
      exact .leaves (Or.inr rfl)
    | _ => cases stepped
  | fired =>
    cases choice with
    | go =>
      cases stepped
      exact passes_operation rfl rfl
    | interrupted =>
      cases stepped
      exact .leaves (Or.inr rfl)
    | _ => cases stepped

/-- **Every step passes the registration on.** -/
theorem step_passes {resolve : Resolve} (stepped : step backend resolve memory pc = some (after, moved)) :
    Passes memory after pc.keeper moved.keeper := by
  rcases Option.or_eq_some_iff.mp stepped with atomic | ⟨-, called⟩
  · obtain ⟨choice, -, taken⟩ := Option.bind_eq_some_iff.mp atomic
    exact atomicStep_passes taken
  · exact kernelStep_passes called

theorem call_keeper {op : Op} (called : call backend op pc = some moved) : moved.keeper = pc.keeper.called op := by
  unfold call at called
  split at called
  case h_3 positive =>
    cases called
    exact tryLockFor_keeper positive
  case h_11 active | h_12 active | h_13 active | h_14 active =>
    cases called
    cases active <;> rfl
  all_goals
    cases called
    try rfl

/-- A registration that is leaving goes by the next step. -/
theorem step_leaving (memory : Memory Kernel) {resolve : Resolve} (leaving : pc.keeper = .leaving)
    (atomic : backend.atomic resolve = some .go) :
    ∃ after moved, step backend resolve memory pc = some (after, moved) := by
  cases pc with
  | remove guard => exact ⟨memory.remove, rest guard, by simp only [step, atomic]; rfl⟩
  | removeOwned guard => exact ⟨memory.remove, .owner guard, by simp only [step, atomic]; rfl⟩
  | tryLoad caller | tryCas caller => exact absurd leaving caller.keeper_ne.2
  | guard active => cases active <;> cases leaving
  | acquireDrain active guard => cases active <;> cases guard <;> cases leaving
  | _ => cases leaving

end Keepers

/-- **Every registration is given back.**

* `counted`: who is registered has a keeper for it.
* `called`, `passes`: the keeper hands it on as the calls and the steps say; nobody else loses one.
* `released`: the guard can be released and destroyed, and then no longer has it.
* `leaves`: what is leaving can go, and goes by nothing but `remove_async_waiter`.
* `returned`: an operation does not return to its caller before it has given its registration back. -/
structure GivenBack (backend : Backend Kernel Point Resolve) (start : Kernel)
    (state : State Actor (Memory Kernel) (Pc Point)) : Prop where
  counted : ∀ t, (state.thread t).registered = true ↔ (state.thread t).keeper ≠ .nobody
  called : ∀ t op after, (system backend start Actor).next state (.call t op) = some after →
    (after.thread t).keeper = (state.thread t).keeper.called op
  passes : ∀ t resolve after, (system backend start Actor).next state (.step t resolve) = some after →
    Passes state.memory after.memory (state.thread t).keeper (after.thread t).keeper
  released : ∀ t op, state.thread t = .guard true → op = .release ∨ op = .destroy →
    ∃ after, (system backend start Actor).next state (.call t op) = some after ∧
      (after.thread t).keeper = .leaving
  leaves : ∀ t resolve, (state.thread t).keeper = .leaving → backend.atomic resolve = some .go →
    ∃ after, (system backend start Actor).next state (.step t resolve) = some after ∧
      after.memory.removed = state.memory.removed + 1 ∧ (after.thread t).registered = false
  returned : ∀ t, (state.thread t).keeper = .operation → (state.thread t).outside = true →
    state.thread t = .arming ∨ state.thread t = .armed ∨ state.thread t = .fired

theorem givenBack (backend : Backend Kernel Point Resolve) (start : Kernel)
    (state : State Actor (Memory Kernel) (Pc Point)) : GivenBack backend start state where
  counted t := registered_iff_keeper _
  called t op after taken := by
    obtain ⟨moved, called, rfl⟩ := Option.map_eq_some_iff.mp taken
    simp only [Function.update_self]
    exact call_keeper called
  passes t resolve after taken := by
    obtain ⟨⟨memory, moved⟩, stepped, rfl⟩ := Option.map_eq_some_iff.mp taken
    simp only [Function.update_self]
    exact step_passes stepped
  released t op here ends := by
    have called : ∃ guard, call backend op (state.thread t) = some (.remove guard) := by
      rw [here]
      rcases ends with rfl | rfl
      · exact ⟨true, rfl⟩
      · exact ⟨false, rfl⟩
    obtain ⟨guard, called⟩ := called
    refine ⟨_, Program.next_call_eq called, ?_⟩
    simp only [Function.update_self]
    rfl
  leaves t resolve leaving atomic := by
    obtain ⟨memory, moved, stepped⟩ := step_leaving state.memory leaving atomic
    refine ⟨_, Program.next_step_eq stepped, ?_⟩
    have passes := step_passes stepped
    rw [leaving] at passes
    obtain ⟨gone, once⟩ := passes.removed_of_leaving
    simp only [Function.update_self]
    exact ⟨once, Bool.eq_false_iff.mpr fun kept => (registered_iff_keeper moved).mp kept gone⟩
  returned t keeps rests := by
    cases here : state.thread t with
    | arming => exact Or.inl rfl
    | armed => exact Or.inr (Or.inl rfl)
    | fired => exact Or.inr (Or.inr rfl)
    | guard active =>
      rw [here] at keeps
      cases active <;> cases keeps
    | idle | owner | manual | dismissed =>
      rw [here] at keeps
      cases keeps
    | _ =>
      rw [here] at rests
      cases rests

/-! ### The representation -/

/-- **What `state_` represents**, modulo the width of the word, and where the registrations are. -/
structure Represented (state : State Actor (Memory Kernel) (Pc Point)) : Prop where
  word : state.memory.word.toNat = (2 * waiters state + owners state) % 2 ^ 32
  single : owners state ≤ 1
  ledger : state.memory.added = state.memory.exchanged + state.memory.removed + waiters state

section Represented

variable {state : State Actor (Memory Kernel) (Pc Point)}

theorem Represented.held_iff (represented : Represented state) :
    state.memory.word &&& 1 ≠ 0 ↔ owners state = 1 := by
  obtain ⟨word, single, -⟩ := represented
  rw [Ne, free_iff]
  omega

/-- The ledger follows the actor's registration. -/
theorem ledger_of_registration {t : Actor} {memory : Memory Kernel} {moved : Pc Point}
    (ledger : state.memory.added = state.memory.exchanged + state.memory.removed + waiters state)
    (registration : Registration state.memory memory (state.thread t).registered moved.registered) :
    memory.added = memory.exchanged + memory.removed +
      count Pc.registered (Function.update state.thread t moved) := by
  have change := count_update Pc.registered state.thread t moved
  rw [← waiters] at change
  cases registration with
  | kept same added exchanged removed =>
    rw [same] at change
    omega
  | added before now added exchanged removed =>
    rw [before, now, Bool.toNat_false, Bool.toNat_true] at change
    omega
  | exchanged before now added exchanged removed =>
    rw [before, now, Bool.toNat_false, Bool.toNat_true] at change
    omega
  | removed before now added exchanged removed =>
    rw [before, now, Bool.toNat_false, Bool.toNat_true] at change
    omega

/-- A step that leaves the word and the actor's standing. -/
theorem word_of_same {t : Actor} {moved : Pc Point}
    (represented : Represented state) (registered : moved.registered = (state.thread t).registered)
    (holds : moved.holds = (state.thread t).holds) :
    state.memory.word.toNat = (2 * count Pc.registered (Function.update state.thread t moved) +
        count Pc.holds (Function.update state.thread t moved)) % 2 ^ 32 ∧
      count Pc.holds (Function.update state.thread t moved) ≤ 1 := by
  rw [count_update_same registered, count_update_same holds]
  exact ⟨represented.word, represented.single⟩

/-- **One step of one actor.** -/
theorem Represented.effect (represented : Represented state) {t : Actor} {resolve : Resolve}
    {memory : Memory Kernel} {moved : Pc Point}
    (effect : Effect backend resolve state.memory (state.thread t) memory moved) :
    Represented ⟨memory, Function.update state.thread t moved⟩ := by
  have ledger := ledger_of_registration represented.ledger (registration_of_effect effect)
  suffices numbers : memory.word.toNat =
      (2 * count Pc.registered (Function.update state.thread t moved) +
        count Pc.holds (Function.update state.thread t moved)) % 2 ^ 32 ∧
      count Pc.holds (Function.update state.thread t moved) ≤ 1 from
    ⟨numbers.1, numbers.2, ledger⟩
  have parity := represented.held_iff
  have ⟨same, single, _⟩ := represented
  unfold waiters owners at same
  unfold owners at parity single
  cases effect with
  | moves inside => exact word_of_same represented inside.registered inside.holds
  | waits here =>
    refine word_of_same represented ?_ ?_
    · rw [here]
      exact (waited_standing _ _).1
    · rw [here]
      exact (waited_standing _ _).2
  | consumeWoken here | consumeOwned here =>
    exact word_of_same represented (by rw [here]; rfl) (by rw [here]; rfl)
  | @consumeAcquired active guard kernel here =>
    refine word_of_same represented ?_ ?_ <;> rw [here] <;> cases active <;> rfl
  | @post guard here =>
    obtain ⟨registered, holds, -⟩ := @rest_standing Point guard
    exact word_of_same represented (by rw [here]; exact registered) (by rw [here]; exact holds)
  | acquire free holds holds' registered =>
    rw [count_update_same registered, count_update_enter holds holds']
    rw [free_iff] at free
    bv_omega
  | add registered holds _ registered' holds' =>
    rw [count_update_enter registered registered', count_update_same (holds'.trans holds.symm)]
    simp only [Memory.add]
    bv_omega
  | takeOver word free registered holds =>
    have fewer : count Pc.registered (Function.update state.thread t .drainOwned) + 1 =
        count Pc.registered state.thread := count_update_leave registered rfl
    rw [count_update_enter holds rfl]
    simp only [Memory.exchange]
    rw [acquired_eq free, ← word]
    rw [← word, free_iff] at free
    bv_omega
  | remove registered _ registered' holds =>
    have fewer := count_update_leave registered registered'
    rw [count_update_same holds]
    simp only [Memory.remove]
    bv_omega
  | @unlock guard here =>
    obtain ⟨registered, free⟩ := @unlocked_standing Point state.memory.word guard
    have held : (state.thread t).holds = true := by
      rw [here]
      rfl
    have positive : 0 < count Pc.holds state.thread := count_pos held
    have fewer := count_update_leave held free
    have odd : state.memory.word &&& 1 ≠ 0 := parity.mpr (by omega)
    rw [count_update_same (registered.trans (by rw [here]; rfl))]
    simp only [released_eq odd]
    rw [Ne, free_iff] at odd
    bv_omega

end Represented

theorem represented_of_reachable {state : State Actor (Memory Kernel) (Pc Point)}
    (reached : (system backend start Actor).Reachable state) : Represented state := by
  refine reached.invariant ?_ fun state action after _ represented _ taken => ?_
  · have none : waiters (system backend start Actor).start = 0 := count_const rfl
    have free : owners (system backend start Actor).start = 0 := count_const rfl
    refine ⟨?_, ?_, ?_⟩
    · rw [none, free]
      rfl
    · rw [free]
      exact Nat.zero_le 1
    · rw [none]
      rfl
  · obtain ⟨memory, moved, rfl, ⟨op, -, rfl, inside⟩ | ⟨resolve, -, effect⟩⟩ := next_effect taken
    · obtain ⟨word, single⟩ := word_of_same represented inside.registered inside.holds
      exact ⟨word, single, ledger_of_registration represented.ledger
        (.kept inside.registered rfl rfl rfl)⟩
    · exact represented.effect effect

/-- The count of the owners is one exactly when one actor owns the mutex. -/
theorem owners_eq_one_iff {state : State Actor (Memory Kernel) (Pc Point)}
    (represented : Represented state) :
    owners state = 1 ↔ ∃! t, (state.thread t).holds = true := by
  constructor
  · intro single
    obtain ⟨t, holds⟩ := exists_of_count_pos (show 0 < owners state by omega)
    exact ⟨t, holds, fun u other => eq_of_count_le_one represented.single other holds⟩
  · rintro ⟨t, holds, -⟩
    have positive : 0 < owners state := count_pos holds
    have single := represented.single
    omega

/-- **Representation and mutual exclusion**, for both kernel objects. With fewer than `2 ^ 31` actors
`state_ = 2 * R + L`, where `L` is one when exactly one actor owns the mutex and zero when none does,
and `R` counts the registrations not yet given back; and a step makes, keeps or gives back the
registration of the actor that takes it, and touches nobody else's: it is given back once, by the
acquiring exchange or by `remove_async_waiter`, and is not forgotten: a released or destroyed guard, an
attempt that succeeds and an operation that fails all lead to the one or the other. -/
theorem fastAsyncMutex_representation (few : Fintype.card Actor < 2 ^ 31)
    {state : State Actor (Memory Kernel) (Pc Point)}
    (reached : (system backend start Actor).Reachable state) :
    state.memory.word.toNat = 2 * waiters state + owners state ∧
    owners state ≤ 1 ∧ (owners state = 1 ↔ ∃! t, (state.thread t).holds = true) ∧
    state.memory.added = state.memory.exchanged + state.memory.removed + waiters state ∧
    (∀ action after, (system backend start Actor).next state action = some after →
      Registration state.memory after.memory (state.thread action.mover).registered
          (after.thread action.mover).registered ∧
        ∀ u, u ≠ action.mover → (after.thread u).registered = (state.thread u).registered) ∧
    GivenBack backend start state := by
  have represented := represented_of_reachable reached
  have bound : waiters state ≤ Fintype.card Actor := count_le_card _ _
  have ⟨word, single, ledger⟩ := represented
  refine ⟨?_, single, owners_eq_one_iff represented, ledger, fun action after taken => ?_,
    givenBack backend start state⟩
  · rw [word]
    omega
  · obtain ⟨memory, moved, rfl, effect⟩ := next_effect taken
    refine ⟨?_, fun u other => ?_⟩
    · simp only [Function.update_self]
      rcases effect with ⟨op, -, rfl, inside⟩ | ⟨resolve, -, effect⟩
      · exact .kept inside.registered rfl rfl rfl
      · exact registration_of_effect effect
    · simp only [Function.update_of_ne other]

/-- Actor 0 owns the mutex, actor 1 waits in `try_lock_for` and actor 2 holds a guard, which it can release. -/
theorem fastAsyncMutex_representation_contended :
    ∃ state after, (system eventfd 0 (Fin 3)).Reachable state ∧ state.memory.word = 5 ∧
      2 * waiters state + owners state = 5 ∧ owners state ≤ 1 ∧
      (system eventfd 0 (Fin 3)).next state (.call 2 .release) = some after ∧
      (after.thread 2).keeper = .leaving := by
  obtain ⟨state, reached, contended⟩ := System.exists_reachable_of_run (system eventfd 0 (Fin 3))
    [.call 0 .lock, .step 0 .go, .call 1 (.tryLockFor true), .step 1 .go, .call 2 .construct,
      .step 2 .go]
    (fun state => decide (state.memory.word = 5 ∧ state.thread 2 = .guard true)) (by decide +kernel)
  obtain ⟨word, guards⟩ := of_decide_eq_true contended
  obtain ⟨sum, single, -, -, -, given⟩ := fastAsyncMutex_representation (by decide) reached
  obtain ⟨after, taken, leaving⟩ := given.released 2 .release guards (Or.inl rfl)
  rw [word] at sum
  exact ⟨state, after, reached, word, sum.symm, single, taken, leaving⟩

/-- The same on a kqueue: actor 1 times out in its `kevent_for` and gives its registration back. -/
example : ∃ state, (system kqueue {} (Fin 2)).Reachable state ∧ state.memory.word = 1 ∧
    state.memory.added = 1 ∧ state.memory.removed = 1 := by
  obtain ⟨state, reached, left⟩ := System.exists_reachable_of_run (system kqueue {} (Fin 2))
    [.call 0 .lock, .step 0 (.inl .go), .call 1 (.tryLockFor true), .step 1 (.inl .go),
      .step 1 (.inl .go), .step 1 (.inr .expired), .step 1 (.inl .go)]
    (fun state => decide (state.memory.word = 1 ∧ state.memory.added = 1 ∧ state.memory.removed = 1))
    (by decide +kernel)
  exact ⟨state, reached, of_decide_eq_true left⟩

end NovaSync.FastAsyncMutex
